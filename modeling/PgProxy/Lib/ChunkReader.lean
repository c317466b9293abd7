import Mathlib.Data.List.Basic

/-!
# Readers that deliver their data in chunks

A reader is the list of chunks its successive reads can draw from, and the
error every read reports once the chunks are used up. One read never crosses a
chunk boundary, and `pull` repeats reads until a buffer is full. What they deliver
depends on the concatenation of the chunks only, so a result proved here holds for
every chunking of a stream. `weight` bounds the number of reads still to come.
-/

namespace PgProxy
set_option autoImplicit false

universe u v
variable {α : Type u} {ε : Type v}

structure ChunkReader (α : Type u) (ε : Type v) where
  chunks : List (List α)
  fin : ε

namespace ChunkReader

def stream (r : ChunkReader α ε) : List α := r.chunks.flatten

/-- Reads repeated until `n` elements have arrived or the chunks run out. -/
def pullChunks (n : Nat) : List (List α) → List α × List (List α)
  | [] => ([], [])
  | c :: cs =>
    if n = 0 then ([], c :: cs)
    else if c.length ≤ n then
      let rest := pullChunks (n - c.length) cs
      (c ++ rest.1, rest.2)
    else (c.take n, c.drop n :: cs)

def pull (n : Nat) (r : ChunkReader α ε) : List α × ChunkReader α ε :=
  ((pullChunks n r.chunks).1, { r with chunks := (pullChunks n r.chunks).2 })

/-- One read into a buffer of the given size, or nothing at the end of the chunks. -/
def read (size : Nat) (r : ChunkReader α ε) : Option (List α × ChunkReader α ε) :=
  match r.chunks with
  | [] => none
  | c :: cs =>
    some (c.take size,
      { r with chunks := if c.length ≤ size then cs else c.drop size :: cs })

theorem pullChunks_spec (n : Nat) (cs : List (List α)) :
    (pullChunks n cs).1 = cs.flatten.take n ∧
    (pullChunks n cs).2.flatten = cs.flatten.drop n := by
  induction cs generalizing n with
  | nil => simp [pullChunks]
  | cons c cs ih =>
    rw [pullChunks]
    split
    · rename_i hn
      subst n
      simp
    · split
      · rename_i hc
        obtain ⟨htake, hdrop⟩ := ih (n - c.length)
        constructor
        · simp only [List.flatten_cons, htake, List.take_append]
          rw [List.take_of_length_le hc]
        · simp only [List.flatten_cons, hdrop, List.drop_append]
          rw [List.drop_eq_nil_of_le hc, List.nil_append]
      · rename_i hc
        have hle : n ≤ c.length := by omega
        constructor
        · simp only [List.flatten_cons, List.take_append_of_le_length hle]
        · simp only [List.flatten_cons, List.drop_append_of_le_length hle]

@[simp] theorem pull_fst (n : Nat) (r : ChunkReader α ε) :
    (r.pull n).1 = r.stream.take n := (pullChunks_spec n r.chunks).1

@[simp] theorem pull_snd_stream (n : Nat) (r : ChunkReader α ε) :
    (r.pull n).2.stream = r.stream.drop n := (pullChunks_spec n r.chunks).2

theorem read_stream {size : Nat} {r r' : ChunkReader α ε} {piece : List α}
    (h : r.read size = some (piece, r')) : r.stream = piece ++ r'.stream := by
  obtain ⟨chunks, fin⟩ := r
  cases chunks with
  | nil => simp [read] at h
  | cons c cs =>
    simp only [read, Option.some.injEq, Prod.mk.injEq] at h
    obtain ⟨rfl, rfl⟩ := h
    split
    · rename_i hc
      simp [stream, List.take_of_length_le hc]
    · simp only [stream, List.flatten_cons, ← List.append_assoc, List.take_append_drop]

theorem read_fin {size : Nat} {r r' : ChunkReader α ε} {piece : List α}
    (h : r.read size = some (piece, r')) : r'.fin = r.fin := by
  unfold read at h
  split at h
  · simp at h
  · simp only [Option.some.injEq, Prod.mk.injEq] at h
    obtain ⟨-, rfl⟩ := h
    rfl

theorem pullChunks_lengths {n : Nat} {cs ds : List (List α)}
    (h : cs.map List.length = ds.map List.length) :
    (pullChunks n cs).2.map List.length = (pullChunks n ds).2.map List.length := by
  induction cs generalizing n ds with
  | nil =>
    rw [List.map_nil] at h
    rw [List.map_eq_nil_iff.mp h.symm]
  | cons c cs ih =>
    cases ds with
    | nil => simp at h
    | cons d ds =>
      rw [List.map_cons, List.map_cons, List.cons.injEq] at h
      obtain ⟨hlen, hrest⟩ := h
      simp only [pullChunks, hlen]
      split
      · simp [hlen, hrest]
      · split
        · exact ih hrest
        · simp [hlen, hrest]

/-- A chunk counts for itself and for its elements, since it may be empty. -/
def weight (r : ChunkReader α ε) : Nat := r.stream.length + r.chunks.length

theorem pullChunks_length_le (n : Nat) (cs : List (List α)) :
    (pullChunks n cs).2.length ≤ cs.length := by
  induction cs generalizing n with
  | nil => exact Nat.le_refl _
  | cons c cs ih =>
    rw [pullChunks]
    split
    · exact Nat.le_refl _
    · split
      · exact Nat.le_trans (ih _) (Nat.le_succ _)
      · exact Nat.le_refl _

theorem weight_pull (n : Nat) (r : ChunkReader α ε) :
    (r.pull n).2.weight + (r.stream.take n).length ≤ r.weight := by
  have hchunks := pullChunks_length_le n r.chunks
  simp only [weight, pull_snd_stream, List.length_drop, List.length_take]
  have hr : (r.pull n).2.chunks.length ≤ r.chunks.length := hchunks
  omega

theorem weight_read {size : Nat} (hsize : 0 < size) {r r' : ChunkReader α ε} {piece : List α}
    (h : r.read size = some (piece, r')) : r'.weight < r.weight := by
  obtain ⟨chunks, fin⟩ := r
  cases chunks with
  | nil => simp [read] at h
  | cons c cs =>
    simp only [read, Option.some.injEq, Prod.mk.injEq] at h
    obtain ⟨-, rfl⟩ := h
    simp only [weight, stream]
    split
    · simp only [List.flatten_cons, List.length_append, List.length_cons]
      omega
    · simp only [List.flatten_cons, List.length_append, List.length_cons, List.length_drop]
      omega

theorem stream_of_read_none {size : Nat} {r : ChunkReader α ε} (h : r.read size = none) :
    r.stream = [] := by
  unfold read at h
  split at h
  · rename_i hr
    simp [stream, hr]
  · simp at h

end ChunkReader
end PgProxy
