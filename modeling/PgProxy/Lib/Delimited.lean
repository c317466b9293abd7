import Mathlib.Data.List.Basic

/-!
# Lists cut at a delimiter

A list that holds a delimiter is the part before its first occurrence, the delimiter
and a rest, in exactly one way. Strings that are free of a delimiter can therefore be
joined with it and taken apart again.
-/

namespace PgProxy
set_option autoImplicit false

namespace Delimited

universe u
variable {α : Type u} {d : α}

theorem cut_unique {s s' rest rest' : List α} (hs : d ∉ s) (hs' : d ∉ s')
    (h : s ++ d :: rest = s' ++ d :: rest') : s = s' ∧ rest = rest' := by
  induction s generalizing s' with
  | nil =>
    cases s' with
    | nil => exact ⟨rfl, (List.cons.inj h).2⟩
    | cons x s' =>
      have hx : d = x := (List.cons.inj h).1
      exact absurd (hx ▸ List.mem_cons_self) hs'
  | cons y s ih =>
    cases s' with
    | nil =>
      have hy : y = d := (List.cons.inj h).1
      exact absurd (hy ▸ List.mem_cons_self) hs
    | cons x s' =>
      obtain ⟨hyx, htail⟩ := List.cons.inj h
      rw [List.mem_cons, not_or] at hs hs'
      obtain ⟨hss, hrest⟩ := ih hs.2 hs'.2 htail
      exact ⟨by rw [hyx, hss], hrest⟩

variable [BEq α] [LawfulBEq α]

theorem notMem_take_idxOf (l : List α) : d ∉ l.take (l.idxOf d) := by
  induction l with
  | nil => simp
  | cons x l ih =>
    by_cases hx : x = d
    · simp [hx]
    · rw [List.idxOf_cons_ne _ hx, List.take_succ_cons, List.mem_cons, not_or]
      exact ⟨fun h => hx h.symm, ih⟩

theorem take_idxOf_append_drop {l : List α} (h : l.idxOf d ≠ l.length) :
    l = l.take (l.idxOf d) ++ d :: l.drop (l.idxOf d + 1) := by
  have hlt : l.idxOf d < l.length := by
    have := List.idxOf_le_length (a := d) (l := l)
    omega
  have hget : l[l.idxOf d] = d := List.getElem_idxOf hlt
  calc l = l.take (l.idxOf d) ++ l.drop (l.idxOf d) := (List.take_append_drop _ _).symm
    _ = _ := by rw [List.drop_eq_getElem_cons hlt, hget]

theorem idxOf_append {s : List α} (hs : d ∉ s) (rest : List α) :
    (s ++ d :: rest).idxOf d = s.length := by
  rw [List.idxOf_append_of_notMem hs, List.idxOf_cons_self, Nat.add_zero]

end Delimited
end PgProxy
