import Mathlib.Data.Finmap
import PgProxy.Lib.BigEndian
import PgProxy.Lib.ChunkReader

/-!
# The Go runtime the gateway is written against

Strings are byte strings, compared byte by byte. A map is a finite map. An error
is a tree whose leaves are sentinels, API status errors or other texts, and whose
inner nodes are the `%w` verbs of `fmt.Errorf`. Only the quoting verb `%q` stays
abstract, because it consults Unicode tables.
-/

namespace PgProxy
set_option autoImplicit false

abbrev GoString := Bytes

def str (s : String) : GoString := s.toUTF8.data.toList

abbrev GoMap (K V : Type) := Finmap (fun _ : K => V)

theorem GoMap.lookup_insert_cases {K V : Type} [DecidableEq K] {m : GoMap K V} {a k : K} {b v : V}
    (h : (m.insert a b).lookup k = some v) : (a = k ∧ b = v) ∨ m.lookup k = some v := by
  by_cases hk : k = a
  · subst hk
    rw [Finmap.lookup_insert, Option.some.injEq] at h
    exact Or.inl ⟨rfl, h⟩
  · rw [Finmap.lookup_insert_of_ne _ hk] at h
    exact Or.inr h

/-- The verb `%q`, applied to a string and to a single byte. A quoted string ends in a
quotation mark. -/
class GoFmt where
  quote : GoString → GoString
  quoteByte : UInt8 → GoString
  quote_ends : ∀ s, ∃ stem, quote s = stem ++ str "\""

export GoFmt (quote quoteByte)

/-- Quoting as the verb does it on printable ASCII without quotes or backslashes. -/
@[reducible] def plainQuote : GoFmt where
  quote s := str "\"" ++ s ++ str "\""
  quoteByte c := str "'" ++ [c] ++ str "'"
  quote_ends s := ⟨str "\"" ++ s, rfl⟩

/-- `strconv.Itoa`. -/
def itoa (n : Int) : GoString := str (toString n)

/-- `strconv.ParseInt` in base 10 for 32 bits, without the texts of its errors. -/
def parseInt32 (s : GoString) : Option Int32 :=
  let negative := s.head? = some 45
  let digits := if negative ∨ s.head? = some 43 then s.drop 1 else s
  let magnitude := digits.foldl (fun (n : Nat) d => n * 10 + (d.toNat - 48)) 0
  if digits = [] ∨ digits.any (fun d => d < 48 || 57 < d) then none
  else if negative then if magnitude ≤ 2 ^ 31 then some (Int32.ofInt (-magnitude)) else none
  else if magnitude < 2 ^ 31 then some (Int32.ofInt magnitude) else none

/-- `net.JoinHostPort`: a host with a colon is an IPv6 literal and gets brackets. -/
def joinHostPort (host port : GoString) : GoString :=
  if 58 ∈ host then str "[" ++ host ++ str "]:" ++ port else host ++ str ":" ++ port

/-- `net.SplitHostPort`, without the texts of its errors. -/
def splitHostPort (hostport : GoString) : Option (GoString × GoString) :=
  let colon : UInt8 := 58
  let lbracket : UInt8 := 91
  let rbracket : UInt8 := 93
  if colon ∉ hostport then none
  else
    let i := hostport.length - 1 - hostport.reverse.idxOf colon
    let port := hostport.drop (i + 1)
    if hostport.headD 0 = lbracket then
      let stop := hostport.idxOf rbracket
      -- the bracket is closed, and the colon behind it is the last one
      if stop + 1 = i ∧ lbracket ∉ hostport.drop 1 ∧ rbracket ∉ hostport.drop (stop + 1) then
        some ((hostport.take stop).drop 1, port)
      else none
    else
      let host := hostport.take i
      if colon ∉ host ∧ lbracket ∉ hostport ∧ rbracket ∉ hostport then some (host, port)
      else none

structure NamespacedName where
  ns : GoString
  name : GoString
  deriving DecidableEq, Repr

def NamespacedName.string (k : NamespacedName) : GoString := k.ns ++ str "/" ++ k.name

theorem NamespacedName.string_ne_nil (k : NamespacedName) : k.string ≠ [] := by
  intro h
  have hslash : str "/" = [] := (List.append_eq_nil_iff.mp (List.append_eq_nil_iff.mp h).1).2
  exact absurd hslash (by decide)

/-! ## Errors -/

/-- The package-level `errors.New` values the code compares against. -/
inductive Sentinel where
  | eof
  | unexpectedEOF
  | netClosed
  | canceled
  | startupTooLarge
  | backendNotFound
  | portNotFound
  | invalidBackend
  | caBundle
  deriving DecidableEq, Repr

def Sentinel.text : Sentinel → GoString
  | .eof => str "EOF"
  | .unexpectedEOF => str "unexpected EOF"
  | .netClosed => str "use of closed network connection"
  | .canceled => str "context canceled"
  | .startupTooLarge => str "pgwire: startup packet exceeds maximum length"
  | .backendNotFound => str "backend not found"
  | .portNotFound => str "port not found"
  | .invalidBackend => str "invalid backend"
  | .caBundle => str "CA bundle unavailable"

/-- The status reasons of API errors that the code distinguishes. -/
inductive ApiReason where
  | notFound
  | conflict
  | alreadyExists
  | other
  deriving DecidableEq, Repr

inductive GoError where
  | sentinel (s : Sentinel)
  | api (reason : ApiReason) (text : GoString)
  | other (text : GoString)
  | wrap (text : GoString) (inner : GoError)
  | wrap2 (text : GoString) (first second : GoError)
  deriving DecidableEq, Repr

namespace GoError

def text : GoError → GoString
  | sentinel s => s.text
  | api _ t | other t | wrap t _ | wrap2 t _ _ => t

/-- `errors.Is(err, target)` for a sentinel target. -/
def is (target : Sentinel) : GoError → Bool
  | sentinel s => s == target
  | api _ _ | other _ => false
  | wrap _ e => e.is target
  | wrap2 _ e f => e.is target || f.is target

/-- `errors.As` into an API status: the first one in depth-first order. -/
def apiReason : GoError → Option ApiReason
  | sentinel _ | other _ => none
  | api r _ => some r
  | wrap _ e => e.apiReason
  | wrap2 _ e f => e.apiReason <|> f.apiReason

def isNotFound (e : GoError) : Bool := e.apiReason == some .notFound

def isConflict (e : GoError) : Bool := e.apiReason == some .conflict

end GoError

def errorsNew (text : String) : GoError := .other (str text)

/-- `fmt.Errorf` whose format is a text, a colon and one `%w`. -/
def errorfWrap (text : GoString) (e : GoError) : GoError :=
  .wrap (text ++ str ": " ++ e.text) e

/-- `errors.Join` of two errors, either of which may be nil. -/
def errorsJoin : Option GoError → Option GoError → Option GoError
  | none, none => none
  | some e, none | none, some e => some (.wrap e.text e)
  | some e, some f => some (.wrap2 (e.text ++ str "\n" ++ f.text) e f)

/-! ## Connections -/

/-- What a connection's peer sends, in the chunks the reads deliver. -/
abbrev Input := ChunkReader UInt8 GoError

/-- `io.ReadFull` into a buffer of `n` bytes. -/
def readFull (n : Nat) (r : Input) : Except GoError Bytes × Input :=
  let got := r.pull n
  if got.1.length = n then (.ok got.1, got.2)
  else if got.1 = [] ∨ r.fin ≠ .sentinel .eof then (.error r.fin, got.2)
  else (.error (.sentinel .unexpectedEOF), got.2)

theorem readFull_of_le {n : Nat} {r : Input} (h : n ≤ r.stream.length) :
    readFull n r = (.ok (r.stream.take n), (r.pull n).2) := by
  simp [readFull, h]

theorem readFull_of_lt {n : Nat} {r : Input} (h : r.stream.length < n) :
    readFull n r = (.error (if r.stream = [] ∨ r.fin ≠ .sentinel .eof then r.fin
      else .sentinel .unexpectedEOF), (r.pull n).2) := by
  have hlen : ¬ n ≤ r.stream.length := by omega
  have hnil : r.stream.take n = r.stream := List.take_of_length_le (by omega)
  simp only [readFull, ChunkReader.pull_fst, hnil]
  rw [if_neg (by omega)]
  split <;> rfl

theorem readFull_ok_iff {n : Nat} {r r' : Input} {b : Bytes} :
    readFull n r = (.ok b, r') ↔
      n ≤ r.stream.length ∧ b = r.stream.take n ∧ r' = (r.pull n).2 := by
  rcases Nat.lt_or_ge r.stream.length n with h | h
  · rw [readFull_of_lt h]
    constructor
    · intro he
      simp at he
    · intro he
      omega
  · rw [readFull_of_le h]
    simp only [Prod.mk.injEq, Except.ok.injEq]
    constructor
    · rintro ⟨rfl, rfl⟩
      exact ⟨h, rfl, rfl⟩
    · rintro ⟨_, rfl, rfl⟩
      exact ⟨rfl, rfl⟩

/-- The outcome of one `Write`: everything, or some bytes and an error. -/
inductive WriteOutcome where
  | full
  | short (n : Nat) (err : GoError)
  deriving DecidableEq, Repr

def WriteOutcome.written (b : Bytes) : WriteOutcome → Bytes
  | .full => b
  | .short n _ => b.take n

def WriteOutcome.err : WriteOutcome → Option GoError
  | .full => none
  | .short _ e => some e

theorem WriteOutcome.written_of_err_none {w : WriteOutcome} (h : w.err = none) (b : Bytes) :
    w.written b = b := by
  cases w with
  | full => rfl
  | short n e => simp [WriteOutcome.err] at h

theorem WriteOutcome.written_initial (w : WriteOutcome) (b : Bytes) : w.written b <+: b := by
  cases w with
  | full => exact List.prefix_rfl
  | short n e => exact List.take_prefix n b

/-- One round of `io.Copy`: the bytes it writes, the unread rest, and the result of
the whole copy if this was its last round. -/
def copyRound (src : Input) (w : WriteOutcome) : Bytes × Input × Option (Option GoError) :=
  match src.read 32768 with
  | none => ([], src, some (if src.fin = .sentinel .eof then none else some src.fin))
  | some (piece, rest) => (w.written piece, rest, w.err.map some)

theorem copyRound_spec {src rest : Input} {w : WriteOutcome} {written : Bytes}
    {result : Option (Option GoError)} (h : copyRound src w = (written, rest, result)) :
    written <+: src.stream ∧
      ((∀ e, result ≠ some (some e)) → src.stream = written ++ rest.stream) ∧
      (result = some none → rest.stream = []) := by
  unfold copyRound at h
  split at h
  · rename_i hread
    simp only [Prod.mk.injEq] at h
    obtain ⟨rfl, rfl, rfl⟩ := h
    simp [ChunkReader.stream_of_read_none hread]
  · rename_i piece rest' hread
    simp only [Prod.mk.injEq] at h
    obtain ⟨rfl, rfl, rfl⟩ := h
    have hsplit := ChunkReader.read_stream hread
    cases w with
    | full => simp [WriteOutcome.written, WriteOutcome.err, hsplit]
    | short n e =>
      refine ⟨?_, fun hne => absurd rfl (hne e), by simp [WriteOutcome.err]⟩
      rw [hsplit]
      exact (List.take_prefix n piece).trans (List.prefix_append _ _)

theorem copyRound_full {src rest : Input} {written : Bytes} {result : Option (Option GoError)}
    (h : copyRound src .full = (written, rest, result)) :
    src.stream = written ++ rest.stream ∧ (result ≠ none → rest.stream = []) := by
  unfold copyRound at h
  split at h
  · rename_i hread
    simp only [Prod.mk.injEq] at h
    obtain ⟨rfl, rfl, -⟩ := h
    simp [ChunkReader.stream_of_read_none hread]
  · rename_i piece rest' hread
    simp only [Prod.mk.injEq] at h
    obtain ⟨rfl, rfl, rfl⟩ := h
    exact ⟨ChunkReader.read_stream hread, fun hne => absurd rfl hne⟩

theorem copyRound_weight {src rest : Input} {w : WriteOutcome} {written : Bytes}
    (h : copyRound src w = (written, rest, none)) : rest.weight < src.weight := by
  unfold copyRound at h
  split at h
  · simp at h
  · rename_i piece rest' hread
    simp only [Prod.mk.injEq] at h
    obtain ⟨-, rfl, -⟩ := h
    exact ChunkReader.weight_read (by decide) hread

example : parseInt32 (str "-2147483648") = some Int32.minValue := by decide
example : parseInt32 (str "2147483648") = none := by decide
example : itoa (-5432) = str "-5432" := by decide
example : joinHostPort (str "::1") (str "5432") = str "[::1]:5432" := by decide
example : splitHostPort (str "[::1]:5432") = some (str "::1", str "5432") := by decide

end PgProxy
