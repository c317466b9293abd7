import PgProxy.Go
import PgProxy.Lib.Delimited

/-!
# Addresses

An address is a host and a port joined by a colon, and a host with colons of its own stands
in brackets. Joining is undone by splitting as long as neither part holds a bracket and the
port, a decimal number, holds no colon.
-/

namespace PgProxy
set_option autoImplicit false

/-! ## Decimal numbers -/

theorem str_append (s t : String) : str (s ++ t) = str s ++ str t := by simp [str]

theorem str_ofList (cs : List Char) :
    str (String.ofList cs) = cs.flatMap String.utf8EncodeChar := by
  simp [str, List.utf8Encode]

theorem utf8EncodeChar_digit {c : Char} (h : c.isDigit) {b : UInt8}
    (hb : b ∈ String.utf8EncodeChar c) : 48 ≤ b ∧ b ≤ 57 := by
  simp only [Char.isDigit, Bool.and_eq_true, decide_eq_true_eq] at h
  obtain ⟨hlo, hhi⟩ : 48 ≤ c.val.toNat ∧ c.val.toNat ≤ 57 := h
  have hsize : c.utf8Size = 1 := by
    rw [Char.utf8Size_eq_one_iff, UInt32.le_iff_toNat_le]
    exact Nat.le_trans hhi (by decide)
  rw [String.utf8EncodeChar_eq_singleton hsize, List.mem_singleton] at hb
  rw [hb, UInt8.le_iff_toNat_le, UInt8.le_iff_toNat_le, UInt32.toNat_toUInt8,
    Nat.mod_eq_of_lt (by omega)]
  exact ⟨hlo, hhi⟩

theorem mem_str_repr {n : Nat} {b : UInt8} (h : b ∈ str n.repr) : 48 ≤ b ∧ b ≤ 57 := by
  rw [Nat.repr, str_ofList, List.mem_flatMap] at h
  obtain ⟨c, hc, hb⟩ := h
  exact utf8EncodeChar_digit (Nat.isDigit_of_mem_toDigits (by decide) (by decide) hc) hb

theorem mem_itoa {n : Int} {b : UInt8} (h : b ∈ itoa n) : b = 45 ∨ (48 ≤ b ∧ b ≤ 57) := by
  rw [itoa, Int.toString_eq_repr] at h
  cases n with
  | ofNat n => exact .inr (mem_str_repr h)
  | negSucc n =>
    rw [Int.repr, str_append, List.mem_append] at h
    rcases h with hsign | hdigits
    · exact .inl (List.mem_singleton.mp hsign)
    · exact .inr (mem_str_repr hdigits)

/-! ## Host and port -/

/-- The byte string holds neither of the brackets that enclose a host in an address. -/
def BracketFree (s : GoString) : Prop := 91 ∉ s ∧ 93 ∉ s

theorem itoa_colon (n : Int) : 58 ∉ itoa n := by
  intro h
  rcases mem_itoa h with h | h <;> revert h <;> decide

theorem itoa_bracketFree (n : Int) : BracketFree (itoa n) := by
  constructor <;> intro h <;> rcases mem_itoa h with h | h <;> revert h <;> decide

theorem last_colon (pre : GoString) {port : GoString} (h : 58 ∉ port) :
    (pre ++ 58 :: port).length - 1 - (pre ++ 58 :: port).reverse.idxOf 58 = pre.length := by
  have hidx : (pre ++ 58 :: port).reverse.idxOf 58 = port.length := by
    have hreverse : (pre ++ 58 :: port).reverse = port.reverse ++ 58 :: pre.reverse := by simp
    rw [hreverse, Delimited.idxOf_append (by simpa using h), List.length_reverse]
  rw [hidx, List.length_append, List.length_cons]
  omega

theorem splitHostPort_bracketed {host port : GoString} (hhost : BracketFree host)
    (hport : BracketFree port) (hcolon : 58 ∉ port) :
    splitHostPort (91 :: host ++ 93 :: 58 :: port) = some (host, port) := by
  have hsplit : 91 :: host ++ 93 :: 58 :: port = (91 :: host ++ [93]) ++ 58 :: port := by simp
  have hlast := last_colon (91 :: host ++ [93]) hcolon
  rw [← hsplit] at hlast
  have hstop : (91 :: host ++ 93 :: 58 :: port).idxOf 93 = host.length + 1 :=
    Delimited.idxOf_append (by simpa using hhost.2) _
  have hhead : (91 :: host ++ 93 :: 58 :: port).headD 0 = 91 := rfl
  have hopen : (91 : UInt8) ∉ (91 :: host ++ 93 :: 58 :: port).drop 1 := by
    simp [hhost.1, hport.1]
  have hclose : (93 : UInt8) ∉ (91 :: host ++ 93 :: 58 :: port).drop (host.length + 1 + 1) := by
    simp [hport.2]
  unfold splitHostPort
  dsimp only
  rw [hlast, hstop, if_neg (by simp), if_pos hhead, if_pos ⟨by simp, hopen, hclose⟩]
  simp

theorem splitHostPort_plain {host port : GoString} (hhost : BracketFree host)
    (hname : 58 ∉ host) (hport : BracketFree port) (hcolon : 58 ∉ port) :
    splitHostPort (host ++ 58 :: port) = some (host, port) := by
  have hopen : (91 : UInt8) ∉ host ++ 58 :: port := by simp [hhost.1, hport.1]
  have hclose : (93 : UInt8) ∉ host ++ 58 :: port := by simp [hhost.2, hport.2]
  have hhead : (host ++ 58 :: port).headD 0 ≠ 91 := by
    cases host with
    | nil => simp
    | cons b host =>
      intro hb
      exact hhost.1 (List.mem_cons.mpr (Or.inl hb.symm))
  unfold splitHostPort
  dsimp only
  rw [last_colon host hcolon, if_neg (by simp), if_neg hhead, List.take_left,
    if_pos ⟨hname, hopen, hclose⟩]
  simp

theorem splitHostPort_joinHostPort {host port : GoString} (hhost : BracketFree host)
    (hport : BracketFree port) (hcolon : 58 ∉ port) :
    splitHostPort (joinHostPort host port) = some (host, port) := by
  have hopen : str "[" = [91] := by decide
  have hclose : str "]:" = [93, 58] := by decide
  have hsep : str ":" = [58] := by decide
  unfold joinHostPort
  split
  · rw [hopen, hclose]
    simpa using splitHostPort_bracketed hhost hport hcolon
  · rename_i hname
    rw [hsep]
    simpa using splitHostPort_plain hhost hname hport hcolon

theorem bracketFree_of_splitHostPort {address host port : GoString}
    (h : splitHostPort address = some (host, port)) : BracketFree host := by
  unfold splitHostPort at h
  dsimp only at h
  split at h
  · simp at h
  · split at h
    · split at h
      · rename_i hbrackets
        obtain ⟨rfl, -⟩ := Prod.mk.inj (Option.some.inj h)
        constructor
        · intro hmem
          rw [List.drop_take] at hmem
          exact hbrackets.2.1 (List.mem_of_mem_take hmem)
        · intro hmem
          exact Delimited.notMem_take_idxOf address (List.mem_of_mem_drop hmem)
      · simp at h
    · split at h
      · rename_i hbrackets
        obtain ⟨rfl, -⟩ := Prod.mk.inj (Option.some.inj h)
        exact ⟨fun hmem => hbrackets.2.1 (List.mem_of_mem_take hmem),
          fun hmem => hbrackets.2.2 (List.mem_of_mem_take hmem)⟩
      · simp at h

theorem length_lt_joinHostPort (host port : GoString) :
    host.length < (joinHostPort host port).length := by
  have hopen : (str "[").length = 1 := by decide
  have hsep : (str ":").length = 1 := by decide
  unfold joinHostPort
  split <;> simp only [List.length_append] <;> omega

/-! ## Hosts -/

/-- The bytes of DNS names and of IPv4 addresses. -/
def nameBytes : GoString :=
  str "ABCDEFGHIJKLMNOPQRSTUVWXYZabcdefghijklmnopqrstuvwxyz0123456789.-_"

/-- The bytes of IPv6 literals, the dots of an embedded IPv4 address included. -/
def ipv6Bytes : GoString := str "0123456789abcdefABCDEF:."

/-- A DNS name or an IPv4 address, or an IPv6 literal with or without a zone. -/
inductive HostForm : GoString → Prop
  | name {host : GoString} (h : ∀ b ∈ host, b ∈ nameBytes) : HostForm host
  | ipv6 {host : GoString} (h : ∀ b ∈ host, b ∈ ipv6Bytes) : HostForm host
  | zoned {host zone : GoString} (h : ∀ b ∈ host, b ∈ ipv6Bytes) (hzone : BracketFree zone) :
      HostForm (host ++ str "%" ++ zone)

theorem BracketFree.of_alphabet {s alphabet : GoString} (h : ∀ b ∈ s, b ∈ alphabet)
    (halphabet : BracketFree alphabet) : BracketFree s :=
  ⟨fun hb => halphabet.1 (h _ hb), fun hb => halphabet.2 (h _ hb)⟩

theorem nameBytes_bracketFree : BracketFree nameBytes := by
  constructor <;> decide +kernel

theorem ipv6Bytes_bracketFree : BracketFree ipv6Bytes := by
  constructor <;> decide +kernel

theorem HostForm.bracketFree {host : GoString} (h : HostForm host) : BracketFree host := by
  cases h with
  | name h => exact BracketFree.of_alphabet h nameBytes_bracketFree
  | ipv6 h => exact BracketFree.of_alphabet h ipv6Bytes_bracketFree
  | @zoned host zone h hzone =>
    have hhost : BracketFree host := BracketFree.of_alphabet h ipv6Bytes_bracketFree
    have hpercent : str "%" = [37] := by decide
    rw [hpercent]
    constructor <;> simp [hhost.1, hhost.2, hzone.1, hzone.2]

end PgProxy
