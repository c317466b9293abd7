import Mathlib.Data.List.Basic

/-!
# Byte strings and 32-bit big-endian words

A byte string is a list of bytes; a word occupies four of them, most
significant first. Both directions of the codec are exact: no word is lost by
writing it, and no four bytes are lost by reading them.
-/

namespace PgProxy
set_option autoImplicit false

abbrev Bytes := List UInt8

namespace BigEndian

def putUint32 (v : UInt32) : Bytes :=
  [UInt8.ofNat (v.toNat / 16777216), UInt8.ofNat (v.toNat / 65536),
    UInt8.ofNat (v.toNat / 256), UInt8.ofNat v.toNat]

/-- The word in the first four bytes; shorter strings are never read. -/
def uint32 : Bytes → UInt32
  | a :: b :: c :: d :: _ =>
    UInt32.ofNat (a.toNat * 16777216 + b.toNat * 65536 + c.toNat * 256 + d.toNat)
  | _ => 0

@[simp] theorem putUint32_length (v : UInt32) : (putUint32 v).length = 4 := rfl

@[simp] theorem uint32_putUint32_append (v : UInt32) (rest : Bytes) :
    uint32 (putUint32 v ++ rest) = v := by
  have hv := v.toNat_lt
  simp only [putUint32, List.cons_append, uint32, UInt8.toNat_ofNat']
  apply UInt32.toNat_inj.mp
  rw [UInt32.toNat_ofNat']
  omega

@[simp] theorem uint32_putUint32 (v : UInt32) : uint32 (putUint32 v) = v := by
  simpa using uint32_putUint32_append v []

theorem putUint32_uint32_cons (a b c d : UInt8) (rest : Bytes) :
    putUint32 (uint32 (a :: b :: c :: d :: rest)) = [a, b, c, d] := by
  have ha := a.toNat_lt
  have hb := b.toNat_lt
  have hc := c.toNat_lt
  have hd := d.toNat_lt
  have hword : (uint32 (a :: b :: c :: d :: rest)).toNat =
      a.toNat * 16777216 + b.toNat * 65536 + c.toNat * 256 + d.toNat := by
    rw [uint32, UInt32.toNat_ofNat']
    omega
  simp only [putUint32, hword, List.cons.injEq, and_true]
  refine ⟨?_, ?_, ?_, ?_⟩ <;> apply UInt8.toNat_inj.mp <;> rw [UInt8.toNat_ofNat'] <;> omega

theorem exists_of_length {b : Bytes} (h : b.length = 4) :
    ∃ w x y z, b = [w, x, y, z] := by
  match b, h with
  | [w, x, y, z], _ => exact ⟨w, x, y, z, rfl⟩

theorem putUint32_uint32 {b : Bytes} (h : b.length = 4) : putUint32 (uint32 b) = b := by
  obtain ⟨w, x, y, z, rfl⟩ := exists_of_length h
  exact putUint32_uint32_cons w x y z []

theorem uint32_append {b : Bytes} (h : b.length = 4) (rest : Bytes) :
    uint32 (b ++ rest) = uint32 b := by
  obtain ⟨w, x, y, z, rfl⟩ := exists_of_length h
  rfl

theorem putUint32_uint32_append {b : Bytes} (h : 4 ≤ b.length) :
    putUint32 (uint32 b) ++ b.drop 4 = b := by
  have hhead : (b.take 4).length = 4 := by rw [List.length_take]; omega
  nth_rewrite 1 [← List.take_append_drop 4 b]
  rw [uint32_append hhead, putUint32_uint32 hhead, List.take_append_drop]

end BigEndian
end PgProxy
