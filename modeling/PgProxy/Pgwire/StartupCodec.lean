import PgProxy.Pgwire.Grammar

/-!
# Encoding a startup packet and reading it back

Reading inverts encoding on every packet whose parameters a list can carry. Encoding
inverts reading up to the end of the list: the bytes behind the terminator are dropped,
a missing terminator is added, and the length field follows.
-/

namespace PgProxy
set_option autoImplicit false

namespace Pgwire
open BigEndian

def withLength (b : Bytes) : Bytes := putUint32 (UInt32.ofNat b.length) ++ b.drop 4

theorem foldl_size (params : List Parameter) (n : Nat) :
    params.foldl (fun size param => size + (param.key.length + 1 + param.value.length + 1)) n =
      n + (params.flatMap Parameter.encode).length := by
  induction params generalizing n with
  | nil => rfl
  | cons param params ih =>
    rw [List.foldl_cons, ih, List.flatMap_cons, List.length_append]
    simp only [Parameter.encode, List.length_append, List.length_singleton]
    omega

namespace StartupPacket

/-- The bytes of the parameters, which the encoding puts between the code and the
terminator. -/
def pairs (p : StartupPacket) : Bytes := p.parameters.flatMap Parameter.encode

theorem encode_eq (p : StartupPacket) :
    p.encode = putUint32 (UInt32.ofNat (9 + p.pairs.length)) ++
      (putUint32 p.code.toUInt32 ++ (p.pairs ++ [0])) := by
  simp only [encode, foldl_size, pairs, List.append_assoc]

theorem encode_length (p : StartupPacket) : p.encode.length = 9 + p.pairs.length := by
  rw [p.encode_eq]
  simp only [List.length_append, putUint32_length, List.length_singleton]
  omega

theorem declaredLength_encode {p : StartupPacket} (h : p.encode.length < 4294967296)
    (rest : Bytes) : declaredLength (p.encode ++ rest) = p.encode.length := by
  rw [p.encode_length] at h ⊢
  rw [p.encode_eq, List.append_assoc, declaredLength, uint32_putUint32_append,
    UInt32.toNat_ofNat', Nat.mod_eq_of_lt h]

end StartupPacket

theorem startsWithPacket_encode {p : StartupPacket} (hversion : p.majorVersion = 3)
    (hparams : ∀ param ∈ p.parameters, param.WellFormed)
    (hlen : p.encode.length ≤ maxStartupPacketLength) (rest : Bytes) :
    StartsWithPacket (p.encode ++ rest) { p with cancel := ⟨0, 0⟩ } := by
  have hdeclared := StartupPacket.declaredLength_encode
    (Nat.lt_of_le_of_lt hlen (by decide)) rest
  have hbody : p.encode.drop 4 = putUint32 p.code.toUInt32 ++ (p.pairs ++ [0]) := by
    rw [p.encode_eq, List.drop_left' (putUint32_length _)]
  have hmin := p.encode_length
  constructor
  · rw [hdeclared]
    unfold minStartupPacketLength
    omega
  · rw [hdeclared]
    exact hlen
  · rw [hdeclared, List.length_append]
    omega
  · rw [hdeclared, List.take_left, hbody]
    exact .startup (majorVersion_eq_three_iff.mp hversion) ⟨rfl, hparams, Or.inr ⟨[], rfl⟩⟩

section Read
variable [GoFmt]

theorem readStartupPacket_encode {p : StartupPacket} (hversion : p.majorVersion = 3)
    (hparams : ∀ param ∈ p.parameters, param.WellFormed)
    (hlen : p.encode.length ≤ maxStartupPacketLength) {r : Input} {rest : Bytes}
    (hr : r.stream = p.encode ++ rest) :
    ∃ r', readStartupPacket r = (.ok { p with cancel := ⟨0, 0⟩ }, r') ∧ r'.stream = rest := by
  have hstarts := startsWithPacket_encode hversion hparams hlen rest
  rw [← hr] at hstarts
  have hread := readStartupPacket_ok_iff.mpr hstarts
  refine ⟨(readStartupPacket r).2, by rw [← hread], ?_⟩
  rw [readStartupPacket_consumes_packet hread, hr, StartupPacket.declaredLength_encode
    (Nat.lt_of_le_of_lt hlen (by decide)), List.drop_left]

/-- The bytes of a version 3 packet that fill a stream, cut where its list ends. -/
structure StartupBytes (b : Bytes) (p : StartupPacket) (tail : Bytes) : Prop where
  bytes : b = putUint32 (UInt32.ofNat b.length) ++
    (putUint32 p.code.toUInt32 ++ (p.pairs ++ tail))
  wellFormed : ∀ param ∈ p.parameters, param.WellFormed
  ends : ListEnd tail
  plain : p.cancel = ⟨0, 0⟩

theorem IsPacket.body {pkt : Bytes} {p : StartupPacket} (h : IsPacket pkt p) :
    PacketBody (pkt.drop 4) p := by
  have hmin : 8 ≤ pkt.length := h.min
  exact decodeStartupBody_ok (by rw [List.length_drop]; omega) h.decoded

theorem IsPacket.bytes {pkt : Bytes} {p : StartupPacket} (h : IsPacket pkt p)
    (hversion : p.majorVersion = 3) : ∃ tail, StartupBytes pkt p tail := by
  have hmin : 8 ≤ pkt.length := h.min
  have hword : UInt32.ofNat pkt.length = uint32 pkt := by rw [← h.declared, UInt32.ofNat_toNat]
  have hsplit := putUint32_uint32_append (b := pkt) (by omega)
  have hbody := h.body
  have hthree := majorVersion_eq_three_iff.mp hversion
  rw [← hword] at hsplit
  generalize pkt.drop 4 = body at hbody hsplit
  cases hbody with
  | negotiation hcode => rcases hcode with rfl | rfl <;> exact absurd hthree (by decide)
  | cancel =>
    have hcancel : cancelRequestCode.toUInt32.toNat / 65536 ≠ 3 := by decide
    exact absurd hthree hcancel
  | @startup code payload tail params hcode hlist =>
    refine ⟨tail, ?_, hlist.wellFormed, hlist.ends, rfl⟩
    rw [StartupPacket.pairs, ← hlist.split]
    exact hsplit.symm

end Read

namespace StartupBytes
variable {b tail : Bytes} {p : StartupPacket}

theorem length_eq (h : StartupBytes b p tail) : b.length = 8 + p.pairs.length + tail.length := by
  have hlen := congrArg List.length h.bytes
  simp only [List.length_append, putUint32_length] at hlen
  omega

theorem withLength_eq_encode (p : StartupPacket) (w : UInt32) :
    withLength (putUint32 w ++ (putUint32 p.code.toUInt32 ++ (p.pairs ++ [0]))) = p.encode := by
  rw [withLength, List.drop_left' (putUint32_length w), p.encode_eq]
  simp only [List.length_append, putUint32_length, List.length_singleton]
  rw [show 4 + (4 + (p.pairs.length + 1)) = 9 + p.pairs.length by omega]

theorem encode_of_missing (h : StartupBytes b p []) : p.encode = withLength (b ++ [0]) := by
  have hb : b ++ [0] = putUint32 (UInt32.ofNat b.length) ++
      (putUint32 p.code.toUInt32 ++ (p.pairs ++ [0])) := by
    nth_rewrite 1 [h.bytes]
    simp only [List.append_assoc, List.nil_append]
  rw [hb, withLength_eq_encode]

theorem encode_of_padding {padding : Bytes} (h : StartupBytes b p (0 :: padding)) :
    ∃ kept, b = kept ++ padding ∧ p.encode = withLength kept := by
  refine ⟨_, ?_, (withLength_eq_encode p (UInt32.ofNat b.length)).symm⟩
  nth_rewrite 1 [h.bytes]
  simp only [List.append_assoc, List.singleton_append]

theorem encode_eq_iff (h : StartupBytes b p tail) : p.encode = b ↔ tail = [0] := by
  constructor
  · intro henc
    have hlen := p.encode_length
    rw [henc, h.length_eq] at hlen
    rcases h.ends with rfl | ⟨padding, rfl⟩
    · simp at hlen
    · have hnil : padding = [] := List.eq_nil_of_length_eq_zero (by
        rw [List.length_cons] at hlen
        omega)
      rw [hnil]
  · rintro rfl
    have hlen := h.length_eq
    rw [h.bytes, p.encode_eq, hlen, List.length_singleton,
      show 8 + p.pairs.length + 1 = 9 + p.pairs.length by omega]

end StartupBytes

/-- Reading inverts encoding, and encoding inverts reading up to the end of the list. -/
theorem startup_codec_roundTrip [GoFmt] :
    (∀ (p : StartupPacket) (r : Input) (trailer : Bytes), p.majorVersion = 3 →
      (∀ param ∈ p.parameters, param.WellFormed) → p.encode.length ≤ maxStartupPacketLength →
      r.stream = p.encode ++ trailer →
      ∃ r', readStartupPacket r = (.ok { p with cancel := ⟨0, 0⟩ }, r') ∧ r'.stream = trailer) ∧
    (∀ (b : Bytes) (r r' : Input) (p : StartupPacket), r.stream = b →
      readStartupPacket r = (.ok p, r') → r'.stream = [] → p.majorVersion = 3 →
      ∃ tail, StartupBytes b p tail ∧
        (p.encode = b ↔ tail = [0]) ∧
        (tail = [] → p.encode = withLength (b ++ [0])) ∧
        (∀ padding, tail = 0 :: padding →
          ∃ kept, b = kept ++ padding ∧ p.encode = withLength kept) ∧
        (p.encode.length ≤ maxStartupPacketLength → ∀ again : Input, again.stream = p.encode →
          ∃ rest, readStartupPacket again = (.ok p, rest) ∧ rest.stream = [])) := by
  constructor
  · intro p r trailer hversion hparams hlen hr
    exact readStartupPacket_encode hversion hparams hlen hr
  · rintro b r r' p rfl hread hall hversion
    obtain ⟨pkt, hpkt, hstream, -⟩ := readStartupPacket_ok hread
    rw [hall, List.append_nil] at hstream
    obtain ⟨tail, h⟩ := (hstream ▸ hpkt).bytes hversion
    refine ⟨tail, h, h.encode_eq_iff, ?_, ?_, ?_⟩
    · rintro rfl
      exact h.encode_of_missing
    · rintro padding rfl
      exact h.encode_of_padding
    · intro hlen again hagain
      rw [← List.append_nil p.encode] at hagain
      obtain ⟨rest, hok, hrest⟩ := readStartupPacket_encode hversion h.wellFormed hlen hagain
      refine ⟨rest, ?_, hrest⟩
      rw [hok, ← h.plain]

end Pgwire
end PgProxy
