import PgProxy.Pgwire.Protocol

/-!
# What the startup reader takes off a byte stream

A packet that is read occupies exactly the bytes it declares. Negotiation requests are
nothing but their length and code, cancel requests carry no parameters, and rewriting a
parameter touches the first one under its key or adds one at the end.
-/

namespace PgProxy
set_option autoImplicit false

namespace Pgwire
open BigEndian

/-- The bytes `pkt` are one whole packet, by the length they declare. -/
structure IsPacket [GoFmt] (pkt : Bytes) (p : StartupPacket) : Prop where
  min : minStartupPacketLength ≤ pkt.length
  max : pkt.length ≤ maxStartupPacketLength
  declared : (uint32 pkt).toNat = pkt.length
  decoded : decodeStartupBody (pkt.drop 4) = .ok p

def negotiationRequest (code : Int32) : Bytes := putUint32 8 ++ putUint32 code.toUInt32

/-- The length that the first four bytes declare. -/
def declaredLength (s : Bytes) : Nat := (uint32 s).toNat

theorem declaredLength_take {s : Bytes} {n : Nat} (hn : 4 ≤ n) (h : 4 ≤ s.length) :
    declaredLength (s.take n) = declaredLength s := by
  have htake : (s.take n).take 4 = s.take 4 := by rw [List.take_take, Nat.min_eq_left hn]
  have hhead : (s.take 4).length = 4 := by rw [List.length_take]; omega
  have hword : uint32 (s.take n) = uint32 (s.take 4) := by
    rw [← List.take_append_drop 4 (s.take n), htake, uint32_append hhead]
  rw [declaredLength, declaredLength, hword]
  nth_rewrite 2 [← List.take_append_drop 4 s]
  rw [uint32_append hhead]

section Read
variable [GoFmt]

/-- What the reader can do with a stream, by how much of a packet is there. -/
inductive PacketRead (r : Input) : Except GoError StartupPacket × Input → Prop where
  | headless {e : GoError} (h : r.stream.length < 4) : PacketRead r (.error e, (r.pull 4).2)
  | outOfRange {e : GoError} (h4 : 4 ≤ r.stream.length)
      (h : declaredLength r.stream < minStartupPacketLength ∨
        maxStartupPacketLength < declaredLength r.stream)
      (he : ∀ s, s ≠ .startupTooLarge → e.is s = false) :
      PacketRead r (.error e, (r.pull 4).2)
  | incomplete {e : GoError} (h4 : 4 ≤ r.stream.length)
      (hmin : minStartupPacketLength ≤ declaredLength r.stream)
      (hmax : declaredLength r.stream ≤ maxStartupPacketLength)
      (h : r.stream.length < declaredLength r.stream) :
      PacketRead r (.error e, ((r.pull 4).2.pull (declaredLength r.stream - 4)).2)
  | complete (hmin : minStartupPacketLength ≤ declaredLength r.stream)
      (hmax : declaredLength r.stream ≤ maxStartupPacketLength)
      (h : declaredLength r.stream ≤ r.stream.length) :
      PacketRead r (decodeStartupBody ((r.stream.take (declaredLength r.stream)).drop 4),
        ((r.pull 4).2.pull (declaredLength r.stream - 4)).2)

theorem readStartupPacket_read (r : Input) : PacketRead r (readStartupPacket r) := by
  unfold readStartupPacket
  rcases Nat.lt_or_ge r.stream.length 4 with hshort | h4
  · rw [readFull_of_lt hshort]
    exact .headless hshort
  · have hlen : (uint32 (r.stream.take 4)).toNat = declaredLength r.stream :=
      declaredLength_take (Nat.le_refl 4) h4
    rw [readFull_of_le h4]
    simp only [hlen]
    split
    · rename_i hlow
      exact .outOfRange h4 (Or.inl hlow) fun _ _ => rfl
    · split
      · rename_i hhigh
        refine .outOfRange h4 (Or.inr hhigh) fun s hs => ?_
        exact beq_eq_false_iff_ne.mpr hs.symm
      · rename_i hlow hhigh
        rcases Nat.lt_or_ge r.stream.length (declaredLength r.stream) with hcut | hfull
        · rw [readFull_of_lt (by rw [ChunkReader.pull_snd_stream, List.length_drop]; omega)]
          exact .incomplete h4 (Nat.le_of_not_lt hlow) (Nat.le_of_not_lt hhigh) hcut
        · rw [readFull_of_le (by rw [ChunkReader.pull_snd_stream, List.length_drop]; omega),
            ChunkReader.pull_snd_stream, ← List.drop_take]
          exact .complete (Nat.le_of_not_lt hlow) (Nat.le_of_not_lt hhigh) hfull

theorem readStartupPacket_complete {r : Input}
    (hmin : minStartupPacketLength ≤ declaredLength r.stream)
    (hmax : declaredLength r.stream ≤ maxStartupPacketLength)
    (h : declaredLength r.stream ≤ r.stream.length) :
    readStartupPacket r =
      (decodeStartupBody ((r.stream.take (declaredLength r.stream)).drop 4),
        ((r.pull 4).2.pull (declaredLength r.stream - 4)).2) := by
  have hread := readStartupPacket_read r
  generalize readStartupPacket r = result at hread
  unfold minStartupPacketLength at hmin
  cases hread with
  | headless hshort => omega
  | outOfRange h4 hrange =>
    unfold minStartupPacketLength at hrange
    omega
  | incomplete h4 _ _ hcut => omega
  | complete => rfl

theorem readStartupPacket_ok {r r' : Input} {p : StartupPacket}
    (h : readStartupPacket r = (.ok p, r')) :
    ∃ pkt, IsPacket pkt p ∧ r.stream = pkt ++ r'.stream ∧ r'.fin = r.fin := by
  have hread := readStartupPacket_read r
  rw [h] at hread
  generalize hresult : (Except.ok p : Except GoError StartupPacket) = result at hread
  cases hread with
  | headless => cases hresult
  | outOfRange => cases hresult
  | incomplete => cases hresult
  | complete hmin hmax hfull =>
    have h8 : 8 ≤ declaredLength r.stream := hmin
    have hlen : (r.stream.take (declaredLength r.stream)).length = declaredLength r.stream := by
      rw [List.length_take]
      omega
    refine ⟨r.stream.take (declaredLength r.stream), ⟨?_, ?_, ?_, hresult.symm⟩, ?_, rfl⟩
    · rw [hlen]
      exact hmin
    · rw [hlen]
      exact hmax
    · rw [hlen]
      exact declaredLength_take (by omega) (by omega)
    · rw [ChunkReader.pull_snd_stream, ChunkReader.pull_snd_stream, List.drop_drop,
        show 4 + (declaredLength r.stream - 4) = declaredLength r.stream by omega,
        List.take_append_drop]

theorem decodeStartupBody_code {body : Bytes} {p : StartupPacket}
    (h : decodeStartupBody body = .ok p) : p.code = ⟨uint32 body⟩ := by
  unfold decodeStartupBody at h
  dsimp only at h
  repeat' split at h
  all_goals first | (injection h with h; subst h; rfl) | simp at h

theorem decodeStartupBody_negotiation {body : Bytes} {p : StartupPacket}
    (h : decodeStartupBody body = .ok p)
    (hcode : p.code = sslRequestCode ∨ p.code = gssEncRequestCode) : body.drop 4 = [] := by
  rw [decodeStartupBody_code h] at hcode
  unfold decodeStartupBody at h
  dsimp only at h
  rw [if_pos hcode] at h
  split at h
  · simp at h
  · rename_i hpayload
    simpa using hpayload

theorem decodeStartupBody_cancel {body : Bytes} {p : StartupPacket}
    (h : decodeStartupBody body = .ok p) (hcode : p.code = cancelRequestCode) :
    p.parameters = [] := by
  rw [decodeStartupBody_code h] at hcode
  unfold decodeStartupBody at h
  dsimp only at h
  rw [if_neg (by rw [hcode]; decide), if_pos hcode] at h
  split at h
  · simp at h
  · injection h with h
    subst h
    rfl

theorem IsPacket.negotiation {pkt : Bytes} {p : StartupPacket} (h : IsPacket pkt p)
    (hcode : p.code = sslRequestCode ∨ p.code = gssEncRequestCode) :
    pkt = negotiationRequest p.code := by
  have hpayload := decodeStartupBody_negotiation h.decoded hcode
  have hmin := h.min
  unfold minStartupPacketLength at hmin
  have hlen : pkt.length = 8 := by
    have := List.drop_eq_nil_iff.mp hpayload
    rw [List.length_drop] at this
    omega
  have hhead : (pkt.take 4).length = 4 := by rw [List.length_take]; omega
  have hsize : uint32 (pkt.take 4) = 8 := by
    have hword : uint32 pkt = uint32 (pkt.take 4) := by
      rw [← uint32_append hhead (pkt.drop 4), List.take_append_drop]
    have := h.declared
    rw [hword, hlen] at this
    exact UInt32.toNat_inj.mp this
  have hcodeWord : p.code.toUInt32 = uint32 (pkt.drop 4) := by
    rw [decodeStartupBody_code h.decoded]
  rw [negotiationRequest, hcodeWord, ← hsize, putUint32_uint32 hhead,
    putUint32_uint32 (by rw [List.length_drop]; omega), List.take_append_drop]

end Read

/-! ## Parameters -/

/-- The parameters with the value of the first one under the key replaced, or with one
appended if there was none. -/
def SetsFirst (key value : GoString) (before after : List Parameter) : Prop :=
  (∃ pre old post, before = pre ++ ⟨key, old⟩ :: post ∧ (∀ param ∈ pre, param.key ≠ key) ∧
    after = pre ++ ⟨key, value⟩ :: post) ∨
  ((∀ param ∈ before, param.key ≠ key) ∧ after = before ++ [⟨key, value⟩])

theorem setParameterIn_setsFirst (key value : GoString) (params : List Parameter) :
    SetsFirst key value params (StartupPacket.setParameterIn key value params) := by
  induction params with
  | nil => exact Or.inr ⟨by simp, rfl⟩
  | cons param rest ih =>
    obtain ⟨k, v⟩ := param
    rw [StartupPacket.setParameterIn]
    split
    · rename_i hk
      subst hk
      exact Or.inl ⟨[], v, rest, rfl, by simp, rfl⟩
    · rename_i hk
      rcases ih with ⟨pre, old, post, hbefore, hpre, hafter⟩ | ⟨hnone, hafter⟩
      · refine Or.inl ⟨⟨k, v⟩ :: pre, old, post, by rw [hbefore]; rfl, ?_, by rw [hafter]; rfl⟩
        simpa using ⟨hk, hpre⟩
      · exact Or.inr ⟨by simpa using ⟨hk, hnone⟩, by rw [hafter]; rfl⟩

end Pgwire
end PgProxy
