import PgProxy.Pgwire.Message

/-!
# What the message reader sees in a byte stream

`firstFrame` is the abstract view: the complete legal frame a byte string starts
with. It is there exactly when the string is an encoded message followed by
anything, and the reader finds it whatever the chunks and whatever its buffer
still holds.
-/

namespace PgProxy
set_option autoImplicit false

namespace Pgwire
open BigEndian

/-- The body fits a frame whose declared length the reader accepts. -/
def Message.Legal (m : Message) : Prop := m.body.length + 4 ≤ maxMessageLength

def declaredFrameLength (s : Bytes) : Nat := (uint32 (s.drop 1)).toNat

def firstFrame (s : Bytes) : Option (Message × Bytes) :=
  if 5 ≤ s.length ∧ 4 ≤ declaredFrameLength s ∧ declaredFrameLength s ≤ maxMessageLength ∧
      1 + declaredFrameLength s ≤ s.length then
    some (⟨s.headD 0, (s.drop 5).take (declaredFrameLength s - 4)⟩,
      s.drop (1 + declaredFrameLength s))
  else none

theorem Message.encode_length (m : Message) : m.encode.length = 5 + m.body.length := by
  simp [Message.encode]
  omega

theorem declaredFrameLength_encode {m : Message} (hm : m.Legal) (rest : Bytes) :
    declaredFrameLength (m.encode ++ rest) = m.body.length + 4 := by
  unfold Message.Legal maxMessageLength at hm
  simp only [declaredFrameLength, Message.encode, List.append_assoc, List.cons_append,
    List.nil_append, List.drop_succ_cons, List.drop_zero, uint32_putUint32_append]
  rw [UInt32.toNat_ofNat']
  omega

theorem firstFrame_encode {m : Message} (hm : m.Legal) (rest : Bytes) :
    firstFrame (m.encode ++ rest) = some (m, rest) := by
  have hlen := declaredFrameLength_encode hm rest
  unfold Message.Legal at hm
  have hsize : (m.encode ++ rest).length = 5 + m.body.length + rest.length := by
    rw [List.length_append, m.encode_length]
  unfold firstFrame
  rw [hlen, if_pos ⟨by omega, by omega, by omega, by omega⟩]
  have hbody : (m.encode ++ rest).drop 5 = m.body ++ rest := by
    simp [Message.encode, putUint32]
  have hrest : (m.encode ++ rest).drop (1 + (m.body.length + 4)) = rest := by
    rw [show 1 + (m.body.length + 4) = 5 + m.body.length by omega, ← List.drop_drop, hbody]
    simp
  rw [hbody, hrest]
  simp [Message.encode]

theorem exists_header {s : Bytes} (h : 5 ≤ s.length) :
    ∃ a b c d e tail, s = a :: b :: c :: d :: e :: tail := by
  match s, h with
  | a :: b :: c :: d :: e :: tail, _ => exact ⟨a, b, c, d, e, tail, rfl⟩

/-- Reading a frame and encoding it again is the identity. -/
theorem firstFrame_some {s rest : Bytes} {m : Message} (h : firstFrame s = some (m, rest)) :
    s = m.encode ++ rest ∧ m.Legal := by
  unfold firstFrame at h
  split at h
  · rename_i hs
    obtain ⟨h5, hlo, hhi, hfull⟩ := hs
    simp only [Option.some.injEq, Prod.mk.injEq] at h
    obtain ⟨rfl, rfl⟩ := h
    have hbody : ((s.drop 5).take (declaredFrameLength s - 4)).length + 4 =
        declaredFrameLength s := by
      rw [List.length_take, List.length_drop]
      omega
    refine ⟨?_, by rw [Message.Legal, hbody]; exact hhi⟩
    have hword : UInt32.ofNat (declaredFrameLength s) = uint32 (s.drop 1) := by
      simp [declaredFrameLength]
    have hsplit : s.drop 5 = (s.drop 5).take (declaredFrameLength s - 4) ++
        s.drop (1 + declaredFrameLength s) := by
      rw [show 1 + declaredFrameLength s = 5 + (declaredFrameLength s - 4) by omega,
        ← List.drop_drop, List.take_append_drop]
    simp only [Message.encode, hbody, hword, List.append_assoc, ← hsplit]
    obtain ⟨a, b, c, d, e, tail, rfl⟩ := exists_header h5
    simp only [List.drop_succ_cons, List.drop_zero, putUint32_uint32_cons, List.headD_cons,
      List.cons_append, List.nil_append]
  · simp at h

theorem firstFrame_unique {s rest rest' : Bytes} {m m' : Message}
    (h : firstFrame s = some (m, rest)) (h' : firstFrame s = some (m', rest')) : m = m' := by
  rw [h, Option.some.injEq, Prod.mk.injEq] at h'
  exact h'.1

theorem firstFrame_eq_none_iff {s : Bytes} :
    firstFrame s = none ↔ s.length < 5 ∨ declaredFrameLength s < 4 ∨
      maxMessageLength < declaredFrameLength s ∨ s.length < 1 + declaredFrameLength s := by
  unfold firstFrame
  split
  · rename_i h
    simp only [reduceCtorEq, false_iff]
    omega
  · rename_i h
    simp only [true_iff]
    omega

theorem header_of_le {s : Bytes} (h : 5 ≤ s.length) :
    (s.take 5).headD 0 = s.headD 0 ∧ (uint32 (s.take 5).tail).toNat = declaredFrameLength s := by
  obtain ⟨a, b, c, d, e, tail, rfl⟩ := exists_header h
  exact ⟨rfl, rfl⟩

def afterMessage (r : Input) (bodyLen : Nat) : Input := ((r.pull 5).2.pull bodyLen).2

theorem afterMessage_stream {r : Input} {m : Message} {rest : Bytes}
    (h : firstFrame r.stream = some (m, rest)) :
    (afterMessage r m.body.length).stream = rest := by
  rw [afterMessage, ChunkReader.pull_snd_stream, ChunkReader.pull_snd_stream, List.drop_drop,
    (firstFrame_some h).1, ← m.encode_length, List.drop_left]

theorem afterMessage_weight {r : Input} {m : Message} {rest : Bytes}
    (h : firstFrame r.stream = some (m, rest)) :
    (afterMessage r m.body.length).weight < r.weight := by
  have hheader := ChunkReader.weight_pull 5 r
  have hbody := ChunkReader.weight_pull m.body.length (r.pull 5).2
  have hlen : 5 ≤ r.stream.length := by
    rw [(firstFrame_some h).1, List.length_append, m.encode_length]
    omega
  rw [List.length_take] at hheader
  unfold afterMessage
  omega

section Next
variable [GoFmt]

/-- The reader returns the first frame of the stream and takes no byte beyond it. -/
theorem MessageReader.next_of_frame {mr : MessageReader} {m : Message} {rest : Bytes}
    (h : firstFrame mr.r.stream = some (m, rest)) :
    ∃ buf, mr.next = (.ok m, ⟨afterMessage mr.r m.body.length, buf⟩) := by
  unfold firstFrame at h
  split at h
  · rename_i hs
    obtain ⟨h5, hlo, hhi, hfull⟩ := hs
    simp only [Option.some.injEq, Prod.mk.injEq] at h
    obtain ⟨rfl, rfl⟩ := h
    obtain ⟨htype, hlen⟩ := header_of_le h5
    have hbody : declaredFrameLength mr.r.stream - 4 ≤ (mr.r.pull 5).2.stream.length := by
      rw [ChunkReader.pull_snd_stream, List.length_drop]
      omega
    have htake : ((mr.r.stream.drop 5).take (declaredFrameLength mr.r.stream - 4)).length =
        declaredFrameLength mr.r.stream - 4 := by
      simpa using hbody
    rw [MessageReader.next, readFull_of_le h5]
    simp only [hlen, htype]
    rw [if_neg (by omega), if_neg (by omega), readFull_of_le hbody]
    simp only [ChunkReader.pull_snd_stream, List.take_left' htake, afterMessage, htake]
    exact ⟨_, rfl⟩
  · simp at h

theorem MessageReader.next_of_no_frame {mr : MessageReader}
    (h : firstFrame mr.r.stream = none) : ∃ e mr', mr.next = (.error e, mr') := by
  unfold MessageReader.next
  rcases Nat.lt_or_ge mr.r.stream.length 5 with h5 | h5
  · rw [readFull_of_lt h5]
    exact ⟨_, _, rfl⟩
  · obtain ⟨-, hlen⟩ := header_of_le h5
    rw [readFull_of_le h5]
    simp only [hlen]
    split
    · exact ⟨_, _, rfl⟩
    · split
      · exact ⟨_, _, rfl⟩
      · have hshort := firstFrame_eq_none_iff.mp h
        have hbody : (mr.r.pull 5).2.stream.length < declaredFrameLength mr.r.stream - 4 := by
          rw [ChunkReader.pull_snd_stream, List.length_drop]
          omega
        rw [readFull_of_lt hbody]
        exact ⟨_, _, rfl⟩

end Next

/-! ## Cancellation keys on the wire -/

def StartsWithKey (body : Bytes → Prop) (s : Bytes) : Prop :=
  ∃ m rest, firstFrame s = some (m, rest) ∧ m.type = msgBackendKeyData ∧ body m.body

theorem decodeBackendKeyData_of_length {body : Bytes} (h : body.length = 8) :
    ∃ key, decodeBackendKeyData body = .ok key :=
  ⟨_, by rw [decodeBackendKeyData, if_neg (by omega)]⟩

theorem decodeBackendKeyData_putUint32 (key : CancelRequest) :
    decodeBackendKeyData (putUint32 key.processID.toUInt32 ++ putUint32 key.secretKey.toUInt32) =
      .ok key := by
  have hdrop : (putUint32 key.processID.toUInt32 ++ putUint32 key.secretKey.toUInt32).drop 4 =
      putUint32 key.secretKey.toUInt32 := rfl
  simp only [decodeBackendKeyData, hdrop, uint32_putUint32_append, uint32_putUint32]
  rfl

theorem encodeBackendKeyData_carries (key : CancelRequest) :
    (encodeBackendKeyData key).length = 13 ∧ ∃ body,
      firstFrame (encodeBackendKeyData key) = some (⟨msgBackendKeyData, body⟩, []) ∧
      decodeBackendKeyData body = .ok key := by
  have hlegal : Message.Legal ⟨msgBackendKeyData,
      putUint32 key.processID.toUInt32 ++ putUint32 key.secretKey.toUInt32⟩ := by
    simp [Message.Legal, maxMessageLength]
  have hframe := firstFrame_encode hlegal []
  rw [List.append_nil] at hframe
  exact ⟨rfl, _, hframe, decodeBackendKeyData_putUint32 key⟩

end Pgwire
end PgProxy
