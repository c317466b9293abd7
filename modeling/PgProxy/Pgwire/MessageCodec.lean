import PgProxy.Pgwire.Framing

/-!
# The message codec

The reader and the encoder are inverse to each other, and the reader fails exactly on a
stream that starts with no legal frame. The buffer it keeps from one call to the next has
no influence: what a sequence of calls returns depends on the bytes still unread and on the
error that ends them.
-/

namespace PgProxy
set_option autoImplicit false

/-- The two inputs deliver the same bytes, in whatever chunks, and end alike. -/
structure SameStream (r r' : Input) : Prop where
  stream : r.stream = r'.stream
  fin : r.fin = r'.fin

theorem SameStream.pull {r r' : Input} (h : SameStream r r') (n : Nat) :
    SameStream (r.pull n).2 (r'.pull n).2 where
  stream := by rw [ChunkReader.pull_snd_stream, ChunkReader.pull_snd_stream, h.stream]
  fin := h.fin

theorem SameStream.readFull {r r' : Input} (h : SameStream r r') (n : Nat) :
    ∃ result rest rest', readFull n r = (result, rest) ∧ readFull n r' = (result, rest') ∧
      SameStream rest rest' := by
  refine ⟨(PgProxy.readFull n r').1, (r.pull n).2, (r'.pull n).2, ?_, ?_, h.pull n⟩
  · rcases Nat.lt_or_ge r.stream.length n with hn | hn
    · rw [readFull_of_lt hn, readFull_of_lt (h.stream ▸ hn), h.stream, h.fin]
    · rw [readFull_of_le hn, readFull_of_le (h.stream ▸ hn), h.stream]
  · rcases Nat.lt_or_ge r'.stream.length n with hn | hn
    · rw [readFull_of_lt hn]
    · rw [readFull_of_le hn]

namespace Pgwire
variable [GoFmt]

namespace MessageReader

/-- What the next `n` calls return, the failed ones included. -/
def results : Nat → MessageReader → List (Except GoError Message)
  | 0, _ => []
  | n + 1, mr => mr.next.1 :: results n mr.next.2

/-- Neither the buffer nor the chunks matter to a call. -/
theorem next_congr {mr mr' : MessageReader} (h : SameStream mr.r mr'.r) :
    mr.next.1 = mr'.next.1 ∧ SameStream mr.next.2.r mr'.next.2.r := by
  obtain ⟨header, rest, rest', hread, hread', hrest⟩ := h.readFull 5
  unfold next
  rw [hread, hread']
  cases header with
  | error e => exact ⟨rfl, hrest⟩
  | ok header =>
    dsimp only
    split
    · exact ⟨rfl, hrest⟩
    · split
      · exact ⟨rfl, hrest⟩
      · obtain ⟨body, tail, tail', hbody, hbody', htail⟩ :=
          hrest.readFull ((BigEndian.uint32 header.tail).toNat - 4)
        rw [hbody, hbody']
        cases body with
        | error e => exact ⟨rfl, htail⟩
        | ok body =>
          -- the body fills the whole of the slice that is returned
          obtain ⟨hlen, rfl, -⟩ := readFull_ok_iff.mp hbody
          have hfull := List.length_take_of_le hlen
          dsimp only
          rw [List.take_left' hfull, List.take_left' hfull]
          exact ⟨rfl, htail⟩

theorem results_congr (n : Nat) {mr mr' : MessageReader} (h : SameStream mr.r mr'.r) :
    mr.results n = mr'.results n := by
  induction n generalizing mr mr' with
  | zero => rfl
  | succ n ih =>
    obtain ⟨hresult, hrest⟩ := next_congr h
    rw [results, results, hresult, ih hrest]

theorem next_encode {mr : MessageReader} {m : Message} {rest : Bytes} (hm : m.Legal)
    (h : mr.r.stream = m.encode ++ rest) :
    ∃ mr', mr.next = (.ok m, mr') ∧ mr'.r.stream = rest := by
  have hframe : firstFrame mr.r.stream = some (m, rest) := h ▸ firstFrame_encode hm rest
  obtain ⟨buf, hnext⟩ := next_of_frame hframe
  exact ⟨_, hnext, afterMessage_stream hframe⟩

theorem encode_of_next {mr mr' : MessageReader} {m : Message} (h : mr.next = (.ok m, mr')) :
    mr.r.stream = m.encode ++ mr'.r.stream := by
  cases hframe : firstFrame mr.r.stream with
  | none =>
    obtain ⟨e, mr'', hnext⟩ := next_of_no_frame hframe
    simp [hnext] at h
  | some f =>
    obtain ⟨m', rest⟩ := f
    obtain ⟨buf, hnext⟩ := next_of_frame hframe
    rw [hnext, Prod.mk.injEq, Except.ok.injEq] at h
    obtain ⟨rfl, rfl⟩ := h
    rw [afterMessage_stream hframe]
    exact (firstFrame_some hframe).1

theorem next_fails_iff {mr : MessageReader} :
    (∃ e mr', mr.next = (.error e, mr')) ↔ firstFrame mr.r.stream = none := by
  constructor
  · rintro ⟨e, mr', h⟩
    cases hframe : firstFrame mr.r.stream with
    | none => rfl
    | some f =>
      obtain ⟨buf, hnext⟩ := next_of_frame hframe
      simp [hnext] at h
  · exact next_of_no_frame

end MessageReader

/-- Framing is a codec for messages of up to 1 MiB, and the buffer kept by the reader never
shows in what a sequence of calls returns. -/
theorem message_framing_codec :
    (∀ (mr : MessageReader) (m : Message) rest, m.body.length ≤ 2 ^ 20 - 4 →
      mr.r.stream = m.encode ++ rest →
      ∃ mr', mr.next = (.ok m, mr') ∧ mr'.r.stream = rest) ∧
    (∀ (mr mr' : MessageReader) m, mr.next = (.ok m, mr') →
      m.encode ++ mr'.r.stream = mr.r.stream) ∧
    (∀ mr : MessageReader, (∃ e mr', mr.next = (.error e, mr')) ↔
      mr.r.stream.length < 5 ∨ declaredFrameLength mr.r.stream < 4 ∨
        2 ^ 20 < declaredFrameLength mr.r.stream ∨
        mr.r.stream.length < 1 + declaredFrameLength mr.r.stream) ∧
    (∀ (mr mr' : MessageReader), SameStream mr.r mr'.r → ∀ n, mr.results n = mr'.results n) := by
  refine ⟨?_, ?_, ?_, ?_⟩
  · intro mr m rest hm h
    have hlegal : m.Legal := by
      unfold Message.Legal maxMessageLength
      omega
    exact MessageReader.next_encode hlegal h
  · intro mr mr' m h
    exact (MessageReader.encode_of_next h).symm
  · intro mr
    exact MessageReader.next_fails_iff.trans firstFrame_eq_none_iff
  · intro mr mr' h n
    exact MessageReader.results_congr n h

end Pgwire
end PgProxy
