import PgProxy.Pgwire.Grammar
import PgProxy.Proxy.BackendStream

/-!
# Malformed handshakes and hang-ups

`isBenignClose` looks for sentinels, which the parser may have put into an error as well as
the connection. If a packet arrives in full, or declares a length that is out of range, the
error of reading it is the parser's. The parser shares one sentinel with the connection:
a string that no zero byte ends is an unexpected end of file.
-/

namespace PgProxy
set_option autoImplicit false

namespace Proxy
open BigEndian Pgwire

variable {Pool : Type}

def InFull (s : Bytes) : Prop :=
  minStartupPacketLength ≤ declaredLength s ∧ declaredLength s ≤ maxStartupPacketLength ∧
    declaredLength s ≤ s.length

def OutOfRange (s : Bytes) : Prop :=
  4 ≤ s.length ∧
    (declaredLength s < minStartupPacketLength ∨ maxStartupPacketLength < declaredLength s)

def CutShort (s : Bytes) : Prop :=
  s.length < 4 ∨ minStartupPacketLength ≤ declaredLength s ∧
    declaredLength s ≤ maxStartupPacketLength ∧ s.length < declaredLength s

theorem InFull.not_cutShort {s : Bytes} (h : InFull s) : ¬ CutShort s := by
  unfold InFull minStartupPacketLength at h
  unfold CutShort minStartupPacketLength
  omega

theorem OutOfRange.not_cutShort {s : Bytes} (h : OutOfRange s) : ¬ CutShort s := by
  unfold OutOfRange at h
  unfold CutShort
  omega

def BreaksOff (s : Bytes) : Prop :=
  let body := (s.take (declaredLength s)).drop 4
  ({ code := ⟨uint32 body⟩ } : StartupPacket).majorVersion = 3 ∧ UnterminatedList (body.drop 4)

theorem isBenignClose_wrap (text : GoString) (e : GoError) :
    isBenignClose (errorfWrap text e) = isBenignClose e := rfl

section Read
variable [GoFmt]

theorem decodeStartupBody_error {body : Bytes} {e : GoError}
    (h : decodeStartupBody body = .error e) : isBenignClose e = true ↔
      ({ code := ⟨uint32 body⟩ } : StartupPacket).majorVersion = 3 ∧
        UnterminatedList (body.drop 4) := by
  unfold decodeStartupBody at h
  dsimp only at h
  generalize (⟨uint32 body⟩ : Int32) = code at h ⊢
  have hother : ∀ {text : GoString}, ({ code } : StartupPacket).majorVersion ≠ 3 →
      (Except.error (.other text) : Except GoError StartupPacket) = .error e →
      (isBenignClose e = true ↔ ({ code } : StartupPacket).majorVersion = 3 ∧
        UnterminatedList (body.drop 4)) := by
    intro text hversion herror
    injection herror with herror
    exact ⟨fun hbenign => by simp [← herror, isBenignClose, GoError.is] at hbenign,
      fun hopen => absurd hopen.1 hversion⟩
  split at h
  · rename_i hcode
    split at h
    · refine hother ?_ h
      rcases hcode with rfl | rfl <;> decide
    · simp at h
  · split at h
    · rename_i hcode
      split at h
      · refine hother ?_ h
        rw [hcode]
        decide
      · simp at h
    · split at h
      · rename_i hversion
        exact hother hversion h
      · rename_i hversion
        split at h
        · rename_i e' hparams
          injection h with h
          obtain ⟨hopen, heof⟩ := parseParameters_error hparams
          rw [h] at heof
          exact ⟨fun _ => ⟨not_not.mp hversion, hopen⟩, fun _ => by simp [isBenignClose, heof]⟩
        · simp at h

theorem readStartupPacket_inFull {r rest : Input} {e : GoError}
    (h : readStartupPacket r = (.error e, rest)) (hfull : InFull r.stream) :
    isBenignClose e = true ↔ BreaksOff r.stream := by
  rw [readStartupPacket_complete hfull.1 hfull.2.1 hfull.2.2] at h
  exact decodeStartupBody_error (congrArg Prod.fst h)

theorem readStartupPacket_benign {r rest : Input} {e : GoError}
    (h : readStartupPacket r = (.error e, rest)) (hbenign : isBenignClose e = true) :
    CutShort r.stream ∨ InFull r.stream := by
  have hread := readStartupPacket_read r
  rw [h] at hread
  generalize hresult : (Except.error e : Except GoError StartupPacket) = result at hread
  cases hread with
  | headless hshort => exact Or.inl (Or.inl hshort)
  | outOfRange _ _ he =>
    cases hresult
    have hnot : isBenignClose e = false := by
      unfold isBenignClose
      rw [he .eof (by decide), he .unexpectedEOF (by decide), he .netClosed (by decide),
        he .canceled (by decide)]
      rfl
    simp [hnot] at hbenign
  | incomplete _ hmin hmax hcut => exact Or.inl (Or.inr ⟨hmin, hmax, hcut⟩)
  | complete hmin hmax hfull => exact Or.inr ⟨hmin, hmax, hfull⟩

end Read

section Negotiate
variable [GoFmt] {tls : Option ServerTLS} {env : HandleEnv Pool}

theorem negotiateLoop_of_survives {x : Exchange} {rounds : Nat} (h : x.Survives tls env)
    (hfull : (env.reply rounds).err = none) :
    negotiateLoop tls env (rounds + 1) x.conn =
      (x.effect :: (negotiateLoop tls env rounds x.next).1,
        (negotiateLoop tls env rounds x.next).2) := by
  obtain ⟨rest, hread, hnext⟩ := h.reads
  have hanswers := h.answers
  obtain ⟨conn, packet, answer, next⟩ := x
  have hwritten := WriteOutcome.written_of_err_none hfull
  have hne : negotiationRejected ≠ negotiationAccepted := by decide
  dsimp only at hread hanswers hnext
  rw [negotiateLoop, hread]
  cases hanswers with
  | declineTLS hssl htls =>
    rw [if_neg hne] at hnext
    subst htls hnext
    simp only [hssl, if_true, hfull, hwritten]
    rfl
  | acceptTLS hssl htls hplain =>
    rw [if_pos rfl] at hnext
    obtain ⟨input, hshake, rfl⟩ := hnext
    obtain ⟨settings, rfl⟩ := Option.isSome_iff_exists.mp htls
    simp only [hssl, if_true, hplain, Bool.false_eq_true, if_false, hfull, hwritten, hshake]
    rfl
  | declineGSS hssl hgss =>
    rw [if_neg hne] at hnext
    subst hnext
    simp only [hssl, hgss, Bool.false_eq_true, if_false, if_true, hfull, hwritten]
    rfl

/-- With that many rounds left on `conn`, the negotiation fails on reading a packet from
`last`, with the error `e`. -/
inductive FailsReading (tls : Option ServerTLS) (env : HandleEnv Pool) :
    Nat → Conn → Conn → GoError → Prop
  | here {rounds : Nat} {conn : Conn} {e : GoError} {rest : Input}
      (hread : readStartupPacket conn.input = (.error e, rest)) :
      FailsReading tls env (rounds + 1) conn conn e
  | later {rounds : Nat} {x : Exchange} {last : Conn} {e : GoError}
      (hsurvives : x.Survives tls env) (hfull : (env.reply rounds).err = none)
      (hrest : FailsReading tls env rounds x.next last e) :
      FailsReading tls env (rounds + 1) x.conn last e

theorem FailsReading.loop {rounds : Nat} {conn last : Conn} {e : GoError}
    (h : FailsReading tls env rounds conn last e) :
    (∃ rest, readStartupPacket last.input = (.error e, rest)) ∧
    ∃ effects e', negotiateLoop tls env rounds conn = (effects, .error e') ∧
      isBenignClose e' = isBenignClose e := by
  induction h with
  | @here rounds conn e rest hread =>
    refine ⟨⟨rest, hread⟩, [], _, by rw [negotiateLoop, hread], ?_⟩
    split
    · rfl
    · exact isBenignClose_wrap _ e
  | @later rounds x last e hsurvives hfull _ ih =>
    obtain ⟨hread, effects, e', hloop, hbenign⟩ := ih
    refine ⟨hread, x.effect :: effects, e', ?_, hbenign⟩
    rw [negotiateLoop_of_survives hsurvives hfull, hloop]

/-- A failed handshake and a hang-up are told apart. A packet that arrived in full or declared
a length out of range is counted as failed and logged, and only a connection that ends before
the packet is complete is taken for a hang-up. -/
structure ToldApart (tls : Option ServerTLS) (env : HandleEnv Pool) (rawConn : Input)
    (s : Bytes) (effects : List (Effect Pool)) (e : GoError) : Prop where
  reported : InFull s ∨ OutOfRange s → isBenignClose e = false ∧
    (env.setDeadline = none → ∀ table, handle tls table env rawConn =
      (effects ++ [.connection unrouted outcomeHandshake], .returned (some e))) ∧
    logsOutcome (some e) = true
  hangUp : isBenignClose e = true → CutShort s

/-- A handshake that fails on reading a packet is told from a hang-up, exactly unless the
packet arrived in full and its parameters break off; such a packet is taken for a hang-up. -/
theorem malformed_handshake_told_apart_iff {rawConn : Input} {last : Conn} {e : GoError}
    (hfails : FailsReading tls env maxNegotiationRounds
      { encrypted := false, input := rawConn } last e) :
    ∃ effects e', negotiate tls env rawConn = (effects, .error e') ∧
      (ToldApart tls env rawConn last.input.stream effects e' ↔
        ¬ (InFull last.input.stream ∧ BreaksOff last.input.stream)) ∧
      (InFull last.input.stream → (isBenignClose e' = true ↔ BreaksOff last.input.stream)) := by
  obtain ⟨⟨rest, hread⟩, effects, e', hloop, hsame⟩ := hfails.loop
  have hnegotiate : negotiate tls env rawConn = (effects, .error e') := hloop
  have hfull := readStartupPacket_inFull hread
  have hcut := readStartupPacket_benign hread
  rw [← hsame] at hfull hcut
  refine ⟨effects, e', hnegotiate, ⟨fun htold hbroken => ?_, fun hwhole => ?_⟩, hfull⟩
  · have hnot := (htold.reported (Or.inl hbroken.1)).1
    rw [(hfull hbroken.1).mpr hbroken.2] at hnot
    simp at hnot
  · have hbenign : isBenignClose e' = true → CutShort last.input.stream := by
      intro hbenign
      rcases hcut hbenign with hcut | harrived
      · exact hcut
      · exact absurd ⟨harrived, (hfull harrived).mp hbenign⟩ hwhole
    refine ⟨fun harrived => ?_, hbenign⟩
    have hnot : isBenignClose e' = false := by
      by_contra hclose
      have hshort := hbenign (by simpa using hclose)
      exact harrived.elim (fun h => h.not_cutShort hshort) fun h => h.not_cutShort hshort
    refine ⟨hnot, fun hdeadline table => ?_, by simp [logsOutcome, hnot]⟩
    simp [handle, hdeadline, hnegotiate, hnot]

end Negotiate

/-- A request for encryption, which is declined, and then a packet of version 2. -/
theorem malformed_handshake_told_apart_iff_version :
    let client : Input :=
      ⟨[negotiationRequest sslRequestCode, [0, 0, 0, 8, 0, 2, 0, 0]], .sentinel .eof⟩
    ∃ effects e', @negotiate Unit plainQuote none sampleEnv client = (effects, .error e') ∧
      isBenignClose e' = false ∧ logsOutcome (some e') = true := by
  intro client
  let _ : GoFmt := plainQuote
  let last : Conn := { encrypted := false, input := ⟨[[0, 0, 0, 8, 0, 2, 0, 0]], .sentinel .eof⟩ }
  let request : Exchange :=
    { conn := { encrypted := false, input := client }
      packet := { code := sslRequestCode }
      answer := negotiationRejected
      next := last }
  have hsurvives : request.Survives none sampleEnv :=
    ⟨.declineTLS rfl rfl, last.input, by rfl, rfl⟩
  have hread : readStartupPacket last.input =
      (decodeStartupBody [0, 2, 0, 0], ⟨[], .sentinel .eof⟩) := by rfl
  have hdecode : decodeStartupBody [0, 2, 0, 0] =
      .error (.other (str "pgwire: unsupported protocol version 2.0")) := by rfl
  rw [hdecode] at hread
  have hfails : FailsReading none sampleEnv maxNegotiationRounds request.conn last _ :=
    .later hsurvives rfl (.here hread)
  have hwhole : ¬ (InFull last.input.stream ∧ BreaksOff last.input.stream) :=
    fun h => absurd h.2.1 (by decide)
  obtain ⟨effects, e', hnegotiate, htold, -⟩ :=
    @malformed_handshake_told_apart_iff Unit plainQuote none sampleEnv client last _ hfails
  obtain ⟨hnot, -, hlogged⟩ :=
    (htold.mpr hwhole).reported (Or.inl ⟨by decide, by decide, by decide⟩)
  exact ⟨effects, e', hnegotiate, hnot, hlogged⟩

/-- All nine bytes of the packet are there, and no zero byte ends the name of its parameter. -/
theorem broken_off_packet_taken_for_hang_up :
    let client : Input := ⟨[[0, 0, 0, 9, 0, 3, 0, 0, 117]], .sentinel .eof⟩
    InFull client.stream ∧
    ∃ e, (@readStartupPacket plainQuote client).1 = .error e ∧
      @negotiate Unit plainQuote none sampleEnv client = ([], .error e) ∧
      isBenignClose e = true ∧
      @handle Unit plainQuote none (Table.new ∅) sampleEnv client = ([], .returned (some e)) ∧
      logsOutcome (some e) = false := by
  intro client
  let _ : GoFmt := plainQuote
  have hread : readStartupPacket client =
      (decodeStartupBody [0, 3, 0, 0, 117], ⟨[], .sentinel .eof⟩) := by rfl
  have hdecode : decodeStartupBody [0, 3, 0, 0, 117] =
      .error (errorfWrap (str "pgwire: reading parameter name") (.sentinel .unexpectedEOF)) := by
    rfl
  rw [hdecode] at hread
  have hnegotiate : negotiate none sampleEnv client = ([], .error
      (errorfWrap (str "pgwire: reading parameter name") (.sentinel .unexpectedEOF))) := by
    rw [negotiate, maxNegotiationRounds, negotiateLoop, hread]
    rfl
  refine ⟨⟨by decide, by decide, by decide⟩, _, by rw [hread], hnegotiate, rfl, ?_, rfl⟩
  rw [handle, hnegotiate]
  rfl

end Proxy
end PgProxy
