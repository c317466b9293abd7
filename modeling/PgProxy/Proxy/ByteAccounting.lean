import PgProxy.Proxy.ClientStream

/-!
# The bytes counted towards the client

`relayFromBackend` adds to the counter when it leaves the framed loop and once more when
the raw copy ends. Whichever way the client's writes go, the sum is what has reached the
client, except at one exit: a BackendKeyData message that cannot be decoded ends the call
before the framed bytes are counted. Whether the loop comes to such a message depends on
the backend's stream and on the writes before it, and on nothing else.
-/

namespace PgProxy
set_option autoImplicit false

namespace Proxy
open Pgwire

variable {Pool : Type}

abbrev StartsWithBadKey : Bytes → Prop := StartsWithKey fun body => body.length ≠ 8

/-- From round `i` of the framed loop on, with that much of the backend's stream left, the
loop comes to a BackendKeyData message that cannot be decoded. The messages before it are
written in full, and none of them is ReadyForQuery. -/
inductive RejectsKey (writes : Nat → WriteOutcome) : Nat → Bytes → Prop
  | here {i : Nat} {s : Bytes} (hkey : StartsWithBadKey s) : RejectsKey writes i s
  | later {i : Nat} {s rest : Bytes} {m : Message} (hframe : firstFrame s = some (m, rest))
      (hkey : m.type = msgBackendKeyData → m.body.length = 8)
      (hready : m.type ≠ msgReadyForQuery) (hfull : (writes i).err = none)
      (h : RejectsKey writes (i + 1) rest) : RejectsKey writes i s

section Frame
variable {writes : Nat → WriteOutcome} {i : Nat} {s rest : Bytes} {m : Message}

theorem not_rejectsKey_of_no_frame (hframe : firstFrame s = none) : ¬ RejectsKey writes i s := by
  rintro (⟨⟨m, rest, hframe', -⟩⟩ | hframe') <;> simp [hframe] at hframe'

theorem not_startsWithBadKey (hframe : firstFrame s = some (m, rest))
    (hkey : m.type = msgBackendKeyData → m.body.length = 8) : ¬ StartsWithBadKey s := by
  rintro ⟨m', rest', hframe', htype, hbody⟩
  obtain ⟨rfl, rfl⟩ := Prod.mk.inj (Option.some.inj (hframe.symm.trans hframe'))
  exact hbody (hkey htype)

/-- A message that can be passed on only matters by what comes after it. -/
theorem rejectsKey_iff (hframe : firstFrame s = some (m, rest))
    (hkey : m.type = msgBackendKeyData → m.body.length = 8) : RejectsKey writes i s ↔
      m.type ≠ msgReadyForQuery ∧ (writes i).err = none ∧ RejectsKey writes (i + 1) rest := by
  constructor
  · intro h
    cases h with
    | here hbad => exact absurd hbad (not_startsWithBadKey hframe hkey)
    | later hframe' _ hready hfull h =>
      obtain ⟨rfl, rfl⟩ := Prod.mk.inj (Option.some.inj (hframe.symm.trans hframe'))
      exact ⟨hready, hfull, h⟩
  · rintro ⟨hready, hfull, h⟩
    exact .later hframe hkey hready hfull h

end Frame

/-- Where a call stands at the head of round `round` of the framed loop: what is ahead
decides about the whole, and something has been written unless this is the first message. -/
structure Framing (stream : Bytes) (writes : Nat → WriteOutcome) (round : Nat)
    (d : Downstream Pool) : Prop where
  ahead : RejectsKey writes 0 stream ↔ RejectsKey writes round d.reader.r.stream
  first : d.toClient = [] ∧ d.reader.r.stream = stream ∨
    d.toClient ≠ [] ∧ ¬ StartsWithBadKey stream
  uncounted : d.bytesTotal = 0 ∧ d.copied = 0
  framed : d.framed = d.toClient.length

/-- How far the counter is, by the phase of the call. -/
structure Counted (stream : Bytes) (writes : Nat → WriteOutcome) (round : Nat)
    (d : Downstream Pool) : Prop where
  framing : d.phase = .framing → Framing stream writes round d
  splicing : d.phase = .splicing → ¬ RejectsKey writes 0 stream ∧
    d.bytesTotal = d.framed ∧ d.framed + d.copied = d.toClient.length
  ended : d.phase = .exiting ∨ d.phase = .returned →
    ¬ RejectsKey writes 0 stream ∧ d.bytesTotal = d.toClient.length ∨
    RejectsKey writes 0 stream ∧ d.bytesTotal = 0 ∧ (d.toClient = [] ↔ StartsWithBadKey stream)

theorem Counted.start (backend : Input) (writes : Nat → WriteOutcome) :
    Counted backend.stream writes 0
      ({ reader := newMessageReader backend } : Downstream Pool) :=
  ⟨fun _ => ⟨Iff.rfl, Or.inl ⟨rfl, rfl⟩, ⟨rfl, rfl⟩, rfl⟩, by simp, by simp⟩

section Rounds
variable {stream : Bytes} {writes : Nat → WriteOutcome} {round round' : Nat}
variable {d d' : Downstream Pool} {w : WriteOutcome} {m : Message} {rest out : Bytes}

theorem Counted.exiting (hphase : d.phase = .exiting)
    (h : ¬ RejectsKey writes 0 stream ∧ d.bytesTotal = d.toClient.length ∨
      RejectsKey writes 0 stream ∧ d.bytesTotal = 0 ∧
        (d.toClient = [] ↔ StartsWithBadKey stream)) : Counted stream writes round d :=
  ⟨fun hp => by simp [hphase] at hp, fun hp => by simp [hphase] at hp, fun _ => h⟩

theorem Counted.of_left (h : Counted stream writes round d) (hphase : d.phase ≠ .framing) :
    Counted stream writes round' d :=
  ⟨fun hp => absurd hp hphase, h.splicing, h.ended⟩

theorem Framing.deliver (h : Framing stream writes round d) (hphase : d.phase = .framing)
    (hframe : firstFrame d.reader.r.stream = some (m, rest))
    (hkey : m.type = msgBackendKeyData → m.body.length = 8) (hout : out ≠ []) {buf : Bytes}
    {issued : Option CancelRequest} {minted : List (CancelRequest × CancelEntry Pool)} :
    Counted stream writes (round + 1)
      ({ d with
          reader := ⟨afterMessage d.reader.r m.body.length, buf⟩
          issued
          minted }.deliver m.type out (writes round)) := by
  have hahead := h.ahead.trans (rejectsKey_iff hframe hkey)
  have hframed := h.framed
  obtain ⟨htotal, hcopied⟩ := h.uncounted
  cases hw : writes round with
  | short n err =>
    refine .exiting rfl (Or.inl ⟨?_, ?_⟩)
    · simp [hahead, hw, WriteOutcome.err]
    · simp [Downstream.deliver, WriteOutcome.err, Downstream.countFramed, Downstream.exit, htotal,
        hframed]
  | full =>
    have hrest := afterMessage_stream hframe
    simp only [Downstream.deliver, WriteOutcome.err, WriteOutcome.written]
    split
    · rename_i hready
      refine ⟨fun hp => by simp at hp, fun _ => ⟨?_, ?_⟩, fun hp => by simp at hp⟩
      · simp [hahead, hready]
      · simp [Downstream.countFramed, htotal, hcopied, hframed]
    · rename_i hready
      refine ⟨fun _ => ⟨?_, Or.inr ⟨by simp [hout], ?_⟩, ⟨htotal, hcopied⟩, by simp [hframed]⟩,
        fun hp => by simp [hphase] at hp, fun hp => by simp [hphase] at hp⟩
      · rw [hahead, hrest]
        simp [hready, hw, WriteOutcome.err]
      · rcases h.first with ⟨-, hstream⟩ | ⟨-, hgood⟩
        · rw [← hstream]
          exact not_startsWithBadKey hframe hkey
        · exact hgood

theorem Counted.splice (h : Counted stream writes round d) (hphase : d.phase = .splicing) :
    Counted stream writes round (d.spliceStep w) := by
  obtain ⟨hkey, htotal, hclient⟩ := h.splicing hphase
  obtain ⟨piece, rest, result, hround⟩ : ∃ piece rest result,
      copyRound d.reader.r w = (piece, rest, result) := ⟨_, _, _, rfl⟩
  simp only [Downstream.spliceStep, hround]
  cases result with
  | none =>
    refine ⟨fun hp => by simp [hphase] at hp, fun _ => ⟨hkey, htotal, ?_⟩,
      fun hp => by simp [hphase] at hp⟩
    simp only [List.length_append]
    omega
  | some err =>
    refine .exiting rfl (Or.inl ⟨hkey, ?_⟩)
    simp only [Downstream.countCopied, Downstream.exit, List.length_append]
    omega

theorem Counted.release (h : Counted stream writes round d) (hphase : d.phase = .exiting)
    (cancels : CancelRegistry Pool) :
    Counted stream writes round (d.releaseStep cancels).1 :=
  ⟨fun hp => by simp [Downstream.releaseStep] at hp,
    fun hp => by simp [Downstream.releaseStep] at hp, fun _ => h.ended (Or.inl hphase)⟩

variable [GoFmt] {route : Route Pool} {draws draws' : List Draw}
variable {cancels cancels' : CancelRegistry Pool} {s t : RelayFromBackend Pool}

theorem Counted.frame (h : Counted stream writes round d) (hphase : d.phase = .framing)
    (hstep : d.frameStep route (writes round) draws cancels = some (d', cancels', draws')) :
    Counted stream writes (round + 1) d' := by
  have hframing := h.framing hphase
  have hframed := hframing.framed
  obtain ⟨htotal, -⟩ := hframing.uncounted
  cases Downstream.frameStep_round hstep with
  | stopped hframe =>
    refine .exiting rfl (Or.inl ⟨?_, ?_⟩)
    · rw [hframing.ahead]
      exact not_rejectsKey_of_no_frame hframe
    · simp [Downstream.countFramed, Downstream.exit, htotal, hframed]
  | undecodable hframe htype hbody =>
    have hbad : StartsWithBadKey d.reader.r.stream := ⟨_, _, hframe, htype, hbody⟩
    refine .exiting rfl (Or.inr ⟨hframing.ahead.mpr (.here hbad), htotal, ?_⟩)
    rcases hframing.first with ⟨hnone, hstream⟩ | ⟨hsome, hgood⟩
    · exact iff_of_true hnone (hstream ▸ hbad)
    · exact iff_of_false hsome hgood
  | key hframe _ hbody =>
    exact hframing.deliver hphase hframe (fun _ => hbody) (List.cons_ne_nil _ _)
  | message hframe htype =>
    exact hframing.deliver hphase hframe (fun hk => absurd hk htype) (List.cons_ne_nil _ _)

theorem Counted.next (h : Counted stream writes s.round s.down)
    (hstep : RelayFromBackend.next route writes s = some t) :
    Counted stream writes t.round t.down := by
  unfold RelayFromBackend.next at hstep
  split at hstep
  · rename_i hphase
    simp only [Option.map_eq_some_iff, Prod.exists] at hstep
    obtain ⟨down, cancels', draws', hframe, rfl⟩ := hstep
    exact h.frame hphase hframe
  · rename_i hphase
    obtain rfl := Option.some.inj hstep
    exact (h.of_left (by simp [hphase])).splice hphase
  · rename_i hphase
    obtain rfl := Option.some.inj hstep
    exact (h.of_left (by simp [hphase])).release hphase s.cancels
  · simp at hstep

end Rounds

/-- However the client's writes go, a call of `relayFromBackend` that returns has counted
exactly the bytes that reached the client, unless it came to a BackendKeyData message that
cannot be decoded and had written something before; then it has counted none. The call
returns unless it is still drawing keys. -/
theorem bytes_counted_iff [GoFmt] (route : Route Pool) (writes : Nat → WriteOutcome)
    (draws : List Draw) (cancels : CancelRegistry Pool) (backend : Input) :
    let s := relayFromBackend route writes draws cancels backend
    (s.down.phase = .returned ∧
      (s.down.bytesTotal = s.down.toClient.length ↔
        ¬ (RejectsKey writes 0 backend.stream ∧ ¬ StartsWithBadKey backend.stream)) ∧
      (RejectsKey writes 0 backend.stream → s.down.bytesTotal = 0)) ∨ s.Drawing := by
  intro s
  have hcounted : Counted backend.stream writes s.round s.down :=
    drive_invariant Counted.next _ (Counted.start backend writes)
  rcases relayFromBackend_stops route writes draws cancels backend with hreturned | hdrawing
  · refine Or.inl ⟨hreturned, ?_⟩
    rcases hcounted.ended (Or.inr hreturned) with ⟨hkey, htotal⟩ | ⟨hkey, htotal, hfirst⟩
    · simp [hkey, htotal]
    · refine ⟨?_, fun _ => htotal⟩
      rw [htotal, ← hfirst, eq_comm, List.length_eq_zero_iff]
      simp [hkey]
  · exact Or.inr hdrawing

/-- AuthenticationOk, and then a key with a secret of 32 bytes. -/
def longKeyBackend : Input :=
  ⟨[Message.encode ⟨82, [0, 0, 0, 0]⟩, Message.encode ⟨msgBackendKeyData, List.replicate 36 7⟩],
    .sentinel .eof⟩

/-- Nine bytes have reached the client, and none is counted. -/
theorem rejected_key_leaves_bytes_uncounted :
    let route : Route Unit :=
      { source := ⟨str "team", str "app"⟩, database := str "app", targetDatabase := str "app"
        host := str "db", port := 5432, tls := { mode := .disable } }
    let s := @relayFromBackend Unit plainQuote route (fun _ => .full) [] {} longKeyBackend
    s.down.phase = .returned ∧ s.down.toClient = [82, 0, 0, 0, 8, 0, 0, 0, 0] ∧
      s.down.bytesTotal = 0 := by
  decide

end Proxy
end PgProxy
