import PgProxy.Proxy.Relay

/-!
# What the client receives

The backend's stream splits into the frames the gateway passes on and a tail.
`rewriteFrames` is the abstract effect of the framed loop: every frame as it is,
except that a BackendKeyData frame carries the key just issued. The loop writes
exactly this, and the tail follows verbatim if and only if the frames end with
ReadyForQuery.
-/

namespace PgProxy
set_option autoImplicit false

namespace Proxy
open Pgwire

variable {Pool : Type}

/-- What one more frame adds to the bytes written, and how it changes the registry and
the draws left. There is no result if the frame holds no key it should hold, or if
every draw gives a key that is taken. -/
def rewriteFrame (route : Route Pool) (acc : Bytes × CancelRegistry Pool × List Draw)
    (m : Message) : Option (Bytes × CancelRegistry Pool × List Draw) :=
  if m.type = msgBackendKeyData then do
    let backendKey ← (decodeBackendKeyData m.body).toOption
    let (issued, left) ← acc.2.1.issue (sessionEntry route backendKey) acc.2.2
    some (acc.1 ++ encodeBackendKeyData issued, left)
  else some (acc.1 ++ m.encode, acc.2)

def rewriteFrames (route : Route Pool) (cancels : CancelRegistry Pool) (draws : List Draw)
    (frames : List Message) : Option (Bytes × CancelRegistry Pool × List Draw) :=
  frames.foldlM (rewriteFrame route) ([], cancels, draws)

def Forwardable (m : Message) : Prop :=
  m.Legal ∧ (m.type = msgBackendKeyData → m.body.length = 8)

def NotReady (frames : List Message) : Prop := ∀ m ∈ frames, m.type ≠ msgReadyForQuery

/-- The last frame, and no other, is ReadyForQuery. -/
def EndsReady (frames : List Message) : Prop :=
  ∃ init last, frames = init ++ [last] ∧ NotReady init ∧ last.type = msgReadyForQuery

def Truncated (s : Bytes) : Prop := s.length < 5 ∨ s.length < 1 + declaredFrameLength s

def IllegalLength (s : Bytes) : Prop :=
  5 ≤ s.length ∧ (declaredFrameLength s < 4 ∨ maxMessageLength < declaredFrameLength s)

/-- The three ways in which a stream holds no frame to pass on. -/
def Unforwardable (s : Bytes) : Prop :=
  Truncated s ∨ IllegalLength s ∨ StartsWithKey (fun body => body.length ≠ 8) s

theorem unforwardable_of_no_frame {s : Bytes} (h : firstFrame s = none) : Unforwardable s := by
  rcases firstFrame_eq_none_iff.mp h with hshort | hlow | hhigh | hshort
  · exact Or.inl (Or.inl hshort)
  · by_cases h5 : s.length < 5
    · exact Or.inl (Or.inl h5)
    · exact Or.inr (Or.inl ⟨by omega, Or.inl hlow⟩)
  · by_cases h5 : s.length < 5
    · exact Or.inl (Or.inl h5)
    · exact Or.inr (Or.inl ⟨by omega, Or.inr hhigh⟩)
  · exact Or.inl (Or.inr hshort)

theorem rewriteFrames_snoc (route : Route Pool) (cancels : CancelRegistry Pool)
    (draws : List Draw) (frames : List Message) (m : Message) :
    rewriteFrames route cancels draws (frames ++ [m]) =
      (rewriteFrames route cancels draws frames).bind fun acc => rewriteFrame route acc m := by
  simp [rewriteFrames, List.foldlM_append]

/-- What holds of a call after any number of rounds, by the phase it is in. -/
structure Progress (route : Route Pool) (stream : Bytes) (cancels : CancelRegistry Pool)
    (draws : List Draw) (s : RelayFromBackend Pool) (frames : List Message) (tail : Bytes)
    (written : Bytes) (cancels' : CancelRegistry Pool) (draws' : List Draw) : Prop where
  split : stream = frames.flatMap Message.encode ++ tail
  forwardable : ∀ m ∈ frames, Forwardable m
  rewritten : rewriteFrames route cancels draws frames = some (written, cancels', draws')
  framing : s.down.phase = .framing → NotReady frames ∧ s.down.toClient = written ∧
    s.down.reader.r.stream = tail ∧ s.cancels = cancels' ∧ s.draws = draws'
  splicing : s.down.phase = .splicing → EndsReady frames ∧
    ∃ sent, s.down.toClient = written ++ sent ∧ tail = sent ++ s.down.reader.r.stream
  ended : s.down.phase = .exiting ∨ s.down.phase = .returned →
    (EndsReady frames ∧ s.down.toClient = written ++ tail) ∨
    (NotReady frames ∧ Unforwardable tail ∧ s.down.toClient = written)

def InProgress (route : Route Pool) (stream : Bytes) (cancels : CancelRegistry Pool)
    (draws : List Draw) (s : RelayFromBackend Pool) : Prop :=
  ∃ frames tail written cancels' draws',
    Progress route stream cancels draws s frames tail written cancels' draws'

section Rounds
variable {route : Route Pool} {stream : Bytes} {cancels : CancelRegistry Pool}
variable {draws : List Draw} {s t : RelayFromBackend Pool}

theorem Progress.passOn {frames : List Message} {tail written : Bytes}
    {cancels₁ cancels₂ : CancelRegistry Pool} {draws₁ draws₂ : List Draw} {m : Message}
    {rest out : Bytes} {buf : Bytes} {issued : Option CancelRequest}
    {minted : List (CancelRequest × CancelEntry Pool)} {round : Nat}
    (h : Progress route stream cancels draws s frames tail written cancels₁ draws₁)
    (hphase : s.down.phase = .framing) (hframe : firstFrame tail = some (m, rest))
    (hkey : m.type = msgBackendKeyData → m.body.length = 8)
    (hout : rewriteFrame route (written, cancels₁, draws₁) m =
      some (written ++ out, cancels₂, draws₂)) :
    InProgress route stream cancels draws
      { down := { s.down with
          reader := ⟨afterMessage s.down.reader.r m.body.length, buf⟩
          issued
          minted }.deliver m.type out .full
        cancels := cancels₂
        draws := draws₂
        round } := by
  obtain ⟨hnot, hclient, hreader, -, -⟩ := h.framing hphase
  obtain ⟨htail, hlegal⟩ := firstFrame_some hframe
  have hrest : (afterMessage s.down.reader.r m.body.length).stream = rest :=
    afterMessage_stream (hreader ▸ hframe)
  have hready : m.type = msgReadyForQuery → EndsReady (frames ++ [m]) :=
    fun hm => ⟨frames, m, rfl, hnot, hm⟩
  have hmore : m.type ≠ msgReadyForQuery → NotReady (frames ++ [m]) := by
    intro hm f hf
    rcases List.mem_append.mp hf with hf | hf
    · exact hnot f hf
    · exact List.mem_singleton.mp hf ▸ hm
  -- The frame moves from the tail to the frames; the phase depends on its type.
  refine ⟨frames ++ [m], rest, written ++ out, cancels₂, draws₂, ?_⟩
  constructor
  · rw [h.split, htail]
    simp
  · intro f hf
    rcases List.mem_append.mp hf with hf | hf
    · exact h.forwardable f hf
    · exact List.mem_singleton.mp hf ▸ ⟨hlegal, hkey⟩
  · rw [rewriteFrames_snoc, h.rewritten, Option.bind_some, hout]
  all_goals
    simp only [Downstream.deliver_phase, Downstream.deliver_toClient, Downstream.deliver_reader,
      WriteOutcome.err, WriteOutcome.written, Option.isSome_none, Bool.false_eq_true, if_false,
      hphase, hclient, hrest]
    intro hp
  · by_cases hm : m.type = msgReadyForQuery
    · simp [hm] at hp
    · simp [hmore hm]
  · by_cases hm : m.type = msgReadyForQuery
    · exact ⟨hready hm, [], by simp, rfl⟩
    · simp [hm] at hp
  · by_cases hm : m.type = msgReadyForQuery <;> simp [hm] at hp

theorem Progress.stop {frames : List Message} {tail written : Bytes}
    {cancels₁ : CancelRegistry Pool} {draws₁ : List Draw}
    (h : Progress route stream cancels draws s frames tail written cancels₁ draws₁)
    (hphase : s.down.phase = .framing) (htail : Unforwardable tail)
    (hexit : t.down.phase = .exiting) (hclient : t.down.toClient = s.down.toClient) :
    InProgress route stream cancels draws t := by
  obtain ⟨hnot, hwritten, -⟩ := h.framing hphase
  refine ⟨frames, tail, written, cancels₁, draws₁, h.split, h.forwardable, h.rewritten, ?_, ?_, ?_⟩
  · simp [hexit]
  · simp [hexit]
  · exact fun _ => Or.inr ⟨hnot, htail, hclient.trans hwritten⟩

theorem InProgress.frame [GoFmt] {down : Downstream Pool} {cancels' : CancelRegistry Pool}
    {draws' : List Draw} {round : Nat} (h : InProgress route stream cancels draws s)
    (hphase : s.down.phase = .framing)
    (hstep : s.down.frameStep route .full s.draws s.cancels = some (down, cancels', draws')) :
    InProgress route stream cancels draws
      { down, cancels := cancels', draws := draws', round } := by
  obtain ⟨frames, tail, written, cancels₁, draws₁, h⟩ := h
  obtain ⟨-, -, rfl, rfl, rfl⟩ := h.framing hphase
  cases Downstream.frameStep_round hstep with
  | stopped hframe => exact h.stop hphase (unforwardable_of_no_frame hframe) rfl rfl
  | undecodable hframe htype hbody =>
    exact h.stop hphase (Or.inr (Or.inr ⟨_, _, hframe, htype, hbody⟩)) rfl rfl
  | key hframe htype hbody hkey hissue =>
    exact h.passOn hphase hframe (fun _ => hbody)
      (by simp [rewriteFrame, htype, hkey, hissue, Except.toOption])
  | message hframe htype =>
    exact h.passOn hphase hframe (fun hk => absurd hk htype) (by simp [rewriteFrame, htype])

theorem InProgress.splice (h : InProgress route stream cancels draws s)
    (hphase : s.down.phase = .splicing) {round : Nat} :
    InProgress route stream cancels draws
      { s with down := s.down.spliceStep .full, round } := by
  obtain ⟨frames, tail, written, cancels₁, draws₁, h⟩ := h
  obtain ⟨hready, sent, hclient, htail⟩ := h.splicing hphase
  obtain ⟨piece, rest, result, hround⟩ : ∃ piece rest result,
      copyRound s.down.reader.r .full = (piece, rest, result) := ⟨_, _, _, rfl⟩
  obtain ⟨hsplit, hend⟩ := copyRound_full hround
  simp only [Downstream.spliceStep, hround]
  refine ⟨frames, tail, written, cancels₁, draws₁, ?_⟩
  cases result with
  | none =>
    refine ⟨h.split, h.forwardable, h.rewritten, by simp [hphase],
      fun _ => ⟨hready, sent ++ piece, ?_, ?_⟩, by simp [hphase]⟩
    · rw [hclient, List.append_assoc]
    · rw [htail, hsplit, List.append_assoc]
  | some err =>
    refine ⟨h.split, h.forwardable, h.rewritten, by simp [Downstream.exit],
      by simp [Downstream.exit], fun _ => Or.inl ⟨hready, ?_⟩⟩
    have hrest := hend (by simp)
    simp [Downstream.exit, Downstream.countCopied, hclient, htail, hsplit, hrest]

theorem InProgress.next [GoFmt] (h : InProgress route stream cancels draws s)
    (hstep : RelayFromBackend.next route (fun _ => .full) s = some t) :
    InProgress route stream cancels draws t := by
  unfold RelayFromBackend.next at hstep
  split at hstep
  · rename_i hphase
    simp only [Option.map_eq_some_iff, Prod.exists] at hstep
    obtain ⟨down, cancels', draws', hframe, rfl⟩ := hstep
    exact h.frame hphase hframe
  · rename_i hphase
    obtain rfl := Option.some.inj hstep
    exact h.splice hphase
  · rename_i hphase
    obtain rfl := Option.some.inj hstep
    obtain ⟨frames, tail, written, cancels₁, draws₁, h⟩ := h
    exact ⟨frames, tail, written, cancels₁, draws₁, h.split, h.forwardable, h.rewritten,
      by simp, by simp,
      fun _ => h.ended (Or.inl hphase)⟩
  · simp at hstep

end Rounds

def RelayFromBackend.rank (s : RelayFromBackend Pool) : Nat :=
  match s.down.phase with
  | .framing => s.down.reader.r.weight + 3
  | .splicing => s.down.reader.r.weight + 2
  | .exiting => 1
  | .returned => 0

theorem RelayFromBackend.rank_deliver {type : UInt8} {out : Bytes} {w : WriteOutcome}
    {d : Downstream Pool} {cancels : CancelRegistry Pool} {draws : List Draw} {round bound : Nat}
    (hphase : d.phase = .framing) (hreader : d.reader.r.weight < bound) :
    RelayFromBackend.rank { down := d.deliver type out w, cancels, draws, round } < bound + 3 := by
  simp only [rank, Downstream.deliver_phase, Downstream.deliver_reader, hphase]
  split <;> omega

theorem RelayFromBackend.next_rank [GoFmt] {route : Route Pool} {writes : Nat → WriteOutcome}
    {s t : RelayFromBackend Pool} (h : RelayFromBackend.next route writes s = some t) :
    t.rank < s.rank := by
  unfold RelayFromBackend.next at h
  split at h
  · rename_i hphase
    have hrank : s.rank = s.down.reader.r.weight + 3 := by rw [rank, hphase]
    simp only [Option.map_eq_some_iff, Prod.exists] at h
    obtain ⟨down, cancels', draws', hround, rfl⟩ := h
    rw [hrank]
    cases Downstream.frameStep_round hround with
    | stopped | undecodable => simp [rank, Downstream.exit]
    | key hframe _ _ _ _ => exact rank_deliver hphase (afterMessage_weight hframe)
    | message hframe _ => exact rank_deliver hphase (afterMessage_weight hframe)
  · rename_i hphase
    obtain rfl := Option.some.inj h
    obtain ⟨piece, rest, result, hround⟩ : ∃ piece rest result,
        copyRound s.down.reader.r (writes s.round) = (piece, rest, result) := ⟨_, _, _, rfl⟩
    simp only [rank, Downstream.spliceStep, hround, hphase]
    cases result with
    | none => simpa [hphase] using copyRound_weight hround
    | some err => simp [Downstream.exit]
  · rename_i hphase
    obtain rfl := Option.some.inj h
    simp [rank, hphase]
  · simp at h

/-- The call has read a key from the backend, and every draw gives one that is taken. -/
def RelayFromBackend.Drawing (s : RelayFromBackend Pool) : Prop :=
  s.down.phase = .framing ∧ StartsWithKey (fun body => body.length = 8) s.down.reader.r.stream ∧
    ∀ buf ∈ s.draws, (s.cancels.lookup (randomCancelKey buf)).isSome

theorem relayFromBackend_stops [GoFmt] (route : Route Pool) (writes : Nat → WriteOutcome)
    (draws : List Draw) (cancels : CancelRegistry Pool) (backend : Input) :
    let s := relayFromBackend route writes draws cancels backend
    s.down.phase = .returned ∨ s.Drawing := by
  intro s
  have hstuck : RelayFromBackend.next route writes s = none :=
    drive_stops RelayFromBackend.next_rank (by simp [RelayFromBackend.rank, newMessageReader])
  unfold RelayFromBackend.next at hstuck
  split at hstuck
  · rename_i hphase
    obtain ⟨m, rest, hframe, htype, hbody, htaken⟩ :=
      Downstream.frameStep_eq_none (Option.map_eq_none_iff.mp hstuck)
    exact Or.inr ⟨hphase, ⟨m, rest, hframe, htype, hbody⟩, htaken⟩
  · simp at hstuck
  · simp at hstuck
  · rename_i hphase
    exact Or.inl hphase

/-- The bytes the client gets from a call of `relayFromBackend`, for every stream of the
backend, every chunking of it, every registry and all random draws. The call returns
unless it is still drawing keys. -/
theorem client_receives_exactly [GoFmt] (route : Route Pool) (draws : List Draw)
    (cancels : CancelRegistry Pool) (backend : Input) :
    let s := relayFromBackend route (fun _ => .full) draws cancels backend
    ∃ frames tail written cancels' draws',
      backend.stream = frames.flatMap Message.encode ++ tail ∧
      (∀ m ∈ frames, Forwardable m) ∧
      rewriteFrames route cancels draws frames = some (written, cancels', draws') ∧
      (∀ key, (encodeBackendKeyData key).length = 13 ∧ ∃ body,
        firstFrame (encodeBackendKeyData key) = some (⟨msgBackendKeyData, body⟩, []) ∧
        decodeBackendKeyData body = .ok key) ∧
      ((s.down.phase = .returned ∧ EndsReady frames ∧ s.down.toClient = written ++ tail) ∨
        (s.down.phase = .returned ∧ NotReady frames ∧ Unforwardable tail ∧
          s.down.toClient = written) ∨
        (s.down.phase = .framing ∧ NotReady frames ∧ s.down.toClient = written ∧
          StartsWithKey (fun body => body.length = 8) tail ∧
          ∀ buf ∈ draws', (cancels'.lookup (randomCancelKey buf)).isSome)) := by
  intro s
  have hstart : InProgress route backend.stream cancels draws
      { down := { reader := newMessageReader backend }, cancels, draws } :=
    ⟨[], backend.stream, [], cancels, draws, rfl, by simp, rfl,
      fun _ => ⟨by simp [NotReady], rfl, rfl, rfl, rfl⟩, by simp, by simp⟩
  obtain ⟨frames, tail, written, cancels', draws', h⟩ : InProgress route backend.stream cancels
      draws s := drive_invariant InProgress.next _ hstart
  refine ⟨frames, tail, written, cancels', draws', h.split, h.forwardable, h.rewritten,
    encodeBackendKeyData_carries, ?_⟩
  rcases relayFromBackend_stops route (fun _ => .full) draws cancels backend with
    hphase | ⟨hphase, hkey, htaken⟩
  · rcases h.ended (Or.inr hphase) with ⟨hready, hclient⟩ | ⟨hnot, htail, hclient⟩
    · exact Or.inl ⟨hphase, hready, hclient⟩
    · exact Or.inr (Or.inl ⟨hphase, hnot, htail, hclient⟩)
  · obtain ⟨hnot, hclient, rfl, rfl, rfl⟩ := h.framing hphase
    exact Or.inr (Or.inr ⟨hphase, hnot, hclient, hkey, htaken⟩)

end Proxy
end PgProxy
