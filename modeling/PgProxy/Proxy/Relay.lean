import PgProxy.Lib.Runs
import PgProxy.Pgwire.Framing
import PgProxy.Proxy.Cancel

/-!
# The relay of one session

Client bytes are copied to the backend verbatim. Backend bytes are framed until
ReadyForQuery, because the gateway puts its own cancellation key in the place of
the backend's, and copied from there on. The two directions run concurrently and
meet only when the backend has stopped talking: the relay then closes the client,
waits for the other direction and returns. An action of the relay is one round of
one of its loops, with the outcome of the write and the random draws it makes.
-/

namespace PgProxy
set_option autoImplicit false

namespace Proxy
open Pgwire

variable {Pool : Type}

def isBenignClose (err : GoError) : Bool :=
  err.is .eof || err.is .unexpectedEOF || err.is .netClosed || err.is .canceled

/-- The error a relay loop reports for the error that ended it. -/
def relayError (text : String) (err : GoError) : Option GoError :=
  if isBenignClose err then none else some (errorfWrap (str text) err)

/-! ## Client to backend -/

/-- `copied` has reached the backend; `result` is what `io.Copy` returned. -/
structure Upstream where
  client : Input
  copied : Bytes := []
  result : Option (Option GoError) := none

namespace Upstream

/-- The counter is fed once, when the copy has returned. -/
def bytesTotal (u : Upstream) : Nat := if u.result.isSome then u.copied.length else 0

def err (u : Upstream) : Option GoError :=
  u.result.join.bind (relayError "relaying client to backend")

/-- One round of the copy; a closed client connection cannot be read any more. -/
def step (closed : Bool) (w : WriteOutcome) (u : Upstream) : Option Upstream :=
  if u.result.isSome then none
  else if closed then some { u with result := some (some (.sentinel .netClosed)) }
  else
    let round := copyRound u.client w
    some { client := round.2.1, copied := u.copied ++ round.1, result := round.2.2 }

end Upstream

/-! ## Backend to client -/

inductive DownstreamPhase where
  | framing
  | splicing
  | exiting
  | returned
  deriving DecidableEq, Repr

/-- `toClient` has reached the client. `framed` and `copied` are the byte counts the
two loops keep, `bytesTotal` is what they have added to the counter so far, and
`issued` is the key the deferred release will forget. `minted` is an auxiliary record of
every key issued during the call; nothing reads it. -/
structure Downstream (Pool : Type) where
  reader : MessageReader
  phase : DownstreamPhase := .framing
  issued : Option CancelRequest := none
  minted : List (CancelRequest × CancelEntry Pool) := []
  toClient : Bytes := []
  framed : Nat := 0
  copied : Nat := 0
  bytesTotal : Nat := 0
  err : Option GoError := none

namespace Downstream

def exit (d : Downstream Pool) (err : Option GoError) : Downstream Pool :=
  { d with phase := .exiting, err }

def countFramed (d : Downstream Pool) : Downstream Pool :=
  { d with bytesTotal := d.bytesTotal + d.framed }

def countCopied (d : Downstream Pool) : Downstream Pool :=
  { d with bytesTotal := d.bytesTotal + d.copied }

/-- Write one message, and leave the framed loop after ReadyForQuery. -/
def deliver (type : UInt8) (out : Bytes) (w : WriteOutcome) (d : Downstream Pool) :
    Downstream Pool :=
  let sent := w.written out
  let d := { d with toClient := d.toClient ++ sent, framed := d.framed + sent.length }
  match w.err with
  | some e => d.countFramed.exit (relayError "writing backend message to client" e)
  | none =>
    if type = msgReadyForQuery then { d.countFramed with phase := .splicing } else d

section Deliver
variable (type : UInt8) (out : Bytes) (w : WriteOutcome) (d : Downstream Pool)

theorem deliver_spec : ∃ phase framed bytesTotal err, d.deliver type out w =
    { d with phase, toClient := d.toClient ++ w.written out, framed, bytesTotal, err } := by
  cases w with
  | full =>
    simp only [deliver, WriteOutcome.err]
    split <;> exact ⟨_, _, _, _, rfl⟩
  | short n err => exact ⟨_, _, _, _, rfl⟩

@[simp] theorem deliver_toClient :
    (d.deliver type out w).toClient = d.toClient ++ w.written out := by
  obtain ⟨_, _, _, _, h⟩ := deliver_spec type out w d
  rw [h]

@[simp] theorem deliver_reader : (d.deliver type out w).reader = d.reader := by
  obtain ⟨_, _, _, _, h⟩ := deliver_spec type out w d
  rw [h]

@[simp] theorem deliver_issued : (d.deliver type out w).issued = d.issued := by
  obtain ⟨_, _, _, _, h⟩ := deliver_spec type out w d
  rw [h]

@[simp] theorem deliver_minted : (d.deliver type out w).minted = d.minted := by
  obtain ⟨_, _, _, _, h⟩ := deliver_spec type out w d
  rw [h]

theorem deliver_phase : (d.deliver type out w).phase =
    if w.err.isSome then .exiting
    else if type = msgReadyForQuery then .splicing else d.phase := by
  cases w
  · simp only [deliver, WriteOutcome.err]
    split <;> simp_all
  · rfl

end Deliver

def spliceStep (w : WriteOutcome) (d : Downstream Pool) : Downstream Pool :=
  let (sent, rest, result) := copyRound d.reader.r w
  let reader := { d.reader with r := rest }
  let d := { d with reader, toClient := d.toClient ++ sent, copied := d.copied + sent.length }
  match result with
  | none => d
  | some err => d.countCopied.exit (err.bind (relayError "relaying backend to client"))

def releaseStep (d : Downstream Pool) (cancels : CancelRegistry Pool) :
    Downstream Pool × CancelRegistry Pool :=
  ({ d with phase := .returned },
    match d.issued with
    | some key => cancels.release key
    | none => cancels)

end Downstream

def sessionEntry (route : Route Pool) (backendKey : CancelRequest) : CancelEntry Pool :=
  { backendAddr := route.address, backendKey, tls := route.tls }

/-- One round of the framed loop. Nothing happens while the random keys drawn are
all taken. -/
def Downstream.frameStep [GoFmt] (route : Route Pool) (w : WriteOutcome) (draws : List Draw)
    (d : Downstream Pool) (cancels : CancelRegistry Pool) :
    Option (Downstream Pool × CancelRegistry Pool × List Draw) :=
  match d.reader.next with
  | (.error e, reader) =>
    let d := { d with reader }
    some (d.countFramed.exit (relayError "framing backend messages" e), cancels, draws)
  | (.ok msg, reader) =>
    let d := { d with reader }
    if msg.type = msgBackendKeyData then
      match decodeBackendKeyData msg.body with
      -- this exit alone does not feed the byte counter
      | .error e => some (d.exit (some e), cancels, draws)
      | .ok backendKey =>
        match cancels.issue (sessionEntry route backendKey) draws with
        | none => none
        | some (issued, cancels, draws) =>
          let minted := d.minted ++ [(issued, sessionEntry route backendKey)]
          -- a second key takes the place of the first one, which is then released by nobody
          let d := { d with issued := some issued, minted }
          some (d.deliver msg.type (encodeBackendKeyData issued) w, cancels, draws)
    else some (d.deliver msg.type msg.encode w, cancels, draws)

/-- What one round of the framed loop can do, in terms of the backend's stream. -/
inductive FrameRound (route : Route Pool) (w : WriteOutcome) (draws : List Draw)
    (d : Downstream Pool) (cancels : CancelRegistry Pool) :
    Downstream Pool → CancelRegistry Pool → List Draw → Prop
  | stopped {reader : MessageReader} {err : Option GoError}
      (hframe : firstFrame d.reader.r.stream = none) :
      FrameRound route w draws d cancels ({ d with reader }.countFramed.exit err) cancels draws
  | undecodable {m : Message} {rest : Bytes} {reader : MessageReader} {err : Option GoError}
      (hframe : firstFrame d.reader.r.stream = some (m, rest))
      (htype : m.type = msgBackendKeyData) (hbody : m.body.length ≠ 8) :
      FrameRound route w draws d cancels ({ d with reader }.exit err) cancels draws
  | key {m : Message} {rest buf : Bytes} {backendKey issued : CancelRequest}
      {cancels' : CancelRegistry Pool} {draws' : List Draw}
      (hframe : firstFrame d.reader.r.stream = some (m, rest))
      (htype : m.type = msgBackendKeyData) (hbody : m.body.length = 8)
      (hkey : decodeBackendKeyData m.body = .ok backendKey)
      (hissue : cancels.issue (sessionEntry route backendKey) draws =
        some (issued, cancels', draws')) :
      FrameRound route w draws d cancels
        ({ d with
            reader := ⟨afterMessage d.reader.r m.body.length, buf⟩
            issued := some issued
            minted := d.minted ++ [(issued, sessionEntry route backendKey)] }.deliver m.type
          (encodeBackendKeyData issued) w)
        cancels' draws'
  | message {m : Message} {rest buf : Bytes}
      (hframe : firstFrame d.reader.r.stream = some (m, rest))
      (htype : m.type ≠ msgBackendKeyData) :
      FrameRound route w draws d cancels
        ({ d with
            reader := ⟨afterMessage d.reader.r m.body.length, buf⟩ }.deliver m.type m.encode w)
        cancels draws

section FrameStep
variable [GoFmt] {route : Route Pool} {w : WriteOutcome} {draws draws' : List Draw}
variable {d d' : Downstream Pool} {cancels cancels' : CancelRegistry Pool}

variable (route w draws d cancels) in
theorem Downstream.frameStep_cases :
    (∃ d' cancels' draws', d.frameStep route w draws cancels = some (d', cancels', draws') ∧
      FrameRound route w draws d cancels d' cancels' draws') ∨
    (d.frameStep route w draws cancels = none ∧
      ∃ m rest, firstFrame d.reader.r.stream = some (m, rest) ∧ m.type = msgBackendKeyData ∧
        m.body.length = 8 ∧ ∀ buf ∈ draws, (cancels.lookup (randomCancelKey buf)).isSome) := by
  cases hframe : firstFrame d.reader.r.stream with
  | none =>
    obtain ⟨e, reader, hnext⟩ := MessageReader.next_of_no_frame hframe
    simp only [frameStep, hnext]
    exact .inl ⟨_, _, _, rfl, .stopped hframe⟩
  | some f =>
    obtain ⟨m, rest⟩ := f
    obtain ⟨buf, hnext⟩ := MessageReader.next_of_frame hframe
    simp only [frameStep, hnext]
    by_cases htype : m.type = msgBackendKeyData
    · rw [if_pos htype]
      by_cases hbody : m.body.length = 8
      · obtain ⟨backendKey, hkey⟩ := decodeBackendKeyData_of_length hbody
        simp only [hkey]
        cases hissue : cancels.issue (sessionEntry route backendKey) draws with
        | none =>
          exact .inr ⟨rfl, m, rest, rfl, htype, hbody,
            CancelRegistry.issue_eq_none_iff.mp hissue⟩
        | some x => exact .inl ⟨_, _, _, rfl, .key hframe htype hbody hkey hissue⟩
      · simp only [decodeBackendKeyData, if_pos hbody]
        exact .inl ⟨_, _, _, rfl, .undecodable hframe htype hbody⟩
    · rw [if_neg htype]
      exact .inl ⟨_, _, _, rfl, .message hframe htype⟩

theorem Downstream.frameStep_round
    (h : d.frameStep route w draws cancels = some (d', cancels', draws')) :
    FrameRound route w draws d cancels d' cancels' draws' := by
  rcases frameStep_cases route w draws d cancels with ⟨_, _, _, hstep, hround⟩ | ⟨hstep, -⟩
  · rw [h, Option.some.injEq, Prod.mk.injEq, Prod.mk.injEq] at hstep
    obtain ⟨rfl, rfl, rfl⟩ := hstep
    exact hround
  · simp [h] at hstep

theorem Downstream.frameStep_eq_none (h : d.frameStep route w draws cancels = none) :
    ∃ m rest, firstFrame d.reader.r.stream = some (m, rest) ∧ m.type = msgBackendKeyData ∧
      m.body.length = 8 ∧ ∀ buf ∈ draws, (cancels.lookup (randomCancelKey buf)).isSome := by
  rcases frameStep_cases route w draws d cancels with ⟨_, _, _, hstep, -⟩ | ⟨-, hdrawing⟩
  · simp [h] at hstep
  · exact hdrawing

end FrameStep

/-! ## Both directions -/

structure Relay (Pool : Type) where
  up : Upstream
  down : Downstream Pool
  clientClosed : Bool := false
  result : Option (Option GoError) := none

inductive RelayAction where
  | up (w : WriteOutcome)
  | frame (w : WriteOutcome) (draws : List Draw)
  | splice (w : WriteOutcome)
  | release
  | closeClient
  | finish

def Relay.start (client backend : Input) : Relay Pool :=
  { up := { client }, down := { reader := newMessageReader backend } }

/-- One action of the relay, which shares the cancel registry with all others. -/
def Relay.step [GoFmt] (route : Route Pool) (s : Relay Pool) (cancels : CancelRegistry Pool) :
    RelayAction → Option (Relay Pool × CancelRegistry Pool)
  | .up w => (s.up.step s.clientClosed w).map fun up => ({ s with up }, cancels)
  | .frame w draws =>
    if s.down.phase = .framing then
      (s.down.frameStep route w draws cancels).map fun (down, cancels, _) =>
        ({ s with down }, cancels)
    else none
  | .splice w =>
    if s.down.phase = .splicing then some ({ s with down := s.down.spliceStep w }, cancels)
    else none
  | .release =>
    if s.down.phase = .exiting then
      let (down, cancels) := s.down.releaseStep cancels
      some ({ s with down }, cancels)
    else none
  | .closeClient =>
    if s.down.phase = .returned ∧ s.clientClosed = false then
      some ({ s with clientClosed := true }, cancels)
    else none
  | .finish =>
    if s.clientClosed ∧ s.up.result.isSome ∧ s.result = none then
      some ({ s with result := some (errorsJoin s.down.err s.up.err) }, cancels)
    else none

/-- A relay in a connection has not returned, and it closes the client only after its other
direction has. -/
structure Relay.Running (r : Relay Pool) : Prop where
  running : r.result = none
  closed : r.clientClosed = true → r.down.phase = .returned

theorem Relay.Running.start (client backend : Input) :
    (Relay.start client backend : Relay Pool).Running :=
  ⟨rfl, by simp [Relay.start]⟩

theorem Relay.Running.step_returned [GoFmt] {route : Route Pool} {r r' : Relay Pool}
    {action : RelayAction} {cancels cancels' : CancelRegistry Pool} (h : r.Running)
    (hstep : r.step route cancels action = some (r', cancels')) :
    (r'.clientClosed = true → r'.down.phase = .returned) ∧
      (r'.result ≠ none → r'.down.phase = .returned) := by
  have hclosed := h.closed
  have hresult := h.running
  cases action with
  | up w =>
    simp only [Relay.step, Option.map_eq_some_iff, Prod.mk.injEq] at hstep
    obtain ⟨up, -, rfl, -⟩ := hstep
    exact ⟨hclosed, fun hne => absurd hresult hne⟩
  | frame w draws =>
    simp only [Relay.step, Option.ite_none_right_eq_some, Option.map_eq_some_iff,
      Prod.mk.injEq] at hstep
    obtain ⟨hphase, x, -, rfl, -⟩ := hstep
    exact ⟨fun hc => by simp [hclosed hc] at hphase, fun hne => absurd hresult hne⟩
  | splice w | release =>
    simp only [Relay.step, Option.ite_none_right_eq_some, Option.some.injEq,
      Prod.mk.injEq] at hstep
    obtain ⟨hphase, rfl, -⟩ := hstep
    exact ⟨fun hc => by simp [hclosed hc] at hphase, fun hne => absurd hresult hne⟩
  | closeClient =>
    simp only [Relay.step, Option.ite_none_right_eq_some, Option.some.injEq,
      Prod.mk.injEq] at hstep
    obtain ⟨hphase, rfl, -⟩ := hstep
    exact ⟨fun _ => hphase.1, fun hne => absurd hresult hne⟩
  | finish =>
    simp only [Relay.step, Option.ite_none_right_eq_some, Option.some.injEq,
      Prod.mk.injEq] at hstep
    obtain ⟨⟨hc, -, -⟩, rfl, -⟩ := hstep
    exact ⟨hclosed, fun _ => hclosed hc⟩

theorem Relay.Running.step [GoFmt] {route : Route Pool} {r r' : Relay Pool}
    {action : RelayAction} {cancels cancels' : CancelRegistry Pool} (h : r.Running)
    (hstep : r.step route cancels action = some (r', cancels')) (hrunning : r'.result = none) :
    r'.Running :=
  ⟨hrunning, (h.step_returned hstep).1⟩

/-! ## `relayFromBackend` on its own -/

structure RelayFromBackend (Pool : Type) where
  down : Downstream Pool
  cancels : CancelRegistry Pool
  draws : List Draw
  round : Nat := 0

/-- The next round of the call, where `writes` gives the outcome of the write made
in each round. -/
def RelayFromBackend.next [GoFmt] (route : Route Pool) (writes : Nat → WriteOutcome)
    (s : RelayFromBackend Pool) : Option (RelayFromBackend Pool) :=
  match s.down.phase with
  | .framing =>
    (s.down.frameStep route (writes s.round) s.draws s.cancels).map
      fun (down, cancels, draws) => { down, cancels, draws, round := s.round + 1 }
  | .splicing => some { s with down := s.down.spliceStep (writes s.round), round := s.round + 1 }
  | .exiting =>
    let (down, cancels) := s.down.releaseStep s.cancels
    some { s with down, cancels, round := s.round + 1 }
  | .returned => none

/-- The call, with one unit of fuel for every round it can make. -/
def relayFromBackend [GoFmt] (route : Route Pool) (writes : Nat → WriteOutcome)
    (draws : List Draw) (cancels : CancelRegistry Pool) (backend : Input) :
    RelayFromBackend Pool :=
  drive (RelayFromBackend.next route writes) (backend.weight + 3)
    { down := { reader := newMessageReader backend }, cancels, draws }

end Proxy
end PgProxy
