import PgProxy.Proxy.Admission

/-!
# The accept loop

`Start` listens, accepts connections until the context ends or `Accept` fails for good, and
drains. Every accepted connection gets a goroutine of its own, so a run of `Start` is a run
of the gateway with the steps of the loop in between. The loop goes on after a failure only
if the failure says that it is a timeout.
-/

namespace PgProxy
set_option autoImplicit false

namespace Proxy

variable {Pool : Type}

/-- What a `net.Error` says about itself. -/
structure NetError where
  timeout : Bool
  temporary : Bool
  deriving DecidableEq

/-- An error of `Accept`, with what `errors.As` finds in it. -/
structure AcceptError where
  err : GoError
  netErr : Option NetError
  deriving DecidableEq

def AcceptError.timeout (e : AcceptError) : Bool := e.netErr.any NetError.timeout

def AcceptError.temporary (e : AcceptError) : Bool := e.netErr.any NetError.temporary

/-- Durations are in nanoseconds. -/
def minBackoff : Nat := 5 * 10 ^ 6
def maxBackoff : Nat := 10 ^ 9

def nextBackoff (current : Nat) : Nat :=
  if current = 0 then minBackoff
  else if current * 2 < maxBackoff then current * 2 else maxBackoff

/-- Where `Start` is; `draining` holds what the loop returned. -/
inductive StartPhase where
  | fresh
  | accepting
  | waiting
  | draining (acceptErr : Option GoError)
  | returned (err : Option GoError)
  deriving DecidableEq

structure Running (Pool : Type) where
  gateway : Gateway Pool := {}
  phase : StartPhase := .fresh
  backoff : Nat := 0
  cancelled : Bool := false

inductive RunAction (Pool : Type) where
  | listen (err : Option GoError)
  | accept (outcome : Except AcceptError Input)
  /-- the timer of the wait fires -/
  | retry
  /-- the wait sees the end of the context -/
  | stop
  | drained
  /-- the context ends -/
  | cancel
  | track (i : Nat)
  | conn (i : Nat) (action : ConnAction Pool)

def Stage.isClosed : Stage Pool → Bool
  | .closed => true
  | _ => false

def Running.failed (s : Running Pool) (e : AcceptError) : Running Pool :=
  if s.cancelled then { s with phase := .draining none }
  else if e.timeout then { s with backoff := nextBackoff s.backoff, phase := .waiting }
  else
    { s with
      phase := .draining (some (errorfWrap (str "proxy: accepting connections") e.err)) }

def Running.step [GoFmt] (cfg : Config) (listenAddress : GoString) (s : Running Pool) :
    RunAction Pool → Option (Running Pool)
  | .listen err =>
    if s.phase = .fresh then
      match err with
      | some e =>
        let err := errorfWrap (str "proxy: listening on " ++ listenAddress) e
        some { s with phase := .returned (some err) }
      | none => some { s with phase := .accepting }
    else none
  | .accept (.error e) => if s.phase = .accepting then some (s.failed e) else none
  | .accept (.ok client) =>
    if s.phase = .accepting then
      (s.gateway.step cfg (.accept client)).map fun gateway => { s with gateway, backoff := 0 }
    else none
  | .retry => if s.phase = .waiting then some { s with phase := .accepting } else none
  | .stop =>
    if s.phase = .waiting ∧ s.cancelled then some { s with phase := .draining none } else none
  | .drained =>
    match s.phase with
    | .draining acceptErr =>
      -- a grace period that has run out closes connections, and the wait goes on
      if s.gateway.server.conns.all fun c => c.stage.isClosed then
        some { s with phase := .returned acceptErr }
      else none
    | _ => none
  | .cancel => some { s with cancelled := true }
  | .track i => (s.gateway.step cfg (.track i)).map fun gateway => { s with gateway }
  | .conn i action => (s.gateway.step cfg (.conn i action)).map fun gateway => { s with gateway }

/-! ## The connections -/

/-- The action of the gateway that an action of `Start` is. -/
def RunAction.gateway : RunAction Pool → Option (GatewayAction Pool)
  | .accept (.ok client) => some (.accept client)
  | .track i => some (.track i)
  | .conn i action => some (.conn i action)
  | _ => none

def RunAction.accepted : RunAction Pool → Option Input
  | .accept (.ok client) => some client
  | _ => none

def GatewayAction.accepted : GatewayAction Pool → Option Input
  | .accept client => some client
  | _ => none

theorem map_input_set {conns : List (Connection Pool)} {i : Nat} {c c' : Connection Pool}
    (hc : conns[i]? = some c) (hinput : c'.input = c.input) :
    (conns.set i c').map Connection.input = conns.map Connection.input := by
  obtain ⟨hlt, rfl⟩ := List.getElem?_eq_some_iff.mp hc
  have hlt' : i < (conns.map Connection.input).length := by simpa using hlt
  have hsame : c'.input = (conns.map Connection.input)[i] := by rw [List.getElem_map, hinput]
  rw [List.map_set, hsame, List.set_getElem_self]

theorem Gateway.step_accepted [GoFmt] {cfg : Config} {past : List (GatewayAction Pool)}
    {s t : Gateway Pool} {action : GatewayAction Pool}
    (h : s.server.conns.map Connection.input = past.filterMap GatewayAction.accepted)
    (hstep : s.step cfg action = some t) :
    t.server.conns.map Connection.input =
      (past ++ [action]).filterMap GatewayAction.accepted := by
  rw [List.filterMap_append, ← h]
  rcases Gateway.step_cases hstep with ⟨client, rfl, rfl⟩ | ⟨i, c, rfl, -, -, -, rfl⟩ |
    ⟨i, a, c, c', events, rfl, hconn⟩
  · simp [GatewayAction.accepted]
  · exact (List.append_nil _).symm
  · rw [hconn.conns, map_input_set hconn.conn hconn.move.input]
    exact (List.append_nil _).symm

section Steps
variable [GoFmt] {cfg : Config} {listenAddress : GoString} {s t : Running Pool}

theorem Running.step_gateway {action : RunAction Pool}
    (h : s.step cfg listenAddress action = some t) :
    exec (Gateway.step cfg) s.gateway action.gateway.toList = some t.gateway := by
  cases action with
  | listen err =>
    simp only [Running.step, Option.ite_none_right_eq_some] at h
    obtain ⟨-, h⟩ := h
    cases err <;> (obtain rfl := Option.some.inj h; rfl)
  | accept outcome =>
    cases outcome with
    | error e =>
      simp only [Running.step, Option.ite_none_right_eq_some, Option.some.injEq] at h
      obtain ⟨-, rfl⟩ := h
      unfold Running.failed
      split
      · rfl
      · split <;> rfl
    | ok client =>
      simp only [Running.step, Option.ite_none_right_eq_some, Option.map_eq_some_iff] at h
      obtain ⟨-, gateway, hgateway, rfl⟩ := h
      exact exec_single hgateway
  | retry | stop =>
    simp only [Running.step, Option.ite_none_right_eq_some, Option.some.injEq] at h
    obtain ⟨-, rfl⟩ := h
    rfl
  | drained =>
    unfold Running.step at h
    dsimp only at h
    split at h
    · simp only [Option.ite_none_right_eq_some, Option.some.injEq] at h
      obtain ⟨-, rfl⟩ := h
      rfl
    · simp at h
  | cancel =>
    obtain rfl := Option.some.inj h
    rfl
  | track i | conn i action =>
    obtain ⟨gateway, hgateway, rfl⟩ := Option.map_eq_some_iff.mp h
    exact exec_single hgateway

theorem Running.accepted {actions : List (RunAction Pool)}
    (hrun : exec (Running.step cfg listenAddress) {} actions = some s) :
    s.gateway.server.conns.map Connection.input = actions.filterMap RunAction.accepted := by
  have hgateway : exec (Gateway.step cfg) {} (actions.filterMap RunAction.gateway) =
      some s.gateway := exec_refines Running.step_gateway hrun
  have hlabel : (RunAction.accepted : RunAction Pool → Option Input) = fun action =>
      action.gateway.bind GatewayAction.accepted := by
    funext action
    cases action with
    | accept outcome => cases outcome <;> rfl
    | listen | retry | stop | drained | cancel | track | conn => rfl
  have haccepted : s.gateway.server.conns.map Connection.input =
      ([] ++ actions.filterMap RunAction.gateway).filterMap GatewayAction.accepted :=
    exec_history (I := fun past t => t.server.conns.map Connection.input =
      past.filterMap GatewayAction.accepted) Gateway.step_accepted rfl hgateway
  rw [haccepted, List.nil_append, List.filterMap_filterMap, hlabel]

end Steps

/-! ## The loop -/

/-- Why the loop returned: the context had ended, or `Accept` failed and did not say that it
was a timeout. -/
def LoopEnded (past : List (RunAction Pool)) (err : Option GoError) : Prop :=
  (err = none ∧ .cancel ∈ past) ∨
  ∃ e, .accept (.error e) ∈ past ∧ e.timeout = false ∧
    err = some (errorfWrap (str "proxy: accepting connections") e.err)

theorem LoopEnded.mono {past : List (RunAction Pool)} {err : Option GoError}
    (h : LoopEnded past err) (action : RunAction Pool) : LoopEnded (past ++ [action]) err := by
  rcases h with ⟨herr, hcancel⟩ | ⟨e, hmem, htimeout, herr⟩
  · exact Or.inl ⟨herr, List.mem_append_left _ hcancel⟩
  · exact Or.inr ⟨e, List.mem_append_left _ hmem, htimeout, herr⟩

/-- What holds of `Start` and its accept loop after the actions `past`. -/
structure LoopState (listenAddress : GoString) (past : List (RunAction Pool))
    (s : Running Pool) : Prop where
  cancelled : s.cancelled = true → .cancel ∈ past
  draining : ∀ {err}, s.phase = .draining err → LoopEnded past err
  returned : ∀ {err}, s.phase = .returned err → LoopEnded past err ∨
    ∃ e, .listen (some e) ∈ past ∧
      err = some (errorfWrap (str "proxy: listening on " ++ listenAddress) e)
  backoff : s.backoff = 0 ∨ (minBackoff ≤ s.backoff ∧ s.backoff ≤ maxBackoff)
  waiting : s.phase = .waiting → s.backoff ≠ 0

theorem nextBackoff_bounds {current : Nat}
    (h : current = 0 ∨ (minBackoff ≤ current ∧ current ≤ maxBackoff)) :
    minBackoff ≤ nextBackoff current ∧ nextBackoff current ≤ maxBackoff := by
  unfold nextBackoff minBackoff maxBackoff at *
  split
  · omega
  · split <;> omega

theorem LoopState.start (listenAddress : GoString) :
    LoopState listenAddress [] ({} : Running Pool) :=
  ⟨by simp, by simp, by simp, Or.inl rfl, by simp⟩

section Loop
variable {listenAddress : GoString} {past : List (RunAction Pool)} {s t : Running Pool}

/-- An action that leaves the loop alone, as those of the connections do. -/
theorem LoopState.frame (h : LoopState listenAddress past s) (action : RunAction Pool)
    (hcancelled : t.cancelled = true → s.cancelled = true ∨ action = .cancel)
    (hphase : t.phase = s.phase) (hbackoff : t.backoff = s.backoff) :
    LoopState listenAddress (past ++ [action]) t := by
  refine ⟨?_, ?_, ?_, hbackoff ▸ h.backoff, ?_⟩
  · intro hc
    rcases hcancelled hc with hc | rfl
    · exact List.mem_append_left _ (h.cancelled hc)
    · exact List.mem_append_right _ (List.mem_singleton_self _)
  · intro err herr
    exact (h.draining (hphase ▸ herr)).mono action
  · intro err herr
    rcases h.returned (hphase ▸ herr) with hended | ⟨e, hmem, herr⟩
    · exact Or.inl (hended.mono action)
    · exact Or.inr ⟨e, List.mem_append_left _ hmem, herr⟩
  · intro hwaiting
    rw [hbackoff]
    exact h.waiting (hphase ▸ hwaiting)

/-- An action after which the loop calls `Accept` again. -/
theorem LoopState.accepting (h : LoopState listenAddress past s) (action : RunAction Pool)
    (hcancelled : t.cancelled = s.cancelled) (hphase : t.phase = .accepting)
    (hbackoff : t.backoff = 0 ∨ t.backoff = s.backoff) :
    LoopState listenAddress (past ++ [action]) t := by
  refine ⟨?_, by simp [hphase], by simp [hphase], ?_, by simp [hphase]⟩
  · intro hc
    exact List.mem_append_left _ (h.cancelled (hcancelled ▸ hc))
  · rcases hbackoff with hzero | hsame
    · exact Or.inl hzero
    · rw [hsame]
      exact h.backoff

/-- An action that ends the loop. -/
theorem LoopState.ends (h : LoopState listenAddress past s) {action : RunAction Pool}
    {err : Option GoError} (hended : LoopEnded (past ++ [action]) err) :
    LoopState listenAddress (past ++ [action]) { s with phase := .draining err } := by
  refine ⟨fun hc => List.mem_append_left _ (h.cancelled hc), ?_, by simp, h.backoff, by simp⟩
  intro err' herr
  obtain rfl := StartPhase.draining.inj herr
  exact hended

theorem LoopState.failed (h : LoopState listenAddress past s) (e : AcceptError) :
    LoopState listenAddress (past ++ [.accept (.error e)]) (s.failed e) := by
  unfold Running.failed
  split
  · rename_i hcancelled
    exact h.ends (Or.inl ⟨rfl, List.mem_append_left _ (h.cancelled hcancelled)⟩)
  · split
    · have hbounds := nextBackoff_bounds h.backoff
      refine ⟨fun hc => List.mem_append_left _ (h.cancelled hc), by simp, by simp,
        Or.inr hbounds, fun _ hzero => ?_⟩
      have hpos : nextBackoff s.backoff = 0 := hzero
      rw [hpos, minBackoff] at hbounds
      omega
    · rename_i htimeout
      exact h.ends (Or.inr ⟨e, List.mem_append_right _ (List.mem_singleton_self _),
        by simpa using htimeout, rfl⟩)

theorem LoopState.step [GoFmt] {cfg : Config} {action : RunAction Pool}
    (h : LoopState listenAddress past s) (hstep : s.step cfg listenAddress action = some t) :
    LoopState listenAddress (past ++ [action]) t := by
  cases action with
  | listen err =>
    simp only [Running.step, Option.ite_none_right_eq_some] at hstep
    obtain ⟨-, hstep⟩ := hstep
    cases err with
    | some e =>
      obtain rfl := Option.some.inj hstep
      refine ⟨fun hc => List.mem_append_left _ (h.cancelled hc), by simp, ?_, h.backoff, by simp⟩
      intro err herr
      obtain rfl := StartPhase.returned.inj herr
      exact Or.inr ⟨e, List.mem_append_right _ (List.mem_singleton_self _), rfl⟩
    | none =>
      obtain rfl := Option.some.inj hstep
      exact h.accepting _ rfl rfl (Or.inr rfl)
  | accept outcome =>
    cases outcome with
    | error e =>
      simp only [Running.step, Option.ite_none_right_eq_some, Option.some.injEq] at hstep
      obtain ⟨-, rfl⟩ := hstep
      exact h.failed e
    | ok client =>
      simp only [Running.step, Option.ite_none_right_eq_some, Option.map_eq_some_iff] at hstep
      obtain ⟨hphase, gateway, -, rfl⟩ := hstep
      exact h.accepting _ rfl hphase (Or.inl rfl)
  | retry =>
    simp only [Running.step, Option.ite_none_right_eq_some, Option.some.injEq] at hstep
    obtain ⟨-, rfl⟩ := hstep
    exact h.accepting _ rfl rfl (Or.inr rfl)
  | stop =>
    simp only [Running.step, Option.ite_none_right_eq_some, Option.some.injEq] at hstep
    obtain ⟨⟨-, hcancelled⟩, rfl⟩ := hstep
    exact h.ends (Or.inl ⟨rfl, List.mem_append_left _ (h.cancelled hcancelled)⟩)
  | drained =>
    unfold Running.step at hstep
    dsimp only at hstep
    split at hstep
    · rename_i acceptErr hphase
      simp only [Option.ite_none_right_eq_some, Option.some.injEq] at hstep
      obtain ⟨-, rfl⟩ := hstep
      refine ⟨fun hc => List.mem_append_left _ (h.cancelled hc), by simp, ?_, h.backoff, by simp⟩
      intro err herr
      obtain rfl := StartPhase.returned.inj herr
      exact Or.inl ((h.draining hphase).mono _)
    · simp at hstep
  | cancel =>
    obtain rfl := Option.some.inj hstep
    exact h.frame _ (fun _ => Or.inr rfl) rfl rfl
  | track i | conn i action =>
    obtain ⟨gateway, -, rfl⟩ := Option.map_eq_some_iff.mp hstep
    exact h.frame _ Or.inl rfl rfl

/-- A failure of `Accept` that is not a temporary one, and the error made of it. -/
def LastingFailure (actions : List (RunAction Pool)) (err : Option GoError) : Prop :=
  ∃ e, .accept (.error e) ∈ actions ∧ e.temporary = false ∧
    err = some (errorfWrap (str "proxy: accepting connections") e.err)

/-- In every run of `Start` whose context does not end, if the temporary failures of `Accept`
all say that they are timeouts: there is one `serve` for every connection accepted, in
order; the loop, and `Start` once it has listened, return only after a failure that was not
temporary, and with its error; and after a temporary failure the loop waits between five
milliseconds and a second and then accepts again. -/
theorem accept_loop_survives_timeouts [GoFmt] {cfg : Config} {actions : List (RunAction Pool)}
    (hclass : ∀ e, .accept (.error e) ∈ actions → e.temporary = true → e.timeout = true)
    (hctx : .cancel ∉ actions)
    (hrun : exec (Running.step cfg listenAddress) {} actions = some s) :
    s.gateway.server.conns.map Connection.input = actions.filterMap RunAction.accepted ∧
    (∀ err, s.phase = .draining err → LastingFailure actions err) ∧
    (∀ err, s.phase = .returned err → LastingFailure actions err ∨
      ∃ e, .listen (some e) ∈ actions ∧
        err = some (errorfWrap (str "proxy: listening on " ++ listenAddress) e)) ∧
    (s.phase = .waiting → minBackoff ≤ s.backoff ∧ s.backoff ≤ maxBackoff ∧
      ∃ t, s.step cfg listenAddress .retry = some t ∧ t.phase = .accepting) := by
  have hs : LoopState listenAddress actions s :=
    exec_history LoopState.step (LoopState.start listenAddress) hrun
  have hlasting : ∀ err, LoopEnded actions err → LastingFailure actions err := by
    rintro err (⟨-, hcancel⟩ | ⟨e, hmem, htimeout, herr⟩)
    · exact absurd hcancel hctx
    · refine ⟨e, hmem, ?_, herr⟩
      by_contra htemporary
      simp [hclass e hmem (by simpa using htemporary)] at htimeout
  refine ⟨Running.accepted hrun, ?_, ?_, ?_⟩
  · intro err herr
    exact hlasting err (hs.draining herr)
  · intro err herr
    rcases hs.returned herr with hended | hlisten
    · exact Or.inl (hlasting err hended)
    · exact Or.inr hlisten
  · intro hwaiting
    rcases hs.backoff with hzero | ⟨hmin, hmax⟩
    · exact absurd hzero (hs.waiting hwaiting)
    · exact ⟨hmin, hmax, _, by rw [Running.step, if_pos hwaiting], rfl⟩

end Loop

def timedOut : AcceptError :=
  { err := .other (str "accept tcp [::]:5432: i/o timeout")
    netErr := some { timeout := true, temporary := true } }

def tooManyOpenFiles : AcceptError :=
  { err := .other (str "accept tcp [::]:5432: accept4: too many open files")
    netErr := some { timeout := false, temporary := true } }

theorem accept_loop_survives_timeouts_once :
    ∃ s : Running Unit, exec (@Running.step Unit plainQuote {} (str ":5432")) {}
        [.listen none, .accept (.ok sampleClient), .accept (.error timedOut), .retry,
          .accept (.ok sampleClient)] = some s ∧
      s.gateway.server.conns.map Connection.input = [sampleClient, sampleClient] ∧
      ∀ err, s.phase ≠ .draining err := by
  obtain ⟨s, hrun⟩ : ∃ s : Running Unit, exec (@Running.step Unit plainQuote {} (str ":5432")) {}
      [.listen none, .accept (.ok sampleClient), .accept (.error timedOut), .retry,
        .accept (.ok sampleClient)] = some s := ⟨_, rfl⟩
  obtain ⟨hconns, hdraining, -, -⟩ := @accept_loop_survives_timeouts Unit _ s plainQuote _ _
    (by simp [timedOut, AcceptError.timeout]) (by simp) hrun
  refine ⟨s, hrun, hconns, fun err herr => ?_⟩
  obtain ⟨e, hmem, htemporary, -⟩ := hdraining err herr
  obtain rfl : e = timedOut := by simpa using hmem
  exact absurd htemporary (by decide)

/-- `Accept` fails for want of a file descriptor while a client is connected. -/
def exhaustedRun : List (RunAction Unit) :=
  [.listen none, .accept (.ok ⟨[], .sentinel .eof⟩), .accept (.error tooManyOpenFiles),
    .track 0, .conn 0 (.acquireSlot .full), .conn 0 (.handle sampleEnv sampleTable),
    .conn 0 .releaseSlot, .conn 0 .untrack, .drained]

/-- The failure was temporary and the context had not ended, and still the gateway accepts
nothing any more and `Start` returns the error once the client has left. -/
theorem exhausted_descriptors_end_the_loop :
    tooManyOpenFiles.temporary = true ∧ tooManyOpenFiles.timeout = false ∧
    .cancel ∉ exhaustedRun ∧
    ∃ s, exec (@Running.step Unit plainQuote {} (str ":5432")) {} exhaustedRun = some s ∧
      s.phase = .returned (some (errorfWrap (str "proxy: accepting connections")
        tooManyOpenFiles.err)) ∧
      ∀ outcome, @Running.step Unit plainQuote {} (str ":5432") s (.accept outcome) = none := by
  refine ⟨rfl, rfl, by simp [exhaustedRun], _, rfl, rfl, ?_⟩
  intro outcome
  cases outcome with
  | error e => rfl
  | ok client => rfl

end Proxy
end PgProxy
