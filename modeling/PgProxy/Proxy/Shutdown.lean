import PgProxy.Lib.Tally
import PgProxy.Proxy.AcceptLoop
import PgProxy.Proxy.Progress

/-!
# How `Start` ends

Once the accept loop has returned, `drain` waits for the connections that are left. When the
grace period is over it closes the clients it finds in `activeConn`, and goes on waiting: it
is not the end of the period that lets `Start` return. A client that never speaks, or never
reads, holds up its relay until it is closed, and connections that were not in `activeConn`
find no backend any more once the context has ended. What can still hold up a relay, and `Start`
with it, is its backend: nobody closes it while the relay writes to it or waits for its word. A
backend that takes what it is sent, and answers the end of its client with its own, lets go.
-/

namespace PgProxy
set_option autoImplicit false

def WriteOutcome.Refused : WriteOutcome → Prop
  | .full => False
  | .short n e => n = 0 ∧ e.is .netClosed = true

namespace Proxy
open Pgwire

variable {Pool : Type}

/-! ## The machine -/

/-- `cut` are the connections whose client `drain` has closed. -/
structure Lifecycle (Pool : Type) where
  running : Running Pool := {}
  expired : Bool := false
  cut : Finset Nat := ∅

inductive LifeAction (Pool : Type) where
  | run (action : RunAction Pool)
  /-- the grace period is over; TLS still holds so many reads of each client -/
  | expire (buffered : Nat → Nat)

def closedInput (buffered : Nat) (client : Input) : Input :=
  { chunks := client.chunks.take buffered, fin := .sentinel .netClosed }

def Stage.closeClient (buffered : Nat) : Stage Pool → Stage Pool
  | .relaying route relay =>
    .relaying route { relay with
      up := { relay.up with client := closedInput buffered relay.up.client } }
  | stage => stage

def Connection.closeClient (buffered : Nat) (c : Connection Pool) : Connection Pool :=
  { c with stage := c.stage.closeClient buffered }

/-- The loop of `drain` over `activeConn`, under its mutex. -/
def Gateway.closeClients (buffered : Nat → Nat) (s : Gateway Pool) : Gateway Pool :=
  { s with server := { s.server with
      conns := s.server.conns.mapIdx fun i c =>
        if i ∈ s.activeConn then c.closeClient (buffered i) else c } }

def Lifecycle.step [GoFmt] (cfg : Config) (listenAddress : GoString) (s : Lifecycle Pool) :
    LifeAction Pool → Option (Lifecycle Pool)
  | .run action => (s.running.step cfg listenAddress action).map fun running => { s with running }
  | .expire buffered =>
    match s.running.phase, s.expired with
    | .draining _, false =>
      some
        { running := { s.running with gateway := s.running.gateway.closeClients buffered }
          expired := true
          cut := s.running.gateway.activeConn }
    | _, _ => none

/-! ## What a connection meets -/

/-- The peers that hold up a relay: a silent one says nothing and does not close its connection,
a stalled one does not take what is written to it. -/
structure World (Pool : Type) where
  clientSilent : Nat → Relay Pool → Bool
  clientStalled : Nat → Relay Pool → Bool
  backendSilent : Nat → Relay Pool → Bool
  backendStalled : Nat → Relay Pool → Bool

/-- Backends take what they are sent, and have something to say once the end of the client has
been passed on to them. -/
structure World.Responsive (world : World Pool) : Prop where
  takes : ∀ i relay, world.backendStalled i relay = false
  answers : ∀ i relay, relay.up.result.isSome = true → world.backendSilent i relay = false

def Network.Unreachable (net : Network Pool) : Prop := ∀ address, ∃ e, net.dial address = .error e

/-- A read or a write on a client that has been closed returns. A write to the backend returns
when the backend takes it, and a read when it says something, whether the client is closed or
not. -/
def Relay.Meets (world : World Pool) (i : Nat) (cut : Prop) (relay : Relay Pool) :
    RelayAction → Prop
  | .up _ => world.backendStalled i relay = false ∧
      (cut ∨ relay.clientClosed = true ∨ world.clientSilent i relay = false)
  | .frame w _ | .splice w =>
    (cut → w.Refused) ∧ (cut ∨ world.clientStalled i relay = false) ∧
      world.backendSilent i relay = false
  | .release | .closeClient | .finish => True

/-- A closed client takes no write and no deadline, and after the end of the context no
backend is reached. -/
def Connection.Meets (world : World Pool) (i : Nat) (cut cancelled : Prop) (c : Connection Pool) :
    ConnAction Pool → Prop
  | .acquireSlot fatal => cut → fatal.Refused
  | .handle env _ => (cut → env.setDeadline ≠ none) ∧ (cancelled → env.network.Unreachable)
  | .forward net _ => cancelled → net.Unreachable
  | .relay action => ∀ route relay, c.stage = .relaying route relay → relay.Meets world i cut action
  | .lookup | .releaseSlot | .untrack => True

/-- The context ends once, and connections meet what they can meet. -/
def Lifecycle.Meets (world : World Pool) (s : Lifecycle Pool) : LifeAction Pool → Prop
  | .run .cancel => s.running.cancelled = false
  | .run (.conn i a) => ∀ c, s.running.gateway.server.conns[i]? = some c →
      c.Meets world i (i ∈ s.cut) (s.running.cancelled = true) a
  | _ => True

/-! ## Closing the clients -/

theorem closedInput_weight (buffered : Nat) (client : Input) :
    (closedInput buffered client).weight ≤ client.weight := by
  have hstream : (client.chunks.take buffered).flatten.length ≤ client.chunks.flatten.length :=
    ((List.take_sublist _ _).flatten).length_le
  exact Nat.add_le_add hstream (List.take_sublist _ _).length_le

theorem Gateway.closeClients_conns (buffered : Nat → Nat) (s : Gateway Pool) (i : Nat) :
    (s.closeClients buffered).server.conns[i]? = s.server.conns[i]?.map fun c =>
      if i ∈ s.activeConn then c.closeClient (buffered i) else c :=
  List.getElem?_mapIdx

theorem Gateway.closeClients_length (buffered : Nat → Nat) (s : Gateway Pool) :
    (s.closeClients buffered).server.conns.length = s.server.conns.length :=
  List.length_mapIdx

theorem Gateway.closeClients_conn {buffered : Nat → Nat} {s : Gateway Pool} {i : Nat}
    {d : Connection Pool} (h : (s.closeClients buffered).server.conns[i]? = some d) :
    ∃ c, s.server.conns[i]? = some c ∧
      (d = c ∨ i ∈ s.activeConn ∧ d = c.closeClient (buffered i)) := by
  rw [Gateway.closeClients_conns] at h
  obtain ⟨c, hc, rfl⟩ := Option.map_eq_some_iff.mp h
  refine ⟨c, hc, ?_⟩
  split
  · exact Or.inr ⟨by assumption, rfl⟩
  · exact Or.inl rfl

section Stages
variable {buffered : Nat} {stage : Stage Pool}

theorem Stage.closeClient_eq_closed : stage.closeClient buffered = .closed ↔ stage = .closed := by
  cases stage <;> simp [Stage.closeClient]

theorem Stage.closeClient_relaying {route : Route Pool} {relay : Relay Pool}
    (h : stage.closeClient buffered = .relaying route relay) :
    ∃ relay', stage = .relaying route relay' ∧ relay = { relay' with
      up := { relay'.up with client := closedInput buffered relay'.up.client } } := by
  cases stage with
  | relaying route' relay' =>
    obtain ⟨rfl, rfl⟩ := Stage.relaying.inj h
    exact ⟨relay', rfl, rfl⟩
  | tracked | admitted | looking | forwarding | handled | leaving | closed =>
    simp [Stage.closeClient] at h

theorem Stage.closeClient_slotHistory {events : List SlotEvent}
    (h : stage.SlotHistory events) : (stage.closeClient buffered).SlotHistory events := by
  cases stage <;> exact h

theorem Stage.closeClient_rank (buffered : Nat) (stage : Stage Pool) :
    (stage.closeClient buffered).rank ≤ stage.rank := by
  cases stage with
  | relaying route relay =>
    have hup : Upstream.rank ⟨closedInput buffered relay.up.client, relay.up.copied,
        relay.up.result⟩ ≤ relay.up.rank := by
      unfold Upstream.rank
      split
      · exact Nat.le_refl _
      · exact Nat.succ_le_succ (closedInput_weight buffered relay.up.client)
    simp only [Stage.closeClient, Stage.rank, Relay.rank]
    omega
  | tracked | admitted | looking | forwarding | handled | leaving | closed => exact Nat.le_refl _

end Stages

theorem Gateway.closeClients_rankOf (buffered : Nat → Nat) (s : Gateway Pool) (i : Nat) :
    (s.closeClients buffered).rankOf i ≤ s.rankOf i := by
  rw [Gateway.rankOf, Gateway.rankOf, Gateway.closeClients_conns]
  cases s.server.conns[i]? with
  | none => exact Nat.le_refl _
  | some c =>
    simp only [Option.map_some, Option.elim_some]
    split
    · exact Stage.closeClient_rank (buffered i) c.stage
    · exact Nat.le_refl _

theorem Gateway.Sound.closeClients {cfg : Config} {s : Gateway Pool} (h : s.Sound cfg)
    (buffered : Nat → Nat) : (s.closeClients buffered).Sound cfg := by
  have hrecorded : Recorded (s.closeClients buffered) := by
    refine ⟨?_, ?_, ?_, ?_⟩
    · intro i d hd
      obtain ⟨c, hc, rfl | ⟨-, rfl⟩⟩ := Gateway.closeClients_conn hd
      · exact h.recorded.history hc
      · exact Stage.closeClient_slotHistory (h.recorded.history hc)
    · intro i hi
      rw [Gateway.closeClients_length] at hi
      exact h.recorded.fresh hi
    · intro i hi
      obtain ⟨c, hc, hopen⟩ := h.recorded.active hi
      refine ⟨_, by rw [Gateway.closeClients_conns, hc, Option.map_some], ?_⟩
      split
      · exact fun hclosed => hopen (Stage.closeClient_eq_closed.mp hclosed)
      · exact hopen
    · intro i d hd htracked hopen
      obtain ⟨c, hc, rfl | ⟨hactive, rfl⟩⟩ := Gateway.closeClients_conn hd
      · exact h.recorded.entered hc htracked hopen
      · exact hactive
  refine ⟨hrecorded, fun hmax => ⟨hrecorded, ?_, (h.slots hmax).bound⟩, ?_⟩
  · have hholders : (s.closeClients buffered).holders = s.holders := by
      rw [Gateway.holders, Gateway.holders, Gateway.closeClients_length]
      rfl
    rw [hholders]
    exact (h.slots hmax).occupancy
  · intro i d route relay hd hstage
    obtain ⟨c, hc, rfl | ⟨-, rfl⟩⟩ := Gateway.closeClients_conn hd
    · exact h.relays hc hstage
    · obtain ⟨relay', hrelaying, rfl⟩ := Stage.closeClient_relaying hstage
      exact ⟨(h.relays hc hrelaying).running, (h.relays hc hrelaying).closed⟩

/-! ## The end of the context -/

theorem dialBackend_unreachable {net : Network Pool} (h : net.Unreachable) (route : Route Pool) :
    ∃ e, (dialBackend net route).conn = .error e := by
  obtain ⟨e, he⟩ := h route.address
  unfold dialBackend
  rw [he]
  exact ⟨_, rfl⟩

section Moves
variable [GoFmt] {cfg : Config} {sh sh' : Shared Pool} {c c' : Connection Pool}
variable {a : ConnAction Pool} {events : List (CancelEvent Pool)}

theorem ConnMove.no_new_relay {world : World Pool} {i : Nat} {cut : Prop}
    (h : ConnMove cfg sh c a c' sh' events) (hmeets : c.Meets world i cut True a)
    {route : Route Pool} {relay : Relay Pool} (hstage : c'.stage = .relaying route relay) :
    ∃ relay', c.stage = .relaying route relay' := by
  rcases h.relaying hstage with hbefore | ⟨env, table, client, backend, label, rfl, hnext⟩
  · exact hbefore
  · obtain ⟨startup, -, -, -, hdial⟩ := handle_relay_inv hnext
    obtain ⟨e, he⟩ := dialBackend_unreachable (hmeets.2 trivial) route
    rw [he] at hdial
    cases hdial

theorem ConnMove.rank_of_cancelled {world : World Pool} {i : Nat} {cut : Prop}
    (h : ConnMove cfg sh c a c' sh' events) (hmeets : c.Meets world i cut True a) :
    c'.stage.rank < c.stage.rank := by
  rcases h.rank with hrank | ⟨hadmitted, route, relay, hrelaying⟩
  · exact hrank
  · obtain ⟨relay', hbefore⟩ := h.no_new_relay hmeets hrelaying
    simp [hadmitted] at hbefore

end Moves

/-! ## The steps of `Start` -/

inductive RunMove [GoFmt] (cfg : Config) (s : Running Pool) : RunAction Pool → Running Pool → Prop
  | accepted {client : Input} {gateway : Gateway Pool} (hphase : s.phase = .accepting)
      (hstep : s.gateway.step cfg (.accept client) = some gateway) :
      RunMove cfg s (.accept (.ok client)) { s with gateway, backoff := 0 }
  | tracked {i : Nat} {gateway : Gateway Pool}
      (hstep : s.gateway.step cfg (.track i) = some gateway) :
      RunMove cfg s (.track i) { s with gateway }
  | moved {i : Nat} {a : ConnAction Pool} {gateway : Gateway Pool}
      (hstep : s.gateway.step cfg (.conn i a) = some gateway) :
      RunMove cfg s (.conn i a) { s with gateway }
  | cancelled : RunMove cfg s .cancel { s with cancelled := true }
  | drained {err : Option GoError} (hphase : s.phase = .draining err)
      (hclosed : ∀ c ∈ s.gateway.server.conns, c.stage = .closed) :
      RunMove cfg s .drained { s with phase := .returned err }
  | looped {action : RunAction Pool} {phase : StartPhase} {backoff : Nat}
      (hphase : s.phase = .fresh ∨ s.phase = .accepting ∨ s.phase = .waiting)
      (hcancelled : phase = .draining none → s.cancelled = true) :
      RunMove cfg s action { s with phase, backoff }

theorem Stage.isClosed_iff {stage : Stage Pool} : stage.isClosed = true ↔ stage = .closed := by
  cases stage <;> simp [Stage.isClosed]

theorem Running.step_move [GoFmt] {cfg : Config} {listenAddress : GoString} {s t : Running Pool}
    {action : RunAction Pool} (h : s.step cfg listenAddress action = some t) :
    RunMove cfg s action t := by
  cases action with
  | listen err =>
    simp only [Running.step, Option.ite_none_right_eq_some] at h
    obtain ⟨hphase, h⟩ := h
    cases err with
    | some e =>
      obtain rfl := Option.some.inj h
      exact .looped (Or.inl hphase) (by simp)
    | none =>
      obtain rfl := Option.some.inj h
      exact .looped (Or.inl hphase) (by simp)
  | accept outcome =>
    cases outcome with
    | error e =>
      simp only [Running.step, Option.ite_none_right_eq_some, Option.some.injEq] at h
      obtain ⟨hphase, rfl⟩ := h
      unfold Running.failed
      split
      · exact .looped (Or.inr (Or.inl hphase)) fun _ => by assumption
      · split <;> exact .looped (Or.inr (Or.inl hphase)) (by simp)
    | ok client =>
      simp only [Running.step, Option.ite_none_right_eq_some, Option.map_eq_some_iff] at h
      obtain ⟨hphase, gateway, hgateway, rfl⟩ := h
      exact .accepted hphase hgateway
  | retry =>
    simp only [Running.step, Option.ite_none_right_eq_some, Option.some.injEq] at h
    obtain ⟨hphase, rfl⟩ := h
    exact .looped (Or.inr (Or.inr hphase)) (by simp)
  | stop =>
    simp only [Running.step, Option.ite_none_right_eq_some, Option.some.injEq] at h
    obtain ⟨⟨hphase, hcancelled⟩, rfl⟩ := h
    exact .looped (Or.inr (Or.inr hphase)) fun _ => hcancelled
  | drained =>
    unfold Running.step at h
    dsimp only at h
    split at h
    · rename_i err hphase
      simp only [Option.ite_none_right_eq_some, Option.some.injEq, List.all_eq_true,
        Stage.isClosed_iff] at h
      obtain ⟨hclosed, rfl⟩ := h
      exact .drained hphase hclosed
    · simp at h
  | cancel =>
    obtain rfl := Option.some.inj h
    exact .cancelled
  | track i =>
    obtain ⟨gateway, hgateway, rfl⟩ := Option.map_eq_some_iff.mp h
    exact .tracked hgateway
  | conn i action =>
    obtain ⟨gateway, hgateway, rfl⟩ := Option.map_eq_some_iff.mp h
    exact .moved hgateway

/-! ## What holds while `Start` runs -/

def StartPhase.isEnding : StartPhase → Bool
  | .draining _ | .returned _ => true
  | _ => false

def Gateway.relays (s : Gateway Pool) (i : Nat) (route : Route Pool) : Prop :=
  ∃ c relay, s.server.conns[i]? = some c ∧ c.stage = .relaying route relay

structure Lifecycle.Sound (cfg : Config) (s : Lifecycle Pool) : Prop where
  gateway : s.running.gateway.Sound cfg
  cancelled : s.running.phase = .draining none → s.running.cancelled = true
  expired : s.expired = true → s.running.phase.isEnding = true
  /-- the relays that are left after the grace period have lost their clients -/
  cut : s.running.phase = .draining none → s.expired = true →
    ∀ {i : Nat} {route : Route Pool}, s.running.gateway.relays i route → i ∈ s.cut

theorem Lifecycle.Sound.start (cfg : Config) : ({} : Lifecycle Pool).Sound cfg :=
  ⟨Gateway.Sound.start cfg, by simp, by simp, by simp⟩

theorem Gateway.closeClients_relays {buffered : Nat → Nat} {s : Gateway Pool} {i : Nat}
    {route : Route Pool} (h : (s.closeClients buffered).relays i route) : s.relays i route := by
  obtain ⟨d, relay, hd, hstage⟩ := h
  obtain ⟨c, hc, rfl | ⟨-, rfl⟩⟩ := Gateway.closeClients_conn hd
  · exact ⟨d, relay, hc, hstage⟩
  · obtain ⟨relay', hrelaying, -⟩ := Stage.closeClient_relaying hstage
    exact ⟨c, relay', hc, hrelaying⟩

section Steps
variable [GoFmt] {cfg : Config} {listenAddress : GoString} {world : World Pool}
variable {s t : Lifecycle Pool}

theorem Lifecycle.step_cases {action : LifeAction Pool}
    (h : s.step cfg listenAddress action = some t) :
    (∃ a running, action = .run a ∧ s.running.step cfg listenAddress a = some running ∧
      t = { s with running }) ∨
    ∃ buffered err, action = .expire buffered ∧ s.running.phase = .draining err ∧
      s.expired = false ∧ t = {
        running := { s.running with gateway := s.running.gateway.closeClients buffered }
        expired := true
        cut := s.running.gateway.activeConn } := by
  cases action with
  | run a =>
    obtain ⟨running, hrunning, rfl⟩ := Option.map_eq_some_iff.mp h
    exact Or.inl ⟨a, running, rfl, hrunning, rfl⟩
  | expire buffered =>
    unfold Lifecycle.step at h
    dsimp only at h
    split at h
    · rename_i err hphase hexpired
      exact Or.inr ⟨buffered, err, rfl, hphase, hexpired, (Option.some.inj h).symm⟩
    · simp at h

theorem Lifecycle.relays_before {i : Nat} {a : ConnAction Pool} {gateway : Gateway Pool}
    (hcancelled : s.running.cancelled = true) (hmeets : s.Meets world (.run (.conn i a)))
    (hstep : s.running.gateway.step cfg (.conn i a) = some gateway) {j : Nat}
    {route : Route Pool} (h : gateway.relays j route) : s.running.gateway.relays j route := by
  obtain ⟨d, relay, hd, hstage⟩ := h
  rcases Gateway.step_cases hstep with ⟨client, haction, -⟩ | ⟨k, c, haction, -⟩ |
    ⟨k, b, c, c', events, haction, hconn⟩
  · simp at haction
  · simp at haction
  · obtain ⟨rfl, rfl⟩ : i = k ∧ a = b := by simpa using haction
    rw [hconn.conns] at hd
    rcases conn_of_set hd with ⟨rfl, rfl⟩ | ⟨-, hold⟩
    · have hmeet := hmeets c hconn.conn
      rw [eq_true hcancelled] at hmeet
      obtain ⟨relay', hbefore⟩ := hconn.move.no_new_relay hmeet hstage
      exact ⟨c, relay', hconn.conn, hbefore⟩
    · exact ⟨d, relay, hold, hstage⟩

theorem Lifecycle.Sound.step {action : LifeAction Pool} (h : s.Sound cfg)
    (hmeets : s.Meets world action) (hstep : s.step cfg listenAddress action = some t) :
    t.Sound cfg := by
  rcases Lifecycle.step_cases hstep with ⟨a, running, rfl, hrunning, rfl⟩ |
    ⟨buffered, err, rfl, hphase, -, rfl⟩
  · have hgateway : running.gateway.Sound cfg :=
      exec_invariant Gateway.Sound.step h.gateway (Running.step_gateway hrunning)
    cases Running.step_move hrunning with
    | accepted hphase hgw =>
      refine ⟨hgateway, h.cancelled, h.expired, fun hdraining => ?_⟩
      simp [hphase] at hdraining
    | tracked hgw =>
      refine ⟨hgateway, h.cancelled, h.expired, ?_⟩
      rcases Gateway.step_cases hgw with ⟨client, haction, -⟩ | ⟨k, c, -, -, -, -, rfl⟩ |
        ⟨k, b, c, c', events, haction, -⟩
      · simp at haction
      · exact h.cut
      · simp at haction
    | moved hgw =>
      refine ⟨hgateway, h.cancelled, h.expired, ?_⟩
      intro hdraining hexpired j route hrelays
      exact h.cut hdraining hexpired
        (Lifecycle.relays_before (h.cancelled hdraining) hmeets hgw hrelays)
    | cancelled => exact ⟨hgateway, fun _ => rfl, h.expired, h.cut⟩
    | drained hphase hclosed => exact ⟨hgateway, by simp, fun _ => rfl, by simp⟩
    | looped hphase hcancelled =>
      -- the loop runs before the grace period
      have hearly : s.expired = false := by
        rw [Bool.eq_false_iff]
        intro hexpired
        have := h.expired hexpired
        rcases hphase with hphase | hphase | hphase <;> simp [hphase, StartPhase.isEnding] at this
      exact ⟨hgateway, hcancelled, by simp [hearly], by simp [hearly]⟩
  · refine ⟨h.gateway.closeClients buffered, h.cancelled, fun _ => ?_, ?_⟩
    · simp [hphase, StartPhase.isEnding]
    · intro _ _ i route hrelays
      obtain ⟨c, relay, hc, hstage⟩ := Gateway.closeClients_relays hrelays
      exact h.gateway.recorded.entered hc (by simp [hstage]) (by simp [hstage])

end Steps

/-! ## The last part of a run -/

/-- The context has ended and `drain` runs, or `Start` has returned. -/
structure Lifecycle.Ending (s : Lifecycle Pool) : Prop where
  cancelled : s.running.cancelled = true
  phase : s.running.phase = .draining none ∨
    s.running.phase = .returned none ∧ ∀ c ∈ s.running.gateway.server.conns, c.stage = .closed

/-- A bound on the actions a connection has left; one that is still to be tracked counts once
more. -/
def Gateway.remaining (s : Gateway Pool) (i : Nat) : Nat :=
  s.rankOf i + if i ∈ s.activeConn ∨ s.rankOf i = 0 then 0 else 1

def Lifecycle.rank (s : Lifecycle Pool) : Nat :=
  tally s.running.gateway.remaining s.running.gateway.server.conns.length +
    (if s.expired then 0 else 1) + (if s.running.phase = .returned none then 0 else 1)

theorem Gateway.remaining_congr {s t : Gateway Pool} {i : Nat}
    (hconn : t.server.conns[i]? = s.server.conns[i]?)
    (hactive : i ∈ t.activeConn ↔ i ∈ s.activeConn) : t.remaining i = s.remaining i := by
  have hrank : t.rankOf i = s.rankOf i := by rw [Gateway.rankOf, Gateway.rankOf, hconn]
  rw [Gateway.remaining, Gateway.remaining, hrank]
  exact congrArg _ (if_congr (or_congr_left hactive) rfl rfl)

theorem Gateway.closeClients_remaining (buffered : Nat → Nat) (s : Gateway Pool) (i : Nat) :
    (s.closeClients buffered).remaining i ≤ s.remaining i := by
  have hrank := Gateway.closeClients_rankOf buffered s i
  have hactive : (s.closeClients buffered).activeConn = s.activeConn := rfl
  rw [Gateway.remaining, Gateway.remaining, hactive]
  by_cases hi : i ∈ s.activeConn
  · simpa [hi] using hrank
  · simp only [hi, false_or]
    split <;> split <;> omega

section Rank
variable [GoFmt] {cfg : Config} {listenAddress : GoString} {world : World Pool}

theorem Gateway.track_remaining {s t : Gateway Pool} {i : Nat}
    (hstep : s.step cfg (.track i) = some t) : t.server = s.server ∧
      tally t.remaining t.server.conns.length + 1 ≤ tally s.remaining s.server.conns.length := by
  rcases Gateway.step_cases hstep with ⟨client, haction, -⟩ |
    ⟨j, c, haction, hc, hstage, hfree, rfl⟩ | ⟨j, b, c, c', events, haction, -⟩
  · simp at haction
  · obtain rfl : i = j := by simpa using haction
    refine ⟨rfl, tally_drop (List.getElem?_eq_some_iff.mp hc).1 ?_ ?_⟩
    · intro j _ hj
      exact Gateway.remaining_congr rfl (by simp [hj])
    · simp [Gateway.remaining, Gateway.rankOf, hfree, hc, hstage, Stage.rank]
  · simp at haction

theorem Gateway.conn_remaining {s t : Gateway Pool} {i : Nat} {a : ConnAction Pool}
    {c c' : Connection Pool} {events : List (CancelEvent Pool)}
    (h : ConnStep cfg s t i a c c' events) (hrank : c'.stage.rank < c.stage.rank) :
    tally t.remaining t.server.conns.length + 1 ≤ tally s.remaining s.server.conns.length := by
  rw [h.length]
  refine tally_drop h.lt ?_ ?_
  · intro j _ hj
    exact Gateway.remaining_congr (h.other hj) (by simp [h.mem_activeConn, hj])
  · have hbefore : s.rankOf i = c.stage.rank := by rw [Gateway.rankOf, h.conn, Option.elim_some]
    have hafter : t.rankOf i = c'.stage.rank := by rw [Gateway.rankOf, h.self, Option.elim_some]
    have hkept : i ∈ t.activeConn ∨ c'.stage.rank = 0 := by
      by_cases hclosed : c'.stage = .closed
      · exact Or.inr (by rw [hclosed, Stage.rank])
      · exact Or.inl (h.mem_activeConn.mpr ⟨h.active, fun _ => hclosed⟩)
    rw [Gateway.remaining, Gateway.remaining, hbefore, hafter, if_pos (Or.inl h.active),
      if_pos hkept]
    exact hrank

variable {s t : Lifecycle Pool}

theorem Lifecycle.Ending.step {action : LifeAction Pool} (h : s.Ending)
    (hmeets : s.Meets world action) (hstep : s.step cfg listenAddress action = some t) :
    t.Ending ∧ t.rank + 1 ≤ s.rank ∧
      ∀ {i route}, t.running.gateway.relays i route → s.running.gateway.relays i route := by
  rcases Lifecycle.step_cases hstep with ⟨a, running, rfl, hrunning, rfl⟩ |
    ⟨buffered, err, rfl, hphase, hexpired, rfl⟩
  · cases Running.step_move hrunning with
    | accepted hphase => rcases h.phase with h' | ⟨h', -⟩ <;> simp [hphase] at h'
    | looped hphase =>
      rcases h.phase with h' | ⟨h', -⟩ <;>
        rcases hphase with hphase | hphase | hphase <;> simp [hphase] at h'
    | cancelled =>
      have hfirst : s.running.cancelled = false := hmeets
      simp [h.cancelled] at hfirst
    | drained hphase hclosed =>
      have hdraining : s.running.phase = .draining none := by
        rcases h.phase with h' | ⟨h', -⟩
        · exact h'
        · simp [h'] at hphase
      obtain rfl := StartPhase.draining.inj (hphase.symm.trans hdraining)
      refine ⟨⟨h.cancelled, Or.inr ⟨rfl, hclosed⟩⟩, ?_, id⟩
      simp [Lifecycle.rank, hphase]
    | tracked hgw =>
      obtain ⟨hserver, hrank⟩ := Gateway.track_remaining hgw
      refine ⟨⟨h.cancelled, ?_⟩, ?_, ?_⟩
      · rw [hserver]
        exact h.phase
      · simp only [Lifecycle.rank]
        omega
      · intro i route hrelays
        rwa [Gateway.relays, hserver] at hrelays
    | @moved i a gateway hgw =>
      rcases Gateway.step_cases hgw with ⟨client, haction, -⟩ | ⟨j, c, haction, -⟩ |
        ⟨j, b, c, c', events, haction, hconn⟩
      · simp at haction
      · simp at haction
      · obtain ⟨rfl, rfl⟩ : i = j ∧ a = b := by simpa using haction
        have hmeet := hmeets c hconn.conn
        rw [eq_true h.cancelled] at hmeet
        have hlt := hconn.move.rank_of_cancelled hmeet
        have hrank := Gateway.conn_remaining hconn hlt
        refine ⟨⟨h.cancelled, ?_⟩, ?_, Lifecycle.relays_before h.cancelled hmeets hgw⟩
        · rcases h.phase with hdraining | ⟨-, hclosed⟩
          · exact Or.inl hdraining
          · -- a closed connection does nothing any more
            rw [hclosed c (List.mem_of_getElem? hconn.conn)] at hlt
            exact absurd hlt (Nat.not_lt_zero _)
        · simp only [Lifecycle.rank]
          omega
  · have hdraining : s.running.phase = .draining none := by
      rcases h.phase with h' | ⟨h', -⟩
      · exact h'
      · simp [h'] at hphase
    refine ⟨⟨h.cancelled, Or.inl hdraining⟩, ?_, Gateway.closeClients_relays⟩
    have htally : tally (s.running.gateway.closeClients buffered).remaining
          (s.running.gateway.closeClients buffered).server.conns.length ≤
        tally s.running.gateway.remaining s.running.gateway.server.conns.length := by
      rw [Gateway.closeClients_length]
      exact tally_mono fun i _ => Gateway.closeClients_remaining buffered s.running.gateway i
    simp only [Lifecycle.rank, hexpired, if_true, Bool.false_eq_true, if_false]
    omega

end Rank

/-! ## Where a run can stop -/

def refused : WriteOutcome := .short 0 (.sentinel .netClosed)

theorem refused_refused : refused.Refused := ⟨rfl, rfl⟩

def closedEnv : HandleEnv Pool :=
  { cancelledEnv with setDeadline := some (.sentinel .netClosed) }

section Stuck
variable [GoFmt] {cfg : Config} (listenAddress : GoString) (world : World Pool)

/-- What is left of the relay waits for its backend: the copy from the client, unless it has
ended, for a write to be taken, and the other direction, unless it is over, for a word. -/
structure Relay.HeldUp (i : Nat) (r : Relay Pool) : Prop where
  up : r.up.result = none → world.backendStalled i r = true
  down : match r.down.phase with
    | .framing | .splicing => world.backendSilent i r = true
    | .exiting => False
    | .returned => r.clientClosed = true ∧ r.up.result = none

theorem Relay.Running.progress_cut {cancels : CancelRegistry Pool} {r : Relay Pool}
    (h : r.Running) (route : Route Pool) (hdraw : CanDraw cancels) (i : Nat) :
    (∃ action, r.Meets world i True action ∧ (r.step route cancels action).isSome) ∨
      r.HeldUp world i := by
  by_cases hup : r.up.result = none → world.backendStalled i r = true
  · cases hphase : r.down.phase with
    | framing =>
      cases hsilent : world.backendSilent i r with
      | true => exact Or.inr ⟨hup, by rw [hphase]; exact hsilent⟩
      | false =>
        obtain ⟨draws, hsome⟩ := r.down.frameStep_enabled route hdraw refused
        exact Or.inl ⟨.frame refused draws, ⟨fun _ => refused_refused, Or.inl trivial, hsilent⟩,
          by simpa [Relay.step, hphase] using hsome⟩
    | splicing =>
      cases hsilent : world.backendSilent i r with
      | true => exact Or.inr ⟨hup, by rw [hphase]; exact hsilent⟩
      | false =>
        exact Or.inl ⟨.splice refused, ⟨fun _ => refused_refused, Or.inl trivial, hsilent⟩,
          by simp [Relay.step, hphase]⟩
    | exiting => exact Or.inl ⟨.release, trivial, by simp [Relay.step, hphase]⟩
    | returned =>
      cases hclosed : r.clientClosed with
      | false => exact Or.inl ⟨.closeClient, trivial, by simp [Relay.step, hphase, hclosed]⟩
      | true =>
        cases hresult : r.up.result with
        | none => exact Or.inr ⟨hup, by rw [hphase]; exact ⟨hclosed, hresult⟩⟩
        | some result =>
          exact Or.inl ⟨.finish, trivial, by simp [Relay.step, hclosed, hresult, h.running]⟩
  · obtain ⟨hcopying, htakes⟩ := Classical.not_imp.mp hup
    refine Or.inl ⟨.up .full, ⟨Bool.eq_false_of_not_eq_true htakes, Or.inl trivial⟩, ?_⟩
    cases hclosed : r.clientClosed <;> simp [Relay.step, Upstream.step, hcopying, hclosed]

theorem Relay.HeldUp.stuck {i : Nat} {r : Relay Pool} (h : r.HeldUp world i) (hr : r.Running)
    {cut : Prop} {action : RelayAction} (hmeets : r.Meets world i cut action) (route : Route Pool)
    (cancels : CancelRegistry Pool) : r.step route cancels action = none := by
  obtain ⟨hup, hdown⟩ := h
  cases action with
  | up w =>
    cases hresult : r.up.result with
    | none => simp [Relay.Meets, hup hresult] at hmeets
    | some result => simp [Relay.step, Upstream.step, hresult]
  | frame w draws | splice w =>
    obtain ⟨-, -, hspeaks⟩ := hmeets
    cases hphase : r.down.phase with
    | framing | splicing => simp [hphase, hspeaks] at hdown
    | exiting | returned => simp [Relay.step, hphase]
  | release =>
    have hrunning : r.down.phase ≠ .exiting := fun hphase => by simp [hphase] at hdown
    simp [Relay.step, hrunning]
  | closeClient =>
    have hclosed : r.down.phase = .returned → r.clientClosed = true := fun hphase => by
      rw [hphase] at hdown
      exact hdown.1
    simpa [Relay.step] using hclosed
  | finish =>
    have hcopying : r.clientClosed = true → r.up.result = none := fun hclosed => by
      rw [hr.closed hclosed] at hdown
      exact hdown.2
    simp +contextual [Relay.step, hcopying]

def Connection.HeldUp (i : Nat) (c : Connection Pool) : Prop :=
  ∃ route relay, c.stage = .relaying route relay ∧ relay.HeldUp world i

variable {s : Lifecycle Pool}

theorem Lifecycle.Sound.open_enabled {i : Nat} {c : Connection Pool} (h : s.Sound cfg)
    (hphase : s.running.phase = .draining none) (hexpired : s.expired = true)
    (hdraw : CanDraw s.running.gateway.server.shared.cancels)
    (hc : s.running.gateway.server.conns[i]? = some c) (hopen : c.stage ≠ .closed)
    (hflows : ¬ c.HeldUp world i) :
    ∃ action, s.Meets world action ∧ (s.step cfg listenAddress action).isSome := by
  by_cases hactive : i ∈ s.running.gateway.activeConn
  · obtain ⟨action, hrelay⟩ : ∃ action, ∀ route relay, c.stage = .relaying route relay →
        relay.Meets world i (i ∈ s.cut) action ∧
          (relay.step route s.running.gateway.server.shared.cancels action).isSome := by
      by_cases hrelaying : ∃ route relay, c.stage = .relaying route relay
      · obtain ⟨route, relay, hstage⟩ := hrelaying
        obtain ⟨action, haction⟩ := ((h.gateway.relays hc hstage).progress_cut world route hdraw
          i).resolve_right fun hheld => hflows ⟨route, relay, hstage, hheld⟩
        refine ⟨action, fun route' relay' hstage' => ?_⟩
        obtain ⟨rfl, rfl⟩ := Stage.relaying.inj (hstage.symm.trans hstage')
        rwa [eq_true (h.cut hphase hexpired ⟨c, relay, hc, hstage⟩)]
      · exact ⟨.finish, fun route relay hstage => (hrelaying ⟨route, relay, hstage⟩).elim⟩
    refine ⟨.run (.conn i (c.stage.ownAction refused closedEnv action)), ?_, ?_⟩
    · intro c₁ hc₁
      obtain rfl := Option.some.inj (hc.symm.trans hc₁)
      cases hstage : c.stage with
      | relaying route relay =>
        intro route' relay' hstage'
        exact (hrelay route' relay' hstage').1
      | tracked => exact fun _ => refused_refused
      | admitted => exact ⟨fun _ => by simp [closedEnv], fun _ _ => ⟨_, rfl⟩⟩
      | forwarding => exact fun _ _ => ⟨_, rfl⟩
      | looking | handled | leaving | closed => trivial
    · have hown := h.gateway.own_enabled hc hopen hactive refused closedEnv action
        fun route relay hstage => (hrelay route relay hstage).2
      simpa [Lifecycle.step, Running.step] using hown
  · obtain ⟨-, hsome⟩ := h.gateway.track_enabled hc hopen hactive
    exact ⟨.run (.track i), trivial, by simpa [Lifecycle.step, Running.step] using hsome⟩

def Lifecycle.AtRest (cfg : Config) (s : Lifecycle Pool) : Prop :=
  ∀ action, s.Meets world action → s.step cfg listenAddress action = none

/-- The grace period is over, and the only connections left open are sessions that their
backends hold up, one at least. -/
structure Lifecycle.HeldUp (s : Lifecycle Pool) : Prop where
  expired : s.expired = true
  left : ∃ c ∈ s.running.gateway.server.conns, c.stage ≠ .closed
  waits : ∀ (i : Nat) (c : Connection Pool), s.running.gateway.server.conns[i]? = some c →
    c.stage ≠ .closed → c.HeldUp world i

omit [GoFmt] in
theorem World.Responsive.not_heldUp {world : World Pool} (hworld : world.Responsive) :
    ¬ s.HeldUp world := by
  intro h
  obtain ⟨c, hmem, hopen⟩ := h.left
  obtain ⟨i, hc⟩ := List.getElem?_of_mem hmem
  obtain ⟨route, relay, -, hup, hdown⟩ := h.waits i c hc hopen
  cases hresult : relay.up.result with
  | none => simpa [hworld.takes] using hup hresult
  | some result =>
    have hspeaks := hworld.answers i relay (by rw [hresult]; rfl)
    cases hphase : relay.down.phase <;> simp [hphase, hspeaks, hresult] at hdown

/-- `drain` can go on unless it is held up. -/
theorem Lifecycle.Sound.heldUp (h : s.Sound cfg) (hphase : s.running.phase = .draining none)
    (hdraw : CanDraw s.running.gateway.server.shared.cancels)
    (hrest : s.AtRest listenAddress world cfg) : s.HeldUp world := by
  have hdisabled : ∀ action, s.Meets world action →
      (s.step cfg listenAddress action).isSome → False := by
    intro action hmeets hsome
    simp [hrest action hmeets] at hsome
  have hexpired : s.expired = true := by
    by_contra hearly
    exact hdisabled (.expire fun _ => 0) trivial
      (by simp [Lifecycle.step, hphase, Bool.eq_false_of_not_eq_true hearly])
  refine ⟨hexpired, ?_, ?_⟩
  · by_contra hnone
    have hall : (s.running.gateway.server.conns.all fun c => c.stage.isClosed) = true := by
      simpa [Stage.isClosed_iff] using hnone
    refine hdisabled (.run .drained) trivial ?_
    simp only [Lifecycle.step, Running.step, hphase, hall, if_true]
    rfl
  · intro i c hc hopen
    by_contra hflows
    obtain ⟨action, hmeets, hsome⟩ :=
      h.open_enabled listenAddress world hphase hexpired hdraw hc hopen hflows
    exact hdisabled action hmeets hsome

/-- And held up it stays, until a backend says or takes something. -/
theorem Lifecycle.HeldUp.atRest (h : s.HeldUp world) (hsound : s.Sound cfg)
    (hphase : s.running.phase = .draining none) : s.AtRest listenAddress world cfg := by
  intro action hmeets
  by_contra hsome
  obtain ⟨t, hstep⟩ := Option.ne_none_iff_exists'.mp hsome
  rcases Lifecycle.step_cases hstep with ⟨a, running, rfl, hrunning, rfl⟩ |
    ⟨buffered, err, -, -, hearly, -⟩
  · cases Running.step_move hrunning with
    | accepted haccepting => simp [hphase] at haccepting
    | looped hlooping => simp [hphase] at hlooping
    | cancelled => simp [Lifecycle.Meets, hsound.cancelled hphase] at hmeets
    | drained _ hclosed =>
      obtain ⟨c, hmem, hopen⟩ := h.left
      exact hopen (hclosed c hmem)
    | tracked hgw =>
      rcases Gateway.step_cases hgw with ⟨client, haction, -⟩ | ⟨j, c, -, hc, hstage, -, -⟩ |
        ⟨j, b, c, c', events, haction, -⟩
      · simp at haction
      · obtain ⟨route, relay, hrelaying, -⟩ := h.waits j c hc (by simp [hstage])
        simp [hstage] at hrelaying
      · simp at haction
    | @moved i a gateway hgw =>
      rcases Gateway.step_cases hgw with ⟨client, haction, -⟩ | ⟨j, c, haction, -⟩ |
        ⟨j, b, c, c', events, haction, hconn⟩
      · simp at haction
      · simp at haction
      · obtain ⟨rfl, rfl⟩ : i = j ∧ a = b := by simpa using haction
        obtain ⟨route, relay, hrelaying, hheld⟩ :=
          h.waits i c hconn.conn hconn.move.closes_iff.1
        rcases hconn.move.registry with
          ⟨route', relay', relay'', action, rfl, hstage, hrelay, -, -⟩ | ⟨-, hidle, -⟩
        · obtain ⟨rfl, rfl⟩ := Stage.relaying.inj (hrelaying.symm.trans hstage)
          have hstuck := hheld.stuck world (hsound.gateway.relays hconn.conn hstage)
            (hmeets c hconn.conn route relay hstage) route s.running.gateway.server.shared.cancels
          simp [hstuck] at hrelay
        · exact hidle route relay hrelaying
  · simp [h.expired] at hearly

variable {listenAddress world} {t : Lifecycle Pool} {actions later : List (LifeAction Pool)}

/-- Whatever the clients and backends of the connections that are left do or do not do, and
in whatever order their goroutines run: once the accept loop has seen the end of the context,
`Start` takes boundedly many more steps and puts no further session through. The run can stop only
when `Start` has returned without an error and no connection is open or tracked; or, in a world
where some backend does not respond, after the grace period with no connection left open but
sessions that wait for their backends. -/
theorem shutdown_completes
    (hrun : exec (Lifecycle.step cfg listenAddress) {} actions = some s)
    (hmeets : Always (Lifecycle.step cfg listenAddress) (Lifecycle.Meets world) {} actions)
    (hphase : s.running.phase = .draining none)
    (hlater : exec (Lifecycle.step cfg listenAddress) s later = some t)
    (hmeets' : Always (Lifecycle.step cfg listenAddress) (Lifecycle.Meets world) s later) :
    later.length ≤ s.rank ∧
    (∀ i route, t.running.gateway.relays i route → s.running.gateway.relays i route) ∧
    (CanDraw t.running.gateway.server.shared.cancels → t.AtRest listenAddress world cfg →
      (t.running.phase = .returned none ∧ t.running.gateway.activeConn = ∅ ∧
        ∀ c ∈ t.running.gateway.server.conns, c.stage = .closed) ∨
      (t.running.phase = .draining none ∧ t.HeldUp world ∧ ¬ world.Responsive)) := by
  have hs : s.Sound cfg := exec_always Lifecycle.Sound.step (Lifecycle.Sound.start cfg) hmeets hrun
  have hending : s.Ending := ⟨hs.cancelled hphase, Or.inl hphase⟩
  have ht : t.Ending ∧
      ∀ i route, t.running.gateway.relays i route → s.running.gateway.relays i route := by
    refine exec_always (P := Lifecycle.Meets world) (I := fun u => u.Ending ∧
      ∀ i route, u.running.gateway.relays i route → s.running.gateway.relays i route)
      ?_ ⟨hending, fun _ _ => id⟩ hmeets' hlater
    intro u action v hu hmeet hstep
    obtain ⟨hv, -, hrelays⟩ := hu.1.step hmeet hstep
    exact ⟨hv, fun i route h => hu.2 i route (hrelays h)⟩
  refine ⟨?_, ht.2, ?_⟩
  · have hbound : later.countP (fun _ => true) + t.rank ≤ s.rank := by
      refine exec_countP_le (P := Lifecycle.Meets world) (I := Lifecycle.Ending) ?_ hending
        hmeets' hlater
      intro u action v hu hmeet hstep
      obtain ⟨hv, hrank, -⟩ := hu.step hmeet hstep
      exact ⟨hv, hrank⟩
    rw [List.countP_true] at hbound
    omega
  · intro hdraw hrest
    have hsound : t.Sound cfg := exec_always Lifecycle.Sound.step hs hmeets' hlater
    rcases ht.1.phase with hdraining | ⟨hreturned, hclosed⟩
    · have hheld := hsound.heldUp listenAddress world hdraining hdraw hrest
      exact .inr ⟨hdraining, hheld, fun hworld => hworld.not_heldUp hheld⟩
    · refine .inl ⟨hreturned, ?_, hclosed⟩
      rw [Finset.eq_empty_iff_forall_notMem]
      intro i hi
      obtain ⟨c, hc, hopen⟩ := hsound.gateway.recorded.active hi
      exact hopen (hclosed c (List.mem_of_getElem? hc))

end Stuck

/-- Clients say nothing, and backends nothing before the end of their client. -/
def idleWorld : World Unit :=
  ⟨fun _ _ => true, fun _ _ => false, fun _ relay => relay.up.result.isNone, fun _ _ => false⟩

theorem idleWorld_responsive : idleWorld.Responsive :=
  ⟨fun _ _ => rfl, fun _ relay h => by simpa [idleWorld] using h⟩

/-- Backends say nothing, whether their client has come to its end or not. -/
def deafWorld : World Unit := ⟨fun _ _ => true, fun _ _ => false, fun _ _ => true, fun _ _ => false⟩

/-- Backends neither say anything nor take anything. -/
def stalledWorld : World Unit :=
  ⟨fun _ _ => false, fun _ _ => false, fun _ _ => true, fun _ _ => true⟩

/-- A client is put through, and the context ends while it is idle. -/
def drainingRun : List (LifeAction Unit) :=
  [.run (.listen none), .run (.accept (.ok sampleClient)), .run (.track 0),
    .run (.conn 0 (.acquireSlot .full)), .run (.conn 0 (.handle sampleEnv sampleTable)),
    .run .cancel, .run (.accept (.error ⟨.sentinel .netClosed, none⟩))]

/-- The grace period runs out, and the copy from the client comes to its end. -/
def closedRun : List (LifeAction Unit) :=
  [.expire fun _ => 0, .run (.conn 0 (.relay (.up .full)))]

/-- The backend ends as well, and the session is over. -/
def overRun : List (LifeAction Unit) :=
  [.run (.conn 0 (.relay (.frame refused []))), .run (.conn 0 (.relay .release)),
    .run (.conn 0 (.relay .closeClient)), .run (.conn 0 (.relay .finish)),
    .run (.conn 0 .releaseSlot), .run (.conn 0 .untrack), .run .drained]

section Runs
variable {s t : Lifecycle Unit} {world : World Unit}

theorem drainingRun_meets (world : World Unit) :
    Always (@Lifecycle.step Unit plainQuote {} []) (Lifecycle.Meets world) {} drainingRun := by
  refine always_cons rfl trivial (always_cons rfl trivial (always_cons rfl trivial
    (always_cons rfl ?_ (always_cons rfl ?_ (always_cons rfl rfl (always_cons rfl trivial
      trivial))))))
  · exact fun c _ hcut => absurd hcut (Finset.notMem_empty 0)
  · exact fun c _ => ⟨fun hcut => absurd hcut (Finset.notMem_empty 0), fun h => nomatch h⟩

theorem closedRun_meets (htakes : ∀ i relay, world.backendStalled i relay = false)
    (hrun : exec (@Lifecycle.step Unit plainQuote {} []) {} drainingRun = some s) :
    Always (@Lifecycle.step Unit plainQuote {} []) (Lifecycle.Meets world) s closedRun := by
  obtain rfl := Option.some.inj hrun
  refine always_cons rfl trivial (always_cons rfl ?_ trivial)
  exact fun c _ route relay _ => ⟨htakes 0 relay, Or.inl (Finset.mem_singleton_self 0)⟩

theorem overRun_meets (hended : ∀ c route relay, s.running.gateway.server.conns[0]? = some c →
      c.stage = .relaying route relay → relay.up.result.isSome = true) :
    Always (@Lifecycle.step Unit plainQuote {} []) (Lifecycle.Meets idleWorld) s overRun := by
  refine ⟨fun c hc route relay hstage => ⟨fun _ => refused_refused, Or.inr rfl, ?_⟩, fun _ _ => ?_⟩
  · exact idleWorld_responsive.answers 0 relay (hended c route relay hc hstage)
  · exact ⟨fun c _ route relay _ => trivial, fun _ _ => ⟨fun c _ route relay _ => trivial,
      fun _ _ => ⟨fun c _ route relay _ => trivial, fun _ _ => ⟨fun c _ => trivial,
        fun _ _ => ⟨fun c _ => trivial, fun _ _ => ⟨trivial, fun _ _ => trivial⟩⟩⟩⟩⟩⟩

theorem heldUp_of_only {c : Connection Unit} {route : Route Unit} {relay : Relay Unit}
    (hexpired : t.expired = true) (hconns : t.running.gateway.server.conns = [c])
    (hstage : c.stage = .relaying route relay) (hheld : ∀ i, relay.HeldUp world i) :
    t.HeldUp world := by
  refine ⟨hexpired, ⟨c, by simp [hconns], by simp [hstage]⟩, fun i d hd _ => ?_⟩
  rw [hconns] at hd
  obtain rfl := List.mem_singleton.mp (List.mem_of_getElem? hd)
  exact ⟨route, relay, hstage, hheld i⟩

/-- After these actions the session of `drainingRun` keeps `Start` from returning. -/
def Hangs (world : World Unit) (later : List (LifeAction Unit)) : Prop :=
  ∃ s t, exec (@Lifecycle.step Unit plainQuote {} []) {} drainingRun = some s ∧
    exec (@Lifecycle.step Unit plainQuote {} []) s later = some t ∧
    @Lifecycle.AtRest Unit plainQuote [] world {} t ∧
    t.running.phase = .draining none ∧ t.HeldUp world

theorem hangs_of_heldUp {later : List (LifeAction Unit)}
    (hrun : exec (@Lifecycle.step Unit plainQuote {} []) {} drainingRun = some s)
    (hlater : exec (@Lifecycle.step Unit plainQuote {} []) s later = some t)
    (hmeets : Always (@Lifecycle.step Unit plainQuote {} []) (Lifecycle.Meets world) s later)
    (hdraining : t.running.phase = .draining none) (hheld : t.HeldUp world) :
    Hangs world later := by
  have hstep := fun {s t action} => @Lifecycle.Sound.step Unit plainQuote {} [] world s t action
  have hs : s.Sound {} := exec_always (fun h hm => hstep h hm) (Lifecycle.Sound.start {})
    (drainingRun_meets world) hrun
  have ht : t.Sound {} := exec_always (fun h hm => hstep h hm) hs hmeets hlater
  exact ⟨s, t, hrun, hlater, @Lifecycle.HeldUp.atRest Unit plainQuote _ _ _ _ hheld ht hdraining,
    hdraining, hheld⟩

theorem stalledWorld_hangs : Hangs stalledWorld [.expire fun _ => 0] := by
  obtain ⟨s, t, c, route, relay, hrun, hlater, hdraining, hexpired, hconns, hstage, hframing⟩ :
      ∃ s t c route relay,
      exec (@Lifecycle.step Unit plainQuote {} []) {} drainingRun = some s ∧
      exec (@Lifecycle.step Unit plainQuote {} []) s [.expire fun _ => 0] = some t ∧
      t.running.phase = .draining none ∧ t.expired = true ∧
      t.running.gateway.server.conns = [c] ∧ c.stage = .relaying route relay ∧
      relay.down.phase = .framing :=
    ⟨_, _, _, _, _, rfl, rfl, rfl, rfl, rfl, rfl, rfl⟩
  refine hangs_of_heldUp hrun hlater ⟨trivial, fun _ _ => trivial⟩ hdraining ?_
  refine heldUp_of_only hexpired hconns hstage fun i => ⟨fun _ => rfl, ?_⟩
  rw [hframing]
  rfl

theorem deafWorld_hangs : Hangs deafWorld closedRun := by
  obtain ⟨s, t, c, route, relay, hrun, hlater, hdraining, hexpired, hconns, hstage, hended,
      hframing⟩ : ∃ s t c route relay,
      exec (@Lifecycle.step Unit plainQuote {} []) {} drainingRun = some s ∧
      exec (@Lifecycle.step Unit plainQuote {} []) s closedRun = some t ∧
      t.running.phase = .draining none ∧ t.expired = true ∧
      t.running.gateway.server.conns = [c] ∧ c.stage = .relaying route relay ∧
      relay.up.result.isSome = true ∧ relay.down.phase = .framing :=
    ⟨_, _, _, _, _, rfl, rfl, rfl, rfl, rfl, rfl, rfl, rfl⟩
  refine hangs_of_heldUp hrun hlater (closedRun_meets (fun _ _ => rfl) hrun) hdraining ?_
  refine heldUp_of_only hexpired hconns hstage fun i => ⟨fun hnone => ?_, ?_⟩
  · simp [hnone] at hended
  · rw [hframing]
    rfl

end Runs

theorem shutdown_completes_idle :
    (∃ s t, exec (@Lifecycle.step Unit plainQuote {} []) {} drainingRun = some s ∧ s.rank = 13 ∧
      exec (@Lifecycle.step Unit plainQuote {} []) s (closedRun ++ overRun) = some t ∧
      t.running.phase = .returned none ∧ t.running.gateway.activeConn = ∅) ∧
    Hangs stalledWorld [.expire fun _ => 0] ∧ Hangs deafWorld closedRun := by
  refine ⟨?_, stalledWorld_hangs, deafWorld_hangs⟩
  obtain ⟨s, u, t, c, route, relay, hrun, hrank, hphase, hclosed, hconns, hstage, hended, hover,
      hend, hzero, hdraw⟩ : ∃ s u t c route relay,
      exec (@Lifecycle.step Unit plainQuote {} []) {} drainingRun = some s ∧ s.rank = 13 ∧
      s.running.phase = .draining none ∧
      exec (@Lifecycle.step Unit plainQuote {} []) s closedRun = some u ∧
      u.running.gateway.server.conns = [c] ∧ c.stage = .relaying route relay ∧
      relay.up.result.isSome = true ∧
      exec (@Lifecycle.step Unit plainQuote {} []) u overRun = some t ∧
      s.Ending ∧ t.rank = 0 ∧ CanDraw t.running.gateway.server.shared.cancels :=
    ⟨_, _, _, _, _, _, rfl, rfl, rfl, rfl, rfl, rfl, rfl, rfl, ⟨rfl, Or.inl rfl⟩, rfl,
      sampleDraw 1, rfl⟩
  have hlater := exec_trans hclosed hover
  have hmeets : Always (@Lifecycle.step Unit plainQuote {} []) (Lifecycle.Meets idleWorld) s
      (closedRun ++ overRun) := by
    refine always_append (closedRun_meets idleWorld_responsive.takes hrun) fun v hv => ?_
    obtain rfl := Option.some.inj (hclosed.symm.trans hv)
    refine overRun_meets fun d route' relay' hd hrelaying => ?_
    obtain rfl : c = d := by simpa [hconns] using hd
    obtain ⟨rfl, rfl⟩ := Stage.relaying.inj (hstage.symm.trans hrelaying)
    exact hended
  have hend' : t.Ending := exec_always
    (fun h hm hstep => (@Lifecycle.Ending.step Unit plainQuote _ _ _ _ _ _ h hm hstep).1)
    hend hmeets hlater
  have hrest : @Lifecycle.AtRest Unit plainQuote [] idleWorld {} t := by
    intro action hmeet
    cases hstep : @Lifecycle.step Unit plainQuote {} [] t action with
    | none => rfl
    | some v =>
      obtain ⟨-, hlt, -⟩ := @Lifecycle.Ending.step Unit plainQuote _ _ _ _ _ _ hend' hmeet hstep
      omega
  obtain ⟨-, -, hreturns⟩ := @shutdown_completes Unit plainQuote _ _ _ _ _ _ _ hrun
    (drainingRun_meets _) hphase hlater hmeets
  rcases hreturns hdraw hrest with ⟨hreturned, hempty, -⟩ | ⟨-, -, hdeaf⟩
  · exact ⟨s, t, hrun, hrank, hlater, hreturned, hempty⟩
  · exact absurd idleWorld_responsive hdeaf

end Proxy
end PgProxy
