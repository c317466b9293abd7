import PgProxy.Proxy.Admission
import PgProxy.Proxy.ClientStream
import PgProxy.Proxy.MetricLabels

/-!
# No connection waits for another

The goroutines of the gateway share two locks, the slots channel and the registry, and a
relay waits for its own upstream copy. None of these waits depends on another connection: an
open connection always has an action of its own to take, and a relay needs its client for
it only after it has closed the connection to the client itself. After `handle` a connection
takes boundedly many actions, whatever the others do in between.
-/

namespace PgProxy
set_option autoImplicit false

namespace Proxy
open Pgwire

variable {Pool : Type}

/-! ## How long a relay can run -/

/-- The rounds the upstream copy can still make. -/
def Upstream.rank (u : Upstream) : Nat := if u.result.isSome then 0 else u.client.weight + 1

theorem Upstream.step_rank {u v : Upstream} {closed : Bool} {w : WriteOutcome}
    (h : u.step closed w = some v) : v.rank < u.rank := by
  unfold Upstream.step at h
  split at h
  · simp at h
  · rename_i hrunning
    have hrank : u.rank = u.client.weight + 1 := by rw [Upstream.rank, if_neg hrunning]
    rw [hrank]
    split at h
    · obtain rfl := Option.some.inj h
      simp [Upstream.rank]
    · obtain ⟨piece, rest, result, hround⟩ : ∃ piece rest result,
          copyRound u.client w = (piece, rest, result) := ⟨_, _, _, rfl⟩
      simp only [hround, Option.some.injEq] at h
      subst h
      cases result with
      | none =>
        have := copyRound_weight hround
        simp only [Upstream.rank, Option.isSome_none, Bool.false_eq_true, if_false]
        omega
      | some err => simp [Upstream.rank]

/-- The rounds `relayFromBackend` can still make, whatever the registry and the draws. -/
def Downstream.rank (d : Downstream Pool) : Nat :=
  RelayFromBackend.rank { down := d, cancels := ∅, draws := [] }

theorem RelayFromBackend.rank_down (s : RelayFromBackend Pool) : s.rank = s.down.rank := rfl

theorem Downstream.spliceStep_rank {d : Downstream Pool} (hphase : d.phase = .splicing)
    (w : WriteOutcome) : (d.spliceStep w).rank < d.rank := by
  obtain ⟨piece, rest, result, hround⟩ : ∃ piece rest result,
      copyRound d.reader.r w = (piece, rest, result) := ⟨_, _, _, rfl⟩
  simp only [rank, RelayFromBackend.rank, Downstream.spliceStep, hround, hphase]
  cases result with
  | none => simpa [hphase] using copyRound_weight hround
  | some err => simp [Downstream.exit]

def Relay.rank (r : Relay Pool) : Nat :=
  r.up.rank + r.down.rank + (if r.clientClosed then 0 else 1) + (if r.result.isSome then 0 else 1)

section Rank
variable [GoFmt] {route : Route Pool} {cancels cancels' : CancelRegistry Pool}

theorem Downstream.frameStep_rank {d d' : Downstream Pool} {w : WriteOutcome}
    {draws draws' : List Draw} (hphase : d.phase = .framing)
    (h : d.frameStep route w draws cancels = some (d', cancels', draws')) : d'.rank < d.rank := by
  have hnext : RelayFromBackend.next route (fun _ => w) { down := d, cancels, draws } =
      some { down := d', cancels := cancels', draws := draws', round := 1 } := by
    simp [RelayFromBackend.next, hphase, h]
  have hrank := RelayFromBackend.next_rank hnext
  rwa [RelayFromBackend.rank_down, RelayFromBackend.rank_down] at hrank

theorem Relay.step_rank {r r' : Relay Pool} {action : RelayAction}
    (h : r.step route cancels action = some (r', cancels')) : r'.rank < r.rank := by
  cases action with
  | up w =>
    simp only [Relay.step, Option.map_eq_some_iff, Prod.mk.injEq] at h
    obtain ⟨up, hup, rfl, -⟩ := h
    have := Upstream.step_rank hup
    simp only [Relay.rank]
    omega
  | frame w draws =>
    simp only [Relay.step, Option.ite_none_right_eq_some, Option.map_eq_some_iff,
      Prod.mk.injEq] at h
    obtain ⟨hphase, ⟨down, cancels₁, draws₁⟩, hround, rfl, -⟩ := h
    have := Downstream.frameStep_rank hphase hround
    simp only [Relay.rank]
    omega
  | splice w =>
    simp only [Relay.step, Option.ite_none_right_eq_some, Option.some.injEq,
      Prod.mk.injEq] at h
    obtain ⟨hphase, rfl, -⟩ := h
    have := Downstream.spliceStep_rank hphase w
    simp only [Relay.rank]
    omega
  | release =>
    simp only [Relay.step, Option.ite_none_right_eq_some, Option.some.injEq,
      Prod.mk.injEq] at h
    obtain ⟨hphase, rfl, -⟩ := h
    have hbefore : r.down.rank = 1 := by simp [Downstream.rank, RelayFromBackend.rank, hphase]
    have hafter : (r.down.releaseStep cancels).1.rank = 0 := rfl
    simp only [Relay.rank]
    omega
  | closeClient =>
    simp only [Relay.step, Option.ite_none_right_eq_some, Option.some.injEq,
      Prod.mk.injEq] at h
    obtain ⟨⟨-, hopen⟩, rfl, -⟩ := h
    simp [Relay.rank, hopen]
  | finish =>
    simp only [Relay.step, Option.ite_none_right_eq_some, Option.some.injEq,
      Prod.mk.injEq] at h
    obtain ⟨⟨-, -, hrunning⟩, rfl, -⟩ := h
    simp [Relay.rank, hrunning]

end Rank

/-! ## What every relay keeps -/

def EveryRelay (P : Route Pool → Relay Pool → Prop) (s : Server Pool) : Prop :=
  ∀ {i : Nat} {c : Connection Pool} {route : Route Pool} {relay : Relay Pool},
    s.conns[i]? = some c → c.stage = .relaying route relay → P route relay

theorem EveryRelay.step [GoFmt] {P : Route Pool → Relay Pool → Prop} {cfg : Config}
    {s t : Server Pool} {action : ServerAction Pool}
    (hstart : ∀ route client backend, P route (Relay.start client backend))
    (hrelay : ∀ {route relay relay' cancels cancels' a}, P route relay →
      relay.step route cancels a = some (relay', cancels') → relay'.result = none →
      P route relay')
    (h : EveryRelay P s) (hstep : s.step cfg action = some t) : EveryRelay P t := by
  intro j d route relay hd hstage
  rcases Server.step_cases hstep with ⟨client, -, rfl⟩ |
    ⟨i, a, c, c', shared, events, -, hc, hmove, rfl⟩
  · rcases conn_of_accept hd with hold | ⟨-, rfl⟩
    · exact h hold hstage
    · simp at hstage
  · rcases conn_of_set hd with ⟨-, rfl⟩ | ⟨-, hold⟩
    · rcases hmove.registry with ⟨route', relay₀, relay₁, act, -, hbefore, hact, rfl, -⟩ |
        ⟨-, -, hfresh⟩
      · unfold Connection.afterRelay at hstage
        split at hstage
        · rename_i hresult
          obtain ⟨rfl, rfl⟩ := Stage.relaying.inj hstage
          exact hrelay (h hc hbefore) hact hresult
        · simp at hstage
      · obtain ⟨client, backend, rfl⟩ := hfresh route relay hstage
        exact hstart route client backend
    · exact h hold hstage

/-- The generator can still draw a key that is free. -/
def CanDraw (cancels : CancelRegistry Pool) : Prop :=
  ∃ buf : Draw, cancels.lookup (randomCancelKey buf) = none

section Enabled
variable [GoFmt] {cancels : CancelRegistry Pool}

theorem Downstream.frameStep_enabled (d : Downstream Pool) (route : Route Pool)
    (hdraw : CanDraw cancels) (w : WriteOutcome) :
    ∃ draws, (d.frameStep route w draws cancels).isSome := by
  obtain ⟨buf, hfree⟩ := hdraw
  refine ⟨[buf], ?_⟩
  rw [Option.isSome_iff_ne_none]
  intro hnone
  obtain ⟨-, -, -, -, -, htaken⟩ := Downstream.frameStep_eq_none hnone
  simpa [hfree] using htaken buf (List.mem_singleton_self _)

/-- A relay that has not returned has an action to take, which reads from the client only if
the relay has closed it. -/
theorem Relay.Running.progress {r : Relay Pool} (h : r.Running) (route : Route Pool)
    (hdraw : CanDraw cancels) :
    ∃ action, (r.step route cancels action).isSome ∧
      ∀ w, action = .up w → r.clientClosed = true := by
  cases hphase : r.down.phase with
  | framing =>
    obtain ⟨draws, hsome⟩ := r.down.frameStep_enabled route hdraw .full
    exact ⟨.frame .full draws, by simpa [Relay.step, hphase] using hsome, by simp⟩
  | splicing => exact ⟨.splice .full, by simp [Relay.step, hphase], by simp⟩
  | exiting => exact ⟨.release, by simp [Relay.step, hphase], by simp⟩
  | returned =>
    cases hclosed : r.clientClosed with
    | false => exact ⟨.closeClient, by simp [Relay.step, hphase, hclosed], by simp⟩
    | true =>
      cases hup : r.up.result with
      | none =>
        exact ⟨.up .full, by simp [Relay.step, Upstream.step, hup, hclosed], fun _ _ => rfl⟩
      | some res =>
        exact ⟨.finish, by simp [Relay.step, hclosed, hup, h.running], by simp⟩

end Enabled

/-! ## Connections -/

/-- The actions a connection can still take if it does not start to relay. -/
def Stage.rank : Stage Pool → Nat
  | .tracked => 6
  | .admitted => 5
  | .looking _ => 4
  | .forwarding _ _ => 3
  | .relaying _ relay => relay.rank + 3
  | .handled _ => 2
  | .leaving => 1
  | .closed => 0

section Moves
variable [GoFmt] {cfg : Config} {sh sh' : Shared Pool} {c c' : Connection Pool}
variable {a : ConnAction Pool} {events : List (CancelEvent Pool)}

theorem ConnMove.rank (h : ConnMove cfg sh c a c' sh' events) :
    c'.stage.rank < c.stage.rank ∨
      c.stage = .admitted ∧ ∃ route relay, c'.stage = .relaying route relay := by
  cases h with
  | @handled env table hstage =>
    rw [hstage]
    cases (handle cfg.tls table env c.input).2 with
    | returned err => exact Or.inl (by simp [Next.stage, Stage.rank])
    | cancel request => exact Or.inl (by simp [Next.stage, Stage.rank])
    | relay client backend route label => exact Or.inr ⟨rfl, _, _, rfl⟩
  | relayed hstage hrelay =>
    have hrank := Relay.step_rank hrelay
    refine Or.inl ?_
    rw [hstage]
    unfold Connection.afterRelay
    split <;> simp only [Stage.rank] <;> omega
  | admitted hstage | rejected hstage | lookedUp hstage | forwarded hstage
  | slotReleased hstage | untracked hstage => exact Or.inl (by simp [hstage, Stage.rank])

theorem ConnMove.rank_of_handled (h : ConnMove cfg sh c a c' sh' events)
    (hhandled : ¬ c.stage.Waiting) : ¬ c'.stage.Waiting ∧ c'.stage.rank < c.stage.rank := by
  constructor
  · rcases h.handling 0 with ⟨-, hbefore⟩ | ⟨hwaiting, -⟩
    · exact fun hwaiting => hhandled (hbefore hwaiting)
    · exact absurd hwaiting hhandled
  · rcases h.rank with hrank | ⟨hadmitted, -⟩
    · exact hrank
    · exact absurd (Or.inr hadmitted) hhandled

end Moves

def GatewayAction.isOf (i : Nat) : GatewayAction Pool → Bool
  | .accept _ => false
  | .track j | .conn j _ => j = i

def Gateway.Handled (i : Nat) (s : Gateway Pool) : Prop :=
  ∃ c, s.server.conns[i]? = some c ∧ ¬ c.stage.Waiting

def Gateway.rankOf (s : Gateway Pool) (i : Nat) : Nat :=
  s.server.conns[i]?.elim 0 fun c => c.stage.rank

/-- A network that the end of the context has taken away. -/
def cancelledNetwork : Network Pool where
  dial _ := .error (.sentinel .canceled)
  handshake _ _ := .error (.sentinel .canceled)
  verify _ _ _ := none

def cancelledEnv : HandleEnv Pool where
  handshake _ := .error (.sentinel .canceled)
  network := cancelledNetwork

/-- The next action of a goroutine, given what it meets. -/
def Stage.ownAction (w : WriteOutcome) (env : HandleEnv Pool) (action : RelayAction) :
    Stage Pool → ConnAction Pool
  | .tracked => .acquireSlot w
  | .admitted => .handle env (Table.new ∅)
  | .looking _ => .lookup
  | .forwarding _ _ => .forward env.network w
  | .relaying _ _ => .relay action
  | .handled _ => .releaseSlot
  | .leaving | .closed => .untrack

/-- What a reachable gateway keeps about its slots, its connections and their relays. -/
structure Gateway.Sound (cfg : Config) (s : Gateway Pool) : Prop where
  recorded : Recorded s
  slots : 0 < cfg.maxConnections → Accounted cfg s
  relays : EveryRelay (fun _ relay => relay.Running) s.server

theorem Gateway.Sound.start (cfg : Config) : ({} : Gateway Pool).Sound cfg :=
  ⟨Recorded.start, fun _ => Accounted.start cfg, fun hc => by simp at hc⟩

section Gateways
variable [GoFmt] {cfg : Config} {s t : Gateway Pool} {i : Nat}

theorem Gateway.step_rank {action : GatewayAction Pool} (h : s.Handled i)
    (hstep : s.step cfg action = some t) :
    t.Handled i ∧ t.rankOf i + (action.isOf i).toNat ≤ s.rankOf i := by
  obtain ⟨c, hc, hhandled⟩ := h
  have hbefore : s.rankOf i = c.stage.rank := by rw [Gateway.rankOf, hc, Option.elim_some]
  rw [hbefore]
  -- the connection after the step, and whether the action was its own
  suffices hafter : ∃ c', t.server.conns[i]? = some c' ∧ ¬ c'.stage.Waiting ∧
      c'.stage.rank + (action.isOf i).toNat ≤ c.stage.rank by
    obtain ⟨c', hc', hhandled', hrank⟩ := hafter
    exact ⟨⟨c', hc', hhandled'⟩, by rwa [Gateway.rankOf, hc', Option.elim_some]⟩
  rcases Gateway.step_cases hstep with ⟨client, rfl, rfl⟩ | ⟨j, d, rfl, hd, hstage, -, rfl⟩ |
    ⟨j, a, d, d', events, rfl, hconn⟩
  · have hlt := (List.getElem?_eq_some_iff.mp hc).1
    exact ⟨c, by rw [List.getElem?_append_left hlt, hc], hhandled, Nat.le_refl _⟩
  · have hij : j ≠ i := by
      rintro rfl
      obtain rfl := Option.some.inj (hc.symm.trans hd)
      exact hhandled (Or.inl hstage)
    exact ⟨c, hc, hhandled, by simp [GatewayAction.isOf, hij]⟩
  · by_cases hij : j = i
    · subst hij
      obtain rfl := Option.some.inj (hc.symm.trans hconn.conn)
      obtain ⟨hhandled', hlt⟩ := hconn.move.rank_of_handled hhandled
      exact ⟨d', hconn.self, hhandled', by simpa [GatewayAction.isOf] using Nat.succ_le_of_lt hlt⟩
    · exact ⟨c, by rw [hconn.other (Ne.symm hij), hc], hhandled, by simp [GatewayAction.isOf, hij]⟩

theorem Gateway.Sound.step {action : GatewayAction Pool} (h : s.Sound cfg)
    (hstep : s.step cfg action = some t) : t.Sound cfg := by
  refine ⟨h.recorded.step hstep, fun hmax => (h.slots hmax).step hmax hstep, ?_⟩
  rcases Gateway.step_server hstep with hsame | ⟨b, hb⟩
  · exact hsame ▸ h.relays
  · exact EveryRelay.step (fun _ => Relay.Running.start) Relay.Running.step h.relays hb

theorem Gateway.conn_enabled {c : Connection Pool} {a : ConnAction Pool}
    (hactive : i ∈ s.activeConn) (hc : s.server.conns[i]? = some c)
    (h : (c.step cfg s.server.shared a).isSome) : (s.step cfg (.conn i a)).isSome := by
  simpa [Gateway.step, hactive, Server.step, hc] using h

theorem Gateway.Sound.release_enabled {c : Connection Pool} {err : Option GoError}
    (h : s.Sound cfg) (hc : s.server.conns[i]? = some c) (hstage : c.stage = .handled err) :
    (s.step cfg (.conn i .releaseSlot)).isSome := by
  rcases Nat.eq_zero_or_pos cfg.maxConnections with hmax | hmax
  · have hactive := h.recorded.entered hc (by simp [hstage]) (by simp [hstage])
    refine Gateway.conn_enabled hactive hc ?_
    simp [Connection.step, hstage, releaseSlot, hmax]
  · obtain ⟨t, ht, -⟩ := (h.slots hmax).release_enabled hmax hc hstage
    rw [ht]
    rfl

theorem Gateway.Sound.track_enabled {c : Connection Pool} (h : s.Sound cfg)
    (hc : s.server.conns[i]? = some c) (hopen : c.stage ≠ .closed) (hinactive : i ∉ s.activeConn) :
    c.stage = .tracked ∧ (s.step cfg (.track i)).isSome := by
  have hstage : c.stage = .tracked := by
    by_contra hentered
    exact hinactive (h.recorded.entered hc hentered hopen)
  refine ⟨hstage, ?_⟩
  obtain ⟨input, stage, effects⟩ := c
  obtain rfl : stage = .tracked := hstage
  simp [Gateway.step, hc, hinactive]

theorem Gateway.Sound.own_enabled {c : Connection Pool} (h : s.Sound cfg)
    (hc : s.server.conns[i]? = some c) (hopen : c.stage ≠ .closed) (hactive : i ∈ s.activeConn)
    (w : WriteOutcome) (env : HandleEnv Pool) (action : RelayAction)
    (hrelay : ∀ route relay, c.stage = .relaying route relay →
      (relay.step route s.server.shared.cancels action).isSome) :
    (s.step cfg (.conn i (c.stage.ownAction w env action))).isSome := by
  cases hstage : c.stage with
  | handled err => exact h.release_enabled hc hstage
  | closed => exact absurd hstage hopen
  | relaying route relay =>
    have hsome := hrelay route relay hstage
    exact Gateway.conn_enabled hactive hc
      (by simpa [Connection.step, Stage.ownAction, hstage] using hsome)
  | tracked =>
    refine Gateway.conn_enabled hactive hc ?_
    simp only [Connection.step, Stage.ownAction, hstage]
    split <;> rfl
  | admitted | looking request | forwarding request entry | leaving =>
    exact Gateway.conn_enabled hactive hc (by simp [Connection.step, Stage.ownAction, hstage])

theorem Gateway.Sound.open_enabled {c : Connection Pool} (h : s.Sound cfg)
    (hc : s.server.conns[i]? = some c) (hopen : c.stage ≠ .closed)
    (hdraw : CanDraw s.server.shared.cancels) :
    ∃ action, action.isOf i ∧ (s.step cfg action).isSome ∧
      ∀ route relay w, c.stage = .relaying route relay → action = .conn i (.relay (.up w)) →
        relay.clientClosed = true := by
  by_cases hactive : i ∈ s.activeConn
  · obtain ⟨action, hrelay⟩ : ∃ action, ∀ route relay, c.stage = .relaying route relay →
        (relay.step route s.server.shared.cancels action).isSome ∧
          ∀ w, action = .up w → relay.clientClosed = true := by
      by_cases hrelaying : ∃ route relay, c.stage = .relaying route relay
      · obtain ⟨route, relay, hstage⟩ := hrelaying
        obtain ⟨action, haction⟩ := (h.relays hc hstage).progress route hdraw
        refine ⟨action, fun route' relay' hstage' => ?_⟩
        obtain ⟨rfl, rfl⟩ := Stage.relaying.inj (hstage.symm.trans hstage')
        exact haction
      · exact ⟨.finish, fun route relay hstage => (hrelaying ⟨route, relay, hstage⟩).elim⟩
    refine ⟨.conn i (c.stage.ownAction .full cancelledEnv action), by simp [GatewayAction.isOf],
      h.own_enabled hc hopen hactive _ _ _ fun route relay hstage => (hrelay route relay hstage).1,
      fun route relay w hstage hup => (hrelay route relay hstage).2 w ?_⟩
    rw [hstage] at hup
    simpa [Stage.ownAction] using hup
  · obtain ⟨hstage, hsome⟩ := h.track_enabled hc hopen hactive
    exact ⟨.track i, by simp [GatewayAction.isOf], hsome, by simp⟩

/-- In every run of the gateway, for every connection: as long as it is open it has an action
of its own to take, whatever the other connections are doing, and a relay reads from its
client for it only after it has closed the client itself; and once it has been through
`handle` it takes at most as many actions as its rank says, however they interleave with
those of the others. Beside its own peers, the one thing that could hold it up is a generator
that draws only keys that are taken. -/
theorem no_connection_waits_for_another {actions : List (GatewayAction Pool)}
    {c : Connection Pool} (hrun : exec (Gateway.step cfg) {} actions = some s)
    (hc : s.server.conns[i]? = some c) :
    (c.stage ≠ .closed → CanDraw s.server.shared.cancels →
      ∃ action, action.isOf i ∧ (s.step cfg action).isSome ∧
        ∀ route relay w, c.stage = .relaying route relay → action = .conn i (.relay (.up w)) →
          relay.clientClosed = true) ∧
    (¬ c.stage.Waiting → ∀ later t, exec (Gateway.step cfg) s later = some t →
      later.countP (GatewayAction.isOf i) + t.rankOf i ≤ c.stage.rank) := by
  have h : s.Sound cfg := exec_invariant Gateway.Sound.step (Gateway.Sound.start cfg) hrun
  refine ⟨h.open_enabled hc, fun hhandled later t hlater => ?_⟩
  have hrank : s.rankOf i = c.stage.rank := by rw [Gateway.rankOf, hc, Option.elim_some]
  rw [← hrank]
  refine exec_countP_le (P := fun _ _ => True) (I := Gateway.Handled i) (r := fun s => s.rankOf i)
    ?_ ⟨c, hc, hhandled⟩ (always_of_forall (fun _ _ _ => trivial) s) hlater
  intro s l t hs _ hstep
  exact Gateway.step_rank hs hstep

end Gateways

/-- A client is put through and has sent one more byte; its backend has nothing to say. -/
def relayingRun : List (GatewayAction Unit) :=
  [.accept sampleClient, .track 0, .conn 0 (.acquireSlot .full),
    .conn 0 (.handle sampleEnv sampleTable)]

theorem no_connection_waits_for_another_relaying :
    ∃ s c, exec (@Gateway.step Unit plainQuote {}) {} relayingRun = some s ∧
      s.server.conns[0]? = some c ∧ c.stage.rank = 11 ∧
      (∃ action, action.isOf 0 ∧ (@Gateway.step Unit plainQuote {} s action).isSome) ∧
      ∀ later t, exec (@Gateway.step Unit plainQuote {}) s later = some t →
        later.countP (GatewayAction.isOf 0) ≤ 11 := by
  obtain ⟨s, c, route, relay, hrun, hc, hrank, hstage, hdraw⟩ : ∃ s c route relay,
      exec (@Gateway.step Unit plainQuote {}) {} relayingRun = some s ∧
      s.server.conns[0]? = some c ∧ c.stage.rank = 11 ∧ c.stage = .relaying route relay ∧
      CanDraw s.server.shared.cancels := ⟨_, _, _, _, rfl, rfl, rfl, rfl, ⟨sampleDraw 1, rfl⟩⟩
  obtain ⟨henabled, hbound⟩ := @no_connection_waits_for_another Unit plainQuote _ _ _ _ _ hrun hc
  obtain ⟨action, hof, hsome, -⟩ := henabled (by simp [hstage]) hdraw
  refine ⟨s, c, hrun, hc, hrank, ⟨action, hof, hsome⟩, fun later t hlater => ?_⟩
  have := hbound (by simp [hstage, Stage.Waiting]) later t hlater
  omega

end Proxy
end PgProxy
