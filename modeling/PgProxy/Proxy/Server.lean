import PgProxy.Proxy.Session

/-!
# The gateway and all its connections

Every accepted connection runs `serve` on its own goroutine. Connections share the
slots channel and the cancel registry and nothing else, so the gateway is a list of
connections over a shared state, and a run is any interleaving of their actions. An
action carries what the connection meets outside the gateway: network answers, write
outcomes, random draws and the routing table of the moment.
-/

namespace PgProxy
set_option autoImplicit false

namespace Proxy
open Pgwire

variable {Pool : Type}

structure Config where
  tls : Option ServerTLS := none
  /-- zero means unlimited -/
  maxConnections : Nat := 0

/-- Where a connection is in `serve`. A slot is held from `admitted` to `handled`. -/
inductive Stage (Pool : Type) where
  | tracked
  | admitted
  | looking (request : CancelRequest)
  | forwarding (request : CancelRequest) (entry : Option (CancelEntry Pool))
  | relaying (route : Route Pool) (relay : Relay Pool)
  | handled (err : Option GoError)
  | leaving
  | closed

structure Connection (Pool : Type) where
  input : Input
  stage : Stage Pool := .tracked
  effects : List (Effect Pool) := []

def Connection.received (c : Connection Pool) : Bytes :=
  clientBytes c.effects ++
    match c.stage with
    | .relaying _ relay => relay.down.toClient
    | _ => []

/-- What the connections share: the occupancy of the slots channel and the registry. -/
structure Shared (Pool : Type) where
  slots : Nat := 0
  cancels : CancelRegistry Pool := ∅

inductive ConnAction (Pool : Type) where
  | acquireSlot (fatal : WriteOutcome)
  | handle (env : HandleEnv Pool) (table : Table Pool)
  | lookup
  | forward (net : Network Pool) (w : WriteOutcome)
  | relay (action : RelayAction)
  | releaseSlot
  | untrack

/-- What happens to cancellation keys, for the record. -/
inductive CancelEvent (Pool : Type) where
  | issued (key : CancelRequest) (entry : CancelEntry Pool)
  | released (key : CancelRequest)
  | lookedUp (key : CancelRequest) (entry : Option (CancelEntry Pool))
  | dialled (address : GoString)
  | sent (key : CancelRequest) (conn : BackendConn Pool) (b : Bytes)

/-- `none` if the channel is full. -/
def acquireSlot (cfg : Config) (slots : Nat) : Option Nat :=
  if cfg.maxConnections = 0 then some slots
  else if slots < cfg.maxConnections then some (slots + 1) else none

/-- `none` while the receive blocks. -/
def releaseSlot (cfg : Config) (slots : Nat) : Option Nat :=
  if cfg.maxConnections = 0 then some slots
  else if 0 < slots then some (slots - 1) else none

def rejection (cfg : Config) (fatal : WriteOutcome) : List (Effect Pool) :=
  [.connection unrouted outcomeRejected,
    writeFatal fatal sqlStateTooManyConnections
      (str "too many connections for the PostgreSQL gateway")
      (str "The gateway is configured to allow at most " ++ itoa cfg.maxConnections ++
        str " concurrent connections.")]

def Next.stage : Next Pool → Stage Pool
  | .returned err => .handled err
  | .cancel request => .looking request
  | .relay client backend route _ => .relaying route (Relay.start client.input backend.input)

def CancelForward.events (key : CancelRequest) (f : CancelForward Pool) :
    List (CancelEvent Pool) :=
  f.dialled.toList.map .dialled ++ f.sent.toList.map fun x => .sent key x.1 x.2

/-- The events of one action of a relay: the keys it added to the record, and the one it
released. -/
def relayEvents (before after : Downstream Pool) : List (CancelEvent Pool) :=
  ((after.minted.drop before.minted.length).map fun x => .issued x.1 x.2) ++
    if before.phase = .exiting ∧ after.phase = .returned then before.issued.toList.map .released
    else []

/-- The connection after an action of its relay; `handle` returns with the relay. -/
def Connection.afterRelay (c : Connection Pool) (route : Route Pool) (relay : Relay Pool) :
    Connection Pool :=
  match relay.result with
  | none => { c with stage := .relaying route relay }
  | some err =>
    { c with stage := .handled err, effects := c.effects ++ [.client relay.down.toClient] }

def Connection.step [GoFmt] (cfg : Config) (sh : Shared Pool) (c : Connection Pool) :
    ConnAction Pool → Option (Connection Pool × Shared Pool × List (CancelEvent Pool))
  | .acquireSlot fatal =>
    match c.stage with
    | .tracked =>
      match acquireSlot cfg sh.slots with
      | some slots => some ({ c with stage := .admitted }, { sh with slots }, [])
      | none =>
        some ({ c with stage := .leaving, effects := c.effects ++ rejection cfg fatal }, sh, [])
    | _ => none
  | .handle env table =>
    match c.stage with
    | .admitted =>
      let (effects, next) := Proxy.handle cfg.tls table env c.input
      some ({ c with stage := next.stage, effects := c.effects ++ effects }, sh, [])
    | _ => none
  | .lookup =>
    match c.stage with
    | .looking request =>
      let entry := sh.cancels.lookup request
      some ({ c with stage := .forwarding request entry }, sh, [.lookedUp request entry])
    | _ => none
  | .forward net w =>
    match c.stage with
    | .forwarding request entry =>
      some ({ c with stage := .handled none }, sh, (forwardCancel net w entry).events request)
    | _ => none
  | .relay action =>
    match c.stage with
    | .relaying route relay =>
      (relay.step route sh.cancels action).map fun (relay', cancels) =>
        (c.afterRelay route relay', { sh with cancels }, relayEvents relay.down relay'.down)
    | _ => none
  | .releaseSlot =>
    match c.stage with
    | .handled _ =>
      (Proxy.releaseSlot cfg sh.slots).map fun slots =>
        ({ c with stage := .leaving }, { sh with slots }, [])
    | _ => none
  | .untrack =>
    match c.stage with
    | .leaving => some ({ c with stage := .closed }, sh, [])
    | _ => none

/-- `journal` is the auxiliary record of all key events with their connections. -/
structure Server (Pool : Type) where
  shared : Shared Pool := {}
  conns : List (Connection Pool) := []
  journal : List (Nat × CancelEvent Pool) := []

inductive ServerAction (Pool : Type) where
  | accept (client : Input)
  | conn (i : Nat) (action : ConnAction Pool)

def Server.step [GoFmt] (cfg : Config) (s : Server Pool) : ServerAction Pool → Option (Server Pool)
  | .accept client => some { s with conns := s.conns ++ [{ input := client }] }
  | .conn i action =>
    match s.conns[i]? with
    | none => none
    | some c =>
      (c.step cfg s.shared action).map fun (c', shared, events) =>
        { shared, conns := s.conns.set i c', journal := s.journal ++ events.map (i, ·) }

theorem Next.relay_of_stage {next : Next Pool} {route : Route Pool} {relay : Relay Pool}
    (h : next.stage = .relaying route relay) : ∃ client backend label,
      next = .relay client backend route label ∧
      relay = Relay.start client.input backend.input := by
  cases next with
  | returned | cancel => simp [Next.stage] at h
  | relay client backend route' label =>
    obtain ⟨rfl, rfl⟩ := Stage.relaying.inj h
    exact ⟨client, backend, label, rfl, rfl⟩

inductive ConnMove [GoFmt] (cfg : Config) (sh : Shared Pool) (c : Connection Pool) :
    ConnAction Pool → Connection Pool → Shared Pool → List (CancelEvent Pool) → Prop
  | admitted {fatal : WriteOutcome} {slots : Nat} (hstage : c.stage = .tracked)
      (hslot : acquireSlot cfg sh.slots = some slots) :
      ConnMove cfg sh c (.acquireSlot fatal) { c with stage := .admitted } { sh with slots } []
  | rejected {fatal : WriteOutcome} (hstage : c.stage = .tracked)
      (hslot : acquireSlot cfg sh.slots = none) :
      ConnMove cfg sh c (.acquireSlot fatal)
        { c with stage := .leaving, effects := c.effects ++ rejection cfg fatal } sh []
  | handled {env : HandleEnv Pool} {table : Table Pool} (hstage : c.stage = .admitted) :
      ConnMove cfg sh c (.handle env table)
        { c with
          stage := (Proxy.handle cfg.tls table env c.input).2.stage
          effects := c.effects ++ (Proxy.handle cfg.tls table env c.input).1 } sh []
  | lookedUp {request : CancelRequest} (hstage : c.stage = .looking request) :
      ConnMove cfg sh c .lookup
        { c with stage := .forwarding request (sh.cancels.lookup request) } sh
        [.lookedUp request (sh.cancels.lookup request)]
  | forwarded {net : Network Pool} {w : WriteOutcome} {request : CancelRequest}
      {entry : Option (CancelEntry Pool)} (hstage : c.stage = .forwarding request entry) :
      ConnMove cfg sh c (.forward net w) { c with stage := .handled none } sh
        ((forwardCancel net w entry).events request)
  | relayed {action : RelayAction} {route : Route Pool} {relay relay' : Relay Pool}
      {cancels : CancelRegistry Pool} (hstage : c.stage = .relaying route relay)
      (hrelay : relay.step route sh.cancels action = some (relay', cancels)) :
      ConnMove cfg sh c (.relay action) (c.afterRelay route relay') { sh with cancels }
        (relayEvents relay.down relay'.down)
  | slotReleased {err : Option GoError} {slots : Nat} (hstage : c.stage = .handled err)
      (hslot : Proxy.releaseSlot cfg sh.slots = some slots) :
      ConnMove cfg sh c .releaseSlot { c with stage := .leaving } { sh with slots } []
  | untracked (hstage : c.stage = .leaving) :
      ConnMove cfg sh c .untrack { c with stage := .closed } sh []

theorem Connection.step_move [GoFmt] {cfg : Config} {sh sh' : Shared Pool}
    {c c' : Connection Pool} {a : ConnAction Pool} {events : List (CancelEvent Pool)}
    (h : c.step cfg sh a = some (c', sh', events)) : ConnMove cfg sh c a c' sh' events := by
  cases a with
  | acquireSlot fatal =>
    unfold Connection.step at h
    dsimp only at h
    split at h
    · rename_i hstage
      split at h
      · rename_i slots hslot
        simp only [Option.some.injEq, Prod.mk.injEq] at h
        obtain ⟨rfl, rfl, rfl⟩ := h
        exact .admitted hstage hslot
      · rename_i hslot
        simp only [Option.some.injEq, Prod.mk.injEq] at h
        obtain ⟨rfl, rfl, rfl⟩ := h
        exact .rejected hstage hslot
    · simp at h
  | handle env table =>
    unfold Connection.step at h
    dsimp only at h
    split at h
    · rename_i hstage
      simp only [Option.some.injEq, Prod.mk.injEq] at h
      obtain ⟨rfl, rfl, rfl⟩ := h
      exact .handled hstage
    · simp at h
  | lookup =>
    unfold Connection.step at h
    dsimp only at h
    split at h
    · rename_i request hstage
      simp only [Option.some.injEq, Prod.mk.injEq] at h
      obtain ⟨rfl, rfl, rfl⟩ := h
      exact .lookedUp hstage
    · simp at h
  | forward net w =>
    unfold Connection.step at h
    dsimp only at h
    split at h
    · rename_i request entry hstage
      simp only [Option.some.injEq, Prod.mk.injEq] at h
      obtain ⟨rfl, rfl, rfl⟩ := h
      exact .forwarded hstage
    · simp at h
  | relay action =>
    unfold Connection.step at h
    dsimp only at h
    split at h
    · rename_i route relay hstage
      simp only [Option.map_eq_some_iff, Prod.mk.injEq] at h
      obtain ⟨⟨relay', cancels⟩, hrelay, rfl, rfl, rfl⟩ := h
      exact .relayed hstage hrelay
    · simp at h
  | releaseSlot =>
    unfold Connection.step at h
    dsimp only at h
    split at h
    · rename_i err hstage
      simp only [Option.map_eq_some_iff, Prod.mk.injEq] at h
      obtain ⟨slots, hslot, rfl, rfl, rfl⟩ := h
      exact .slotReleased hstage hslot
    · simp at h
  | untrack =>
    unfold Connection.step at h
    dsimp only at h
    split at h
    · rename_i hstage
      simp only [Option.some.injEq, Prod.mk.injEq] at h
      obtain ⟨rfl, rfl, rfl⟩ := h
      exact .untracked hstage
    · simp at h

theorem Server.step_cases [GoFmt] {cfg : Config} {s t : Server Pool} {action : ServerAction Pool}
    (h : s.step cfg action = some t) :
    (∃ client, action = .accept client ∧
      t = { s with conns := s.conns ++ [{ input := client }] }) ∨
    (∃ i a c c' shared events, action = .conn i a ∧ s.conns[i]? = some c ∧
      ConnMove cfg s.shared c a c' shared events ∧
      t = { shared, conns := s.conns.set i c', journal := s.journal ++ events.map (i, ·) }) := by
  cases action with
  | accept client => exact Or.inl ⟨client, rfl, (Option.some.inj h).symm⟩
  | conn i a =>
    unfold Server.step at h
    dsimp only at h
    split at h
    · simp at h
    · rename_i c hc
      obtain ⟨⟨c', shared, events⟩, hstep, rfl⟩ := Option.map_eq_some_iff.mp h
      exact Or.inr ⟨i, a, c, c', shared, events, rfl, hc, Connection.step_move hstep, rfl⟩

theorem conn_of_accept {conns : List (Connection Pool)} {client : Input} {i : Nat}
    {c : Connection Pool} (h : (conns ++ [{ input := client }])[i]? = some c) :
    conns[i]? = some c ∨ (i = conns.length ∧ c = { input := client }) := by
  rw [List.getElem?_append] at h
  split at h
  · exact Or.inl h
  · rename_i hi
    obtain ⟨hlt, hc⟩ := List.getElem?_eq_some_iff.mp h
    rw [List.length_singleton] at hlt
    exact Or.inr ⟨by omega, by rw [← hc, List.getElem_singleton]⟩

theorem conn_of_set {conns : List (Connection Pool)} {i j : Nat} {c d : Connection Pool}
    (h : (conns.set i c)[j]? = some d) :
    (j = i ∧ d = c) ∨ (j ≠ i ∧ conns[j]? = some d) := by
  by_cases hij : j = i
  · subst hij
    have hlt : j < conns.length := by
      rw [← List.length_set (a := c) (i := j)]
      exact (List.getElem?_eq_some_iff.mp h).1
    rw [List.getElem?_set_self hlt, Option.some.injEq] at h
    exact Or.inl ⟨rfl, h.symm⟩
  · rw [List.getElem?_set_ne (Ne.symm hij)] at h
    exact Or.inr ⟨hij, h⟩

theorem ConnMove.input [GoFmt] {cfg : Config} {sh sh' : Shared Pool} {c c' : Connection Pool}
    {a : ConnAction Pool} {events : List (CancelEvent Pool)}
    (h : ConnMove cfg sh c a c' sh' events) : c'.input = c.input := by
  cases h with
  | relayed =>
    unfold Connection.afterRelay
    split <;> rfl
  | admitted | rejected | handled | lookedUp | forwarded | slotReleased | untracked => rfl

theorem ConnMove.kept [GoFmt] {cfg : Config} {sh sh' : Shared Pool} {c c' : Connection Pool}
    {a : ConnAction Pool} {events : List (CancelEvent Pool)} {conns : List (Connection Pool)}
    {i j : Nat} {d : Connection Pool} (h : ConnMove cfg sh c a c' sh' events)
    (hc : conns[i]? = some c) (hd : conns[j]? = some d) :
    ∃ d', (conns.set i c')[j]? = some d' ∧ d'.input = d.input := by
  by_cases hij : j = i
  · subst hij
    obtain rfl := Option.some.inj (hc.symm.trans hd)
    exact ⟨c', List.getElem?_set_self (List.getElem?_eq_some_iff.mp hc).1, h.input⟩
  · exact ⟨d, by rw [List.getElem?_set_ne (Ne.symm hij), hd], rfl⟩

theorem ConnMove.relaying [GoFmt] {cfg : Config} {sh sh' : Shared Pool} {c c' : Connection Pool}
    {a : ConnAction Pool} {events : List (CancelEvent Pool)} {route : Route Pool}
    {relay : Relay Pool} (h : ConnMove cfg sh c a c' sh' events)
    (hstage : c'.stage = .relaying route relay) :
    (∃ relay', c.stage = .relaying route relay') ∨
    ∃ env table client backend label, a = .handle env table ∧
      (Proxy.handle cfg.tls table env c.input).2 = .relay client backend route label := by
  cases h with
  | handled =>
    obtain ⟨client, backend, label, hnext, -⟩ := Next.relay_of_stage hstage
    exact Or.inr ⟨_, _, client, backend, label, rfl, hnext⟩
  | relayed hrelaying =>
    unfold Connection.afterRelay at hstage
    split at hstage
    · obtain ⟨rfl, -⟩ := Stage.relaying.inj hstage
      exact Or.inl ⟨_, hrelaying⟩
    · simp at hstage
  | admitted | rejected | lookedUp | forwarded | slotReleased | untracked => simp at hstage

theorem ConnMove.registry [GoFmt] {cfg : Config} {sh sh' : Shared Pool} {c c' : Connection Pool}
    {a : ConnAction Pool} {events : List (CancelEvent Pool)}
    (h : ConnMove cfg sh c a c' sh' events) :
    (∃ route relay relay' action, a = .relay action ∧ c.stage = .relaying route relay ∧
      relay.step route sh.cancels action = some (relay', sh'.cancels) ∧
      c' = c.afterRelay route relay' ∧ events = relayEvents relay.down relay'.down) ∨
    (sh'.cancels = sh.cancels ∧ (∀ route relay, c.stage ≠ .relaying route relay) ∧
      ∀ route relay, c'.stage = .relaying route relay →
        ∃ client backend, relay = Relay.start client backend) := by
  cases h with
  | relayed hstage hrelay => exact Or.inl ⟨_, _, _, _, rfl, hstage, hrelay, rfl, rfl⟩
  | handled hstage =>
    refine Or.inr ⟨rfl, by simp [hstage], fun _ _ hnext => ?_⟩
    obtain ⟨client, backend, -, -, hrelay⟩ := Next.relay_of_stage hnext
    exact ⟨_, _, hrelay⟩
  | admitted hstage | rejected hstage | lookedUp hstage | forwarded hstage
  | slotReleased hstage | untracked hstage => exact Or.inr ⟨rfl, by simp [hstage], by simp⟩

end Proxy
end PgProxy
