import PgProxy.Proxy.Handling
import PgProxy.Proxy.KeyLifetime
import PgProxy.Registry.Award

/-!
# The labels of the metrics

Five metrics carry the name of a database: a counter of connections, a gauge of active ones,
a counter of bytes and two durations. The names they get come from the startup code, from
the route that is dialled and from the relay. A run of the gateway is taken together with
the uses it makes of these metrics; every name in them is the bucket of the unrouted or a
name of the routing table that the connection was routed by.
-/

namespace PgProxy
set_option autoImplicit false

namespace Proxy
open Pgwire

variable {Pool : Type}

/-! ## Uses of metrics -/

def directionToBackend : GoString := str "to_backend"
def directionToClient : GoString := str "to_client"

/-- One use of a metric with a `database` label. -/
inductive MetricUse where
  | connectionsTotal (database outcome : GoString)
  /-- an increment or a decrement -/
  | activeConnections (database : GoString) (delta : Int)
  | bytesTotal (database direction : GoString) (n : Nat)
  | backendDialDuration (database : GoString)
  | sessionDuration (database : GoString)
  deriving DecidableEq

def MetricUse.database : MetricUse → GoString
  | connectionsTotal database _ | activeConnections database _ | bytesTotal database _ _
  | backendDialDuration database | sessionDuration database => database

def Effect.metricUse : Effect Pool → Option MetricUse
  | .connection database outcome => some (.connectionsTotal database outcome)
  | .dialDuration database => some (.backendDialDuration database)
  | .active database => some (.activeConnections database 1)
  | .client _ | .plaintext _ _ | .backend _ _ => none

def metricUses (effects : List (Effect Pool)) : List MetricUse :=
  effects.filterMap Effect.metricUse

section Uses
variable [GoFmt]

/-- What a round of the framed loop from `d` to `d'` feeds the byte counter. -/
def Downstream.frameUses (label : GoString) (d d' : Downstream Pool) : List MetricUse :=
  let fed := [.bytesTotal label directionToClient d'.framed]
  match d.reader.next with
  | (.error _, _) => fed
  | (.ok msg, _) =>
    -- a key that cannot be decoded leaves the loop without a word to the counter
    if msg.type = msgBackendKeyData ∧ (decodeBackendKeyData msg.body).toOption.isNone then []
    else if d'.phase = .framing then [] else fed

/-- What an action of a relay uses; the last one returns to `handle` and runs its deferred
function. -/
def Relay.uses (label : GoString) (r r' : Relay Pool) : RelayAction → List MetricUse
  | .up _ =>
    if r'.up.result.isSome then [.bytesTotal label directionToBackend r'.up.copied.length] else []
  | .frame _ _ => r.down.frameUses label r'.down
  | .splice _ =>
    if r'.down.phase = .exiting then [.bytesTotal label directionToClient r'.down.copied] else []
  | .release | .closeClient => []
  | .finish => [.activeConnections label (-1), .sessionDuration label]

/-- What an action of a connection uses, with the label its `handle` has chosen. -/
def Connection.uses (cfg : Config) (sh : Shared Pool) (label : GoString) (c : Connection Pool) :
    ConnAction Pool → List MetricUse
  | .acquireSlot fatal =>
    match Proxy.acquireSlot cfg sh.slots with
    | some _ => []
    | none => metricUses (rejection cfg fatal : List (Effect Pool))
  | .handle env table => metricUses (Proxy.handle cfg.tls table env c.input).1
  | .relay action =>
    match c.stage with
    | .relaying route relay =>
      match relay.step route sh.cancels action with
      | some (relay', _) => relay.uses label relay' action
      | none => []
    | _ => []
  | .lookup | .forward _ _ | .releaseSlot | .untrack => []

def Connection.labelAfter (cfg : Config) (label : GoString) (c : Connection Pool) :
    ConnAction Pool → GoString
  | .handle env table =>
    match (Proxy.handle cfg.tls table env c.input).2 with
    | .relay _ _ _ label => label
    | _ => label
  | _ => label

end Uses

/-- The gateway with the label of every connection and all uses of metrics so far. -/
structure Metered (Pool : Type) where
  server : Server Pool := {}
  labels : Nat → GoString := fun _ => []
  uses : List (Nat × MetricUse) := []

def Metered.step [GoFmt] (cfg : Config) (m : Metered Pool) (action : ServerAction Pool) :
    Option (Metered Pool) :=
  (m.server.step cfg action).map fun server =>
    match action with
    | .accept _ => { m with server }
    | .conn i a =>
      match m.server.conns[i]? with
      | none => { m with server }
      | some c =>
        { server
          labels := Function.update m.labels i (c.labelAfter cfg (m.labels i) a)
          uses := m.uses ++ (c.uses cfg m.server.shared (m.labels i) a).map (i, ·) }

theorem Metered.step_server [GoFmt] (cfg : Config) (m : Metered Pool)
    (action : ServerAction Pool) :
    (m.step cfg action).map Metered.server = m.server.step cfg action := by
  unfold Metered.step
  rw [Option.map_map]
  cases m.server.step cfg action with
  | none => rfl
  | some server =>
    cases action with
    | accept client => rfl
    | conn i a =>
      simp only [Option.map_some, Function.comp_apply]
      split <;> rfl

/-! ## The byte counter -/

def fedBytes (direction : GoString) : List MetricUse → Nat
  | [] => 0
  | .bytesTotal _ d n :: uses => (if d = direction then n else 0) + fedBytes direction uses
  | _ :: uses => fedBytes direction uses

theorem Downstream.deliver_fed {type : UInt8} {out : Bytes} {w : WriteOutcome}
    {d : Downstream Pool} (hphase : d.phase = .framing) :
    (d.deliver type out w).bytesTotal = d.bytesTotal +
      if (d.deliver type out w).phase = .framing then 0 else (d.deliver type out w).framed := by
  cases w with
  | full =>
    by_cases htype : type = msgReadyForQuery
    · simp [Downstream.deliver, WriteOutcome.err, Downstream.countFramed, htype]
    · simp [Downstream.deliver, WriteOutcome.err, htype, hphase]
  | short n e =>
    simp [Downstream.deliver, WriteOutcome.err, Downstream.countFramed, Downstream.exit]

theorem Downstream.spliceStep_fed {d : Downstream Pool} (hphase : d.phase = .splicing)
    (w : WriteOutcome) : (d.spliceStep w).bytesTotal = d.bytesTotal +
      if (d.spliceStep w).phase = .exiting then (d.spliceStep w).copied else 0 := by
  obtain ⟨piece, rest, result, hround⟩ : ∃ piece rest result,
      copyRound d.reader.r w = (piece, rest, result) := ⟨_, _, _, rfl⟩
  simp only [Downstream.spliceStep, hround]
  cases result with
  | none => simp [hphase]
  | some err => simp [Downstream.countCopied, Downstream.exit]

theorem Upstream.step_unfed {u u' : Upstream} {closed : Bool} {w : WriteOutcome}
    (h : u.step closed w = some u') : u.bytesTotal = 0 := by
  unfold Upstream.step at h
  split at h
  · simp at h
  · rename_i hrunning
    rw [Upstream.bytesTotal, if_neg hrunning]

section Fed
variable [GoFmt] {route : Route Pool} {cancels cancels' : CancelRegistry Pool}

theorem Downstream.frameUses_fed {w : WriteOutcome} {draws draws' : List Draw}
    {d d' : Downstream Pool} (hphase : d.phase = .framing)
    (h : d.frameStep route w draws cancels = some (d', cancels', draws')) (label : GoString) :
    d'.bytesTotal = d.bytesTotal + fedBytes directionToClient (d.frameUses label d') := by
  obtain ⟨result, reader, hnext⟩ : ∃ result reader, d.reader.next = (result, reader) :=
    ⟨_, _, rfl⟩
  simp only [Downstream.frameStep, hnext] at h
  simp only [Downstream.frameUses, hnext]
  cases result with
  | error e =>
    simp only [Option.some.injEq, Prod.mk.injEq] at h
    obtain ⟨rfl, -, -⟩ := h
    simp [fedBytes, Downstream.countFramed, Downstream.exit]
  | ok msg =>
    have hfed : ∀ (d₀ : Downstream Pool) out, d₀.phase = .framing →
        (d₀.deliver msg.type out w).bytesTotal = d₀.bytesTotal + fedBytes directionToClient
          (if (d₀.deliver msg.type out w).phase = .framing then [] else
            [.bytesTotal label directionToClient (d₀.deliver msg.type out w).framed]) := by
      intro d₀ out hd₀
      rw [Downstream.deliver_fed hd₀]
      split <;> simp [fedBytes]
    dsimp only at h ⊢
    by_cases htype : msg.type = msgBackendKeyData
    · rw [if_pos htype] at h
      cases hkey : decodeBackendKeyData msg.body with
      | error e =>
        simp only [hkey, Option.some.injEq, Prod.mk.injEq] at h
        obtain ⟨rfl, -, -⟩ := h
        rw [if_pos ⟨htype, rfl⟩]
        rfl
      | ok backendKey =>
        simp only [hkey] at h
        split at h
        · simp at h
        · simp only [Option.some.injEq, Prod.mk.injEq] at h
          obtain ⟨rfl, -, -⟩ := h
          rw [if_neg (by simp [Except.toOption])]
          exact hfed _ _ hphase
    · rw [if_neg htype, Option.some.injEq, Prod.mk.injEq] at h
      obtain ⟨rfl, -⟩ := h
      rw [if_neg (fun hkey => htype hkey.1)]
      exact hfed _ _ hphase

theorem Downstream.frameUses_fed_other (d d' : Downstream Pool) (label : GoString) :
    fedBytes directionToBackend (d.frameUses label d') = 0 := by
  have hdirection : directionToClient ≠ directionToBackend := by decide
  unfold Downstream.frameUses
  dsimp only
  split
  · simp [fedBytes, hdirection]
  · split
    · rfl
    · split <;> simp [fedBytes, hdirection]

theorem Relay.uses_fed {r r' : Relay Pool} {action : RelayAction}
    (h : r.step route cancels action = some (r', cancels')) (label : GoString) :
    r'.up.bytesTotal =
      r.up.bytesTotal + fedBytes directionToBackend (r.uses label r' action) ∧
    r'.down.bytesTotal =
      r.down.bytesTotal + fedBytes directionToClient (r.uses label r' action) := by
  have hdirection : directionToBackend ≠ directionToClient := by decide
  cases action with
  | up w =>
    simp only [Relay.step, Option.map_eq_some_iff, Prod.mk.injEq] at h
    obtain ⟨up, hup, rfl, -⟩ := h
    rw [Upstream.step_unfed hup]
    simp only [Relay.uses, Upstream.bytesTotal]
    split <;> simp [fedBytes, hdirection]
  | frame w draws =>
    simp only [Relay.step, Option.ite_none_right_eq_some, Option.map_eq_some_iff,
      Prod.mk.injEq] at h
    obtain ⟨hphase, ⟨down, cancels₁, draws₁⟩, hround, rfl, -⟩ := h
    exact ⟨by rw [Relay.uses, Downstream.frameUses_fed_other, Nat.add_zero],
      Downstream.frameUses_fed hphase hround label⟩
  | splice w =>
    simp only [Relay.step, Option.ite_none_right_eq_some, Option.some.injEq,
      Prod.mk.injEq] at h
    obtain ⟨hphase, rfl, -⟩ := h
    simp only [Relay.uses, Downstream.spliceStep_fed hphase]
    split <;> simp [fedBytes, hdirection.symm]
  | release | closeClient | finish =>
    simp only [Relay.step, Option.ite_none_right_eq_some, Option.some.injEq,
      Prod.mk.injEq] at h
    obtain ⟨-, rfl, -⟩ := h
    exact ⟨rfl, rfl⟩

end Fed

/-! ## Where the names come from -/

theorem mem_metricUses {effects : List (Effect Pool)} {use : MetricUse} :
    use ∈ metricUses effects ↔ ∃ effect ∈ effects, effect.metricUse = some use :=
  List.mem_filterMap

section Names
variable [GoFmt]

/-- The client of the connection asked for `database`, and the routing table has a route
for it. -/
structure AsksFor (tls : Option ServerTLS) (env : HandleEnv Pool) (table : Table Pool)
    (raw : Input) (database : GoString) (route : Route Pool) : Prop where
  requested : ∃ client startup, (negotiate tls env raw).2 = .ok (client, startup) ∧
    requestedDatabase startup = some database
  routed : table.lookup database = some route

theorem StartupMove.uses {table : Table Pool} {env : HandleEnv Pool} {client : Conn}
    {startup : StartupPacket} {effects : List (Effect Pool)} {next : Next Pool}
    (h : StartupMove table env client startup effects next) {use : MetricUse}
    (huse : use ∈ metricUses effects) : use.database = unrouted ∨
      ∃ database route, requestedDatabase startup = some database ∧
        table.lookup database = some route ∧
        (use.database = database ∨ use.database = route.database) := by
  obtain ⟨effect, hmem, heffect⟩ := mem_metricUses.mp huse
  have hdial : ∀ {route : Route Pool} {dialled}, effect ∈ dialEffects route dialled →
      use.database = route.database := by
    intro route dialled hdial
    rcases mem_dialEffects hdial with rfl | ⟨b, rfl⟩
    · obtain rfl := Option.some.inj heffect
      rfl
    · simp [Effect.metricUse] at heffect
  have hrouted : ∀ {database route dialled tail}, requestedDatabase startup = some database →
      table.lookup database = some route → effect ∈ dialEffects route dialled ++ tail →
      (effect ∈ tail → use.database = database) →
      ∃ database route, requestedDatabase startup = some database ∧
        table.lookup database = some route ∧
        (use.database = database ∨ use.database = route.database) := by
    intro database route dialled tail hdatabase hroute hmem htail
    refine ⟨database, route, hdatabase, hroute, ?_⟩
    rcases List.mem_append.mp hmem with hmem | hmem
    · exact Or.inr (hdial hmem)
    · exact Or.inl (htail hmem)
  cases h with
  | cancel => simp at hmem
  | nameless | noRoute =>
    rcases List.mem_pair.mp hmem with rfl | rfl
    · obtain rfl := Option.some.inj heffect
      exact Or.inl rfl
    · simp [writeFatal, Effect.metricUse] at heffect
  | unreachable hdatabase hroute =>
    refine Or.inr (hrouted hdatabase hroute hmem fun htail => ?_)
    rcases List.mem_pair.mp htail with rfl | rfl
    · obtain rfl := Option.some.inj heffect
      rfl
    · simp [writeFatal, Effect.metricUse] at heffect
  | cut hdatabase hroute =>
    refine Or.inr (hrouted hdatabase hroute hmem fun htail => ?_)
    rcases List.mem_pair.mp htail with rfl | rfl
    · simp [Effect.metricUse] at heffect
    · obtain rfl := Option.some.inj heffect
      rfl
  | stalled hdatabase hroute =>
    refine Or.inr (hrouted hdatabase hroute hmem fun htail => ?_)
    obtain rfl := List.mem_singleton.mp htail
    simp [Effect.metricUse] at heffect
  | proxied hdatabase hroute =>
    refine Or.inr (hrouted hdatabase hroute hmem fun htail => ?_)
    rcases List.mem_cons.mp htail with rfl | htail
    · simp [Effect.metricUse] at heffect
    · rcases List.mem_pair.mp htail with rfl | rfl <;>
        (obtain rfl := Option.some.inj heffect; rfl)

theorem handle_uses {tls : Option ServerTLS} {table : Table Pool} {env : HandleEnv Pool}
    {raw : Input} {use : MetricUse} (huse : use ∈ metricUses (handle tls table env raw).1) :
    use.database = unrouted ∨ ∃ database route, AsksFor tls env table raw database route ∧
      (use.database = database ∨ use.database = route.database) := by
  obtain ⟨effect, hmem, heffect⟩ := mem_metricUses.mp huse
  have hquiet : effect ∉ (negotiate tls env raw).1 := by
    intro hnego
    obtain ⟨b, rfl⟩ := negotiateLoop_effects _ _ _ hnego
    simp [Effect.metricUse] at heffect
  have hmove := handle_move tls table env raw
  generalize (handle tls table env raw).1 = effects, (handle tls table env raw).2 = next
    at hmem hmove
  cases hmove with
  | undated => simp at hmem
  | refused hnego =>
    rw [hnego] at hquiet
    rcases List.mem_append.mp hmem with hmem | hmem
    · exact absurd hmem hquiet
    · split at hmem
      · simp at hmem
      · obtain rfl := List.mem_singleton.mp hmem
        obtain rfl := Option.some.inj heffect
        exact Or.inl rfl
  | started hnego hstartup =>
    rw [hnego] at hquiet
    rcases List.mem_append.mp hmem with hmem | hmem
    · exact absurd hmem hquiet
    · rcases hstartup.uses (mem_metricUses.mpr ⟨effect, hmem, heffect⟩) with hun |
        ⟨database, route, hdatabase, hroute, hname⟩
      · exact Or.inl hun
      · exact Or.inr ⟨database, route, ⟨⟨_, _, by rw [hnego], hdatabase⟩, hroute⟩, hname⟩

theorem Relay.uses_label {label : GoString} {r r' : Relay Pool} {action : RelayAction}
    {use : MetricUse} (h : use ∈ r.uses label r' action) : use.database = label := by
  have hframe : ∀ n, use ∈ [MetricUse.bytesTotal label directionToClient n] →
      use.database = label := by
    intro n huse
    rw [List.mem_singleton.mp huse, MetricUse.database]
  cases action with
  | up w =>
    unfold Relay.uses at h
    dsimp only at h
    split at h
    · rw [List.mem_singleton.mp h, MetricUse.database]
    · simp at h
  | frame w draws =>
    simp only [Relay.uses, Downstream.frameUses] at h
    split at h
    · exact hframe _ h
    · split at h
      · simp at h
      · split at h
        · simp at h
        · exact hframe _ h
  | splice w =>
    unfold Relay.uses at h
    dsimp only at h
    split at h
    · exact hframe _ h
    · simp at h
  | release | closeClient => simp [Relay.uses] at h
  | finish =>
    rcases List.mem_pair.mp h with rfl | rfl <;> rfl

theorem ConnMove.uses {cfg : Config} {sh sh' : Shared Pool} {c c' : Connection Pool}
    {a : ConnAction Pool} {events : List (CancelEvent Pool)}
    (h : ConnMove cfg sh c a c' sh' events) {label : GoString} {use : MetricUse}
    (huse : use ∈ c.uses cfg sh label a) :
    use.database = unrouted ∨
    (∃ env table database route, a = .handle env table ∧
      AsksFor cfg.tls env table c.input database route ∧
      (use.database = database ∨ use.database = route.database)) ∨
    (∃ route relay, c.stage = .relaying route relay ∧ use.database = label) := by
  cases h with
  | admitted hstage hslot => simp [Connection.uses, hslot] at huse
  | rejected hstage hslot =>
    rw [Connection.uses, hslot] at huse
    obtain ⟨effect, hmem, heffect⟩ := mem_metricUses.mp huse
    rcases List.mem_pair.mp hmem with rfl | rfl
    · obtain rfl := Option.some.inj heffect
      exact Or.inl rfl
    · simp [writeFatal, Effect.metricUse] at heffect
  | @handled env table hstage =>
    rcases handle_uses huse with hun | ⟨database, route, hasks, hname⟩
    · exact Or.inl hun
    · exact Or.inr (Or.inl ⟨env, table, database, route, rfl, hasks, hname⟩)
  | relayed hstage hrelay =>
    simp only [Connection.uses, hstage, hrelay] at huse
    exact Or.inr (Or.inr ⟨_, _, hstage, Relay.uses_label huse⟩)
  | lookedUp | forwarded | slotReleased | untracked => simp [Connection.uses] at huse

end Names

/-! ## Whole runs -/

def handlings (i : Nat) (actions : List (ServerAction Pool)) :
    List (HandleEnv Pool × Table Pool) :=
  actions.filterMap fun
    | .conn j (.handle env table) => if j = i then some (env, table) else none
    | _ => none

theorem handlings_append (i : Nat) (past : List (ServerAction Pool)) (action : ServerAction Pool) :
    handlings i (past ++ [action]) = handlings i past ++ handlings i [action] :=
  List.filterMap_append

theorem handlings_other {i j : Nat} (h : j ≠ i) (a : ConnAction Pool) :
    handlings i [.conn j a] = [] := by
  cases a <;> simp [handlings, h]

theorem mem_of_handlings {i : Nat} {actions : List (ServerAction Pool)} {env : HandleEnv Pool}
    {table : Table Pool} (h : handlings i actions = [(env, table)]) :
    .conn i (.handle env table) ∈ actions := by
  have hmem : (env, table) ∈ handlings i actions := by simp [h]
  obtain ⟨action, haction, heq⟩ := List.mem_filterMap.mp hmem
  split at heq
  · simp only [Option.ite_none_right_eq_some, Option.some.injEq, Prod.mk.injEq] at heq
    obtain ⟨rfl, rfl, rfl⟩ := heq
    exact haction
  · simp at heq

/-- The name comes from the one time connection `i` was handled: it is what the client asked
for, or what the route for that is called. -/
inductive NameOf [GoFmt] (tls : Option ServerTLS) (past : List (ServerAction Pool)) (i : Nat)
    (raw : Input) (name : GoString) : Prop
  | intro {env : HandleEnv Pool} {table : Table Pool} {database : GoString} {route : Route Pool}
      (hhandled : handlings i past = [(env, table)])
      (hasks : AsksFor tls env table raw database route)
      (hname : name = database ∨ name = route.database)

theorem NameOf.mono [GoFmt] {tls : Option ServerTLS} {past : List (ServerAction Pool)} {i : Nat}
    {raw : Input} {name : GoString} (h : NameOf tls past i raw name)
    {action : ServerAction Pool} (hother : handlings i [action] = []) :
    NameOf tls (past ++ [action]) i raw name := by
  obtain ⟨hhandled, hasks, hname⟩ := h
  exact .intro (by rw [handlings_append, hother, List.append_nil, hhandled]) hasks hname

def Stage.Waiting (stage : Stage Pool) : Prop := stage = .tracked ∨ stage = .admitted

/-- A connection is handled once, and the names in use come from there. -/
structure Labelled [GoFmt] (cfg : Config) (past : List (ServerAction Pool)) (m : Metered Pool) :
    Prop where
  fresh : ∀ {i : Nat}, m.server.conns.length ≤ i → handlings i past = []
  waiting : ∀ {i : Nat} {c : Connection Pool}, m.server.conns[i]? = some c → c.stage.Waiting →
    handlings i past = []
  relaying : ∀ {i : Nat} {c : Connection Pool} {route : Route Pool} {relay : Relay Pool},
    m.server.conns[i]? = some c → c.stage = .relaying route relay →
      NameOf cfg.tls past i c.input (m.labels i)
  uses : ∀ {i : Nat} {use : MetricUse}, (i, use) ∈ m.uses → use.database = unrouted ∨
    ∃ c, m.server.conns[i]? = some c ∧ NameOf cfg.tls past i c.input use.database

theorem Labelled.start [GoFmt] (cfg : Config) : Labelled cfg [] ({} : Metered Pool) :=
  ⟨fun _ => rfl, fun _ _ => rfl, by simp, by simp⟩

section Steps
variable [GoFmt] {cfg : Config} {past : List (ServerAction Pool)} {m m' : Metered Pool}

theorem Metered.step_cases {action : ServerAction Pool} (h : m.step cfg action = some m') :
    (∃ client, action = .accept client ∧ m' = { m with server := { m.server with
      conns := m.server.conns ++ [{ input := client }] } }) ∨
    (∃ i a c c' shared events, action = .conn i a ∧ m.server.conns[i]? = some c ∧
      ConnMove cfg m.server.shared c a c' shared events ∧
      m' =
        { server :=
            { shared, conns := m.server.conns.set i c'
              journal := m.server.journal ++ events.map (i, ·) }
          labels := Function.update m.labels i (c.labelAfter cfg (m.labels i) a)
          uses := m.uses ++ (c.uses cfg m.server.shared (m.labels i) a).map (i, ·) }) := by
  obtain ⟨server, hserver, rfl⟩ := Option.map_eq_some_iff.mp h
  rcases Server.step_cases hserver with ⟨client, rfl, rfl⟩ |
    ⟨i, a, c, c', shared, events, rfl, hc, hmove, rfl⟩
  · exact Or.inl ⟨client, rfl, rfl⟩
  · refine Or.inr ⟨i, a, c, c', shared, events, rfl, hc, hmove, ?_⟩
    simp only [hc]

theorem Labelled.accept (h : Labelled cfg past m) (client : Input) :
    Labelled cfg (past ++ [.accept client]) { m with server := { m.server with
      conns := m.server.conns ++ [{ input := client }] } } := by
  have hsame : ∀ i, handlings i (past ++ [.accept client]) = handlings i past := by
    intro i
    rw [handlings_append]
    exact List.append_nil _
  constructor
  · intro i hi
    rw [hsame]
    exact h.fresh (Nat.le_trans (by simp) hi)
  · intro i c hc hwaiting
    rw [hsame]
    rcases conn_of_accept hc with hold | ⟨rfl, -⟩
    · exact h.waiting hold hwaiting
    · exact h.fresh (Nat.le_refl _)
  · intro i c route relay hc hstage
    rcases conn_of_accept hc with hold | ⟨-, rfl⟩
    · exact (h.relaying hold hstage).mono rfl
    · simp at hstage
  · intro i use huse
    rcases h.uses huse with hun | ⟨c, hc, hname⟩
    · exact Or.inl hun
    · have hlt : i < m.server.conns.length := (List.getElem?_eq_some_iff.mp hc).1
      exact Or.inr ⟨c, by rw [List.getElem?_append_left hlt, hc], hname.mono rfl⟩

theorem ConnMove.handling {sh sh' : Shared Pool} {c c' : Connection Pool} {a : ConnAction Pool}
    {events : List (CancelEvent Pool)} (h : ConnMove cfg sh c a c' sh' events) (i : Nat) :
    (handlings i [.conn i a] = [] ∧ (c'.stage.Waiting → c.stage.Waiting)) ∨
    (c.stage.Waiting ∧ ¬ c'.stage.Waiting) := by
  cases h with
  | admitted hstage => exact Or.inl ⟨rfl, fun _ => Or.inl hstage⟩
  | handled hstage =>
    refine Or.inr ⟨Or.inr hstage, ?_⟩
    cases (handle cfg.tls _ _ c.input).2 <;> simp [Next.stage, Stage.Waiting]
  | relayed =>
    refine Or.inl ⟨rfl, fun hwaiting => ?_⟩
    unfold Connection.afterRelay at hwaiting
    split at hwaiting <;> simp [Stage.Waiting] at hwaiting
  | rejected | lookedUp | forwarded | slotReleased | untracked =>
    exact Or.inl ⟨rfl, by simp [Stage.Waiting]⟩

section Conn
variable {i : Nat} {a : ConnAction Pool} {c c' : Connection Pool} {shared : Shared Pool}
variable {events : List (CancelEvent Pool)} (h : Labelled cfg past m)
variable (hc : m.server.conns[i]? = some c)
variable (hmove : ConnMove cfg m.server.shared c a c' shared events)
include h hc hmove

theorem Labelled.name_mono {j : Nat} {raw : Input} {name : GoString}
    (hname : NameOf cfg.tls past j raw name) :
    NameOf cfg.tls (past ++ [.conn i a]) j raw name := by
  by_cases hj : j = i
  · subst hj
    rcases hmove.handling j with ⟨hother, -⟩ | ⟨hwaiting, -⟩
    · exact hname.mono hother
    · obtain ⟨hhandled, -, -⟩ := hname
      simp [h.waiting hc hwaiting] at hhandled
  · exact hname.mono (handlings_other (Ne.symm hj) a)

theorem Labelled.first_handling {env : HandleEnv Pool} {table : Table Pool}
    (ha : a = .handle env table) : handlings i (past ++ [.conn i a]) = [(env, table)] := by
  subst ha
  rcases hmove.handling i with ⟨hother, -⟩ | ⟨hwaiting, -⟩
  · simp [handlings] at hother
  · rw [handlings_append, h.waiting hc hwaiting]
    simp [handlings]

theorem Labelled.label_conn {route : Route Pool} {relay : Relay Pool}
    (hstage : c'.stage = .relaying route relay) :
    NameOf cfg.tls (past ++ [.conn i a]) i c'.input (c.labelAfter cfg (m.labels i) a) := by
  rw [hmove.input]
  rcases hmove.relaying hstage with ⟨relay', hrelaying⟩ |
    ⟨env, table, client, backend, label, rfl, hnext⟩
  · have hlabel : c.labelAfter cfg (m.labels i) a = m.labels i := by
      cases hmove with
      | handled hadmitted => simp [hadmitted] at hrelaying
      | admitted | rejected | lookedUp | forwarded | relayed | slotReleased | untracked => rfl
    rw [hlabel]
    exact h.name_mono hc hmove (h.relaying hc hrelaying)
  · have hlabel : c.labelAfter cfg (m.labels i) (.handle env table) = label := by
      simp only [Connection.labelAfter, hnext]
    obtain ⟨startup, hnego, hdatabase, hroute, -⟩ := handle_relay_inv hnext
    rw [hlabel]
    exact .intro (h.first_handling hc hmove rfl) ⟨⟨client, startup, hnego, hdatabase⟩, hroute⟩
      (Or.inl rfl)

theorem Labelled.uses_conn {use : MetricUse}
    (huse : use ∈ c.uses cfg m.server.shared (m.labels i) a) :
    use.database = unrouted ∨
      NameOf cfg.tls (past ++ [.conn i a]) i c'.input use.database := by
  rw [hmove.input]
  rcases hmove.uses huse with hun | ⟨env, table, database, route, ha, hasks, hname⟩ |
    ⟨route, relay, hstage, hname⟩
  · exact Or.inl hun
  · exact Or.inr (.intro (h.first_handling hc hmove ha) hasks hname)
  · rw [hname]
    exact Or.inr (h.name_mono hc hmove (h.relaying hc hstage))

theorem Labelled.conn : Labelled cfg (past ++ [.conn i a])
    { server :=
        { shared, conns := m.server.conns.set i c'
          journal := m.server.journal ++ events.map (i, ·) }
      labels := Function.update m.labels i (c.labelAfter cfg (m.labels i) a)
      uses := m.uses ++ (c.uses cfg m.server.shared (m.labels i) a).map (i, ·) } := by
  have hsame : ∀ {j}, j ≠ i → handlings j (past ++ [.conn i a]) = handlings j past := by
    intro j hj
    rw [handlings_append, handlings_other (Ne.symm hj), List.append_nil]
  constructor <;> dsimp only
  · intro j hj
    have hi := (List.getElem?_eq_some_iff.mp hc).1
    rw [List.length_set] at hj
    rw [hsame (by omega)]
    exact h.fresh hj
  · intro j d hd hwaiting
    rcases conn_of_set hd with ⟨rfl, rfl⟩ | ⟨hj, hold⟩
    · rcases hmove.handling j with ⟨hother, hbefore⟩ | ⟨-, hnot⟩
      · rw [handlings_append, hother, List.append_nil]
        exact h.waiting hc (hbefore hwaiting)
      · exact absurd hwaiting hnot
    · rw [hsame hj]
      exact h.waiting hold hwaiting
  · intro j d route relay hd hstage
    rcases conn_of_set hd with ⟨rfl, rfl⟩ | ⟨hj, hold⟩
    · rw [Function.update_self]
      exact h.label_conn hc hmove hstage
    · rw [Function.update_of_ne hj]
      exact h.name_mono hc hmove (h.relaying hold hstage)
  · intro j use huse
    rcases List.mem_append.mp huse with hold | hnew
    · rcases h.uses hold with hun | ⟨d, hd, hname⟩
      · exact Or.inl hun
      · obtain ⟨d', hd', hinput⟩ := hmove.kept hc hd
        exact Or.inr ⟨d', hd', hinput ▸ h.name_mono hc hmove hname⟩
    · obtain ⟨use', huse', heq⟩ := List.mem_map.mp hnew
      obtain ⟨rfl, rfl⟩ := Prod.mk.inj heq
      rcases h.uses_conn hc hmove huse' with hun | hname
      · exact Or.inl hun
      · have hi := (List.getElem?_eq_some_iff.mp hc).1
        exact Or.inr ⟨c', List.getElem?_set_self hi, hname⟩

end Conn

theorem Labelled.step {action : ServerAction Pool} (h : Labelled cfg past m)
    (hstep : m.step cfg action = some m') : Labelled cfg (past ++ [action]) m' := by
  rcases Metered.step_cases hstep with ⟨client, rfl, rfl⟩ |
    ⟨i, a, c, c', shared, events, rfl, hc, hmove, rfl⟩
  · exact h.accept client
  · exact h.conn hc hmove

end Steps

theorem build_database {resolver : Resolver Pool} {clusterDomain : GoString} [GoFmt]
    {routes : List PostgresRoute} {database : GoString} {route : Route Pool}
    (h : (build resolver clusterDomain routes).table.lookup database = some route) :
    route.database = database := by
  obtain ⟨source, -, hdatabase, hresolve⟩ := build_lookup_resolved h
  rw [(resolve_names hresolve).2.1, hdatabase]

/-- In every run of the gateway whose routing tables were built by `build`, and metering does
not change the run: every `database` label that is used for a connection is the bucket of
the unrouted, or it is the name the client asked for, which is a name in the one table the
connection was routed by, and the database of the route it has there. -/
theorem metric_labels_are_routed [GoFmt] {cfg : Config} {actions : List (ServerAction Pool)}
    {s : Server Pool} (hrun : exec (Server.step cfg) {} actions = some s)
    (hbuilt : ∀ i env table, .conn i (.handle env table) ∈ actions →
      ∃ (resolver : Resolver Pool) (clusterDomain : GoString) (routes : List PostgresRoute),
        table = (build resolver clusterDomain routes).table) :
    ∃ m, exec (Metered.step cfg) {} actions = some m ∧ m.server = s ∧
      ∀ i use, (i, use) ∈ m.uses → use.database = unrouted ∨
        ∃ c env table route, s.conns[i]? = some c ∧ handlings i actions = [(env, table)] ∧
          AsksFor cfg.tls env table c.input use.database route ∧
          route.database = use.database := by
  have herase := exec_erase (Metered.step_server cfg) ({} : Metered Pool) actions
  rw [show ({} : Metered Pool).server = {} from rfl, hrun] at herase
  obtain ⟨m, hm, rfl⟩ := Option.map_eq_some_iff.mp herase
  have hlabelled : Labelled cfg actions m := exec_history Labelled.step (Labelled.start cfg) hm
  refine ⟨m, hm, rfl, ?_⟩
  intro i use huse
  rcases hlabelled.uses huse with hun | ⟨c, hc, hname⟩
  · exact Or.inl hun
  · obtain ⟨hhandled, hasks, hname⟩ := hname
    obtain ⟨resolver, clusterDomain, routes, rfl⟩ := hbuilt i _ _ (mem_of_handlings hhandled)
    have hdatabase := build_database hasks.routed
    have hrequested := by simpa [hdatabase] using hname
    subst hrequested
    exact Or.inr ⟨c, _, _, _, hc, hhandled, hasks, hdatabase⟩

def builtTable : Table Unit :=
  (@build Unit plainQuote
    { resolveServicePort := fun _ _ _ => .ok 5432, loadCABundle := fun _ _ _ => .ok () }
    (str "cluster.local")
    [{ metadata := { ns := str "team", name := str "app" }
       spec := { backend :=
         { type := .address, address := some { host := str "db", port := 0 } } } }]).table

def strangerStartup : StartupPacket :=
  { code := protocolVersion3, parameters := [⟨str "user", str "eve"⟩] }

/-- Connection 0 is put through; connection 1 asks for a name that nobody claims. -/
def routedRun : List (ServerAction Unit) :=
  [.accept sampleClient, .conn 0 (.acquireSlot .full), .conn 0 (.handle sampleEnv builtTable),
    .accept ⟨[strangerStartup.encode], .sentinel .eof⟩, .conn 1 (.acquireSlot .full),
    .conn 1 (.handle sampleEnv builtTable)]

theorem metric_labels_are_routed_proxied :
    ∃ m, exec (@Metered.step Unit plainQuote {}) {} routedRun = some m ∧
      m.uses = [(0, .backendDialDuration (str "app")),
        (0, .connectionsTotal (str "app") outcomeProxied), (0, .activeConnections (str "app") 1),
        (1, .connectionsTotal unrouted outcomeNoRoute)] ∧
      ∃ env table route, handlings 0 routedRun = [(env, table)] ∧
        table.lookup (str "app") = some route ∧ route.database = str "app" := by
  obtain ⟨s, hrun⟩ : ∃ s, exec (@Server.step Unit plainQuote {}) {} routedRun = some s := ⟨_, rfl⟩
  have hbuilt : ∀ i env table, .conn i (.handle env table) ∈ routedRun →
      ∃ (resolver : Resolver Unit) (clusterDomain : GoString) (routes : List PostgresRoute),
        table = (@build Unit plainQuote resolver clusterDomain routes).table := by
    intro i env table hmem
    simp only [routedRun, List.mem_cons, List.not_mem_nil, reduceCtorEq, ServerAction.conn.injEq,
      ConnAction.handle.injEq, false_or, or_false, and_false] at hmem
    rcases hmem with ⟨-, -, rfl⟩ | ⟨-, -, rfl⟩ <;> exact ⟨_, _, _, rfl⟩
  obtain ⟨m, hm, -, hlabels⟩ := @metric_labels_are_routed Unit plainQuote _ _ _ hrun hbuilt
  have huses : m.uses = [(0, .backendDialDuration (str "app")),
      (0, .connectionsTotal (str "app") outcomeProxied), (0, .activeConnections (str "app") 1),
      (1, .connectionsTotal unrouted outcomeNoRoute)] := by
    obtain rfl := Option.some.inj (hm.symm.trans rfl)
    rfl
  refine ⟨m, hm, huses, ?_⟩
  rcases hlabels 0 (.backendDialDuration (str "app")) (by simp [huses]) with hun |
    ⟨c, env, table, route, -, hhandled, ⟨-, hroute⟩, hdatabase⟩
  · exact absurd hun (by decide)
  · exact ⟨env, table, route, hhandled, hroute, hdatabase⟩

end Proxy
end PgProxy
