import PgProxy.Controller.Provenance
import PgProxy.Proxy.Admission
import PgProxy.Proxy.Confinement

/-!
# A replica: the table builder and the gateway on it

`run` gives the store that the builder publishes to, and the gateway reads from, to both. The
cache, the builder, the accept loop and the goroutines of the connections run in any
interleaving; `handle` loads the snapshot in force when it looks its client up.
-/

namespace PgProxy
set_option autoImplicit false

open Proxy

variable {Pool : Type}

structure Node (Pool : Type) where
  watch : RouteWatch Pool
  gateway : Gateway Pool := {}

/-- `handle` has an action of its own, because the gateway does not choose the table. -/
inductive NodeAction (Pool : Type) where
  | watch (action : WatchAction Pool)
  | gateway (action : GatewayAction Pool)
  | handle (i : Nat) (env : HandleEnv Pool)

namespace Node

def start (b : RouteTableBuilder) (cache : Contents) : Node Pool :=
  { watch := RouteWatch.start b cache }

/-- The table that `Routes` returns. -/
def routes (n : Node Pool) : Table Pool := n.watch.table.store.table

def step [GoFmt] (b : RouteTableBuilder) (cfg : Config) (n : Node Pool) :
    NodeAction Pool → Option (Node Pool)
  | .watch action => (n.watch.step b action).map fun watch => { n with watch }
  | .gateway (.conn _ (.handle _ _)) => none
  | .gateway action => (n.gateway.step cfg action).map fun gateway => { n with gateway }
  | .handle i env =>
    (n.gateway.step cfg (.conn i (.handle env n.routes))).map fun gateway => { n with gateway }

inductive Move [GoFmt] (b : RouteTableBuilder) (cfg : Config) (n : Node Pool) :
    NodeAction Pool → Node Pool → Prop
  | changed {c : CacheChange} (hwatched : c.kind ∈ b.watched) :
      Move b cfg n (.watch (.change c))
        { n with watch :=
          { cache := n.watch.cache.apply c, table := n.watch.table.cacheChanged c.kind } }
  | table {action : TableAction Pool} {table : RouteTable Pool}
      (hmove : RouteTable.Move b n.watch.cache.routes n.watch.table action table) :
      Move b cfg n (.watch (.table action)) { n with watch := { n.watch with table } }
  | gateway {action : GatewayAction Pool} {gateway : Gateway Pool}
      (hother : ∀ i env table, action ≠ .conn i (.handle env table))
      (hstep : n.gateway.step cfg action = some gateway) :
      Move b cfg n (.gateway action) { n with gateway }
  | handled {i : Nat} {env : HandleEnv Pool} {gateway : Gateway Pool}
      (hstep : n.gateway.step cfg (.conn i (.handle env n.routes)) = some gateway) :
      Move b cfg n (.handle i env) { n with gateway }

theorem step_move [GoFmt] {b : RouteTableBuilder} {cfg : Config} {n n' : Node Pool}
    {action : NodeAction Pool} (h : n.step b cfg action = some n') : Move b cfg n action n' := by
  cases action with
  | watch action =>
    obtain ⟨watch, hwatch, rfl⟩ := Option.map_eq_some_iff.mp h
    cases action with
    | change c =>
      obtain ⟨hwatched, ⟨⟩⟩ := Option.ite_none_right_eq_some.mp hwatch
      exact .changed hwatched
    | table action =>
      obtain ⟨table, htable, rfl⟩ := Option.map_eq_some_iff.mp hwatch
      exact .table (RouteTable.step_move htable)
  | gateway action =>
    cases action with
    | accept client =>
      obtain rfl := Option.some.inj h
      exact .gateway (by simp) rfl
    | track i =>
      obtain ⟨gateway, hgateway, rfl⟩ := Option.map_eq_some_iff.mp h
      exact .gateway (by simp) hgateway
    | conn i a =>
      cases a with
      | handle env table => simp [step] at h
      | _ =>
        obtain ⟨gateway, hgateway, rfl⟩ := Option.map_eq_some_iff.mp h
        exact .gateway (by simp) hgateway
  | handle i env =>
    obtain ⟨gateway, hgateway, rfl⟩ := Option.map_eq_some_iff.mp h
    exact .handled hgateway

/-! ## Where an address comes from -/

section Runs
variable [GoFmt] (b : RouteTableBuilder) (cfg : Config) (cache : Contents)

/-- The connections that have been through `handle`, each with the table in force at the
time. -/
def Handled (past : List (NodeAction Pool)) : Handlings Pool := fun i env table =>
  ∃ before after m, past = before ++ .handle i env :: after ∧
    exec (step b cfg) (start b cache) before = some m ∧ m.routes = table

/-- The routes were all there were in the cache at some time. -/
def WereListed (past : List (NodeAction Pool)) (routes : List PostgresRoute) : Prop :=
  Once (step b cfg) (start b cache) (fun m : Node Pool => m.watch.cache.routes.Lists routes) past

/-- The snapshot in force says that a route is programmed with this address, and that route
wins the name among those that were listed. -/
def Programmed (past : List (NodeAction Pool)) (n : Node Pool) (database address : GoString) :
    Prop :=
  ∃ routes w, WereListed b cfg cache past routes ∧ Wins routes database w ∧
    n.watch.table.store.decision w.key = some { database, accepted := true, endpoint := address }

structure Sound (past : List (NodeAction Pool)) (n : Node Pool) : Prop where
  reached : exec (step b cfg) (start b cache) past = some n
  programs : n.watch.table.Programs b.clusterDomain
  listed : n.watch.table.Listed (WereListed b cfg cache past)
  confined : n.gateway.server.Confined cfg.tls (Handled b cfg cache past)

variable {b cfg cache} {past actions : List (NodeAction Pool)} {n n' : Node Pool}

theorem Handled.later {i : Nat} {env : HandleEnv Pool} {table : Table Pool}
    (h : Handled b cfg cache past i env table) (action : NodeAction Pool) :
    Handled b cfg cache (past ++ [action]) i env table := by
  obtain ⟨before, after, m, rfl, hm, htable⟩ := h
  exact ⟨before, after ++ [action], m, by simp, hm, htable⟩

theorem Sound.start : Sound b cfg cache [] (start b cache : Node Pool) :=
  ⟨rfl, RouteTable.Programs.start b, RouteTable.Listed.start _ b, Server.Confined.start _ _⟩

omit b cache in
theorem confined_step {H : Handlings Pool} {s t : Gateway Pool} {action : GatewayAction Pool}
    (h : s.server.Confined cfg.tls H)
    (hhandled : ∀ i env table, action = .conn i (.handle env table) → H i env table)
    (hstep : s.step cfg action = some t) : t.server.Confined cfg.tls H := by
  cases action with
  | accept client =>
    have hserver : s.server.step cfg (.accept client) = some t.server := by
      rw [← Option.some.inj hstep]
      rfl
    exact h.step (by simp) hserver
  | track i =>
    rcases Gateway.step_cases hstep with ⟨_, haction, -⟩ | ⟨_, _, -, -, -, -, rfl⟩ |
      ⟨_, _, _, _, _, haction, -⟩
    · simp at haction
    · exact h
    · simp at haction
  | conn i a =>
    obtain ⟨-, hmap⟩ := Option.ite_none_right_eq_some.mp hstep
    obtain ⟨server, hserver, rfl⟩ := Option.map_eq_some_iff.mp hmap
    refine h.step ?_ hserver
    intro j env table haction
    obtain ⟨rfl, rfl⟩ := ServerAction.conn.inj haction
    exact hhandled i env table rfl

theorem Sound.step {action : NodeAction Pool} (h : Sound b cfg cache past n)
    (hstep : n.step b cfg action = some n') : Sound b cfg cache (past ++ [action]) n' := by
  have hreached : exec (Node.step b cfg) (Node.start b cache) (past ++ [action]) = some n' :=
    exec_trans h.reached (exec_single hstep)
  have hlisted := h.listed.mono fun routes hroutes => hroutes.later [action]
  have hconfined := h.confined.mono fun i env table hhandled =>
    Handled.later hhandled action
  cases step_move hstep with
  | changed => exact ⟨hreached, h.programs.cacheChanged _, ⟨hlisted.building, hlisted.published⟩,
      hconfined⟩
  | table hmove =>
    refine ⟨hreached, h.programs.step hmove, hlisted.step ?_ hmove, hconfined⟩
    intro routes hroutes
    exact (Once.now h.reached hroutes).later [_]
  | gateway hother hgateway =>
    refine ⟨hreached, h.programs, hlisted, confined_step hconfined ?_ hgateway⟩
    intro i env table haction
    exact absurd haction (hother i env table)
  | handled hgateway =>
    refine ⟨hreached, h.programs, hlisted, confined_step hconfined ?_ hgateway⟩
    rintro j env table haction
    obtain ⟨rfl, rfl, rfl⟩ : _ ∧ _ ∧ _ := by simpa using haction
    exact ⟨past, [], n, rfl, h.reached, rfl⟩

theorem Sound.of_run (hrun : exec (Node.step b cfg) (Node.start b cache) actions = some n) :
    Sound b cfg cache actions n :=
  exec_history Sound.step Sound.start hrun

theorem Sound.programmed (h : Sound b cfg cache past n) {database : GoString} {route : Route Pool}
    (hroute : n.routes.lookup database = some route) :
    Programmed b cfg cache past n database route.address := by
  obtain ⟨p, hp, hstore⟩ := h.programs.offered database route hroute
  have hroute' : p.snapshot.table.lookup database = some route := by
    rw [hstore]
    exact hroute
  obtain ⟨w, hwins, -, hdecision⟩ := (h.programs.published p hp).routed database route hroute'
  refine ⟨p.routes, w, h.listed.published p hp, hwins, ?_⟩
  rw [← hstore]
  exact hdecision

/-- In every interleaving of a replica: whatever is sent to a backend for a connection goes to
the address that the snapshot in force at its `handle` gave for the name its client asked for. A
cancellation goes to the address of another connection, the last to have issued the key that was
looked up, and that address was given to this one for the name its own client asked for. Each is
the endpoint of an accepted and resolved decision, of the route that wins the name among those the
cache held when they were listed. -/
theorem gateway_talks_to_programmed_backends
    (hrun : exec (Node.step b cfg) (Node.start b cache) actions = some n) :
    (∀ i c, n.gateway.server.conns[i]? = some c → ∀ effect ∈ c.effects,
      ∀ address, effect.contacts = some address →
        ∃ before env after m database route, actions = before ++ .handle i env :: after ∧
          exec (Node.step b cfg) (Node.start b cache) before = some m ∧
          AsksFor cfg.tls env m.routes c.input database route ∧ address = route.address ∧
          Programmed b cfg cache before m database address) ∧
    (∀ i event, (i, event) ∈ n.gateway.server.journal →
      ∀ address, event.contacts = some address →
        ∃ j key entry c, j ≠ i ∧ Cancels n.gateway.server.journal i j key entry ∧
          address = entry.backendAddr ∧ n.gateway.server.conns[j]? = some c ∧
        ∃ before env after m database route, actions = before ++ .handle j env :: after ∧
          exec (Node.step b cfg) (Node.start b cache) before = some m ∧
          AsksFor cfg.tls env m.routes c.input database route ∧ address = route.address ∧
          Programmed b cfg cache before m database address) := by
  have hsound := Sound.of_run hrun
  refine ⟨?_, ?_⟩
  · intro i c hc effect heffect address haddress
    obtain ⟨env, table, database, route, ⟨before, after, m, hsplit, hm, rfl⟩, hasks, rfl⟩ :=
      (hsound.confined.conns i c hc).effects effect heffect address haddress
    exact ⟨before, env, after, m, database, route, hsplit, hm, hasks, rfl,
      (Sound.of_run hm).programmed hasks.routed⟩
  · intro i event hevent address haddress
    obtain ⟨j, key, entry, c, hother, hcancels, hentry, hc, env, table, database, route,
      ⟨before, after, m, hsplit, hm, rfl⟩, hasks, rfl⟩ := hsound.confined.cancels hevent haddress
    exact ⟨j, key, entry, c, hother, hcancels, hentry, hc, before, env, after, m, database, route,
      hsplit, hm, hasks, rfl, (Sound.of_run hm).programmed hasks.routed⟩

end Runs

def sampleRun : List (NodeAction Unit) :=
  [.watch (.change (.route (.put (appRoute "team" "app" "db")))),
    .watch (.table (.register 1)), .watch (.table (.register 0)),
    .watch (.table (.list [appRoute "team" "app" "db"])),
    .watch (.table (.resolve emptyCluster)),
    .watch (.table (.publish [(appRoute "team" "app" "db").key])),
    .gateway (.accept Proxy.sampleClient), .gateway (.track 0),
    .gateway (.conn 0 (.acquireSlot .full)), .handle 0 sampleEnv]

theorem gateway_talks_to_programmed_backends_sample :
    ∃ n c conn b, exec (@step Unit plainQuote sampleBuilder {}) (start sampleBuilder {}) sampleRun =
        some n ∧
      n.gateway.server.conns[0]? = some c ∧ .backend conn b ∈ c.effects ∧
      ∃ before env after m database, sampleRun = before ++ .handle 0 env :: after ∧
        @Programmed Unit plainQuote sampleBuilder {} {} before m database conn.address := by
  obtain ⟨n, c, conn, b, hrun, hc, hsent⟩ : ∃ n c conn b,
      exec (@step Unit plainQuote sampleBuilder {}) (start sampleBuilder {}) sampleRun = some n ∧
      n.gateway.server.conns[0]? = some c ∧ c.effects[0]? = some (.dialDuration (str "app")) ∧
      c.effects[1]? = some (.backend conn b) := ⟨_, _, _, _, rfl, rfl, rfl, rfl⟩
  obtain ⟨hsessions, -⟩ := @gateway_talks_to_programmed_backends Unit plainQuote _ _ _ _ _ hrun
  have hmem := List.mem_of_getElem? hsent.2
  obtain ⟨before, env, after, m, database, route, hsplit, -, -, -, hprogrammed⟩ :=
    hsessions 0 c hc _ hmem conn.address rfl
  exact ⟨n, c, conn, b, hrun, hc, hmem, before, env, after, m, database, hsplit, hprogrammed⟩

end Node
end PgProxy
