import PgProxy.Controller.TableConvergence
import PgProxy.System.Node

/-!
# What a replica at rest does for a client

The builder of a replica that has caught up has published the table of its cache. The next
client is then routed by the objects in the cluster: the route that comes first among those
that claim the name decides, with what its backend resolves to in the same cache. Two replicas
that have caught up with the same cache do the same for every client, whatever led them there.
-/

namespace PgProxy
set_option autoImplicit false

open Pgwire Proxy

variable {Pool : Type}

namespace Node

section Rest
variable [GoFmt] (deps : ResolverDeps Pool) (b : RouteTableBuilder)

/-- Lists succeed, and the resolver answers from the cache. -/
def Healthy (n : Node Pool) : NodeAction Pool → Prop
  | .watch action => RouteWatch.Healthy deps b n.watch action
  | _ => True

/-- The builder is at rest after a healthy run. -/
structure Settled (cfg : Config) (n : Node Pool) : Prop where
  run : ∃ cache actions, exec (step b cfg) (start b cache) actions = some n ∧
    Always (step b cfg) (Healthy deps b) (start b cache) actions
  rest : n.watch.AtRest

variable {deps b} {cfg : Config} {n n' : Node Pool}

theorem watch_step {action : NodeAction Pool} (h : n.step b cfg action = some n') :
    n'.watch = n.watch ∨ ∃ a, action = .watch a ∧ n.watch.step b a = some n'.watch := by
  cases action with
  | watch action =>
    obtain ⟨watch, hwatch, rfl⟩ := Option.map_eq_some_iff.mp h
    exact Or.inr ⟨action, rfl, hwatch⟩
  | gateway action =>
    cases step_move h with
    | gateway => exact Or.inl rfl
  | handle i env =>
    cases step_move h with
    | handled => exact Or.inl rfl

theorem Settled.upToDate (h : Settled deps b cfg n) : RouteWatch.UpToDate deps b n.watch := by
  obtain ⟨cache, actions, hrun, hhealthy⟩ := h.run
  have hinvariant : n.watch.table.Alert ∧ RouteWatch.Current deps b n.watch := by
    refine exec_always
      (I := fun n : Node Pool => n.watch.table.Alert ∧ RouteWatch.Current deps b n.watch)
      ?_ ?_ hhealthy hrun
    · intro m action m' hm hok hstep
      rcases watch_step hstep with hsame | ⟨a, rfl, hwatch⟩
      · rw [hsame]
        exact hm
      · exact ⟨RouteWatch.alert_step hm.1 hwatch, hm.2.step hok hwatch⟩
    · refine ⟨RouteTable.alert_start b, fun hun => ?_⟩
      simp [start, RouteWatch.start, RouteTable.start] at hun
  exact h.rest.upToDate hinvariant.1 hinvariant.2

theorem Settled.lookup (h : Settled deps b cfg n) {routes : List PostgresRoute}
    (hlists : n.watch.cache.routes.Lists routes) (database : GoString) (route : Route Pool) :
    n.routes.lookup database = some route ↔ ∃ w, Wins routes database w ∧
      resolve (n.watch.cache.resolver deps b.watchSecrets) b.clusterDomain w = .ok route := by
  obtain ⟨routes', hlists', hstore⟩ := h.upToDate
  rw [RouteWatch.rebuilt_eq_of_lists hlists' hlists] at hstore
  rw [Node.routes, hstore, RouteWatch.rebuilt, build_lookup hlists.nodup]
  constructor
  · intro hfound
    obtain ⟨w, hw, hresolved⟩ := Option.bind_eq_some_iff.mp hfound
    refine ⟨w, wins_of_firstClaimant hlists.nodup hw, ?_⟩
    cases hcase : resolve (n.watch.cache.resolver deps b.watchSecrets) b.clusterDomain w with
    | error e => simp [hcase, Except.toOption] at hresolved
    | ok route' =>
      rw [hcase, Except.toOption, Option.some.injEq] at hresolved
      rw [hresolved]
  · rintro ⟨w, hwins, hresolved⟩
    obtain ⟨w', hfirst, hwins'⟩ := exists_winner hlists.nodup hwins.listed
    rw [hwins.claims] at hfirst hwins'
    obtain rfl : w' = w := hwins'.unique hwins
    rw [hfirst, Option.bind_some, hresolved]
    rfl

/-! ## The next client -/

/-- The client of the connection asks for a database. -/
structure Asks (cfg : Config) (env : HandleEnv Pool) (c : Connection Pool) (client : Conn)
    (startup : StartupPacket) (database : GoString) : Prop where
  deadline : env.setDeadline = none
  negotiated : (negotiate cfg.tls env c.input).2 = .ok (client, startup)
  query : startup.isCancelRequest = false
  database : requestedDatabase startup = some database

/-- The network lets the session through to the backend of this route. -/
structure Reaches (env : HandleEnv Pool) (route : Route Pool) (backend : BackendConn Pool) :
    Prop where
  dialled : (dialBackend env.network route).conn = .ok backend
  forwarded : env.forward.err = none
  clientDeadline : env.clearClientDeadline = none
  backendDeadline : env.clearBackendDeadline = none

variable {env : HandleEnv Pool} {i : Nat} {c : Connection Pool} {client : Conn}
variable {startup : StartupPacket} {database : GoString}

theorem handle_of_asks (h : Asks cfg env c client startup database) (table : Table Pool) :
    handle cfg.tls table env c.input =
      ((negotiate cfg.tls env c.input).1 ++ (handleStartup table env client startup).1,
        (handleStartup table env client startup).2) := by
  obtain ⟨effects, result, hnego⟩ : ∃ effects result,
      negotiate cfg.tls env c.input = (effects, result) := ⟨_, _, rfl⟩
  have hresult := h.negotiated
  rw [hnego] at hresult
  subst hresult
  simp only [handle, h.deadline, hnego]

theorem handle_of_reaches (h : Asks cfg env c client startup database) {table : Table Pool}
    {route : Route Pool} {backend : BackendConn Pool}
    (hlookup : table.lookup database = some route) (hreaches : Reaches env route backend) :
    handle cfg.tls table env c.input =
      ((negotiate cfg.tls env c.input).1 ++ (dialEffects route (dialBackend env.network route) ++
        [.backend backend (forwardedPacket route database startup).encode,
          .connection database outcomeProxied, .active database]),
        .relay client backend route database) := by
  rw [handle_of_asks h]
  simp only [handleStartup, h.query, h.database, hlookup, hreaches.dialled, forwardStartup,
    hreaches.forwarded, hreaches.clientDeadline, hreaches.backendDeadline,
    WriteOutcome.written_of_err_none hreaches.forwarded]
  rfl

theorem handled_conn (hstep : n.step b cfg (.handle i env) = some n')
    (hc : n.gateway.server.conns[i]? = some c) :
    n'.gateway.server.conns[i]? = some
      { c with
        stage := (handle cfg.tls n.routes env c.input).2.stage
        effects := c.effects ++ (handle cfg.tls n.routes env c.input).1 } := by
  cases step_move hstep with
  | @handled _ _ gateway hgateway =>
    rcases Gateway.step_cases hgateway with ⟨_, haction, -⟩ | ⟨_, _, haction, -⟩ |
      ⟨j, a, d, d', events, haction, hconn⟩
    · simp at haction
    · simp at haction
    · obtain ⟨rfl, rfl⟩ := GatewayAction.conn.inj haction
      obtain rfl : d = c := by simpa [hconn.conn] using hc
      have hi := (List.getElem?_eq_some_iff.mp hconn.conn).1
      rw [hconn.conns, List.getElem?_set_self hi]
      have hmove := hconn.move
      generalize gateway.server.shared = shared at hmove
      cases hmove with
      | handled => rfl

variable (deps b) in
/-- The name belongs to the first of these routes that claims it, and that one resolves to
`route` in the cache. -/
def RoutedTo (cache : Contents) (routes : List PostgresRoute) (database : GoString)
    (route : Route Pool) : Prop :=
  ∃ w, Wins routes database w ∧
    resolve (cache.resolver deps b.watchSecrets) b.clusterDomain w = .ok route

/-- On a replica at rest, the next client that asks for a database gets what the objects in the
cache say: if the first route that claims the name resolves, a session with its backend as soon
as the network allows it, opened with the startup packet for the route's own database, and
nothing is sent anywhere else; and if there is no such route, or it does not resolve, an error,
and nothing is sent to any backend. -/
theorem settled_replica_routes_by_the_cache (h : Settled deps b cfg n)
    {routes : List PostgresRoute} (hlists : n.watch.cache.routes.Lists routes)
    (hstep : n.step b cfg (.handle i env) = some n')
    (hc : n.gateway.server.conns[i]? = some c)
    (hasks : Asks cfg env c client startup database) :
    ∃ c', n'.gateway.server.conns[i]? = some c' ∧
      (∀ route, RoutedTo deps b n.watch.cache routes database route →
        (∀ backend, Reaches env route backend →
          c'.stage = .relaying route (Relay.start client.input backend.input) ∧
          .backend backend (forwardedPacket route database startup).encode ∈ c'.effects) ∧
        ∀ effect ∈ c'.effects, effect ∈ c.effects ∨
          ∀ address, effect.contacts = some address → address = route.address) ∧
      ((∀ route, ¬ RoutedTo deps b n.watch.cache routes database route) →
        c'.stage = .handled none ∧
        c'.effects = c.effects ++ (negotiate cfg.tls env c.input).1 ++
          [.connection unrouted outcomeNoRoute,
            writeFatal env.fatal sqlStateUndefinedDatabase
              (str "database " ++ quote database ++ str " does not exist")
              (str "No PostgresRoute in this cluster claims that database name.")]) := by
  refine ⟨_, handled_conn hstep hc, ?_, ?_⟩
  · intro route hrouted
    have hlookup := (h.lookup hlists database route).mpr hrouted
    refine ⟨?_, ?_⟩
    · intro backend hreaches
      rw [handle_of_reaches hasks hlookup hreaches]
      exact ⟨rfl, by simp⟩
    · intro effect heffect
      rcases List.mem_append.mp heffect with hold | hnew
      · exact Or.inl hold
      · refine Or.inr fun address haddress => ?_
        obtain ⟨database', route', hasks', rfl⟩ := handle_contacts hnew haddress
        obtain ⟨client', startup', hnego, hdatabase⟩ := hasks'.requested
        rw [hasks.negotiated, Except.ok.injEq, Prod.mk.injEq] at hnego
        obtain ⟨rfl, rfl⟩ := hnego
        rw [hasks.database, Option.some.injEq] at hdatabase
        subst hdatabase
        have hsame := hasks'.routed
        rw [hlookup, Option.some.injEq] at hsame
        rw [hsame]
  · intro hnone
    have hlookup : n.routes.lookup database = none := by
      cases hfound : n.routes.lookup database with
      | none => rfl
      | some route => exact absurd ((h.lookup hlists database route).mp hfound) (hnone route)
    have hstartup : handleStartup n.routes env client startup =
        ([.connection unrouted outcomeNoRoute,
          writeFatal env.fatal sqlStateUndefinedDatabase
            (str "database " ++ quote database ++ str " does not exist")
            (str "No PostgresRoute in this cluster claims that database name.")],
          .returned none) := by
      simp only [handleStartup, hasks.query, hasks.database, hlookup]
      rfl
    rw [handle_of_asks hasks, hstartup, ← List.append_assoc]
    exact ⟨rfl, rfl⟩

variable {n₁ n₂ n₁' n₂' : Node Pool}

/-- Two replicas at rest after healthy runs, with the same cache, have published the same
snapshot, whatever order things came in, and what one of them does for a client the other would
have done as well. -/
theorem settled_replicas_agree (h₁ : Settled deps b cfg n₁) (h₂ : Settled deps b cfg n₂)
    (hcache : n₁.watch.cache = n₂.watch.cache) :
    n₁.watch.table.store = n₂.watch.table.store ∧
    ∀ i j env c₁ c₂, n₁.step b cfg (.handle i env) = some n₁' →
      n₂.step b cfg (.handle j env) = some n₂' → n₁.gateway.server.conns[i]? = some c₁ →
      n₂.gateway.server.conns[j]? = some c₂ → c₁.input = c₂.input →
      ∃ stage new,
        n₁'.gateway.server.conns[i]? = some { c₁ with stage, effects := c₁.effects ++ new } ∧
        n₂'.gateway.server.conns[j]? = some { c₂ with stage, effects := c₂.effects ++ new } := by
  have hstore : n₁.watch.table.store = n₂.watch.table.store := by
    obtain ⟨routes₁, hlists₁, hstore₁⟩ := h₁.upToDate
    obtain ⟨routes₂, hlists₂, hstore₂⟩ := h₂.upToDate
    rw [hstore₁, hstore₂, hcache]
    rw [hcache] at hlists₁
    exact RouteWatch.rebuilt_eq_of_lists hlists₁ hlists₂
  refine ⟨hstore, ?_⟩
  intro i j env c₁ c₂ hstep₁ hstep₂ hc₁ hc₂ hinput
  have hroutes : n₁.routes = n₂.routes := congrArg Snapshot.table hstore
  refine ⟨_, _, handled_conn hstep₁ hc₁, ?_⟩
  rw [hroutes, hinput]
  exact handled_conn hstep₂ hc₂

end Rest

def settledCache : Contents :=
  { routes := (∅ : Store PostgresRoute.key).apply (.put (appRoute "team" "app" "db")) }

/-- A route appears, its table is published, and then a client connects. -/
def settledRun : List (NodeAction Unit) :=
  [.watch (.table (.register 0)), .watch (.table (.register 0)), .watch (.table (.list [])),
    .watch (.table (.publish [])), .watch (.table .rebuilt),
    .watch (.change (.route (.put (appRoute "team" "app" "db")))),
    .watch (.table .schedule), .watch (.table .receive), .watch (.table .fire),
    .watch (.table .tick), .watch (.table (.list [appRoute "team" "app" "db"])),
    .watch (.table (.resolve
      (@Contents.resolver Unit plainQuote RouteWatch.sampleDeps false settledCache))),
    .watch (.table (.publish [(appRoute "team" "app" "db").key])), .watch (.table .notify),
    .watch (.table .rebuilt),
    .gateway (.accept Proxy.sampleClient), .gateway (.track 0),
    .gateway (.conn 0 (.acquireSlot .full))]

theorem settledRun_healthy : Always (@step Unit plainQuote sampleBuilder {})
    (@Healthy Unit plainQuote RouteWatch.sampleDeps sampleBuilder) (start sampleBuilder {})
    settledRun := by
  -- the one resolution is the twelfth action
  rw [← List.take_append_drop 11 settledRun]
  refine always_append (always_of_forall ?_ _) ?_
  · simp [settledRun, Healthy, RouteWatch.Healthy]
  · intro u hu
    obtain rfl := Option.some.inj hu
    refine always_cons rfl (fun _ => rfl) (always_of_forall ?_ _)
    simp [Healthy, RouteWatch.Healthy]

def settledRoute : Route Unit :=
  { source := ⟨str "team", str "app"⟩, database := str "app", targetDatabase := str "app"
    host := str "db", port := 5432, tls := { mode := .disable } }

theorem settledRun_settled {n : Node Unit}
    (hrun : exec (@step Unit plainQuote sampleBuilder {}) (start sampleBuilder {}) settledRun =
      some n) (hphase : n.watch.table.phase = .selecting) (hwake : n.watch.table.wake = {}) :
    @Settled Unit plainQuote RouteWatch.sampleDeps sampleBuilder {} n := by
  refine @Settled.mk Unit plainQuote _ _ _ _ ⟨_, _, hrun, settledRun_healthy⟩ ⟨hphase, ?_⟩
  simp [hwake, Debounce.Awake]

theorem settled_replica_routes_by_the_cache_sample :
    ∃ n n' c' relay, @Settled Unit plainQuote RouteWatch.sampleDeps sampleBuilder {} n ∧
      @step Unit plainQuote sampleBuilder {} n (.handle 0 sampleEnv) = some n' ∧
      n'.gateway.server.conns[0]? = some c' ∧
      c'.stage = .relaying settledRoute relay := by
  obtain ⟨n, n', c, client, startup, backend, hrun, hphase, hwake, hstep, hc, hlists, hasks,
      hresolved, hreaches⟩ :
      ∃ n n' c client startup backend,
      exec (@step Unit plainQuote sampleBuilder {}) (start sampleBuilder {}) settledRun = some n ∧
      n.watch.table.phase = .selecting ∧ n.watch.table.wake = {} ∧
      @step Unit plainQuote sampleBuilder {} n (.handle 0 sampleEnv) = some n' ∧
      n.gateway.server.conns[0]? = some c ∧
      n.watch.cache.routes.Lists [appRoute "team" "app" "db"] ∧
      @Asks Unit plainQuote {} sampleEnv c client startup (str "app") ∧
      @resolve Unit plainQuote
        (@Contents.resolver Unit plainQuote RouteWatch.sampleDeps false n.watch.cache)
        (str "cluster.local") (appRoute "team" "app" "db") = .ok settledRoute ∧
      Reaches sampleEnv settledRoute backend :=
    ⟨_, _, _, _, _, _, rfl, rfl, rfl, rfl, rfl, by decide,
      @Asks.mk Unit plainQuote _ _ _ _ _ _ rfl rfl rfl rfl, rfl, ⟨rfl, rfl, rfl, rfl⟩⟩
  have hsettled := settledRun_settled hrun hphase hwake
  obtain ⟨c', hc', hrouted, -⟩ := @settled_replica_routes_by_the_cache Unit plainQuote _ _ _ _ _ _
    _ _ _ _ _ hsettled _ hlists hstep hc hasks
  have hwins : Wins [appRoute "team" "app" "db"] (str "app") (appRoute "team" "app" "db") := by
    refine ⟨List.mem_singleton_self _, rfl, fun r hr _ hne => ?_⟩
    exact absurd (List.mem_singleton.mp hr) hne
  obtain ⟨hthrough, -⟩ := hrouted _ ⟨_, hwins, hresolved⟩
  exact ⟨n, n', c', _, hsettled, hstep, hc', (hthrough backend hreaches).1⟩

def earlyRun : List (NodeAction Unit) :=
  [.watch (.table (.register 0)), .watch (.table (.register 0)),
    .watch (.table (.list [appRoute "team" "app" "db"])),
    .watch (.table (.resolve
      (@Contents.resolver Unit plainQuote RouteWatch.sampleDeps false settledCache))),
    .watch (.table (.publish [(appRoute "team" "app" "db").key])), .watch (.table .notify),
    .watch (.table .rebuilt)]

theorem settled_replicas_agree_early :
    ∃ n₁ n₂, exec (@step Unit plainQuote sampleBuilder {}) (start sampleBuilder {}) settledRun =
        some n₁ ∧
      exec (@step Unit plainQuote sampleBuilder {}) (start sampleBuilder settledCache) earlyRun =
        some n₂ ∧
      n₁.watch.table.store = n₂.watch.table.store ∧
      n₁.watch.table.published.length ≠ n₂.watch.table.published.length := by
  obtain ⟨n₁, n₂, hrun₁, hrun₂, hphase₁, hwake₁, hphase₂, hwake₂, hcache, hlength⟩ : ∃ n₁ n₂,
      exec (@step Unit plainQuote sampleBuilder {}) (start sampleBuilder {}) settledRun =
        some n₁ ∧
      exec (@step Unit plainQuote sampleBuilder {}) (start sampleBuilder settledCache) earlyRun =
        some n₂ ∧
      n₁.watch.table.phase = .selecting ∧ n₁.watch.table.wake = {} ∧
      n₂.watch.table.phase = .selecting ∧ n₂.watch.table.wake = {} ∧
      n₁.watch.cache = n₂.watch.cache ∧
      n₁.watch.table.published.length ≠ n₂.watch.table.published.length :=
    ⟨_, _, rfl, rfl, rfl, rfl, rfl, rfl, rfl, by decide⟩
  have hsettled₂ : @Settled Unit plainQuote RouteWatch.sampleDeps sampleBuilder {} n₂ := by
    refine @Settled.mk Unit plainQuote _ _ _ _ ⟨_, _, hrun₂, ?_⟩ ⟨hphase₂, ?_⟩
    · exact always_cons rfl trivial (always_cons rfl trivial (always_cons rfl trivial
        (always_cons rfl (fun _ => rfl) (always_of_forall (by simp [Healthy, RouteWatch.Healthy])
          _))))
    · simp [hwake₂, Debounce.Awake]
  obtain ⟨hstore, -⟩ := @settled_replicas_agree Unit plainQuote _ _ _ _ _ n₁ n₂
    (settledRun_settled hrun₁ hphase₁ hwake₁) hsettled₂ hcache
  exact ⟨n₁, n₂, hrun₁, hrun₂, hstore, hlength⟩

end Node
end PgProxy
