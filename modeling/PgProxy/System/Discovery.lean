import PgProxy.Controller.DiscoveryContent
import PgProxy.System.Routing

/-!
# From a Service to a session

A labelled Service becomes reachable in three stages: discovery writes its route, the builders of
the replicas publish a table with it, and the gateways route their clients by that table. Once the
first two are at rest, a client that asks for the name of the Service talks to the Service, unless
another route has the name.
-/

namespace PgProxy
set_option autoImplicit false

open Pgwire Proxy ServiceDiscoveryReconciler

variable {Pool : Type}

structure Node.CaughtUp (s : Loop) (n : Node Pool) : Prop where
  routes : n.watch.cache.routes = s.routes.store
  services : n.watch.cache.services = s.services.store

theorem before_of_priority {w w' : PostgresRoute} (h : w'.spec.priority < w.spec.priority) :
    Before w w' :=
  .inl h

section Discovered
variable {r : ServiceDiscoveryReconciler} {m : Machinery} {svc : Service} {gen : PostgresRoute}

theorem databaseName_ne_nil (h : svc.metadata.name ≠ []) : r.databaseName svc ≠ [] := by
  simp only [databaseName]
  split
  · assumption
  · exact h

variable [GoFmt]

theorem effectiveDatabase_of_fixed (hname : svc.metadata.name ≠ [])
    (h : r.mutate m svc gen = .ok gen) : gen.effectiveDatabase = r.databaseName svc := by
  have hdatabase : gen.spec.database = r.databaseName svc :=
    congrArg PostgresRouteSpec.database (spec_of_mutate h)
  rw [PostgresRoute.effectiveDatabase, hdatabase, if_pos (databaseName_ne_nil hname)]

/-- What the route of a Service resolves to. -/
def discoveredRoute (clusterDomain : GoString) (gen : PostgresRoute) (svc : Service) (port : Int32)
    (tls : TLSConfig Pool) : Route Pool where
  source := gen.key
  database := gen.effectiveDatabase
  targetDatabase := gen.effectiveTargetDatabase
  host := svc.metadata.name ++ str "." ++ svc.metadata.ns ++ str ".svc." ++ clusterDomain
  port
  tls

theorem resolve_of_fixed {deps : ResolverDeps Pool} {caBundles : Bool} {cache : Contents}
    {port : Int32} {tls : TLSConfig Pool} (hkey : gen.key = generatedKey svc.key)
    (h : r.mutate m svc gen = .ok gen)
    (hunset : svc.metadata.annotations.lookup portAnnotation = none)
    (hport : DocumentedPort svc.ports port) (hsvc : cache.services.get svc.key = some svc)
    (htls : resolveTLS (cache.resolver deps caBundles) gen = .ok tls) (clusterDomain : GoString) :
    resolve (cache.resolver deps caBundles) clusterDomain gen =
      .ok (discoveredRoute clusterDomain gen svc port tls) := by
  have hsends : SendsTo svc port gen := by
    refine ⟨congrArg NamespacedName.ns hkey, ?_⟩
    rw [spec_of_mutate h, generatedSpec, port_documented m hunset hport]
  have hread : (cache.reader deps).getService svc.key = .ok svc := by
    simp only [Contents.reader, getStored, hsvc]
  have hbackend := hsends.resolveBackend
    (c := { client := cache.reader deps, caBundles, deps }) clusterDomain
  rw [resolveServicePort_int_ok hread hport.declared] at hbackend
  rw [resolve, show resolveBackend (cache.resolver deps caBundles) clusterDomain gen = _ from
    hbackend]
  simp only [htls]
  rfl

namespace Node
variable {deps : ResolverDeps Pool} {b : RouteTableBuilder} {cfg : Config} {n n' : Node Pool}
variable {s : Loop} {actions : List ClusterAction} {routes : List PostgresRoute} {port : Int32}
variable {env : HandleEnv Pool} {i : Nat} {c : Connection Pool} {client : Conn}
variable {startup : StartupPacket}

/-- Discovery is at rest, a replica has caught up with it and is at rest itself after a healthy
run, and a client asks for the name of a Service in scope. If the route of the Service is the first
to claim the name and its TLS settings resolve, the client's session is with the documented port of
the Service; a route of a higher priority takes the name away. -/
theorem discovered_service_is_served (hrun : exec (Loop.clusterStep r m) {} actions = some s)
    (hquiet : s.Quiescent) (hsvc : s.services.store.get svc.key = some svc)
    (hscope : r.outOfScope svc = false) (hname : svc.metadata.name ≠ [])
    (hunset : svc.metadata.annotations.lookup portAnnotation = none)
    (hport : DocumentedPort svc.ports port) (h : Settled deps b cfg n) (hcaught : n.CaughtUp s)
    (hlists : n.watch.cache.routes.Lists routes)
    (hstep : n.step b cfg (.handle i env) = some n')
    (hc : n.gateway.server.conns[i]? = some c)
    (hasks : Asks cfg env c client startup (r.databaseName svc)) :
    ∃ gen c', s.routes.store.get (generatedKey svc.key) = some gen ∧
      n'.gateway.server.conns[i]? = some c' ∧
      ((∀ w ∈ routes, w.effectiveDatabase = r.databaseName svc → w ≠ gen → Before gen w) →
        ∀ tls backend, resolveTLS (n.watch.cache.resolver deps b.watchSecrets) gen = .ok tls →
        Reaches env (discoveredRoute b.clusterDomain gen svc port tls) backend →
        c'.stage = .relaying (discoveredRoute b.clusterDomain gen svc port tls)
          (Relay.start client.input backend.input)) ∧
      ∀ w ∈ routes, w.effectiveDatabase = r.databaseName svc → priority svc < w.spec.priority →
        ∀ route relay, c'.stage = .relaying route relay → route.source ≠ generatedKey svc.key := by
  obtain ⟨gen, hgen, hfixed⟩ := Loop.fixed_of_quiescent hrun hquiet hsvc hscope
  have hkey : gen.key = generatedKey svc.key := Store.key_of_get hgen
  have hclaims := effectiveDatabase_of_fixed hname hfixed
  have hlisted : gen ∈ routes := (hlists.mem gen).mpr (by rw [hcaught.routes, hkey, hgen])
  refine ⟨gen, _, hgen, handled_conn hstep hc, ?_, ?_⟩
  · intro hfirst tls backend htls hreaches
    have hresolved := resolve_of_fixed hkey hfixed hunset hport (by rw [hcaught.services, hsvc])
      htls b.clusterDomain
    have hlookup := (h.lookup hlists (r.databaseName svc) _).mpr
      ⟨gen, ⟨hlisted, hclaims, hfirst⟩, hresolved⟩
    rw [handle_of_reaches hasks hlookup hreaches]
    rfl
  · intro w hw hwclaims hpriority route relay hstage hsource
    obtain ⟨client', backend, label, hnext, -⟩ := Next.relay_of_stage hstage
    obtain ⟨startup', hnego, hlabel, hlookup, -⟩ := handle_relay_inv hnext
    rw [hasks.negotiated, Except.ok.injEq, Prod.mk.injEq] at hnego
    obtain ⟨-, rfl⟩ := hnego
    obtain rfl : r.databaseName svc = label := Option.some.inj (hasks.database.symm.trans hlabel)
    obtain ⟨w', hwins, hresolved⟩ := (h.lookup hlists _ _).mp hlookup
    -- the winner would be the route of the Service, but the other one comes before it
    have hgenkey : w'.key = gen.key := by
      rw [← (resolve_names hresolved).1, hsource, hkey]
    obtain rfl : w' = gen := DistinctKeys.eq_of_key hlists.nodup hwins.listed hlisted hgenkey
    have hprio : w'.spec.priority = priority svc :=
      congrArg PostgresRouteSpec.priority (spec_of_mutate hfixed)
    have hbefore : Before w w' := before_of_priority (hprio ▸ hpriority)
    have hne : w ≠ w' := by
      rintro rfl
      exact before_ranks.asymm hbefore hbefore
    exact before_ranks.asymm hbefore (hwins.first w hw hwclaims hne)

end Node
end Discovered

namespace Node

/-- A Service that the sample client asks for. -/
def appService : Service where
  metadata :=
    { ns := str "team", name := str "app", uid := str "u1"
      labels := sampleService.metadata.labels }
  ports := [{ name := str "postgres", port := 5432 }]

def appReconcile : List LoopAction :=
  [.take appService.key, .getService none, .getRoute none, .writeRoute .done]

def appDiscovery : List ClusterAction :=
  List.map .loop ([.createService appService, .syncServices, .serviceEvent] ++ appReconcile ++
    [.syncRoutes, .routeEvent] ++ appReconcile)

def appDiscovered : PostgresRoute where
  metadata :=
    { ns := str "team", name := str "app-discovered"
      labels := generatedLabels appService ∅
      ownerReferences := [controllerRef appService]
      resourceVersion := 1 }
  spec := sampleReconciler.generatedSpec sampleMachinery appService {}

def discoveredCache : Contents where
  routes := (∅ : Store PostgresRoute.key).apply (.put appDiscovered)
  services := (∅ : Store Service.key).apply (.put appService)

def discoveredRun : List (NodeAction Unit) :=
  [.watch (.table (.register 0)), .watch (.table (.register 0)),
    .watch (.table (.list [appDiscovered])),
    .watch (.table (.resolve
      (@Contents.resolver Unit plainQuote RouteWatch.sampleDeps false discoveredCache))),
    .watch (.table (.publish [appDiscovered.key])), .watch (.table .notify),
    .watch (.table .rebuilt),
    .gateway (.accept Proxy.sampleClient), .gateway (.track 0),
    .gateway (.conn 0 (.acquireSlot .full))]

theorem discovered_service_is_served_app :
    ∃ s n n' c' relay,
      exec (@Loop.clusterStep plainQuote sampleReconciler sampleMachinery) {} appDiscovery =
        some s ∧
      s.Quiescent ∧ n.CaughtUp s ∧
      @step Unit plainQuote sampleBuilder {} n (.handle 0 sampleEnv) = some n' ∧
      n'.gateway.server.conns[0]? = some c' ∧
      c'.stage = .relaying (discoveredRoute (str "cluster.local") appDiscovered appService 5432
        { mode := .disable }) relay := by
  obtain ⟨s, hdiscovered, hquiet, hsvc, hroutes, hservices⟩ : ∃ s,
      exec (@Loop.clusterStep plainQuote sampleReconciler sampleMachinery) {} appDiscovery =
        some s ∧
      s.Quiescent ∧ s.services.store.get appService.key = some appService ∧
      s.routes.store = discoveredCache.routes ∧ s.services.store = discoveredCache.services :=
    ⟨_, rfl, ⟨⟨rfl, rfl⟩, ⟨rfl, rfl⟩, rfl, rfl⟩, rfl, rfl, rfl⟩
  obtain ⟨n, n', c, client, startup, hrun, hphase, hwake, hcache, hstep, hc, hlists, hasks⟩ :
      ∃ n n' c client startup,
      exec (@step Unit plainQuote sampleBuilder {}) (start sampleBuilder discoveredCache)
        discoveredRun = some n ∧
      n.watch.table.phase = .selecting ∧ n.watch.table.wake = {} ∧
      n.watch.cache = discoveredCache ∧
      @step Unit plainQuote sampleBuilder {} n (.handle 0 sampleEnv) = some n' ∧
      n.gateway.server.conns[0]? = some c ∧
      n.watch.cache.routes.Lists [appDiscovered] ∧
      @Asks Unit plainQuote {} sampleEnv c client startup
        (sampleReconciler.databaseName appService) :=
    ⟨_, _, _, _, _, rfl, rfl, rfl, rfl, rfl, rfl, by decide,
      @Asks.mk Unit plainQuote _ _ _ _ _ _ rfl rfl rfl rfl⟩
  have hsettled : @Settled Unit plainQuote RouteWatch.sampleDeps sampleBuilder {} n := by
    refine @Settled.mk Unit plainQuote _ _ _ _ ⟨_, _, hrun, ?_⟩ ⟨hphase, ?_⟩
    · exact always_cons rfl trivial (always_cons rfl trivial (always_cons rfl trivial
        (always_cons rfl (fun _ => rfl) (always_of_forall (by simp [Healthy, RouteWatch.Healthy])
          _))))
    · simp [hwake, Debounce.Awake]
  have hport : DocumentedPort appService.ports 5432 :=
    @DocumentedPort.named appService.ports [] [] { name := str "postgres", port := 5432 } rfl
      (by decide) (by decide)
  have hcaught : n.CaughtUp s := ⟨by rw [hcache, hroutes], by rw [hcache, hservices]⟩
  obtain ⟨gen, c', hgen, hc', hserved, -⟩ := @discovered_service_is_served Unit sampleReconciler
    sampleMachinery appService plainQuote _ _ _ _ _ _ _ _ _ _ _ _ _ _ hdiscovered hquiet hsvc
    (by decide) (by decide) rfl hport hsettled hcaught hlists hstep hc hasks
  obtain rfl : gen = appDiscovered := by
    rw [hroutes] at hgen
    exact Option.some.inj hgen.symm
  obtain ⟨backend, hreaches⟩ : ∃ backend, Reaches sampleEnv
      (discoveredRoute (str "cluster.local") appDiscovered appService 5432 { mode := .disable })
      backend := ⟨_, rfl, rfl, rfl, rfl⟩
  refine ⟨s, n, n', c', _, hdiscovered, hquiet, hcaught, hstep, hc',
    hserved (fun w hw _ hne => ?_) _ backend rfl hreaches⟩
  exact absurd (List.mem_singleton.mp hw) hne

end Node
end PgProxy
