import PgProxy.Controller.DiscoveryFrame
import PgProxy.Controller.FailureReasons
import PgProxy.Registry.Award

/-!
# The port of a discovered Service

Discovery chooses a port when it writes the route, and the registry checks the choice
against the Service when it resolves the route. `DocumentedPort` is the documented choice.
The route resolves to it where there is one, and does not resolve where there is none.
-/

namespace PgProxy
set_option autoImplicit false

open ServiceDiscoveryReconciler

def ServicePort.NamedPostgres (p : ServicePort) : Prop :=
  p.name = str "postgresql" ∨ p.name = str "postgres"

instance (p : ServicePort) : Decidable p.NamedPostgres := inferInstanceAs (Decidable (_ ∨ _))

/-- The port that the documentation promises for a Service with these ports. -/
inductive DocumentedPort (ports : List ServicePort) : Int32 → Prop where
  | named {pre post : List ServicePort} {p : ServicePort} (hports : ports = pre ++ p :: post)
      (hp : p.NamedPostgres) (hfirst : ∀ q ∈ pre, ¬ q.NamedPostgres) : DocumentedPort ports p.port
  | standard (hnone : ∀ q ∈ ports, ¬ q.NamedPostgres) {p : ServicePort} (hp : p ∈ ports)
      (hport : p.port = 5432) : DocumentedPort ports 5432
  | sole {p : ServicePort} (hports : ports = [p]) (hp : ¬ p.NamedPostgres)
      (hport : p.port ≠ 5432) : DocumentedPort ports p.port

theorem DocumentedPort.declared {svc : Service} {n : Int32} (h : DocumentedPort svc.ports n) :
    svc.Declares n := by
  cases h with
  | @named pre post p hports => exact ⟨p, by simp [hports], rfl⟩
  | standard _ hp hport => exact ⟨_, hp, hport⟩
  | @sole p hports => exact ⟨p, by simp [hports], rfl⟩

section Choice
variable {m : Machinery} {svc : Service} (m)
variable (hunset : svc.metadata.annotations.lookup portAnnotation = none)

theorem find_named_eq_none {ports : List ServicePort}
    (hnone : ∀ q ∈ ports, ¬ q.NamedPostgres) :
    (ports.find? fun p => p.name = str "postgresql" ∨ p.name = str "postgres") = none := by
  apply List.find?_eq_none.mpr
  intro q hq
  simpa [ServicePort.NamedPostgres] using hnone q hq

include hunset

theorem port_documented {n : Int32} (h : DocumentedPort svc.ports n) : port m svc = .int n := by
  unfold port
  rw [hunset]
  dsimp only
  cases h with
  | @named pre post p hports hp hfirst =>
    have hfind : (svc.ports.find? fun p => p.name = str "postgresql" ∨ p.name = str "postgres") =
        some p := by
      refine List.find?_eq_some_iff_append.mpr ⟨decide_eq_true hp, pre, post, hports, ?_⟩
      intro q hq
      simpa [ServicePort.NamedPostgres] using hfirst q hq
    rw [hfind]
  | standard hnone hp hport =>
    rw [find_named_eq_none hnone]
    dsimp only
    rw [if_pos (any_port_iff.mpr ⟨_, hp, hport⟩)]
  | @sole p hports hp hport =>
    rw [hports, find_named_eq_none (by simpa using hp)]
    simp [hport]

theorem port_undocumented (h : ∀ n, ¬ DocumentedPort svc.ports n) :
    port m svc = .int 5432 ∧ ¬ svc.Declares 5432 := by
  have hnone : ∀ q ∈ svc.ports, ¬ q.NamedPostgres := by
    intro q hq hnamed
    have hsome : (svc.ports.find? fun p =>
        p.name = str "postgresql" ∨ p.name = str "postgres").isSome :=
      List.find?_isSome.mpr ⟨q, hq, decide_eq_true hnamed⟩
    obtain ⟨p, hp⟩ := Option.isSome_iff_exists.mp hsome
    obtain ⟨hp, pre, post, hports, hpre⟩ := List.find?_eq_some_iff_append.mp hp
    refine h p.port (.named hports (of_decide_eq_true hp) fun q hq => ?_)
    simpa [ServicePort.NamedPostgres] using hpre q hq
  have hundeclared : ¬ svc.Declares 5432 := fun ⟨p, hp, hport⟩ =>
    h 5432 (.standard hnone hp hport)
  refine ⟨?_, hundeclared⟩
  unfold port
  rw [hunset]
  dsimp only
  rw [find_named_eq_none hnone]
  dsimp only
  rw [if_neg (mt any_port_iff.mp hundeclared)]
  split
  · rename_i p hports
    have hp : p ∈ svc.ports := by simp [hports]
    exact absurd (.sole hports (hnone p hp) fun hport => hundeclared ⟨p, hp, hport⟩) (h p.port)
  · rfl

end Choice

/-! ## The route that Reconcile leaves -/

section Reconcile
variable [GoFmt] {r : ServiceDiscoveryReconciler} {m : Machinery} {svc : Service}

theorem spec_of_mutate {route route' : PostgresRoute} (h : r.mutate m svc route = .ok route') :
    route'.spec = r.generatedSpec m svc route.spec := by
  rw [m.upserts (mutate_ok h).2]
  rfl

theorem reconcile_spec {calls : Calls} {cluster : Cluster}
    (hsvc : cluster.services.get svc.key = some svc) (hscope : r.outOfScope svc = false)
    (hdone : (r.reconcile m calls cluster svc.key).2.retries = false) :
    ∃ route, (r.reconcile m calls cluster svc.key).1.routes.get (generatedKey svc.key) =
        some route ∧
      route.spec = r.generatedSpec m svc
        (((cluster.routes.get (generatedKey svc.key)).map PostgresRoute.spec).getD {}) := by
  obtain ⟨change, new, version, status, hafter, hmutate, hroute⟩ :=
    reconcile_mutated hsvc hscope hdone
  rw [hafter]
  refine ⟨_, hroute, (spec_of_mutate hmutate).trans ?_⟩
  cases cluster.routes.get (generatedKey svc.key) <;> rfl

end Reconcile

/-! ## Resolving the route -/

section Resolve
variable [GoFmt] {Pool : Type} {c : ClientResolver Pool} {svc : Service} {route : PostgresRoute}

/-- A route that sends to a port of the Service of its own namespace. -/
structure SendsTo (svc : Service) (n : Int32) (route : PostgresRoute) : Prop where
  ns : route.metadata.ns = svc.metadata.ns
  backend : route.spec.backend =
    { service := some { name := svc.metadata.name, ns := svc.metadata.ns, port := .int n } }

theorem SendsTo.resolveBackend {n : Int32} (h : SendsTo svc n route) (clusterDomain : GoString) :
    resolveBackend c.resolver clusterDomain route =
      (c.resolveServicePort svc.metadata.ns svc.metadata.name (.int n)).map fun port =>
        (svc.metadata.name ++ str "." ++ svc.metadata.ns ++ str ".svc." ++ clusterDomain,
          port) := by
  have hns : (if svc.metadata.ns = [] then route.metadata.ns else svc.metadata.ns) =
      svc.metadata.ns := by rw [h.ns, ite_self]
  simp only [PgProxy.resolveBackend, h.backend, hns, ClientResolver.resolver]
  cases c.resolveServicePort svc.metadata.ns svc.metadata.name (.int n) <;> rfl

theorem SendsTo.reaches {n : Int32} (h : SendsTo svc n route)
    (hread : c.client.getService svc.key = .ok svc) (hn : svc.Declares n)
    (clusterDomain : GoString) :
    ∃ host, PgProxy.resolveBackend c.resolver clusterDomain route = .ok (host, n) := by
  rw [h.resolveBackend, resolveServicePort_int_ok hread hn]
  exact ⟨_, rfl⟩

theorem SendsTo.resolves {n : Int32} {tls : TLSConfig Pool} (h : SendsTo svc n route)
    (hread : c.client.getService svc.key = .ok svc) (hn : svc.Declares n)
    (htls : resolveTLS c.resolver route = .ok tls) (clusterDomain : GoString) :
    ∃ entry, resolve c.resolver clusterDomain route = .ok entry ∧ entry.port = n := by
  obtain ⟨host, hbackend⟩ := h.reaches hread hn clusterDomain
  simp only [resolve, hbackend, htls]
  exact ⟨_, rfl, rfl⟩

theorem SendsTo.fails {n : Int32} (h : SendsTo svc n route)
    (hread : c.client.getService svc.key = .ok svc) (hn : ¬ svc.Declares n)
    (clusterDomain : GoString) : ∃ e, resolve c.resolver clusterDomain route = .error e := by
  have hbackend := h.resolveBackend (c := c) clusterDomain
  obtain ⟨text, htext⟩ := resolveServicePort_int_error hread hn
  rw [htext] at hbackend
  simp only [resolve, hbackend, Except.map]
  exact ⟨_, rfl⟩

theorem SendsTo.declared {n : Int32} {entry : Route Pool} {clusterDomain : GoString}
    (h : SendsTo svc n route) (hread : c.client.getService svc.key = .ok svc)
    (hok : resolve c.resolver clusterDomain route = .ok entry) :
    entry.port = n ∧ svc.Declares n := by
  by_cases hn : svc.Declares n
  · refine ⟨?_, hn⟩
    obtain ⟨host, hbackend⟩ := h.reaches hread hn clusterDomain
    simp only [resolve, hbackend] at hok
    split at hok
    · simp at hok
    · exact (congrArg Route.port (Except.ok.inj hok)).symm
  · obtain ⟨e, he⟩ := h.fails hread hn clusterDomain
    rw [he] at hok
    simp at hok

theorem not_in_table {resolver : Resolver Pool} {clusterDomain : GoString} {e : GoError}
    (hfail : resolve resolver clusterDomain route = .error e) {routes : List PostgresRoute}
    (hd : DistinctKeys routes) (hroute : route ∈ routes) {database : GoString}
    {entry : Route Pool}
    (hentry : (build resolver clusterDomain routes).table.lookup database = some entry) :
    entry.source ≠ route.key := by
  intro hsource
  obtain ⟨other, hother, -, hok⟩ := build_lookup_resolved hentry
  have hkey : other.key = route.key := (resolve_names hok).1.symm.trans hsource
  rw [hd.eq_of_key hother hroute hkey, hfail] at hok
  simp at hok

/-- The route of a Service without a port annotation, after a Reconcile that is not taken
back, resolved against that Service. Discovery sets no TLS, so a route it created has none;
on one that was there before, the TLS settings may be beyond it. -/
theorem discovered_port_resolves {r : ServiceDiscoveryReconciler} {m : Machinery} {calls : Calls}
    {cluster : Cluster} (hsvc : cluster.services.get svc.key = some svc)
    (hscope : r.outOfScope svc = false)
    (hunset : svc.metadata.annotations.lookup portAnnotation = none)
    (hdone : (r.reconcile m calls cluster svc.key).2.retries = false)
    (hread : c.client.getService svc.key = .ok svc) (clusterDomain : GoString) :
    ∃ route, (r.reconcile m calls cluster svc.key).1.routes.get (generatedKey svc.key) =
        some route ∧
      (cluster.routes.get (generatedKey svc.key) = none →
        resolveTLS c.resolver route = .ok { mode := .disable }) ∧
      (∀ n, DocumentedPort svc.ports n →
        (∃ host, resolveBackend c.resolver clusterDomain route = .ok (host, n)) ∧
        ∀ tls, resolveTLS c.resolver route = .ok tls →
          ∃ entry, resolve c.resolver clusterDomain route = .ok entry ∧ entry.port = n) ∧
      ((∀ n, ¬ DocumentedPort svc.ports n) →
        (∃ e, resolve c.resolver clusterDomain route = .error e) ∧
        ∀ routes, DistinctKeys routes → route ∈ routes → ∀ database entry,
          (build c.resolver clusterDomain routes).table.lookup database = some entry →
          entry.source ≠ route.key) ∧
      (∀ entry, resolve c.resolver clusterDomain route = .ok entry →
        DocumentedPort svc.ports entry.port ∧ svc.Declares entry.port) := by
  obtain ⟨route, hroute, hspec⟩ := reconcile_spec hsvc hscope hdone
  have hkey : route.key = generatedKey svc.key := Store.key_of_get hroute
  have hsends : ∀ {n : Int32}, port m svc = .int n → SendsTo svc n route := by
    intro n hn
    refine ⟨congrArg NamespacedName.ns hkey, ?_⟩
    rw [hspec, generatedSpec, hn]
  refine ⟨route, hroute, ?_, ?_, ?_, ?_⟩
  · intro hnone
    rw [hnone] at hspec
    simp only [resolveTLS, hspec]
    rfl
  · intro n hn
    have hsend := hsends (port_documented m hunset hn)
    exact ⟨hsend.reaches hread hn.declared clusterDomain,
      fun tls htls => hsend.resolves hread hn.declared htls clusterDomain⟩
  · intro hnone
    obtain ⟨hport, hundeclared⟩ := port_undocumented m hunset hnone
    obtain ⟨e, he⟩ := (hsends hport).fails hread hundeclared clusterDomain
    exact ⟨⟨e, he⟩, fun routes hd hmem database entry => not_in_table he hd hmem⟩
  · intro entry hentry
    by_cases hsome : ∃ n, DocumentedPort svc.ports n
    · obtain ⟨n, hn⟩ := hsome
      have hsend := hsends (port_documented m hunset hn)
      rw [(hsend.declared hread hentry).1]
      exact ⟨hn, hn.declared⟩
    · obtain ⟨hport, hundeclared⟩ := port_undocumented m hunset (not_exists.mp hsome)
      exact absurd ((hsends hport).declared hread hentry).2 hundeclared

end Resolve

def portedService : Service :=
  { sampleService with
    ports := [{ name := str "metrics", port := 9187 }, { name := str "postgres", port := 5433 }] }

def portedCluster : Cluster where
  services := (∅ : Services).apply (.put portedService)

def portedResolver : ClientResolver Unit :=
  { secretlessResolver with
    client := { secretlessReader with getService := fun _ => .ok portedService } }

theorem discovered_port_resolves_named :
    ∃ route, (@ServiceDiscoveryReconciler.reconcile plainQuote sampleReconciler sampleMachinery {}
        portedCluster portedService.key).1.routes.get (generatedKey portedService.key) =
          some route ∧
      ∃ entry, @resolve Unit plainQuote (@ClientResolver.resolver Unit plainQuote portedResolver)
        (str "cluster.local") route = .ok entry ∧ entry.port = 5433 := by
  obtain ⟨route, hroute, hfresh, hdocumented, -, -⟩ :=
    @discovered_port_resolves plainQuote Unit portedResolver portedService sampleReconciler
      sampleMachinery {} portedCluster (by rfl) (by decide) (by rfl) (by decide) rfl
      (str "cluster.local")
  have hport : DocumentedPort portedService.ports 5433 :=
    @DocumentedPort.named portedService.ports [{ name := str "metrics", port := 9187 }] []
      { name := str "postgres", port := 5433 } rfl (by decide) (by decide)
  exact ⟨route, hroute, (hdocumented 5433 hport).2 _ (hfresh rfl)⟩

end PgProxy
