import PgProxy.Controller.DiscoveryFrame

/-!
# What a Reconcile corrects

The mutation overwrites what discovery is responsible for and keeps the rest, whatever it
finds. What it leaves is a fixed point: its labels, its specification and the upsert of its
owner all change nothing any more, so that a second Reconcile has nothing to write. A
controller that owns the routes it writes would otherwise wake itself for ever.
-/

namespace PgProxy
set_option autoImplicit false

open ServiceDiscoveryReconciler

/-- The route under the generated name before a Reconcile: none, or one that discovery
manages and that no object other than the Service controls. -/
def Correctable (m : Machinery) (svc : Service) (found : Option PostgresRoute) : Prop :=
  ∀ route, found = some route → route.discoveryManaged ∧
    ∀ ref, route.metadata.controllerOf = some ref → m.owns svc ref

/-- The route after a Reconcile: what discovery is responsible for comes from the Service,
everything else from the route that was there before. -/
structure Corrected (r : ServiceDiscoveryReconciler) (m : Machinery) (svc : Service)
    (found : Option PostgresRoute) (route : PostgresRoute) : Prop where
  managedBy : route.metadata.labels.lookup managedByLabel = some managedByServiceDiscovery
  source : route.metadata.labels.lookup sourceServiceLabel = some svc.metadata.name
  database : route.spec.database = r.databaseName svc
  priority : route.spec.priority = priority svc
  backend : route.spec.backend =
    { type := .service
      service := some { name := svc.metadata.name, ns := svc.metadata.ns, port := port m svc } }
  controller : route.metadata.controllerOf = some (controllerRef svc)
  otherLabels : ∀ k, k ≠ managedByLabel → k ≠ sourceServiceLabel →
    route.metadata.labels.lookup k = found.bind fun old => old.metadata.labels.lookup k
  targetDatabase : route.spec.targetDatabase =
    (found.map fun old => old.spec.targetDatabase).getD []
  tls : route.spec.tls = found.bind fun old => old.spec.tls

structure Settled (r : ServiceDiscoveryReconciler) (m : Machinery) (svc : Service)
    (route : PostgresRoute) : Prop extends Generated svc route where
  labels : generatedLabels svc route.metadata.labels = route.metadata.labels
  spec : r.generatedSpec m svc route.spec = route.spec
  owners : upsertOwnerRef (m.owns svc) (controllerRef svc) route.metadata.ownerReferences =
    route.metadata.ownerReferences

/-! ## Each part of the mutation is idempotent -/

theorem upsertOwnerRef_idem {same : OwnerReference → Bool} {ref : OwnerReference}
    (href : same ref) (refs : List OwnerReference) :
    upsertOwnerRef same ref (upsertOwnerRef same ref refs) = upsertOwnerRef same ref refs := by
  induction refs with
  | nil => simp [upsertOwnerRef, href]
  | cons x xs ih =>
    by_cases hx : same x
    · simp [upsertOwnerRef, hx, href]
    · simp [upsertOwnerRef, hx, ih]

theorem lookup_generatedLabels (svc : Service) (labels : GoMap GoString GoString) :
    (generatedLabels svc labels).lookup managedByLabel = some managedByServiceDiscovery ∧
      (generatedLabels svc labels).lookup sourceServiceLabel = some svc.metadata.name ∧
      ∀ k, k ≠ managedByLabel → k ≠ sourceServiceLabel →
        (generatedLabels svc labels).lookup k = labels.lookup k := by
  have hne : managedByLabel ≠ sourceServiceLabel := by decide
  refine ⟨?_, Finmap.lookup_insert _, fun k hmanaged hsource => ?_⟩
  · rw [generatedLabels, Finmap.lookup_insert_of_ne _ hne, Finmap.lookup_insert]
  · rw [generatedLabels, Finmap.lookup_insert_of_ne _ hsource,
      Finmap.lookup_insert_of_ne _ hmanaged]

theorem generatedLabels_idem (svc : Service) (labels : GoMap GoString GoString) :
    generatedLabels svc (generatedLabels svc labels) = generatedLabels svc labels := by
  obtain ⟨hmanaged, hsource, hother⟩ := lookup_generatedLabels svc labels
  obtain ⟨hmanaged', hsource', hother'⟩ :=
    lookup_generatedLabels svc (generatedLabels svc labels)
  apply Finmap.ext_lookup
  intro k
  by_cases hk : k = managedByLabel
  · rw [hk, hmanaged, hmanaged']
  · by_cases hk' : k = sourceServiceLabel
    · rw [hk', hsource, hsource']
    · exact hother' k hk hk'

section
variable [GoFmt] {r : ServiceDiscoveryReconciler} {m : Machinery} {svc : Service}

theorem mutate_succeeds {route : PostgresRoute}
    (hmanager : mapGet route.metadata.labels managedByLabel = [] ∨ route.discoveryManaged)
    (hns : route.metadata.ns = svc.metadata.ns)
    (howner : ∀ ref, route.metadata.controllerOf = some ref → m.owns svc ref) :
    ∃ new, r.mutate m svc route = .ok new := by
  have hmarked : (r.marked m svc route).metadata.ns = svc.metadata.ns := hns
  have hset := (m.sets_iff hmarked).mpr howner
  unfold mutate
  dsimp only
  rw [if_neg]
  · exact hset
  · rintro ⟨hne, hother⟩
    rcases hmanager with hnil | hmanaged
    · exact hne hnil
    · exact hother (of_decide_eq_true hmanaged)

theorem settled_of_mutate (hself : m.owns svc (controllerRef svc)) {route new : PostgresRoute}
    (hkey : route.key = generatedKey svc.key) (h : r.mutate m svc route = .ok new) :
    Settled r m svc new := by
  refine { toGenerated := generated_of_mutate hkey h, labels := ?_, spec := ?_, owners := ?_ }
  all_goals rw [m.upserts (mutate_ok h).2]
  · exact generatedLabels_idem svc _
  · rfl
  · exact upsertOwnerRef_idem hself _

theorem Settled.mutate (hself : m.owns svc (controllerRef svc)) {route : PostgresRoute}
    (h : Settled r m svc route) : r.mutate m svc route = .ok route := by
  have hmarked : r.marked m svc route = route := by
    rw [marked, h.labels, h.spec]
  have howner : ∀ ref, route.metadata.controllerOf = some ref → m.owns svc ref := by
    intro ref href
    rw [h.controller, Option.some.injEq] at href
    exact href ▸ hself
  have hns : route.metadata.ns = svc.metadata.ns := congrArg NamespacedName.ns h.key
  obtain ⟨new, hnew⟩ := mutate_succeeds (r := r) (.inr h.managed) hns howner
  rw [hnew, m.upserts (mutate_ok hnew).2, hmarked, h.owners]
  rfl

theorem corrected_of_mutate {found : Option PostgresRoute} {new : PostgresRoute}
    (hkey : (found.getD (blankRoute svc)).key = generatedKey svc.key)
    (h : r.mutate m svc (found.getD (blankRoute svc)) = .ok new) :
    Corrected r m svc found new := by
  have hnew := m.upserts (mutate_ok h).2
  have hlabels : new.metadata.labels =
      generatedLabels svc (found.getD (blankRoute svc)).metadata.labels := by
    rw [hnew]
    rfl
  have hspec : new.spec = r.generatedSpec m svc (found.getD (blankRoute svc)).spec := by
    rw [hnew]
    rfl
  obtain ⟨hmanaged, hsource, hother⟩ := lookup_generatedLabels svc
    (found.getD (blankRoute svc)).metadata.labels
  rw [← hlabels] at hmanaged hsource hother
  refine ⟨hmanaged, hsource, ?_, ?_, ?_, (generated_of_mutate hkey h).controller, ?_, ?_, ?_⟩
  · rw [hspec]
    rfl
  · rw [hspec]
    rfl
  · rw [hspec]
    rfl
  · intro k hk hk'
    rw [hother k hk hk']
    cases found <;> rfl
  · rw [hspec]
    cases found <;> rfl
  · rw [hspec]
    cases found <;> rfl

/-! ## Two Reconciles -/

section Reconcile
variable {cluster : Cluster}

theorem reconcile_succeeds (hsvc : cluster.services.get svc.key = some svc)
    (hscope : r.outOfScope svc = false)
    (hprior : Correctable m svc (cluster.routes.get (generatedKey svc.key))) :
    (r.reconcile m {} cluster svc.key).2.retries = false := by
  have hservice := getService_ok.mpr ⟨rfl, hsvc⟩
  have hroute : r.getRoute none cluster.routes svc.key svc =
    .ok (cluster.routes.get (generatedKey svc.key)) := getRoute_ok.mpr ⟨rfl, rfl⟩
  simp only [reconcile, reconcileFrom, Cluster.caches, hservice, hroute, writeRoute,
    operation_inScope hscope]
  cases hfound : cluster.routes.get (generatedKey svc.key) with
  | none =>
    obtain ⟨new, hnew⟩ : ∃ new, r.mutate m svc (blankRoute svc) = .ok new :=
      mutate_succeeds (.inl rfl) rfl (by simp [blankRoute, ObjectMeta.controllerOf])
    have hkey : new.key = generatedKey svc.key := key_of_mutate hnew
    simp only [creatingOrUpdating, hnew, commit, hkey, hfound]
    rfl
  | some old =>
    obtain ⟨hmanaged, howner⟩ := hprior old hfound
    have hold : old.key = generatedKey svc.key := Store.key_of_get hfound
    obtain ⟨new, hnew⟩ := mutate_succeeds (r := r) (.inr hmanaged)
      (congrArg NamespacedName.ns hold) howner
    have hkey : new.key = generatedKey svc.key := (key_of_mutate hnew).trans hold
    have hversion : old.metadata.resourceVersion = new.metadata.resourceVersion := by
      rw [m.upserts (mutate_ok hnew).2]
      rfl
    simp only [creatingOrUpdating, hnew]
    split
    · rfl
    · simp only [commit, hkey, hfound, hversion, ne_eq, not_true_eq_false, if_false]
      rfl

theorem reconcile_of_settled (hself : m.owns svc (controllerRef svc)) {route : PostgresRoute}
    (hsvc : cluster.services.get svc.key = some svc) (hscope : r.outOfScope svc = false)
    (hroute : cluster.routes.get (generatedKey svc.key) = some route)
    (h : Settled r m svc route) (calls : Calls) :
    r.operation m svc (some route) = .none ∧
      (r.reconcile m calls cluster svc.key).1 = cluster := by
  have hnone : r.operation m svc (some route) = .none := by
    rw [operation_inScope hscope]
    simp only [creatingOrUpdating, h.mutate hself, if_true]
  refine ⟨hnone, ?_⟩
  rcases reconcileFrom_cases r m calls cluster.caches svc.key with hsame |
    ⟨svc', change, o, hsvc', -, hwrite, hafter⟩
  · exact hsame
  · obtain rfl : svc = svc' := Option.some.inj (hsvc.symm.trans hsvc')
    replace hroute : cluster.caches.routes.get (generatedKey svc.key) = some route := hroute
    rw [hroute, writeRoute, hnone] at hwrite
    obtain rfl : none = change := congrArg Prod.fst hwrite
    exact hafter

/-- Let a reference to the Service count as naming it. From every correctable route, a
Reconcile that is not taken back leaves the route the Service stands for with everything
else as it was, one to which all calls are granted is not taken back, and the next one
finds nothing to write. -/
theorem discovery_corrects_drift (hself : m.owns svc (controllerRef svc))
    (hsvc : cluster.services.get svc.key = some svc) (hscope : r.outOfScope svc = false)
    (hprior : Correctable m svc (cluster.routes.get (generatedKey svc.key))) :
    (r.reconcile m {} cluster svc.key).2.retries = false ∧
    ∀ calls, (r.reconcile m calls cluster svc.key).2.retries = false →
      ∃ route, (r.reconcile m calls cluster svc.key).1.routes.get (generatedKey svc.key) =
          some route ∧
        Corrected r m svc (cluster.routes.get (generatedKey svc.key)) route ∧
        r.operation m svc (some route) = .none ∧
        ∀ calls', (r.reconcile m calls' (r.reconcile m calls cluster svc.key).1 svc.key).1 =
          (r.reconcile m calls cluster svc.key).1 := by
  refine ⟨reconcile_succeeds hsvc hscope hprior, fun calls hdone => ?_⟩
  obtain ⟨change, new, version, status, hafter, hmutate, hroute⟩ :=
    reconcile_mutated hsvc hscope hdone
  have hkey : ((cluster.routes.get (generatedKey svc.key)).getD (blankRoute svc)).key =
      generatedKey svc.key := by
    cases hfound : cluster.routes.get (generatedKey svc.key) with
    | none => rfl
    | some old => exact Store.key_of_get hfound
  -- the resource version and the status play no part in either notion
  have hcorrected := corrected_of_mutate hkey hmutate
  have hnew := settled_of_mutate hself hkey hmutate
  have hsettled : Settled r m svc { commit.stamped version new with status := status } :=
    ⟨⟨hnew.key, hnew.managed, hnew.controller⟩, hnew.labels, hnew.spec, hnew.owners⟩
  have hservices : (cluster.apply change).services.get svc.key = some svc := by
    cases change <;> exact hsvc
  have hsecond := reconcile_of_settled hself hservices hscope hroute hsettled
  rw [hafter]
  refine ⟨_, hroute, ⟨hcorrected.managedBy, hcorrected.source, hcorrected.database,
    hcorrected.priority, hcorrected.backend, hcorrected.controller, hcorrected.otherLabels,
    hcorrected.targetDatabase, hcorrected.tls⟩, (hsecond {}).1, fun calls' => (hsecond calls').2⟩

end Reconcile
end

/-- A generated route that was edited by hand, from before the Service was recreated. -/
def driftedRoute : PostgresRoute where
  metadata :=
    { ns := str "apps", name := str "pg-discovered"
      labels := ((∅ : GoMap GoString GoString).insert managedByLabel
        managedByServiceDiscovery).insert (str "team") (str "billing")
      ownerReferences := [{ controllerRef sampleService with uid := str "u0" }] }
  spec := { database := str "edited", targetDatabase := str "billing", priority := 7 }

def driftedCluster : Cluster where
  services := (∅ : Services).apply (.put sampleService)
  routes := (∅ : Routes).apply (.put driftedRoute)

theorem discovery_corrects_drift_edited :
    ∃ route, (@reconcile plainQuote sampleReconciler sampleMachinery {} driftedCluster
        sampleService.key).1.routes.get (generatedKey sampleService.key) = some route ∧
      route.spec.database = str "pg" ∧ route.spec.targetDatabase = str "billing" ∧
      route.metadata.labels.lookup (str "team") = some (str "billing") ∧
      @operation sampleReconciler plainQuote sampleMachinery sampleService (some route) =
        .none := by
  have hprior : Correctable sampleMachinery sampleService (some driftedRoute) := by
    intro route hroute
    obtain rfl := Option.some.inj hroute
    refine ⟨by decide, fun ref href => ?_⟩
    obtain rfl := Option.some.inj href
    decide
  obtain ⟨hdone, hall⟩ := @discovery_corrects_drift plainQuote sampleReconciler sampleMachinery
    sampleService driftedCluster (by decide) rfl (by decide) hprior
  obtain ⟨route, hroute, hcorrected, hnone, -⟩ := hall {} hdone
  exact ⟨route, hroute, hcorrected.database, hcorrected.targetDatabase,
    hcorrected.otherLabels (str "team") (by decide) (by decide), hnone⟩

end PgProxy
