import PgProxy.Controller.Discovery

/-!
# What a Reconcile leaves alone

A Reconcile writes at most the route under the generated name. There are two ways in which
it fails to spare a route that discovery did not generate. The guard of the mutation lets a
route pass that has no managed-by label or an empty one, and the route is taken over. And a
deletion goes by the route in the cache, so it takes a route that has lost the label since.
-/

namespace PgProxy
set_option autoImplicit false

/-- Every route that discovery did not generate is still there, with its labels, its
owners and its specification. -/
def HandWrittenKept (before after : Cluster) : Prop :=
  ∀ k route, before.routes.get k = some route → route.discoveryManaged = false →
    ∃ route', after.routes.get k = some route' ∧
      route'.metadata.labels = route.metadata.labels ∧
      route'.metadata.ownerReferences = route.metadata.ownerReferences ∧
      route'.spec = route.spec

/-- Nothing but the route under the generated name is created, updated or deleted. -/
def OnlyGeneratedWritten (req : NamespacedName) (before after : Cluster) : Prop :=
  after.services = before.services ∧
    ∀ k, k ≠ generatedKey req → after.routes.get k = before.routes.get k

section
open ServiceDiscoveryReconciler
variable {r : ServiceDiscoveryReconciler} {m : Machinery} {calls : Calls} {cluster : Cluster}
  {caches : Caches cluster} {req : NamespacedName}

structure Calls.Succeed (calls : Calls) : Prop where
  reads : calls.getService = none ∧ calls.getRoute = none
  write : ∀ f, calls.write ≠ .refused f

variable (r m calls caches req) in
/-- An in-scope Service meets a route under its generated name that has no manager and that no
other object controls, and the route is still stored as it was read. -/
structure Adopts (svc : Service) (route : PostgresRoute) : Prop where
  service : caches.services.get req = some svc
  inScope : r.outOfScope svc = false
  found : caches.routes.get (generatedKey req) = some route
  stored : cluster.routes.get (generatedKey req) = some route
  unmanaged : mapGet route.metadata.labels managedByLabel = []
  controllable : ∀ ref, route.metadata.controllerOf = some ref → m.owns svc ref
  calls : calls.Succeed

variable (r calls caches req) in
/-- For a Service out of scope a route is read that discovery generated and the Service controls,
and by then a route without the label of discovery is stored in its place. -/
structure DeletesUnread (svc : Service) (seen now : PostgresRoute) : Prop where
  service : caches.services.get req = some svc
  outOfScope : r.outOfScope svc
  found : caches.routes.get (generatedKey req) = some seen
  managed : seen.discoveryManaged
  owned : seen.ownedBy svc
  stored : cluster.routes.get (generatedKey req) = some now
  released : now.discoveryManaged = false
  calls : calls.Succeed

theorem discoveryManaged_of_nil {route : PostgresRoute}
    (h : mapGet route.metadata.labels managedByLabel = []) : route.discoveryManaged = false := by
  rw [PostgresRoute.discoveryManaged, h]
  decide

theorem commit_refused (version : Nat) (routes : Routes) (f : Failure) (op : Operation) :
    (commit m version routes (.refused f) op).1 = none := by
  cases op with
  | none | fail e => rfl
  | create route | delete route =>
    simp only [commit]
    split <;> rfl
  | update route =>
    simp only [commit]
    split
    · rfl
    · split <;> rfl

theorem apply_spares {c : Change PostgresRoute.key}
    (h : ∀ route, cluster.routes.get c.target = some route → route.discoveryManaged) :
    HandWrittenKept cluster (cluster.apply (some c)) := by
  intro k route hroute hmanaged
  have hk : k ≠ c.target := by
    rintro rfl
    rw [h route hroute] at hmanaged
    exact absurd hmanaged (by simp)
  exact ⟨route, (Store.get_apply_ne _ hk).trans hroute, rfl, rfl, rfl⟩

variable [GoFmt]

variable (r m calls caches req) in
theorem reconcileFrom_cases :
    (r.reconcileFrom m calls caches req).1 = cluster ∨
      ∃ svc change o, caches.services.get req = some svc ∧
        (calls.getService = none ∧ calls.getRoute = none) ∧
        r.writeRoute m (cluster.version + 1) cluster.routes calls.write req svc
          (caches.routes.get (generatedKey svc.key)) = (change, o) ∧
        (r.reconcileFrom m calls caches req).1 = cluster.apply change := by
  unfold reconcileFrom
  split
  · exact .inl rfl
  · rename_i svc hservice
    split
    · exact .inl rfl
    · rename_i found hroute
      obtain ⟨hservicefault, hsvc⟩ := getService_ok.mp hservice
      obtain ⟨hroutefault, rfl⟩ := getRoute_ok.mp hroute
      exact .inr ⟨svc, _, _, hsvc, ⟨hservicefault, hroutefault⟩, rfl, rfl⟩

theorem reconcileFrom_write {svc : Service} (hsvc : caches.services.get req = some svc)
    (hreads : calls.getService = none ∧ calls.getRoute = none) :
    (r.reconcileFrom m calls caches req).1 = cluster.apply
      (r.writeRoute m (cluster.version + 1) cluster.routes calls.write req svc
        (caches.routes.get (generatedKey svc.key))).1 := by
  have hservice := getService_ok.mpr ⟨hreads.1, hsvc⟩
  have hroute : r.getRoute calls.getRoute caches.routes req svc =
      .ok (caches.routes.get (generatedKey svc.key)) := getRoute_ok.mpr ⟨hreads.2, rfl⟩
  simp only [reconcileFrom, hservice, hroute]

theorem apply_onlyGenerated {svc : Service} {retries : Bool}
    {change : Option (Change PostgresRoute.key)} {found : Option PostgresRoute}
    (hkey : svc.key = req) (hmove : WriteMove r m svc cluster.routes found change retries) :
    OnlyGeneratedWritten req cluster (cluster.apply change) := by
  subst hkey
  cases hmove with
  | put hscope hnew hold =>
    refine ⟨rfl, fun k hk => Store.get_apply_ne _ ?_⟩
    rwa [Change.target, hnew.key]
  | removed hscope hdelete => exact ⟨rfl, fun k hk => Store.get_apply_ne _ hk⟩
  | _ => exact ⟨rfl, fun _ _ => rfl⟩

theorem succeed_of_writeRoute {svc : Service} {found : Option PostgresRoute}
    {change : Change PostgresRoute.key} {o : Outcome}
    (hreads : calls.getService = none ∧ calls.getRoute = none)
    (hwrite : r.writeRoute m (cluster.version + 1) cluster.routes calls.write req svc found =
      (some change, o)) : calls.Succeed := by
  refine ⟨hreads, fun f hf => ?_⟩
  have hnone := congrArg Prod.fst hwrite
  rw [hf] at hnone
  exact absurd (hnone.symm.trans (commit_refused _ _ f _)) (by simp)

theorem apply_keeps_handWritten {svc : Service} {change : Option (Change PostgresRoute.key)}
    {o : Outcome} (hsvc : caches.services.get req = some svc)
    (hreads : calls.getService = none ∧ calls.getRoute = none)
    (hwrite : r.writeRoute m (cluster.version + 1) cluster.routes calls.write req svc
      (caches.routes.get (generatedKey svc.key)) = (change, o))
    (hadopts : ∀ route, ¬ Adopts r m calls caches req svc route)
    (hdeletes : ∀ seen now, ¬ DeletesUnread r calls caches req svc seen now) :
    HandWrittenKept cluster (cluster.apply change) := by
  obtain rfl : svc.key = req := Store.key_of_get hsvc
  cases change with
  | none => exact fun k route hroute _ => ⟨route, hroute, rfl, rfl, rfl⟩
  | some c =>
    apply apply_spares
    intro route hroute
    by_contra hunmanaged
    have hsucceed := succeed_of_writeRoute hreads hwrite
    obtain ⟨old, hold, hover⟩ := overwrites_of_writeRoute (congrArg Prod.fst hwrite) hroute
    have hkey := Store.key_of_get hold
    rw [hover.target, hkey] at hroute
    cases hover with
    | @updated new hscope hversion hmutate =>
      -- the version is the one that was read, so this is the route that was read
      obtain rfl : old = route := caches.versioned hold hroute hversion.symm
      obtain ⟨hnil | hmanaged, hset⟩ := mutate_ok hmutate
      · have hns : (r.marked m svc old).metadata.ns = svc.metadata.ns :=
          congrArg NamespacedName.ns hkey
        exact hadopts old ⟨hsvc, hscope, hold, hroute, hnil, (m.sets_iff hns).mp ⟨new, hset⟩,
          hsucceed⟩
      · exact hunmanaged hmanaged
    | deleted hscope hmanaged howned =>
      exact hdeletes old route ⟨hsvc, hscope, hold, hmanaged, howned, hroute,
        Bool.eq_false_of_not_eq_true hunmanaged, hsucceed⟩

theorem reconcileFrom_of_adopts {svc : Service} {route : PostgresRoute}
    (h : Adopts r m calls caches req svc route) :
    ∃ new, Generated svc new ∧
      (r.reconcileFrom m calls caches req).1 = cluster.apply (some (.put new)) := by
  obtain rfl : svc.key = req := Store.key_of_get h.service
  have hkey : route.key = generatedKey svc.key := Store.key_of_get h.found
  have hns : (r.marked m svc route).metadata.ns = svc.metadata.ns :=
    congrArg NamespacedName.ns hkey
  obtain ⟨new, hset⟩ := (m.sets_iff hns).mpr h.controllable
  have hmutate : r.mutate m svc route = .ok new := (mutate_unmanaged h.unmanaged).trans hset
  have hnew := generated_of_mutate hkey hmutate
  have hne : new ≠ route := by
    rintro rfl
    exact absurd hnew.managed (by simp [discoveryManaged_of_nil h.unmanaged])
  have hversion : route.metadata.resourceVersion = new.metadata.resourceVersion := by
    rw [m.upserts hset]
    rfl
  rw [reconcileFrom_write h.service h.calls.reads, h.found]
  simp only [writeRoute, operation_inScope h.inScope, creatingOrUpdating, hmutate, if_neg hne,
    commit, hnew.key, h.stored, hversion, ne_eq, not_true_eq_false, if_false]
  cases hwrite : calls.write with
  | refused f => exact absurd hwrite (h.calls.write f)
  | done | lost f =>
    exact ⟨{ commit.stamped (cluster.version + 1) new with status := route.status },
      ⟨hnew.key, hnew.managed, hnew.controller⟩, rfl⟩

theorem reconcileFrom_of_deletes {svc : Service} {seen now : PostgresRoute}
    (h : DeletesUnread r calls caches req svc seen now) :
    (r.reconcileFrom m calls caches req).1 = cluster.apply (some (.remove (generatedKey req))) := by
  obtain rfl : svc.key = req := Store.key_of_get h.service
  have hkey : seen.key = generatedKey svc.key := Store.key_of_get h.found
  have hdelete : deleteGeneratedRoute svc (some seen) = .delete seen :=
    deleteGeneratedRoute_eq_delete_iff.mpr ⟨rfl, h.managed, h.owned⟩
  rw [reconcileFrom_write h.service h.calls.reads, h.found]
  simp only [writeRoute, operation, h.outOfScope, if_true, hdelete, commit, hkey, h.stored]
  cases hwrite : calls.write with
  | refused f => exact absurd hwrite (h.calls.write f)
  | done | lost f => rfl

/-- A Reconcile spares every route that discovery did not generate and writes nothing but the
route under the generated name, unless it adopts a route without a manager or deletes, by what
the cache said, a route that has lost the label of discovery. -/
theorem reconcile_spares_hand_written_iff :
    HandWrittenKept cluster (r.reconcileFrom m calls caches req).1 ∧
        OnlyGeneratedWritten req cluster (r.reconcileFrom m calls caches req).1 ↔
      (∀ svc route, ¬ Adopts r m calls caches req svc route) ∧
        ∀ svc seen now, ¬ DeletesUnread r calls caches req svc seen now := by
  constructor
  · rintro ⟨hkept, -⟩
    refine ⟨fun svc route h => ?_, fun svc seen now h => ?_⟩
    · obtain ⟨new, hnew, hafter⟩ := reconcileFrom_of_adopts h
      obtain ⟨route', hroute', hlabels, -⟩ :=
        hkept _ _ h.stored (discoveryManaged_of_nil h.unmanaged)
      have hkey : generatedKey req = new.key := by
        rw [hnew.key, Store.key_of_get h.service]
      rw [hafter, hkey] at hroute'
      obtain rfl : new = route' := Option.some.inj ((Store.get_apply_self _ _).symm.trans hroute')
      have hunmanaged := discoveryManaged_of_nil (hlabels ▸ h.unmanaged)
      exact absurd hnew.managed (by simp [hunmanaged])
    · obtain ⟨route', hroute', -⟩ := hkept _ _ h.stored h.released
      rw [reconcileFrom_of_deletes h] at hroute'
      have hgone : (cluster.routes.apply (.remove (generatedKey req))).get (generatedKey req) =
        none := Store.get_apply_self _ _
      exact absurd (hgone.symm.trans hroute') (by simp)
  · rintro ⟨hadopts, hdeletes⟩
    rcases reconcileFrom_cases r m calls caches req with
      hsame | ⟨svc, change, o, hsvc, hreads, hwrite, hafter⟩
    · rw [hsame]
      exact ⟨fun k route hroute _ => ⟨route, hroute, rfl, rfl, rfl⟩, rfl, fun _ _ => rfl⟩
    · rw [hafter]
      have hmove := writeRoute_move (fun old hold => Store.key_of_get hold) hwrite
      exact ⟨apply_keeps_handWritten hsvc hreads hwrite (hadopts svc) (hdeletes svc),
        apply_onlyGenerated (Store.key_of_get hsvc) hmove⟩

end

/-! A user's own route under the generated name of a labelled Service. -/

def refersTo (svc : Service) (ref : OwnerReference) : Bool :=
  ref.apiVersion = str "v1" && ref.kind = str "Service" && ref.name = svc.metadata.name

def sampleSetController (svc : Service) (route : PostgresRoute) : Except GoError PostgresRoute :=
  if route.metadata.ns ≠ svc.metadata.ns then
    .error (errorsNew "cross-namespace owner references are disallowed")
  else if route.metadata.controllerOf.any fun ref => !refersTo svc ref then
    .error (errorsNew "the object is already owned by another controller")
  else .ok (route.withOwners
    (upsertOwnerRef (refersTo svc) (controllerRef svc) route.metadata.ownerReferences))

def sampleOwnerRequest (m : ObjectMeta) : Option NamespacedName :=
  match m.controllerOf with
  | some ref =>
    if ref.apiVersion = str "v1" ∧ ref.kind = str "Service" then some ⟨m.ns, ref.name⟩ else none
  | none => none

def sampleMachinery : Machinery where
  createOrUpdate := creatingOrUpdating
  setControllerReference := sampleSetController
  owns := refersTo
  ownerRequest := sampleOwnerRequest
  intstrParse s := (parseInt32 s).elim (.string s) .int
  statusText _ key := key.string
  createOrUpdate_eq := fun _ => rfl
  refuses := by
    intro svc route hns
    unfold sampleSetController
    rw [if_neg (not_not.mpr hns)]
    cases route.metadata.controllerOf with
    | none => simp
    | some ref => cases href : refersTo svc ref <;> simp [href]
  upserts := by
    intro svc route route' h
    unfold sampleSetController at h
    split at h
    · exact absurd h (by simp)
    · split at h
      · exact absurd h (by simp)
      · exact (Except.ok.inj h).symm
  ownerRequest_controllerRef := by
    intro svc m h
    rw [sampleOwnerRequest, h]
    exact if_pos ⟨rfl, rfl⟩

def sampleReconciler : ServiceDiscoveryReconciler where
  selector labels := mapGet labels (str "app.kubernetes.io/name") = str "postgresql"

example : setupWithManager (some ⟨sampleReconciler.selector, false⟩) [] =
    .ok sampleReconciler := rfl

def sampleService : Service where
  metadata :=
    { ns := str "apps", name := str "pg", uid := str "u1"
      labels := (∅ : GoMap GoString GoString).insert (str "app.kubernetes.io/name")
        (str "postgresql") }

def handWrittenRoute : PostgresRoute where
  metadata := { ns := str "apps", name := str "pg-discovered" }
  spec :=
    { database := str "do-not-touch"
      backend := { type := .address, address := some ⟨str "elsewhere", 5432⟩ } }

def handWrittenCluster : Cluster where
  services := (∅ : Services).apply (.put sampleService)
  routes := (∅ : Routes).apply (.put handWrittenRoute)

/-- A hand-written route without the managed-by label is taken over. -/
theorem unlabelled_route_is_taken_over :
    ¬ HandWrittenKept handWrittenCluster
      (@ServiceDiscoveryReconciler.reconcile plainQuote sampleReconciler sampleMachinery {}
        handWrittenCluster sampleService.key).1 := by
  intro h
  obtain ⟨route', hroute', -, -, hspec⟩ := h handWrittenRoute.key handWrittenRoute rfl rfl
  have hafter : ((@ServiceDiscoveryReconciler.reconcile plainQuote sampleReconciler
      sampleMachinery {} handWrittenCluster sampleService.key).1.routes.get
        handWrittenRoute.key).map (fun route => route.spec.database) = some (str "pg") := by
    decide
  rw [hroute', Option.map_some, hspec] at hafter
  exact absurd hafter (by decide)

end PgProxy
