import PgProxy.Api
import PgProxy.Lib.Informer

/-!
# The service discovery reconciler

One Reconcile makes at most three API calls: it reads the Service, reads the route
generated for it, and writes that route. Each call is its own definition, so that a
Reconcile can run against a cluster in one go and also call by call, between the steps
of everything else. The API machinery enters by what its documentation promises.
-/

namespace PgProxy
set_option autoImplicit false

def managedByLabel : GoString := str "pgproxy.io/managed-by"
def managedByServiceDiscovery : GoString := str "service-discovery"
def sourceServiceLabel : GoString := str "pgproxy.io/source-service"
def defaultDatabaseAnnotation : GoString := str "pgproxy.io/database-name"
def portAnnotation : GoString := str "pgproxy.io/port"
def priorityAnnotation : GoString := str "pgproxy.io/priority"
def ignoreAnnotation : GoString := str "pgproxy.io/ignore"
def discoveredRoutePriority : Int32 := -100

/-! ## The API machinery -/

/-- What is left to do about a route once it has been read and mutated. -/
inductive Operation where
  | none
  | create (route : PostgresRoute)
  | update (route : PostgresRoute)
  | delete (route : PostgresRoute)
  | fail (err : GoError)

/-- Create a missing object; update one that the mutation changes. -/
def creatingOrUpdating (found : Option PostgresRoute) (obj : PostgresRoute)
    (mutate : PostgresRoute → Except GoError PostgresRoute) : Operation :=
  match found with
  | none =>
    match mutate obj with
    | .ok route => .create route
    | .error e => .fail e
  | some existing =>
    match mutate existing with
    | .ok route => if route = existing then .none else .update route
    | .error e => .fail e

def controllerRef (svc : Service) : OwnerReference where
  apiVersion := str "v1"
  kind := str "Service"
  name := svc.metadata.name
  uid := svc.metadata.uid
  controller := some true
  blockOwnerDeletion := some true

/-- Replace the first reference of the same owner, or append. -/
def upsertOwnerRef (same : OwnerReference → Bool) (ref : OwnerReference) :
    List OwnerReference → List OwnerReference
  | [] => [ref]
  | x :: xs => if same x then ref :: xs else x :: upsertOwnerRef same ref xs

theorem find?_upsertOwnerRef {same isController : OwnerReference → Bool} {ref : OwnerReference}
    (href : isController ref) {refs : List OwnerReference}
    (h : ∀ x, refs.find? isController = some x → same x) :
    (upsertOwnerRef same ref refs).find? isController = some ref := by
  induction refs with
  | nil => simp [upsertOwnerRef, href]
  | cons x xs ih =>
    unfold upsertOwnerRef
    split
    · rw [List.find?_cons_of_pos href]
    · rename_i hsame
      -- a controller that is not replaced here would have been refused
      have hx : ¬ isController x := fun hx => hsame (h x (List.find?_cons_of_pos hx))
      rw [List.find?_cons_of_neg hx]
      exact ih fun y hy => h y (by rw [List.find?_cons_of_neg hx, hy])

def PostgresRoute.withOwners (route : PostgresRoute) (refs : List OwnerReference) :
    PostgresRoute :=
  { route with metadata := { route.metadata with ownerReferences := refs } }

/-- Controller-runtime and the API machinery, by what their documentation promises:
`owns` is when a reference already names the Service, `ownerRequest` is what the watch
of owned objects enqueues for an object. -/
structure Machinery where
  createOrUpdate : Option PostgresRoute → PostgresRoute →
    (PostgresRoute → Except GoError PostgresRoute) → Operation
  setControllerReference : Service → PostgresRoute → Except GoError PostgresRoute
  owns : Service → OwnerReference → Bool
  ownerRequest : ObjectMeta → Option NamespacedName
  intstrParse : GoString → IntOrString
  statusText : ApiReason → NamespacedName → GoString
  createOrUpdate_eq : ∀ {found : Option PostgresRoute} {obj : PostgresRoute}
    {mutate : PostgresRoute → Except GoError PostgresRoute},
    (∀ {r r' : PostgresRoute}, mutate r = .ok r' → r'.key = r.key) →
    createOrUpdate found obj mutate = creatingOrUpdating found obj mutate
  /-- An object that another owner controls is refused. -/
  refuses : ∀ {svc : Service} {route : PostgresRoute}, route.metadata.ns = svc.metadata.ns →
    ((∃ e, setControllerReference svc route = .error e) ↔
      ∃ ref, route.metadata.controllerOf = some ref ∧ owns svc ref = false)
  upserts : ∀ {svc : Service} {route route' : PostgresRoute},
    setControllerReference svc route = .ok route' →
    route' = route.withOwners
      (upsertOwnerRef (owns svc) (controllerRef svc) route.metadata.ownerReferences)
  ownerRequest_controllerRef : ∀ {svc : Service} {m : ObjectMeta},
    m.controllerOf = some (controllerRef svc) → ownerRequest m = some ⟨m.ns, svc.metadata.name⟩

theorem Machinery.sets_iff (m : Machinery) {svc : Service} {route : PostgresRoute}
    (hns : route.metadata.ns = svc.metadata.ns) :
    (∃ route', m.setControllerReference svc route = .ok route') ↔
      ∀ ref, route.metadata.controllerOf = some ref → m.owns svc ref := by
  have hrefuses := m.refuses hns
  cases hset : m.setControllerReference svc route with
  | ok route' => simpa [hset] using hrefuses
  | error e => simpa [hset] using hrefuses

theorem Machinery.controllerOf_of_sets (m : Machinery) {svc : Service}
    {route route' : PostgresRoute} (hns : route.metadata.ns = svc.metadata.ns)
    (h : m.setControllerReference svc route = .ok route') :
    route'.metadata.controllerOf = some (controllerRef svc) := by
  have howns := (m.sets_iff hns).mp ⟨route', h⟩
  rw [m.upserts h]
  exact find?_upsertOwnerRef rfl howns

/-! ## What the reconciler derives from a Service -/

structure ServiceDiscoveryReconciler where
  selector : GoMap GoString GoString → Bool
  databaseAnnotation : GoString := defaultDatabaseAnnotation

/-- `labels.Selector`. -/
structure Selector where
  select : GoMap GoString GoString → Bool
  empty : Bool

/-- The reconciler as it is registered, from the fields it was created with. -/
def setupWithManager (selector : Option Selector) (annotationKey : GoString) :
    Except GoError ServiceDiscoveryReconciler :=
  match selector with
  | none => .error (errorsNew "ServiceDiscoveryReconciler.Selector must not be empty")
  | some selector =>
    if selector.empty then
      .error (errorsNew "ServiceDiscoveryReconciler.Selector must not be empty")
    else if annotationKey = [] then .ok { selector := selector.select }
    else .ok { selector := selector.select, databaseAnnotation := annotationKey }

def generatedRouteName (serviceName : GoString) : GoString := serviceName ++ str "-discovered"

def generatedKey (service : NamespacedName) : NamespacedName :=
  ⟨service.ns, generatedRouteName service.name⟩

theorem generatedKey_injective : Function.Injective generatedKey := by
  rintro ⟨ns₁, name₁⟩ ⟨ns₂, name₂⟩ h
  simp only [generatedKey, generatedRouteName, NamespacedName.mk.injEq,
    List.append_cancel_right_eq] at h
  rw [h.1, h.2]

namespace ServiceDiscoveryReconciler
variable (r : ServiceDiscoveryReconciler)

def matchesSelector (svc : Service) : Bool := r.selector svc.metadata.labels

def ignored (svc : Service) : Bool :=
  mapGet svc.metadata.annotations ignoreAnnotation = str "true"

def outOfScope (svc : Service) : Bool :=
  svc.metadata.beingDeleted || !r.matchesSelector svc || ignored svc

def databaseName (svc : Service) : GoString :=
  let key := r.databaseAnnotation
  let name := mapGet svc.metadata.annotations key
  if name ≠ [] then name else svc.metadata.name

def priority (svc : Service) : Int32 :=
  match svc.metadata.annotations.lookup priorityAnnotation with
  | some raw => (parseInt32 raw).getD discoveredRoutePriority
  | none => discoveredRoutePriority

def port (m : Machinery) (svc : Service) : IntOrString :=
  match svc.metadata.annotations.lookup portAnnotation with
  | some (c :: raw) => m.intstrParse (c :: raw)
  | _ =>
    match svc.ports.find? fun p => p.name = str "postgresql" ∨ p.name = str "postgres" with
    | some p => .int p.port
    | none =>
      if svc.ports.any fun p => p.port = 5432 then .int 5432
      else
        match svc.ports with
        | [p] => .int p.port
        | _ => .int 5432

def generatedSpec (m : Machinery) (svc : Service) (spec : PostgresRouteSpec) :
    PostgresRouteSpec :=
  { spec with
    database := r.databaseName svc
    priority := priority svc
    backend :=
      { type := .service
        service := some
          { name := svc.metadata.name, ns := svc.metadata.ns, port := port m svc } } }

def generatedLabels (svc : Service) (labels : GoMap GoString GoString) :
    GoMap GoString GoString :=
  (labels.insert managedByLabel managedByServiceDiscovery).insert sourceServiceLabel
    svc.metadata.name

def marked (m : Machinery) (svc : Service) (route : PostgresRoute) : PostgresRoute :=
  { route with
    metadata := { route.metadata with labels := generatedLabels svc route.metadata.labels }
    spec := r.generatedSpec m svc route.spec }

/-- Only a route that discovery generated and that this Service still controls is
deleted. -/
def deleteGeneratedRoute (svc : Service) (found : Option PostgresRoute) : Operation :=
  match found with
  | none => .none
  | some existing =>
    if mapGet existing.metadata.labels managedByLabel ≠ managedByServiceDiscovery then .none
    else
      match existing.metadata.controllerOf with
      | none => .none
      | some owner => if owner.uid ≠ svc.metadata.uid then .none else .delete existing

def blankRoute (svc : Service) : PostgresRoute :=
  { metadata := { ns := svc.metadata.ns, name := generatedRouteName svc.metadata.name } }

variable [GoFmt]

/-- The mutation handed to CreateOrUpdate. -/
def mutate (m : Machinery) (svc : Service) (route : PostgresRoute) :
    Except GoError PostgresRoute :=
  let managedBy := mapGet route.metadata.labels managedByLabel
  if managedBy ≠ [] ∧ managedBy ≠ managedByServiceDiscovery then
    .error (.other (str "route " ++ route.metadata.ns ++ str "/" ++ route.metadata.name ++
      str " is managed by " ++ quote managedBy ++ str ", not by service discovery"))
  else
    m.setControllerReference svc (r.marked m svc route)

def operation (m : Machinery) (svc : Service) (found : Option PostgresRoute) : Operation :=
  if r.outOfScope svc then deleteGeneratedRoute svc found
  else m.createOrUpdate found (blankRoute svc) (r.mutate m svc)

end ServiceDiscoveryReconciler

/-! ## The calls of one Reconcile -/

structure Outcome where
  requeue : Bool := false
  err : Option GoError := none

/-- The work queue takes the request back. -/
def Outcome.retries (o : Outcome) : Bool := o.requeue || o.err.isSome

/-- Why an API call failed, other than for a missing object. -/
structure Failure where
  err : GoError
  found : err.isNotFound = false

/-- How the API server answers a write it has no objection to. A reply can be lost
after the write was done. -/
inductive Reply where
  | done
  | refused (f : Failure)
  | lost (f : Failure)

def Reply.err : Reply → Option GoError
  | done => none
  | refused f | lost f => some f.err

abbrev Services := Store Service.key
abbrev Routes := Store PostgresRoute.key

/-- The change a write makes to the cluster, and the error its caller sees. The status
is a subresource, which Update leaves alone. Of what the server fills in, only the resource
version is here: discovery reads neither the UID nor the generation nor the creation time
of a route it has created, which stay as the caller left them. -/
def commit (m : Machinery) (version : Nat) (routes : Routes) (reply : Reply) :
    Operation → Option (Change PostgresRoute.key) × Option GoError
  | .none => (none, none)
  | .fail e => (none, some e)
  | .create route =>
    match routes.get route.key with
    | some _ => reject .alreadyExists route
    | none => answer (.put (stamped route))
  | .update route =>
    match routes.get route.key with
    | none => reject .notFound route
    | some current =>
      if current.metadata.resourceVersion ≠ route.metadata.resourceVersion then
        reject .conflict route
      else answer (.put { stamped route with status := current.status })
  | .delete route =>
    match routes.get route.key with
    | none => reject .notFound route
    | some _ => answer (.remove route.key)
where
  stamped (route : PostgresRoute) : PostgresRoute :=
    { route with metadata := { route.metadata with resourceVersion := version } }
  reject (reason : ApiReason) (route : PostgresRoute) :
      Option (Change PostgresRoute.key) × Option GoError :=
    (none, some (.api reason (m.statusText reason route.key)))
  answer (change : Change PostgresRoute.key) :
      Option (Change PostgresRoute.key) × Option GoError :=
    match reply with
    | .refused f => (none, some f.err)
    | _ => (some change, reply.err)

namespace ServiceDiscoveryReconciler
variable (r : ServiceDiscoveryReconciler)

/-- The first call: a Service that is gone leaves its route to garbage collection. -/
def getService (fault : Option Failure) (services : Services) (req : NamespacedName) :
    Except Outcome Service :=
  match fault with
  | some f => .error { err := some f.err }
  | none =>
    match services.get req with
    | none => .error {}
    | some svc => .ok svc

/-- What Reconcile returns once the write, or the read before it, has an error or none. -/
def conclude (req : NamespacedName) (svc : Service) (err : Option GoError) : Outcome :=
  match err with
  | none => {}
  | some e =>
    if r.outOfScope svc then { err := if e.isNotFound then none else some e }
    else if e.isConflict then { requeue := true }
    else { err := some (errorfWrap
      (str "reconciling the generated route for service " ++ req.string) e) }

/-- The second call: the route under the generated name, if there is one. -/
def getRoute (fault : Option Failure) (routes : Routes) (req : NamespacedName)
    (svc : Service) : Except Outcome (Option PostgresRoute) :=
  match fault with
  | some f => .error (r.conclude req svc (some f.err))
  | none => .ok (routes.get (generatedKey svc.key))

variable [GoFmt]

def writeRoute (m : Machinery) (version : Nat) (routes : Routes) (reply : Reply)
    (req : NamespacedName) (svc : Service) (found : Option PostgresRoute) :
    Option (Change PostgresRoute.key) × Outcome :=
  let (change, err) := commit m version routes reply (r.operation m svc found)
  (change, r.conclude req svc err)

end ServiceDiscoveryReconciler

/-! ## Reconcile against a cluster -/

/-- The Services and the routes, with the resource version given out last. -/
structure Cluster where
  services : Services := ∅
  routes : Routes := ∅
  version : Nat := 0

def Cluster.apply (cluster : Cluster) : Option (Change PostgresRoute.key) → Cluster
  | none => cluster
  | some c => { cluster with routes := cluster.routes.apply c, version := cluster.version + 1 }

/-- How the three calls of a Reconcile fare. -/
structure Calls where
  getService : Option Failure := none
  getRoute : Option Failure := none
  write : Reply := .done

/-- The informers' caches, from which a Reconcile reads. They can lag behind the cluster, but a
route that still has the version it was cached with has not changed since. -/
structure Caches (cluster : Cluster) where
  services : Services
  routes : Routes
  versioned : ∀ {k : NamespacedName} {old current : PostgresRoute}, routes.get k = some old →
    cluster.routes.get k = some current →
    old.metadata.resourceVersion = current.metadata.resourceVersion → old = current

def Cluster.caches (cluster : Cluster) : Caches cluster where
  services := cluster.services
  routes := cluster.routes
  versioned hold hcurrent _ := Option.some.inj (hold.symm.trans hcurrent)

/-- Reconcile as it is deployed: it reads the caches and writes to the cluster. -/
def ServiceDiscoveryReconciler.reconcileFrom [GoFmt] (r : ServiceDiscoveryReconciler)
    (m : Machinery) (calls : Calls) {cluster : Cluster} (caches : Caches cluster)
    (req : NamespacedName) : Cluster × Outcome :=
  match getService calls.getService caches.services req with
  | .error o => (cluster, o)
  | .ok svc =>
    match r.getRoute calls.getRoute caches.routes req svc with
    | .error o => (cluster, o)
    | .ok found =>
      let (change, o) :=
        r.writeRoute m (cluster.version + 1) cluster.routes calls.write req svc found
      (cluster.apply change, o)

/-- Reconcile with caches that have caught up with the cluster. -/
def ServiceDiscoveryReconciler.reconcile [GoFmt] (r : ServiceDiscoveryReconciler)
    (m : Machinery) (calls : Calls) (cluster : Cluster) (req : NamespacedName) :
    Cluster × Outcome :=
  r.reconcileFrom m calls cluster.caches req

/-! ## What the third call can do -/

def PostgresRoute.discoveryManaged (route : PostgresRoute) : Bool :=
  mapGet route.metadata.labels managedByLabel = managedByServiceDiscovery

/-- A route as Reconcile writes it for a Service. -/
structure Generated (svc : Service) (route : PostgresRoute) : Prop where
  key : route.key = generatedKey svc.key
  managed : route.discoveryManaged
  controller : route.metadata.controllerOf = some (controllerRef svc)

theorem mapGet_generatedLabels (svc : Service) (labels : GoMap GoString GoString) :
    mapGet (ServiceDiscoveryReconciler.generatedLabels svc labels) managedByLabel =
      managedByServiceDiscovery := by
  have hne : managedByLabel ≠ sourceServiceLabel := by decide
  simp [mapGet, ServiceDiscoveryReconciler.generatedLabels, Finmap.lookup_insert_of_ne _ hne]

section Calls
open ServiceDiscoveryReconciler
variable {r : ServiceDiscoveryReconciler} {m : Machinery} {svc : Service}

theorem conclude_inScope (h : r.outOfScope svc = false) (req : NamespacedName) (e : GoError) :
    (r.conclude req svc (some e)).retries = true := by
  simp only [conclude, h, Bool.false_eq_true, if_false]
  split <;> rfl

theorem conclude_outOfScope (h : r.outOfScope svc) (req : NamespacedName) (e : GoError) :
    (r.conclude req svc (some e)).retries = !e.isNotFound := by
  simp only [conclude, h, if_true, Outcome.retries, Bool.false_or]
  cases e.isNotFound <;> rfl

theorem getService_ok {fault : Option Failure} {services : Services} {req : NamespacedName} :
    getService fault services req = .ok svc ↔ fault = none ∧ services.get req = some svc := by
  cases fault with
  | some f => simp [getService]
  | none =>
    cases hget : services.get req with
    | none => simp [getService, hget]
    | some svc' => simp [getService, hget]

theorem getService_error {fault : Option Failure} {services : Services} {req : NamespacedName}
    {o : Outcome} (h : getService fault services req = .error o) :
    o.retries ∨ services.get req = none := by
  cases fault with
  | some f =>
    obtain rfl := Except.error.inj h
    exact .inl rfl
  | none =>
    cases hget : services.get req with
    | none => exact .inr rfl
    | some svc' => simp [getService, hget] at h

theorem getRoute_ok {fault : Option Failure} {routes : Routes} {req : NamespacedName}
    {found : Option PostgresRoute} : r.getRoute fault routes req svc = .ok found ↔
      fault = none ∧ routes.get (generatedKey svc.key) = found := by
  cases fault <;> simp [getRoute]

theorem getRoute_error {fault : Option Failure} {routes : Routes} {req : NamespacedName}
    {o : Outcome} (h : r.getRoute fault routes req svc = .error o) : o.retries := by
  cases fault with
  | none => simp [getRoute] at h
  | some f =>
    obtain rfl := Except.error.inj h
    cases hscope : r.outOfScope svc with
    | false => exact conclude_inScope hscope req f.err
    | true => rw [conclude_outOfScope hscope, f.found]; rfl

section Commit
variable {version : Nat} {routes : Routes} {reply : Reply} {route : PostgresRoute}
  {change : Option (Change PostgresRoute.key)} {err : Option GoError}

theorem answer_cases {c : Change PostgresRoute.key} (h : commit.answer reply c = (change, err)) :
    (change = none ∧ ∃ f : Failure, err = some f.err) ∨ change = some c := by
  cases reply with
  | done => exact .inr (congrArg Prod.fst h).symm
  | refused f =>
    obtain ⟨rfl, rfl⟩ := Prod.mk.inj h
    exact .inl ⟨rfl, f, rfl⟩
  | lost f => exact .inr (congrArg Prod.fst h).symm

theorem commit_create (h : commit m version routes reply (.create route) = (change, err)) :
    (change = none ∧ ∃ e, err = some e) ∨
      (routes.get route.key = none ∧ change = some (.put (commit.stamped version route))) := by
  simp only [commit] at h
  split at h
  · obtain ⟨rfl, rfl⟩ := Prod.mk.inj h
    exact .inl ⟨rfl, _, rfl⟩
  · rename_i habsent
    rcases answer_cases h with ⟨hnone, f, hf⟩ | hput
    · exact .inl ⟨hnone, f.err, hf⟩
    · exact .inr ⟨habsent, hput⟩

theorem commit_update (h : commit m version routes reply (.update route) = (change, err)) :
    (change = none ∧ ∃ e, err = some e) ∨ ∃ current, routes.get route.key = some current ∧
      change = some (.put { commit.stamped version route with status := current.status }) := by
  simp only [commit] at h
  split at h
  · obtain ⟨rfl, rfl⟩ := Prod.mk.inj h
    exact .inl ⟨rfl, _, rfl⟩
  · rename_i current hcurrent
    split at h
    · obtain ⟨rfl, rfl⟩ := Prod.mk.inj h
      exact .inl ⟨rfl, _, rfl⟩
    · rcases answer_cases h with ⟨hnone, f, hf⟩ | hput
      · exact .inl ⟨hnone, f.err, hf⟩
      · exact .inr ⟨current, hcurrent, hput⟩

/-- Creating or updating fails, finds nothing to change, or puts what the mutation gives,
which is a new object only where none was stored. -/
theorem commit_mutation {found : Option PostgresRoute} {obj : PostgresRoute}
    {mutate : PostgresRoute → Except GoError PostgresRoute}
    (h : commit m version routes reply (creatingOrUpdating found obj mutate) = (change, err)) :
    (change = none ∧ ∃ e, err = some e) ∨
      (change = none ∧ err = none ∧ ∃ old, found = some old ∧ mutate old = .ok old) ∨
      ∃ new status, mutate (found.getD obj) = .ok new ∧
        (found = none → routes.get new.key = none) ∧
        change = some (.put { commit.stamped version new with status := status }) := by
  cases found with
  | none =>
    cases hmutate : mutate obj with
    | error e =>
      simp only [creatingOrUpdating, hmutate, commit, Prod.mk.injEq] at h
      exact .inl ⟨h.1.symm, e, h.2.symm⟩
    | ok new =>
      simp only [creatingOrUpdating, hmutate] at h
      rcases commit_create h with herr | ⟨habsent, hput⟩
      · exact .inl herr
      · exact .inr (.inr ⟨new, new.status, hmutate, fun _ => habsent, hput⟩)
  | some old =>
    cases hmutate : mutate old with
    | error e =>
      simp only [creatingOrUpdating, hmutate, commit, Prod.mk.injEq] at h
      exact .inl ⟨h.1.symm, e, h.2.symm⟩
    | ok new =>
      by_cases hsame : new = old
      · simp only [creatingOrUpdating, hmutate, hsame, if_true, commit, Prod.mk.injEq] at h
        exact .inr (.inl ⟨h.1.symm, h.2.symm, old, rfl, hsame ▸ hmutate⟩)
      · simp only [creatingOrUpdating, hmutate, hsame, if_false] at h
        rcases commit_update h with herr | ⟨current, -, hput⟩
        · exact .inl herr
        · exact .inr (.inr ⟨new, current.status, hmutate, nofun, hput⟩)

theorem commit_delete (h : commit m version routes reply (.delete route) = (change, err)) :
    (change = none ∧ ∃ e, err = some e ∧ e.isNotFound = (routes.get route.key).isNone) ∨
      change = some (.remove route.key) := by
  simp only [commit] at h
  split at h
  · rename_i habsent
    obtain ⟨rfl, rfl⟩ := Prod.mk.inj h
    exact .inl ⟨rfl, _, rfl, by rw [habsent]; rfl⟩
  · rename_i current hcurrent
    rcases answer_cases h with ⟨hnone, f, hf⟩ | hput
    · exact .inl ⟨hnone, f.err, hf, by rw [hcurrent, f.found]; rfl⟩
    · exact .inr hput

end Commit

def PostgresRoute.ownedBy (route : PostgresRoute) (svc : Service) : Prop :=
  ∃ owner, route.metadata.controllerOf = some owner ∧ owner.uid = svc.metadata.uid

theorem deleteGeneratedRoute_eq_delete_iff {existing : PostgresRoute}
    {found : Option PostgresRoute} : deleteGeneratedRoute svc found = .delete existing ↔
      found = some existing ∧ existing.discoveryManaged ∧ existing.ownedBy svc := by
  cases found with
  | none => simp [deleteGeneratedRoute]
  | some route =>
    simp only [deleteGeneratedRoute, PostgresRoute.discoveryManaged, PostgresRoute.ownedBy]
    split
    · rename_i hlabel
      refine iff_of_false (by simp) ?_
      rintro ⟨⟨rfl⟩, hmanaged, -⟩
      exact hlabel (of_decide_eq_true hmanaged)
    · rename_i hlabel
      cases howner : route.metadata.controllerOf with
      | none =>
        refine iff_of_false (by simp) ?_
        rintro ⟨⟨rfl⟩, -, owner, howner', -⟩
        exact absurd (howner.symm.trans howner') (by simp)
      | some owner =>
        by_cases huid : owner.uid = svc.metadata.uid
        · simp only [huid, ne_eq, not_true_eq_false, if_false, Operation.delete.injEq,
            Option.some.injEq]
          refine ⟨?_, And.left⟩
          rintro rfl
          exact ⟨rfl, decide_eq_true (not_not.mp hlabel), owner, howner, huid⟩
        · refine iff_of_false (by simp [huid]) ?_
          rintro ⟨⟨rfl⟩, -, owner', howner', huid'⟩
          obtain rfl := Option.some.inj (howner.symm.trans howner')
          exact huid huid'

theorem deleteGeneratedRoute_cases (svc : Service) (found : Option PostgresRoute) :
    deleteGeneratedRoute svc found = .none ∨
      ∃ existing, deleteGeneratedRoute svc found = .delete existing := by
  unfold deleteGeneratedRoute
  split
  · exact .inl rfl
  · split
    · exact .inl rfl
    · split
      · exact .inl rfl
      · split
        · exact .inl rfl
        · exact .inr ⟨_, rfl⟩

variable [GoFmt]

theorem mutate_ok {route route' : PostgresRoute} (h : r.mutate m svc route = .ok route') :
    (mapGet route.metadata.labels managedByLabel = [] ∨ route.discoveryManaged) ∧
      m.setControllerReference svc (r.marked m svc route) = .ok route' := by
  unfold ServiceDiscoveryReconciler.mutate at h
  dsimp only at h
  split at h
  · exact absurd h (by simp)
  · rename_i hguard
    refine ⟨?_, h⟩
    by_cases hnil : mapGet route.metadata.labels managedByLabel = []
    · exact .inl hnil
    · refine .inr (decide_eq_true ?_)
      by_contra hne
      exact hguard ⟨hnil, hne⟩

theorem mutate_unmanaged {route : PostgresRoute}
    (h : mapGet route.metadata.labels managedByLabel = []) :
    r.mutate m svc route = m.setControllerReference svc (r.marked m svc route) := by
  simp [ServiceDiscoveryReconciler.mutate, h]

theorem key_of_mutate {route route' : PostgresRoute} (h : r.mutate m svc route = .ok route') :
    route'.key = route.key := by
  rw [m.upserts (mutate_ok h).2]
  rfl

theorem generated_of_mutate {route route' : PostgresRoute} (hkey : route.key = generatedKey svc.key)
    (h : r.mutate m svc route = .ok route') : Generated svc route' := by
  have hns : (r.marked m svc route).metadata.ns = svc.metadata.ns :=
    congrArg NamespacedName.ns hkey
  have hset := (mutate_ok h).2
  have hcontroller := m.controllerOf_of_sets hns hset
  rw [m.upserts hset] at hcontroller ⊢
  exact ⟨hkey, decide_eq_true (mapGet_generatedLabels svc _), hcontroller⟩

theorem operation_inScope (h : r.outOfScope svc = false) (found : Option PostgresRoute) :
    r.operation m svc found =
      creatingOrUpdating found (blankRoute svc) (r.mutate m svc) := by
  rw [ServiceDiscoveryReconciler.operation, h]
  exact m.createOrUpdate_eq key_of_mutate

variable (r m svc) in
/-- What the third call can come to: the change it makes and whether the request is
taken back. -/
inductive WriteMove (routes : Routes) (found : Option PostgresRoute) :
    Option (Change PostgresRoute.key) → Bool → Prop
  | retried : WriteMove routes found none true
  | kept {route : PostgresRoute} (hscope : r.outOfScope svc = false)
      (hfound : found = some route) (hsame : r.mutate m svc route = .ok route) :
      WriteMove routes found none false
  | left (hscope : r.outOfScope svc)
      (h : deleteGeneratedRoute svc found = .none ∨
        routes.get (generatedKey svc.key) = none) : WriteMove routes found none false
  | put {route : PostgresRoute} {retries : Bool} (hscope : r.outOfScope svc = false)
      (hnew : Generated svc route)
      (hold : routes.get (generatedKey svc.key) = none ∨
        ∃ old new, found = some old ∧ r.mutate m svc old = .ok new) :
      WriteMove routes found (some (.put route)) retries
  | removed {existing : PostgresRoute} {retries : Bool} (hscope : r.outOfScope svc)
      (hdelete : deleteGeneratedRoute svc found = .delete existing) :
      WriteMove routes found (some (.remove (generatedKey svc.key))) retries

section Write
variable {version : Nat} {routes : Routes} {reply : Reply} {found : Option PostgresRoute}
  {change : Option (Change PostgresRoute.key)} {err : Option GoError}

theorem commit_creatingOrUpdating (hscope : r.outOfScope svc = false) (req : NamespacedName)
    (hfound : ∀ old, found = some old → old.key = generatedKey svc.key)
    (h : commit m version routes reply
      (creatingOrUpdating found (blankRoute svc) (r.mutate m svc)) = (change, err)) :
    WriteMove r m svc routes found change (r.conclude req svc err).retries := by
  rcases commit_mutation h with ⟨rfl, e, rfl⟩ | ⟨rfl, rfl, old, hold, hsame⟩ |
    ⟨new, status, hmutate, habsent, rfl⟩
  · rw [conclude_inScope hscope]
    exact .retried
  · exact .kept hscope hold hsame
  · cases found with
    | none =>
      have hnew := generated_of_mutate rfl hmutate
      exact .put hscope ⟨hnew.key, hnew.managed, hnew.controller⟩ (.inl (hnew.key ▸ habsent rfl))
    | some old =>
      have hnew := generated_of_mutate (hfound old rfl) hmutate
      exact .put hscope ⟨hnew.key, hnew.managed, hnew.controller⟩ (.inr ⟨old, new, rfl, hmutate⟩)

theorem commit_deleteGeneratedRoute (hscope : r.outOfScope svc) (req : NamespacedName)
    (hfound : ∀ old, found = some old → old.key = generatedKey svc.key)
    (h : commit m version routes reply (deleteGeneratedRoute svc found) = (change, err)) :
    WriteMove r m svc routes found change (r.conclude req svc err).retries := by
  rcases deleteGeneratedRoute_cases svc found with hnone | ⟨existing, hdelete⟩
  · rw [hnone, commit, Prod.mk.injEq] at h
    obtain ⟨rfl, rfl⟩ := h
    exact .left hscope (.inl hnone)
  · rw [hdelete] at h
    have hkey := hfound existing (deleteGeneratedRoute_eq_delete_iff.mp hdelete).1
    rcases commit_delete h with ⟨rfl, e, rfl, he⟩ | rfl
    · rw [conclude_outOfScope hscope, he, hkey]
      cases hget : routes.get (generatedKey svc.key) with
      | none => exact .left hscope (.inr hget)
      | some current => exact .retried
    · rw [hkey]
      exact .removed hscope hdelete

theorem writeRoute_move {req : NamespacedName} {o : Outcome}
    (hfound : ∀ old, found = some old → old.key = generatedKey svc.key)
    (h : r.writeRoute m version routes reply req svc found = (change, o)) :
    WriteMove r m svc routes found change o.retries := by
  obtain ⟨change', err, hcommit⟩ : ∃ change' err,
    commit m version routes reply (r.operation m svc found) = (change', err) := ⟨_, _, rfl⟩
  rw [writeRoute, hcommit, Prod.mk.injEq] at h
  obtain ⟨rfl, rfl⟩ := h
  cases hscope : r.outOfScope svc with
  | false =>
    rw [operation_inScope hscope] at hcommit
    exact commit_creatingOrUpdating hscope req hfound hcommit
  | true =>
    rw [operation, if_pos hscope] at hcommit
    exact commit_deleteGeneratedRoute hscope req hfound hcommit

end Write

theorem reconcile_mutated {calls : Calls} {cluster : Cluster}
    (hsvc : cluster.services.get svc.key = some svc) (hscope : r.outOfScope svc = false)
    (hdone : (r.reconcile m calls cluster svc.key).2.retries = false) :
    ∃ change new version status, (r.reconcile m calls cluster svc.key).1 = cluster.apply change ∧
      r.mutate m svc ((cluster.routes.get (generatedKey svc.key)).getD (blankRoute svc)) =
        .ok new ∧
      (cluster.apply change).routes.get (generatedKey svc.key) =
        some { commit.stamped version new with status := status } := by
  unfold reconcile reconcileFrom Cluster.caches at hdone ⊢
  dsimp only at hdone ⊢
  cases hservice : getService calls.getService cluster.services svc.key with
  | error o =>
    rw [hservice] at hdone
    rcases getService_error hservice with hretries | hnone
    · rw [hretries] at hdone
      simp at hdone
    · rw [hsvc] at hnone
      simp at hnone
  | ok svc' =>
    obtain ⟨-, hsvc'⟩ := getService_ok.mp hservice
    obtain rfl : svc = svc' := Option.some.inj (hsvc.symm.trans hsvc')
    rw [hservice] at hdone
    dsimp only at hdone ⊢
    cases hroute : r.getRoute calls.getRoute cluster.routes svc.key svc with
    | error o =>
      rw [hroute] at hdone
      rw [getRoute_error hroute] at hdone
      simp at hdone
    | ok found =>
      obtain ⟨-, rfl⟩ := getRoute_ok.mp hroute
      rw [hroute] at hdone
      obtain ⟨change, err, hcommit⟩ : ∃ change err, commit m (cluster.version + 1) cluster.routes
          calls.write (r.operation m svc (cluster.routes.get (generatedKey svc.key))) =
            (change, err) := ⟨_, _, rfl⟩
      simp only [writeRoute, hcommit] at hdone ⊢
      rw [operation_inScope hscope] at hcommit
      refine ⟨change, ?_⟩
      rcases commit_mutation hcommit with ⟨-, e, rfl⟩ | ⟨rfl, -, old, hold, hsame⟩ |
        ⟨new, status, hmutate, -, rfl⟩
      · rw [conclude_inScope hscope] at hdone
        simp at hdone
      · rw [hold]
        exact ⟨old, old.metadata.resourceVersion, old.status, rfl, hsame, hold⟩
      · have hkey : new.key = generatedKey svc.key := by
          rw [key_of_mutate hmutate]
          cases hfound : cluster.routes.get (generatedKey svc.key) with
          | none => rfl
          | some old => exact Store.key_of_get hfound
        refine ⟨new, cluster.version + 1, status, rfl, hmutate, ?_⟩
        rw [← hkey]
        exact Store.get_apply_self _ (.put _)

end Calls

/-! ## What the third call overwrites -/

abbrev PostgresRoute.version (route : PostgresRoute) : Nat := route.metadata.resourceVersion

section Overwriting
open ServiceDiscoveryReconciler
variable {m : Machinery} {version : Nat} {routes : Routes} {reply : Reply}
variable {change : Change PostgresRoute.key} {route : PostgresRoute}

theorem eq_of_answer {c : Change PostgresRoute.key}
    (h : (commit.answer reply c).1 = some change) : change = c := by
  rcases answer_cases (Prod.mk.eta).symm with ⟨hnone, -⟩ | hsome
  · rw [hnone] at h
    exact absurd h (by simp)
  · exact Option.some.inj (h.symm.trans hsome)

theorem change_of_create (h : (commit m version routes reply (.create route)).1 = some change) :
    routes.get route.key = none ∧ change = .put (commit.stamped version route) := by
  simp only [commit] at h
  split at h
  · exact absurd h (by simp [commit.reject])
  · rename_i habsent
    exact ⟨habsent, eq_of_answer h⟩

theorem change_of_update (h : (commit m version routes reply (.update route)).1 = some change) :
    ∃ current, routes.get route.key = some current ∧ current.version = route.version ∧
      change = .put { commit.stamped version route with status := current.status } := by
  simp only [commit] at h
  split at h
  · exact absurd h (by simp [commit.reject])
  · rename_i current hcurrent
    split at h
    · exact absurd h (by simp [commit.reject])
    · rename_i hversion
      exact ⟨current, hcurrent, not_not.mp hversion, eq_of_answer h⟩

theorem change_of_delete (h : (commit m version routes reply (.delete route)).1 = some change) :
    change = .remove route.key := by
  simp only [commit] at h
  split at h
  · exact absurd h (by simp [commit.reject])
  · exact eq_of_answer h

theorem version_of_commit {op : Operation} (h : (commit m version routes reply op).1 = some change)
    (hroute : change.result = some route) : route.version = version := by
  cases op with
  | none | fail e => exact absurd h (by simp [commit])
  | create new =>
    obtain ⟨-, rfl⟩ := change_of_create h
    obtain rfl := Option.some.inj hroute
    rfl
  | update new =>
    obtain ⟨current, -, -, rfl⟩ := change_of_update h
    obtain rfl := Option.some.inj hroute
    rfl
  | delete existing =>
    obtain rfl := change_of_delete h
    exact absurd hroute (by simp [Change.result])

variable {r : ServiceDiscoveryReconciler} {svc : Service} {old new : PostgresRoute}

theorem version_of_mutate [GoFmt] (h : r.mutate m svc old = .ok new) :
    new.version = old.version := by
  rw [m.upserts (mutate_ok h).2]
  rfl

variable [GoFmt]

variable (m version r svc) in
/-- A change where `route` is stored, made by a writer that had read `old`. -/
inductive Overwrites (route old : PostgresRoute) : Change PostgresRoute.key → Prop
  | updated {new : PostgresRoute} (hscope : r.outOfScope svc = false)
      (hversion : route.version = old.version) (hmutate : r.mutate m svc old = .ok new) :
      Overwrites route old (.put { commit.stamped version new with status := route.status })
  | deleted (hscope : r.outOfScope svc) (hmanaged : old.discoveryManaged)
      (howned : old.ownedBy svc) : Overwrites route old (.remove old.key)

theorem Overwrites.target (h : Overwrites m version r svc route old change) :
    change.target = old.key := by
  cases h with
  | updated hscope hversion hmutate =>
    have hkey := key_of_mutate hmutate
    exact hkey
  | deleted => rfl

theorem overwrites_of_writeRoute {req : NamespacedName} {found : Option PostgresRoute}
    (h : (r.writeRoute m version routes reply req svc found).1 = some change)
    (hroute : routes.get change.target = some route) :
    ∃ old, found = some old ∧ Overwrites m version r svc route old change := by
  replace h : (commit m version routes reply (r.operation m svc found)).1 = some change := h
  cases hscope : r.outOfScope svc with
  | false =>
    rw [operation_inScope hscope] at h
    cases found with
    | none =>
      -- an object is only created where there is none
      rw [creatingOrUpdating] at h
      split at h
      · obtain ⟨habsent, rfl⟩ := change_of_create h
        exact absurd (habsent.symm.trans hroute) (by simp)
      · exact absurd h (by simp [commit])
    | some old =>
      refine ⟨old, rfl, ?_⟩
      rw [creatingOrUpdating] at h
      split at h
      · rename_i new hmutate
        split at h
        · exact absurd h (by simp [commit])
        · obtain ⟨current, hcurrent, hversion, rfl⟩ := change_of_update h
          obtain rfl : current = route := Option.some.inj (hcurrent.symm.trans hroute)
          exact .updated hscope (hversion.trans (version_of_mutate hmutate)) hmutate
      · exact absurd h (by simp [commit])
  | true =>
    rw [operation, if_pos hscope] at h
    rcases deleteGeneratedRoute_cases svc found with hnone | ⟨old, hdelete⟩
    · rw [hnone] at h
      exact absurd h (by simp [commit])
    · obtain ⟨hold, hmanaged, howned⟩ := deleteGeneratedRoute_eq_delete_iff.mp hdelete
      rw [hdelete] at h
      obtain rfl := change_of_delete h
      exact ⟨old, hold, .deleted hscope hmanaged howned⟩

end Overwriting

end PgProxy
