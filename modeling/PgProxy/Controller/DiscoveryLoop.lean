import PgProxy.Controller.Discovery
import PgProxy.Lib.Runs

/-!
# The discovery controller at work

The two informers, the work queue and the one worker of the controller, between the
writes of everybody else. A Reconcile reads the informers' caches and writes to the API
server, one call a step. The work queue keeps a request once, and also holds those that
wait for their turn to be retried.
-/

namespace PgProxy
set_option autoImplicit false

inductive Phase where
  | started
  | serviceRead (svc : Service)
  | routeRead (svc : Service) (found : Option PostgresRoute)

/-- `uids` are the UIDs the API server has given to Services. -/
structure Loop where
  services : Watched Service.key := {}
  routes : Watched PostgresRoute.key := {}
  uids : List GoString := []
  version : Nat := 0
  queue : List NamespacedName := []
  work : Option (NamespacedName × Phase) := none

/-- The first group is other people's writes. Users create and edit Services. They write
and delete routes by hand, without the label of generated routes; other controllers write
a route's specification and status. -/
inductive LoopAction where
  | createService (svc : Service)
  | editService (svc : Service)
  | handWrite (route : PostgresRoute)
  | touchRoute (key : NamespacedName) (spec : PostgresRouteSpec) (status : PostgresRouteStatus)
  | deleteRoute (key : NamespacedName)
  | syncServices
  | syncRoutes
  | serviceEvent
  | routeEvent
  | take (key : NamespacedName)
  | getService (fault : Option Failure)
  | getRoute (fault : Option Failure)
  | writeRoute (reply : Reply)

/-- `predicate.NewPredicateFuncs`: of an update, the filter sees the new object. -/
def newPredicateFuncs {α : Type} (filter : α → Bool) : Event α → Bool
  | .create obj => filter obj
  | .update _ new => filter new
  | .delete obj => filter obj

def ServiceDiscoveryReconciler.serviceRequests (r : ServiceDiscoveryReconciler)
    (event : Event Service) : List NamespacedName :=
  if newPredicateFuncs r.matchesSelector event then
    match event with
    | .create svc | .update _ svc | .delete svc => [svc.key]
  else []

/-- What the watch of owned routes enqueues: the controllers of the object, of an update
those of both versions. -/
def Machinery.routeRequests (m : Machinery) : Event PostgresRoute → List NamespacedName
  | .create route | .delete route => (m.ownerRequest route.metadata).toList
  | .update old new =>
    (m.ownerRequest old.metadata).toList ++ (m.ownerRequest new.metadata).toList

namespace Loop

def writeRoutes (s : Loop) : Option (Change PostgresRoute.key) → Loop
  | none => s
  | some c => { s with routes := s.routes.write c, version := s.version + 1 }

def finish (s : Loop) (key : NamespacedName) (o : Outcome) : Loop :=
  { s with work := none, queue := if o.retries then s.queue.insert key else s.queue }

structure Quiescent (s : Loop) : Prop where
  services : s.services.watch = [] ∧ s.services.events = []
  routes : s.routes.watch = [] ∧ s.routes.events = []
  queue : s.queue = []
  work : s.work = none

/-- A write to a route by somebody else: it does not make a generated route. -/
def Foreign (s : Loop) (c : Change PostgresRoute.key) : Prop :=
  ∀ route, c.result = some route → route.discoveryManaged = false ∨
    ∃ old, s.routes.store.get c.target = some old ∧
      old.metadata.labels = route.metadata.labels ∧
      old.metadata.ownerReferences = route.metadata.ownerReferences

theorem foreign_put {s : Loop} {route : PostgresRoute} (h : route.discoveryManaged = false) :
    s.Foreign (.put route) := by
  intro route' hroute'
  exact .inl (Option.some.inj hroute' ▸ h)

variable [GoFmt]

def step (r : ServiceDiscoveryReconciler) (m : Machinery) (s : Loop) : LoopAction → Option Loop
  | .createService svc =>
    if s.services.store.get svc.key = none ∧ svc.metadata.uid ∉ s.uids then
      some { s with
        services := s.services.write (.put svc)
        uids := svc.metadata.uid :: s.uids }
    else none
  | .editService svc =>
    match s.services.store.get svc.key with
    | none => none
    | some old =>
      if svc.metadata.uid = old.metadata.uid then
        some { s with services := s.services.write (.put svc) }
      else none
  | .handWrite route =>
    if route.discoveryManaged then none
    else some (s.writeRoutes (some (.put (commit.stamped (s.version + 1) route))))
  | .touchRoute key spec status =>
    match s.routes.store.get key with
    | none => none
    | some route =>
      some (s.writeRoutes
        (some (.put (commit.stamped (s.version + 1) { route with spec, status }))))
  | .deleteRoute key =>
    match s.routes.store.get key with
    | none => none
    | some _ => some (s.writeRoutes (some (.remove key)))
  | .syncServices => s.services.sync.map fun services => { s with services }
  | .syncRoutes => s.routes.sync.map fun routes => { s with routes }
  | .serviceEvent =>
    s.services.next.map fun (event, services) =>
      { s with services, queue := r.serviceRequests event ∪ s.queue }
  | .routeEvent =>
    s.routes.next.map fun (event, routes) =>
      { s with routes, queue := m.routeRequests event ∪ s.queue }
  | .take key =>
    match s.work with
    | some _ => none
    | none =>
      if key ∈ s.queue then
        some { s with queue := s.queue.erase key, work := some (key, .started) }
      else none
  | .getService fault =>
    match s.work with
    | some (key, .started) =>
      match ServiceDiscoveryReconciler.getService fault s.services.cache key with
      | .error o => some (s.finish key o)
      | .ok svc => some { s with work := some (key, .serviceRead svc) }
    | _ => none
  | .getRoute fault =>
    match s.work with
    | some (key, .serviceRead svc) =>
      match r.getRoute fault s.routes.cache key svc with
      | .error o => some (s.finish key o)
      | .ok found => some { s with work := some (key, .routeRead svc found) }
    | _ => none
  | .writeRoute reply =>
    match s.work with
    | some (key, .routeRead svc found) =>
      let (change, o) := r.writeRoute m (s.version + 1) s.routes.store reply key svc found
      some ((s.writeRoutes change).finish key o)
    | _ => none

inductive Move (r : ServiceDiscoveryReconciler) (m : Machinery) (s : Loop) :
    LoopAction → Loop → Prop
  | createService {svc : Service} (hnew : s.services.store.get svc.key = none)
      (huid : svc.metadata.uid ∉ s.uids) :
      Move r m s (.createService svc)
        { s with
          services := s.services.write (.put svc)
          uids := svc.metadata.uid :: s.uids }
  | editService {svc old : Service} (hold : s.services.store.get svc.key = some old)
      (huid : svc.metadata.uid = old.metadata.uid) :
      Move r m s (.editService svc) { s with services := s.services.write (.put svc) }
  | foreign {a : LoopAction} {c : Change PostgresRoute.key} (hc : s.Foreign c) :
      Move r m s a (s.writeRoutes (some c))
  | syncServices {services : Watched Service.key} (h : s.services.sync = some services) :
      Move r m s .syncServices { s with services }
  | syncRoutes {routes : Watched PostgresRoute.key} (h : s.routes.sync = some routes) :
      Move r m s .syncRoutes { s with routes }
  | serviceEvent {event : Event Service} {services : Watched Service.key}
      (h : s.services.next = some (event, services)) :
      Move r m s .serviceEvent
        { s with services, queue := r.serviceRequests event ∪ s.queue }
  | routeEvent {event : Event PostgresRoute} {routes : Watched PostgresRoute.key}
      (h : s.routes.next = some (event, routes)) :
      Move r m s .routeEvent { s with routes, queue := m.routeRequests event ∪ s.queue }
  | take {key : NamespacedName} (hwork : s.work = none) (hkey : key ∈ s.queue) :
      Move r m s (.take key)
        { s with queue := s.queue.erase key, work := some (key, .started) }
  | returned {a : LoopAction} {key : NamespacedName} {phase : Phase} {o : Outcome}
      (hwork : s.work = some (key, phase))
      (ho : o.retries ∨ s.services.cache.get key = none) : Move r m s a (s.finish key o)
  | serviceRead {a : LoopAction} {key : NamespacedName} {svc : Service}
      (hwork : s.work = some (key, .started)) (hsvc : s.services.cache.get key = some svc) :
      Move r m s a { s with work := some (key, .serviceRead svc) }
  | routeRead {a : LoopAction} {key : NamespacedName} {svc : Service}
      (hwork : s.work = some (key, .serviceRead svc)) :
      Move r m s a
        { s with
          work := some (key, .routeRead svc (s.routes.cache.get (generatedKey svc.key))) }
  | written {a : LoopAction} {key : NamespacedName} {svc : Service}
      {found : Option PostgresRoute} {reply : Reply}
      {change : Option (Change PostgresRoute.key)} {o : Outcome}
      (hwork : s.work = some (key, .routeRead svc found))
      (hwrite : r.writeRoute m (s.version + 1) s.routes.store reply key svc found =
        (change, o)) : Move r m s a ((s.writeRoutes change).finish key o)

theorem step_move {r : ServiceDiscoveryReconciler} {m : Machinery} {s t : Loop} {a : LoopAction}
    (h : step r m s a = some t) : Move r m s a t := by
  cases a with
  | createService svc =>
    obtain ⟨⟨hnew, huid⟩, ⟨⟩⟩ := Option.ite_none_right_eq_some.mp h
    exact .createService hnew huid
  | editService svc =>
    simp only [step] at h
    split at h
    · exact absurd h (by simp)
    · rename_i old hold
      obtain ⟨huid, ⟨⟩⟩ := Option.ite_none_right_eq_some.mp h
      exact .editService hold huid
  | handWrite route =>
    obtain ⟨hmanaged, ⟨⟩⟩ := Option.ite_none_left_eq_some.mp h
    exact .foreign (foreign_put (Bool.eq_false_of_not_eq_true hmanaged))
  | touchRoute key spec status =>
    simp only [step] at h
    split at h
    · exact absurd h (by simp)
    · rename_i route hroute
      obtain rfl := Option.some.inj h
      refine .foreign fun route' hroute' => .inr ⟨route, Store.get_own hroute, ?_⟩
      obtain rfl := Option.some.inj hroute'
      exact ⟨rfl, rfl⟩
  | deleteRoute key =>
    simp only [step] at h
    split at h
    · exact absurd h (by simp)
    · obtain rfl := Option.some.inj h
      exact .foreign fun route hroute => absurd hroute (by simp [Change.result])
  | syncServices =>
    obtain ⟨services, hsync, rfl⟩ := Option.map_eq_some_iff.mp h
    exact .syncServices hsync
  | syncRoutes =>
    obtain ⟨routes, hsync, rfl⟩ := Option.map_eq_some_iff.mp h
    exact .syncRoutes hsync
  | serviceEvent =>
    obtain ⟨⟨event, services⟩, hnext, rfl⟩ := Option.map_eq_some_iff.mp h
    exact .serviceEvent hnext
  | routeEvent =>
    obtain ⟨⟨event, routes⟩, hnext, rfl⟩ := Option.map_eq_some_iff.mp h
    exact .routeEvent hnext
  | take key =>
    simp only [step] at h
    split at h
    · exact absurd h (by simp)
    · rename_i hwork
      obtain ⟨hkey, ⟨⟩⟩ := Option.ite_none_right_eq_some.mp h
      exact .take hwork hkey
  | getService fault =>
    simp only [step] at h
    split at h
    · rename_i key hwork
      split at h
      · rename_i o ho
        obtain rfl := Option.some.inj h
        exact .returned hwork (getService_error ho)
      · rename_i svc hsvc
        obtain rfl := Option.some.inj h
        exact .serviceRead hwork (getService_ok.mp hsvc).2
    · exact absurd h (by simp)
  | getRoute fault =>
    simp only [step] at h
    split at h
    · rename_i key svc hwork
      split at h
      · rename_i o ho
        obtain rfl := Option.some.inj h
        exact .returned hwork (.inl (getRoute_error ho))
      · rename_i found hfound
        obtain rfl := Option.some.inj h
        obtain ⟨-, rfl⟩ := getRoute_ok.mp hfound
        exact .routeRead hwork
    · exact absurd h (by simp)
  | writeRoute reply =>
    simp only [step] at h
    split at h
    · rename_i key svc found hwork
      obtain rfl := Option.some.inj h
      exact .written hwork rfl
    · exact absurd h (by simp)

end Loop
end PgProxy
