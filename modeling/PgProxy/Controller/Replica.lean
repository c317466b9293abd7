import PgProxy.Controller.Discovery
import PgProxy.Controller.RouteTable
import PgProxy.Controller.Status
import PgProxy.Lib.Runs
import PgProxy.Registry.ClientResolver

/-!
# A replica and its status reconciler

The API server's routes and the informer of one replica, its table builder, and the
status controller with its work queue and its one worker. The builder runs on every
replica; the controller starts when the replica is elected, and its watch then begins
with a list of the cache. A Reconcile reads the route, loads the snapshot and patches the
status, one step each. The work queue keeps a request once, and also holds those that
wait for their turn to be retried.
-/

namespace PgProxy
set_option autoImplicit false

variable {Pool : Type}

/-- `merge` applies the difference between two statuses, which is what the patch of
`client.MergeFrom` consists of, to a third one. -/
structure StatusClient where
  merge : (base desired current : PostgresRouteStatus) → PostgresRouteStatus
  merge_base : ∀ base desired, merge base desired base = desired
  notFoundText : NamespacedName → GoString

namespace StatusClient

def get (client : StatusClient) (fault : Option Failure) (cache : Routes)
    (key : NamespacedName) : Except GoError PostgresRoute :=
  match fault with
  | some f => .error f.err
  | none => getStored client.notFoundText cache key

/-- The change a patch makes to the cluster, and the error its caller sees. The patch
names neither a version nor a UID, and one that changes nothing is not a write. -/
def patch (client : StatusClient) (version : Nat) (routes : Routes) (reply : Reply)
    (base : PostgresRoute) (desired : PostgresRouteStatus) :
    Option (Change PostgresRoute.key) × Option GoError :=
  match routes.get base.key with
  | none => (none, some (.api .notFound (client.notFoundText base.key)))
  | some current =>
    match reply with
    | .refused f => (none, some f.err)
    | .done | .lost _ =>
      let status := client.merge base.status desired current.status
      (if status = current.status then none
        else some (.put (commit.stamped version { current with status })), reply.err)

theorem get_ok (client : StatusClient) {fault : Option Failure} {cache : Routes}
    {key : NamespacedName} {route : PostgresRoute}
    (h : client.get fault cache key = .ok route) : cache.get key = some route := by
  cases fault with
  | some f => simp [get] at h
  | none =>
    simp only [get, getStored] at h
    split at h
    · cases h
    · rename_i found hfound
      cases h
      exact hfound

theorem get_error (client : StatusClient) {fault : Option Failure} {cache : Routes}
    {key : NamespacedName} {e : GoError} (h : client.get fault cache key = .error e) :
    e.isNotFound = false ∨ cache.get key = none := by
  cases fault with
  | some f =>
    cases h
    exact Or.inl f.found
  | none =>
    simp only [get, getStored] at h
    split at h
    · exact Or.inr ‹_›
    · cases h

theorem patch_cases (client : StatusClient) {version : Nat} {routes : Routes} {reply : Reply}
    {base : PostgresRoute} {desired : PostgresRouteStatus}
    {change : Option (Change PostgresRoute.key)} {err : Option GoError}
    (h : client.patch version routes reply base desired = (change, err)) :
    (routes.get base.key = none ∧ change = none ∧ ∃ e, err = some e ∧ e.isConflict = false) ∨
    (∃ f, reply = .refused f ∧ change = none ∧ err = some f.err) ∨
    ∃ current, routes.get base.key = some current ∧ err = reply.err ∧
      ((client.merge base.status desired current.status = current.status ∧ change = none) ∨
        change = some (.put (commit.stamped version
          { current with status := client.merge base.status desired current.status }))) := by
  simp only [patch] at h
  split at h
  · cases h
    exact Or.inl ⟨‹_›, rfl, _, rfl, rfl⟩
  · rename_i current hcurrent
    split at h
    · rename_i f
      cases h
      exact Or.inr (Or.inl ⟨f, rfl, rfl, rfl⟩)
    all_goals
      simp only [Prod.mk.injEq] at h
      obtain ⟨hchange, rfl⟩ := h
      refine Or.inr (Or.inr ⟨current, hcurrent, rfl, ?_⟩)
      split at hchange
      · exact Or.inl ⟨‹_›, hchange.symm⟩
      · exact Or.inr hchange.symm

end StatusClient

/-- The work queue takes the request back. -/
def StatusReconcile.retries (o : StatusReconcile) : Bool := o.requeueAfter || o.err.isSome

section Reconcile
variable [GoFmt] {setter : ConditionSetter} {snapshot : Snapshot Pool} {key : NamespacedName}
variable {route : PostgresRoute}

theorem reconcileStatus_patched {desired : PostgresRouteStatus}
    (h : (reconcileStatus setter snapshot key (.ok route) none).patch = some desired) :
    ∃ d, snapshot.decision key = some d ∧ desired = desiredStatus setter route d ∧
      ∀ e, e.isConflict = false →
        (reconcileStatus setter snapshot key (.ok route) (some e)).retries = true := by
  simp only [reconcileStatus] at h ⊢
  split at h
  · cases h
  · split at h
    · cases h
    · rename_i hlive _ d hd
      split at h
      · cases h
      · rename_i hdiffers
        refine ⟨d, hd, (Option.some.inj h).symm, fun e he => ?_⟩
        simp [hlive, hdiffers, he, StatusReconcile.retries]

theorem reconcileStatus_unpatched (live : route.metadata.beingDeleted = false)
    (h : (reconcileStatus setter snapshot key (.ok route) none).patch = none) :
    (reconcileStatus setter snapshot key (.ok route) none).retries = true ∨
    ∃ d, snapshot.decision key = some d ∧
      equalStatus route.status (desiredStatus setter route d) = true ∧
      reconcileStatus setter snapshot key (.ok route) none = {} := by
  cases hd : snapshot.decision key with
  | none => exact Or.inl (by simp [reconcileStatus, live, hd, StatusReconcile.retries])
  | some d =>
    refine Or.inr ⟨d, rfl, ?_⟩
    by_cases heq : equalStatus route.status (desiredStatus setter route d) = true
    · exact ⟨heq, by simp [reconcileStatus, live, hd, heq]⟩
    · simp [reconcileStatus, live, hd, heq] at h

end Reconcile

inductive StatusPhase (Pool : Type) where
  | started
  | read (route : PostgresRoute) (live : route.metadata.beingDeleted = false)
  | loaded (route : PostgresRoute) (snapshot : Snapshot Pool)

/-- `uids` are the UIDs the API server has given to routes. -/
structure Replica (Pool : Type) where
  routes : Watched PostgresRoute.key := {}
  uids : List GoString := []
  version : Nat := 0
  table : RouteTable Pool
  elected : Bool := false
  queue : List NamespacedName := []
  work : Option (NamespacedName × StatusPhase Pool) := none

/-- The first group is other people's writes, the second what the informers, the builder
and the controller do. `notice` is a change of a Service or a Secret, `elect` carries the
order in which the cache lists its routes. -/
inductive ReplicaAction (Pool : Type) where
  | createRoute (route : PostgresRoute)
  | editRoute (key : NamespacedName) (spec : PostgresRouteSpec)
  | terminateRoute (key : NamespacedName) (time : Int)
  | deleteRoute (key : NamespacedName)
  | writeStatus (key : NamespacedName) (status : PostgresRouteStatus)
  | sync
  | notice (kind : ObjectKind)
  | table (action : TableAction Pool)
  | elect (routes : List PostgresRoute)
  | routeEvent
  | statusEvent
  | take (key : NamespacedName)
  | get (fault : Option Failure)
  | load
  | patch (reply : Reply)

/-- `handler.EnqueueRequestForObject`. -/
def routeRequests : Event PostgresRoute → List NamespacedName
  | .create route | .update _ route | .delete route => [route.key]

namespace PostgresRoute

/-- What the API server stores for a new object. -/
def created (route : PostgresRoute) : PostgresRoute :=
  { route with
    metadata := { route.metadata with generation := 1, deletionTimestamp := none }
    status := {} }

/-- A change of the specification raises the generation. -/
def edited (route : PostgresRoute) (spec : PostgresRouteSpec) : PostgresRoute :=
  { route with
    spec
    metadata := { route.metadata with generation := route.metadata.generation + 1 } }

/-- So does the beginning of a deletion. -/
def terminated (route : PostgresRoute) (time : Int) : PostgresRoute :=
  { route with
    metadata := { route.metadata with
      generation := route.metadata.generation + 1
      deletionTimestamp := some time } }

/-- Another version of the same object, with the same status. -/
structure SameStatus (old new : PostgresRoute) : Prop where
  key : new.key = old.key
  uid : new.metadata.uid = old.metadata.uid
  status : new.status = old.status

end PostgresRoute

namespace Replica

def start (b : RouteTableBuilder) : Replica Pool := { table := RouteTable.start b }

def write (s : Replica Pool) (c : Change PostgresRoute.key) : Replica Pool :=
  { s with routes := s.routes.write c, version := s.version + 1 }

def put (s : Replica Pool) (route : PostgresRoute) : Replica Pool :=
  s.write (.put (commit.stamped (s.version + 1) route))

def writeAny (s : Replica Pool) : Option (Change PostgresRoute.key) → Replica Pool
  | none => s
  | some c => s.write c

def finish (s : Replica Pool) (key : NamespacedName) (o : StatusReconcile) : Replica Pool :=
  { s with work := none, queue := if o.retries then s.queue.insert key else s.queue }

section Step
variable [GoFmt]

/-- A conflict is reported only if the object is no longer the one that was read. -/
def step (b : RouteTableBuilder) (setter : ConditionSetter) (client : StatusClient)
    (s : Replica Pool) : ReplicaAction Pool → Option (Replica Pool)
  | .createRoute route =>
    if s.routes.store.get route.key = none ∧ ¬ s.uids.contains route.metadata.uid then
      some { s.put route.created with uids := route.metadata.uid :: s.uids }
    else none
  | .editRoute key spec =>
    match s.routes.store.get key with
    | none => none
    | some route => if spec = route.spec then none else some (s.put (route.edited spec))
  | .terminateRoute key time =>
    match s.routes.store.get key with
    | none => none
    | some route => some (s.put (route.terminated time))
  | .deleteRoute key =>
    match s.routes.store.get key with
    | none => none
    | some _ => some (s.write (.remove key))
  | .writeStatus key status =>
    match s.routes.store.get key with
    | none => none
    | some route => some (s.put { route with status })
  | .sync =>
    s.routes.sync.map fun routes =>
      { s with routes, table := s.table.cacheChanged .postgresRoute }
  | .notice kind =>
    if kind ∈ b.watched ∧ kind ≠ .postgresRoute then
      some { s with table := s.table.cacheChanged kind }
    else none
  | .table action =>
    (s.table.step b s.routes.cache action).map fun table => { s with table }
  | .elect routes =>
    if s.elected = false ∧ s.routes.cache.Lists routes then
      some { s with
        elected := true
        routes := s.routes.discard
        queue := routes.map PostgresRoute.key }
    else none
  | .routeEvent =>
    if s.elected then
      s.routes.next.map fun (event, routes) =>
        { s with routes, queue := routeRequests event ∪ s.queue }
    else none
  | .statusEvent =>
    match s.table.events with
    | [] => none
    | key :: rest =>
      if s.elected then
        some { s with table := { s.table with events := rest }, queue := s.queue.insert key }
      else none
  | .take key =>
    match s.work with
    | some _ => none
    | none =>
      if key ∈ s.queue then
        some { s with queue := s.queue.erase key, work := some (key, .started) }
      else none
  | .get fault =>
    match s.work with
    | some (key, .started) =>
      let got := client.get fault s.routes.cache key
      match got with
      | .ok route =>
        if live : route.metadata.beingDeleted = false then
          some { s with work := some (key, .read route live) }
        else some (s.finish key (reconcileStatus setter s.table.store key got none))
      | .error _ => some (s.finish key (reconcileStatus setter s.table.store key got none))
    | _ => none
  | .load =>
    match s.work with
    | some (key, .read route _) =>
      let o := reconcileStatus setter s.table.store key (.ok route) none
      match o.patch with
      | none => some (s.finish key o)
      | some _ => some { s with work := some (key, .loaded route s.table.store) }
    | _ => none
  | .patch reply =>
    match s.work with
    | some (key, .loaded route snapshot) =>
      match (reconcileStatus setter snapshot key (.ok route) none).patch with
      | none => none
      | some desired =>
        if reply.err.any GoError.isConflict ∧ s.routes.store.get key = some route then none
        else
          let (change, err) := client.patch (s.version + 1) s.routes.store reply route desired
          some ((s.writeAny change).finish key
            (reconcileStatus setter snapshot key (.ok route) err))
    | _ => none

inductive Move (b : RouteTableBuilder) (setter : ConditionSetter) (client : StatusClient)
    (s : Replica Pool) : ReplicaAction Pool → Replica Pool → Prop
  | created {route : PostgresRoute} (hnew : s.routes.store.get route.key = none)
      (huid : ¬ s.uids.contains route.metadata.uid) :
      Move b setter client s (.createRoute route)
        { s.put route.created with uids := route.metadata.uid :: s.uids }
  | changed {a : ReplicaAction Pool} {old new : PostgresRoute}
      (hold : s.routes.store.get old.key = some old) (hsame : old.SameStatus new) :
      Move b setter client s a (s.put new)
  | removed {key : NamespacedName} :
      Move b setter client s (.deleteRoute key) (s.write (.remove key))
  | statusWritten {key : NamespacedName} {route : PostgresRoute} {status : PostgresRouteStatus} :
      Move b setter client s (.writeStatus key status) (s.put { route with status })
  | synced {routes : Watched PostgresRoute.key} (h : s.routes.sync = some routes) :
      Move b setter client s .sync
        { s with routes, table := s.table.cacheChanged .postgresRoute }
  | noticed {kind : ObjectKind} :
      Move b setter client s (.notice kind) { s with table := s.table.cacheChanged kind }
  | table {action : TableAction Pool} {table : RouteTable Pool}
      (h : s.table.step b s.routes.cache action = some table) :
      Move b setter client s (.table action) { s with table }
  | elected {routes : List PostgresRoute} (hlists : s.routes.cache.Lists routes) :
      Move b setter client s (.elect routes)
        { s with
          elected := true
          routes := s.routes.discard
          queue := routes.map PostgresRoute.key }
  | routeEvent {event : Event PostgresRoute} {routes : Watched PostgresRoute.key}
      (h : s.routes.next = some (event, routes)) :
      Move b setter client s .routeEvent
        { s with routes, queue := routeRequests event ∪ s.queue }
  | statusEvent {key : NamespacedName} {rest : List NamespacedName}
      (hevents : s.table.events = key :: rest) :
      Move b setter client s .statusEvent
        { s with table := { s.table with events := rest }, queue := s.queue.insert key }
  | taken {key : NamespacedName} (hwork : s.work = none) :
      Move b setter client s (.take key)
        { s with queue := s.queue.erase key, work := some (key, .started) }
  | skipped {a : ReplicaAction Pool} {key : NamespacedName} {o : StatusReconcile}
      (hwork : s.work = some (key, .started))
      (ho : o.retries = true ∨ ∀ route, s.routes.cache.get key = some route →
        route.metadata.beingDeleted = true) :
      Move b setter client s a (s.finish key o)
  | read {a : ReplicaAction Pool} {key : NamespacedName} {route : PostgresRoute}
      (hwork : s.work = some (key, .started)) (hget : s.routes.cache.get key = some route)
      (live : route.metadata.beingDeleted = false) :
      Move b setter client s a { s with work := some (key, .read route live) }
  | unknown {key : NamespacedName} {route : PostgresRoute}
      {live : route.metadata.beingDeleted = false} {o : StatusReconcile}
      (hwork : s.work = some (key, .read route live)) (ho : o.retries = true) :
      Move b setter client s .load (s.finish key o)
  | upToDate {key : NamespacedName} {route : PostgresRoute}
      {live : route.metadata.beingDeleted = false} {d : Decision}
      (hwork : s.work = some (key, .read route live)) (hd : s.table.store.decision key = some d)
      (heq : equalStatus route.status (desiredStatus setter route d) = true) :
      Move b setter client s .load (s.finish key {})
  | loaded {key : NamespacedName} {route : PostgresRoute}
      {live : route.metadata.beingDeleted = false} {d : Decision}
      (hwork : s.work = some (key, .read route live)) (hd : s.table.store.decision key = some d) :
      Move b setter client s .load { s with work := some (key, .loaded route s.table.store) }
  | patched {key : NamespacedName} {route : PostgresRoute} {snapshot : Snapshot Pool}
      {d : Decision} {reply : Reply} {change : Option (Change PostgresRoute.key)}
      {err : Option GoError} {o : StatusReconcile}
      (hwork : s.work = some (key, .loaded route snapshot)) (hd : snapshot.decision key = some d)
      (hconflict : s.routes.store.get key = some route → reply.err.any GoError.isConflict = false)
      (hpatch : client.patch (s.version + 1) s.routes.store reply route
        (desiredStatus setter route d) = (change, err))
      (ho : ∀ e, err = some e → e.isConflict = false → o.retries = true) :
      Move b setter client s (.patch reply) ((s.writeAny change).finish key o)

theorem step_move {b : RouteTableBuilder} {setter : ConditionSetter} {client : StatusClient}
    {s t : Replica Pool} {a : ReplicaAction Pool} (h : step b setter client s a = some t) :
    Move b setter client s a t := by
  cases a with
  | createRoute route =>
    obtain ⟨⟨hnew, huid⟩, ⟨⟩⟩ := Option.ite_none_right_eq_some.mp h
    exact .created hnew huid
  | editRoute key spec =>
    simp only [step] at h
    split at h
    · simp at h
    · rename_i route hroute
      obtain ⟨-, ⟨⟩⟩ := Option.ite_none_left_eq_some.mp h
      exact .changed (Store.get_own hroute) ⟨rfl, rfl, rfl⟩
  | terminateRoute key time =>
    simp only [step] at h
    split at h
    · simp at h
    · rename_i route hroute
      obtain rfl := Option.some.inj h
      exact .changed (Store.get_own hroute) ⟨rfl, rfl, rfl⟩
  | deleteRoute key =>
    simp only [step] at h
    split at h
    · simp at h
    · obtain rfl := Option.some.inj h
      exact .removed
  | writeStatus key status =>
    simp only [step] at h
    split at h
    · simp at h
    · obtain rfl := Option.some.inj h
      exact .statusWritten
  | sync =>
    obtain ⟨routes, hsync, rfl⟩ := Option.map_eq_some_iff.mp h
    exact .synced hsync
  | notice kind =>
    obtain ⟨-, ⟨⟩⟩ := Option.ite_none_right_eq_some.mp h
    exact .noticed
  | table action =>
    obtain ⟨table, htable, rfl⟩ := Option.map_eq_some_iff.mp h
    exact .table htable
  | elect routes =>
    obtain ⟨⟨-, hlists⟩, ⟨⟩⟩ := Option.ite_none_right_eq_some.mp h
    exact .elected hlists
  | routeEvent =>
    obtain ⟨-, hmap⟩ := Option.ite_none_right_eq_some.mp h
    obtain ⟨⟨event, routes⟩, hnext, rfl⟩ := Option.map_eq_some_iff.mp hmap
    exact .routeEvent hnext
  | statusEvent =>
    simp only [step] at h
    split at h
    · simp at h
    · rename_i key rest hevents
      obtain ⟨-, ⟨⟩⟩ := Option.ite_none_right_eq_some.mp h
      exact .statusEvent hevents
  | take key =>
    simp only [step] at h
    split at h
    · simp at h
    · rename_i hwork
      obtain ⟨-, ⟨⟩⟩ := Option.ite_none_right_eq_some.mp h
      exact .taken hwork
  | get fault =>
    simp only [step] at h
    split at h
    · rename_i key hwork
      split at h
      · rename_i route hgot
        have hroute := client.get_ok hgot
        split at h
        · rename_i live
          obtain rfl := Option.some.inj h
          exact .read hwork hroute live
        · rename_i hdeleted
          obtain rfl := Option.some.inj h
          refine .skipped hwork (Or.inr fun route' hroute' => ?_)
          obtain rfl := Option.some.inj (hroute.symm.trans hroute')
          exact Bool.eq_true_of_not_eq_false hdeleted
      · rename_i e hgot
        obtain rfl := Option.some.inj h
        refine .skipped hwork ?_
        rcases client.get_error hgot with hfound | hnone
        · exact Or.inl (by simp [hgot, reconcileStatus, hfound, StatusReconcile.retries])
        · exact Or.inr fun route hroute => by simp [hnone] at hroute
    · simp at h
  | load =>
    simp only [step] at h
    split at h
    · rename_i key route live hwork
      split at h
      · rename_i hpatch
        obtain rfl := Option.some.inj h
        rcases reconcileStatus_unpatched live hpatch with hretries | ⟨d, hd, heq, ho⟩
        · exact .unknown hwork hretries
        · rw [ho]
          exact .upToDate hwork hd heq
      · rename_i desired hpatch
        obtain rfl := Option.some.inj h
        obtain ⟨d, hd, -, -⟩ := reconcileStatus_patched hpatch
        exact .loaded hwork hd
    · simp at h
  | patch reply =>
    simp only [step] at h
    split at h
    · rename_i key route snapshot hwork
      split at h
      · simp at h
      · rename_i desired hdesired
        obtain ⟨hguard, ⟨⟩⟩ := Option.ite_none_left_eq_some.mp h
        obtain ⟨d, hd, rfl, hretries⟩ := reconcileStatus_patched hdesired
        rcases hpatch : client.patch (s.version + 1) s.routes.store reply route
          (desiredStatus setter route d) with ⟨change, err⟩
        refine .patched hwork hd (fun hsame => ?_) hpatch fun e he hconflict => ?_
        · exact Bool.eq_false_of_not_eq_true fun hc => hguard ⟨hc, hsame⟩
        · exact he ▸ hretries e hconflict
    · simp at h

end Step

/-- A patch that carries the fields in which the two statuses differ. -/
def sampleClient : StatusClient where
  merge base desired current :=
    let pick {α : Type} [DecidableEq α] (field : PostgresRouteStatus → α) : α :=
      if field desired = field base then field current else field desired
    { observedGeneration := pick PostgresRouteStatus.observedGeneration
      database := pick PostgresRouteStatus.database
      endpoint := pick PostgresRouteStatus.endpoint
      conflictingRoute := pick PostgresRouteStatus.conflictingRoute
      conditions := pick PostgresRouteStatus.conditions }
  merge_base base desired := by
    have hpick {α : Type} (x y : α) [Decidable (x = y)] : (if x = y then y else x) = x := by
      split
      · exact Eq.symm ‹_›
      · rfl
    simp only [hpick]
  notFoundText _ := str "not found"

end Replica
end PgProxy
