import PgProxy.Controller.DiscoveryConvergence

/-!
# Discovery and other people's writes

The controller reads its cache and writes to the API server, and others write in between: they
also delete Services and create them anew. An update names the version it was made from, so it
replaces that version or fails: nobody's write is lost. A deletion names no version, and takes
whatever is stored by then.
-/

namespace PgProxy
set_option autoImplicit false

open ServiceDiscoveryReconciler

/-- Services are also deleted. What becomes of their routes is up to the garbage collector, which
deletes routes as anybody else may. And anybody may write a whole route, with any labels and
owners. -/
inductive ClusterAction where
  | loop (action : LoopAction)
  | deleteService (key : NamespacedName)
  | putRoute (route : PostgresRoute)

namespace Loop

def clusterStep [GoFmt] (r : ServiceDiscoveryReconciler) (m : Machinery) (s : Loop) :
    ClusterAction → Option Loop
  | .loop action => step r m s action
  | .deleteService key =>
    match s.services.store.get key with
    | none => none
    | some _ => some { s with services := s.services.write (.remove key) }
  | .putRoute route => some (s.writeRoutes (some (.put (commit.stamped (s.version + 1) route))))

theorem clusterStep_cases [GoFmt] {r : ServiceDiscoveryReconciler} {m : Machinery} {s t : Loop}
    {action : ClusterAction} (h : clusterStep r m s action = some t) :
    (∃ a, step r m s a = some t) ∨
      (∃ key, t = { s with services := s.services.write (.remove key) }) ∨
      ∃ route, action = .putRoute route ∧
        t = s.writeRoutes (some (.put (commit.stamped (s.version + 1) route))) := by
  cases action with
  | loop a => exact .inl ⟨a, h⟩
  | deleteService key =>
    simp only [clusterStep] at h
    split at h
    · exact absurd h (by simp)
    · exact .inr (.inl ⟨key, (Option.some.inj h).symm⟩)
  | putRoute route => exact .inr (.inr ⟨route, rfl, (Option.some.inj h).symm⟩)

/-! ## What the controller has seen -/

/-- What a step does to the routes and their informer. -/
inductive RoutesMove (s t : Loop) : Prop
  | same (hversion : t.version = s.version) (hroutes : t.routes = s.routes)
  | synced (hversion : t.version = s.version) (hsync : s.routes.sync = some t.routes)
  | handed {event : Event PostgresRoute} (hversion : t.version = s.version)
      (hnext : s.routes.next = some (event, t.routes))
  | wrote {c : Change PostgresRoute.key} (hversion : t.version = s.version + 1)
      (hroutes : t.routes = s.routes.write c)
      (hstamp : ∀ route, c.result = some route → route.version = s.version + 1)

/-- Copies of a route differ in their version from every other that was ever stored. -/
structure Versioned (s : Loop) : Prop where
  known : ∀ k route, s.routes.Holds k route →
    s.routes.Seen PostgresRoute.version s.version k route
  read : ∀ key svc old, s.work = some (key, .routeRead svc (some old)) →
    old.key = generatedKey svc.key ∧
      s.routes.Seen PostgresRoute.version s.version (generatedKey svc.key) old

section Races
variable {r : ServiceDiscoveryReconciler} {m : Machinery} {s t : Loop}

theorem versioned_start : Versioned {} where
  known k route h := by simp [Watched.Holds] at h
  read key svc old h := by simp at h

theorem changed_at {change : Option (Change PostgresRoute.key)} {k : NamespacedName}
    (h : (s.writeRoutes change).routes.store.get k ≠ s.routes.store.get k) :
    ∃ c, change = some c ∧ c.target = k := by
  cases change with
  | none => exact absurd rfl h
  | some c =>
    refine ⟨c, rfl, ?_⟩
    by_contra hne
    exact h (Store.get_apply_ne _ (Ne.symm hne))

variable [GoFmt]

theorem step_routes {a : LoopAction} (h : step r m s a = some t) : RoutesMove s t := by
  cases a with
  | createService svc =>
    obtain ⟨-, ⟨⟩⟩ := Option.ite_none_right_eq_some.mp h
    exact .same rfl rfl
  | handWrite route =>
    obtain ⟨-, ⟨⟩⟩ := Option.ite_none_left_eq_some.mp h
    refine .wrote rfl rfl fun route' hroute' => ?_
    obtain rfl := Option.some.inj hroute'
    rfl
  | touchRoute key spec status =>
    simp only [step] at h
    split at h
    · exact absurd h (by simp)
    · obtain rfl := Option.some.inj h
      refine .wrote rfl rfl fun route' hroute' => ?_
      obtain rfl := Option.some.inj hroute'
      rfl
  | deleteRoute key =>
    simp only [step] at h
    split at h
    · exact absurd h (by simp)
    · obtain rfl := Option.some.inj h
      exact .wrote rfl rfl fun route' hroute' => absurd hroute' (by simp [Change.result])
  | syncRoutes =>
    obtain ⟨routes, hsync, rfl⟩ := Option.map_eq_some_iff.mp h
    exact .synced rfl hsync
  | routeEvent =>
    obtain ⟨⟨event, routes⟩, hnext, rfl⟩ := Option.map_eq_some_iff.mp h
    exact .handed rfl hnext
  | syncServices | serviceEvent =>
    obtain ⟨_, -, rfl⟩ := Option.map_eq_some_iff.mp h
    exact .same rfl rfl
  | editService svc | take key =>
    simp only [step] at h
    split at h
    · exact absurd h (by simp)
    · obtain ⟨-, ⟨⟩⟩ := Option.ite_none_right_eq_some.mp h
      exact .same rfl rfl
  | getService fault | getRoute fault =>
    simp only [step] at h
    split at h
    · split at h <;> exact Option.some.inj h ▸ .same rfl rfl
    · exact absurd h (by simp)
  | writeRoute reply =>
    simp only [step] at h
    split at h
    · rename_i key svc found hwork
      obtain rfl := Option.some.inj h
      cases hchange : (r.writeRoute m (s.version + 1) s.routes.store reply key svc found).1 with
      | none => exact .same rfl rfl
      | some c => exact .wrote rfl rfl fun route hroute => version_of_commit hchange hroute
    · exact absurd h (by simp)

theorem read_step {a : LoopAction} {key : NamespacedName} {svc : Service} {old : PostgresRoute}
    (h : step r m s a = some t) (hread : t.work = some (key, .routeRead svc (some old))) :
    s.work = some (key, .routeRead svc (some old)) ∨
      s.routes.cache.get (generatedKey svc.key) = some old := by
  cases step_move h with
  | createService | editService | foreign | syncServices | syncRoutes | serviceEvent | routeEvent =>
    exact .inl hread
  | take | serviceRead | returned | written => exact absurd hread (by simp [finish])
  | routeRead hwork =>
    simp only [Option.some.injEq, Prod.mk.injEq, Phase.routeRead.injEq] at hread
    obtain ⟨rfl, rfl, hfound⟩ := hread
    exact .inr hfound

omit [GoFmt] in
theorem Versioned.move (h : s.Versioned) (hmove : RoutesMove s t)
    (hread : ∀ key svc old, t.work = some (key, .routeRead svc (some old)) →
      s.work = some (key, .routeRead svc (some old)) ∨
        s.routes.cache.get (generatedKey svc.key) = some old) : t.Versioned := by
  have hseen : ∀ k route, s.routes.Seen PostgresRoute.version s.version k route →
      t.routes.Seen PostgresRoute.version t.version k route := by
    intro k route hroute
    cases hmove with
    | same hversion hroutes => rwa [hversion, hroutes]
    | synced hversion hsync =>
      obtain ⟨-, -, hstore, -⟩ := Watched.sync_eq_some hsync
      rw [hversion]
      exact hroute.congr hstore
    | handed hversion hnext =>
      obtain ⟨-, hstore, -⟩ := Watched.next_eq_some hnext
      rw [hversion]
      exact hroute.congr hstore
    | wrote hversion hroutes hstamp =>
      rw [hversion, hroutes]
      exact hroute.write hstamp
  refine ⟨fun k route hroute => ?_, fun key svc old hwork => ?_⟩
  · cases hmove with
    | same hversion hroutes => exact hseen k route (h.known k route (hroutes ▸ hroute))
    | synced hversion hsync =>
      exact hseen k route (h.known k route (Watched.holds_of_sync hsync hroute))
    | handed hversion hnext =>
      exact hseen k route (h.known k route (Watched.holds_of_next hnext hroute))
    | wrote hversion hroutes hstamp =>
      rw [hroutes] at hroute
      rcases Watched.holds_of_write hroute with hold | ⟨rfl, hnew⟩
      · exact hseen k route (h.known k route hold)
      · rw [hversion, hroutes]
        exact Watched.seen_write hnew (hstamp route hnew)
  · rcases hread key svc old hwork with hbefore | hcached
    · obtain ⟨hkey, hold⟩ := h.read key svc old hbefore
      exact ⟨hkey, hseen _ old hold⟩
    · exact ⟨Store.key_of_get hcached, hseen _ old (h.known _ old (.inl hcached))⟩

theorem versioned_step {action : ClusterAction} (h : s.Versioned)
    (hstep : clusterStep r m s action = some t) : t.Versioned := by
  rcases clusterStep_cases hstep with ⟨a, hstep⟩ | ⟨key, rfl⟩ | ⟨route, -, rfl⟩
  · exact h.move (step_routes hstep) fun _ _ _ => read_step hstep
  · exact ⟨h.known, h.read⟩
  · refine h.move (.wrote rfl rfl fun route' hroute' => ?_) fun _ _ _ => .inl
    obtain rfl := Option.some.inj hroute'
    rfl

theorem versioned_of_run {actions : List ClusterAction}
    (hrun : exec (clusterStep r m) {} actions = some s) : s.Versioned :=
  exec_invariant versioned_step versioned_start hrun

/-! ## One Reconcile -/

def cluster (s : Loop) : Cluster where
  services := s.services.store
  routes := s.routes.store
  version := s.version

/-- In every state that is reached the informers have caches that a Reconcile may read. -/
def Versioned.caches (h : s.Versioned) : Caches s.cluster where
  services := s.services.cache
  routes := s.routes.cache
  versioned := fun {k old current} hold hcurrent hversion =>
    ((h.known k old (.inl hold)).same current hcurrent hversion.symm).symm

/-- If nobody else acts in between, the calls of the worker come to what `reconcileFrom` says. -/
theorem reconcile_uninterrupted (h : s.Versioned) {key : NamespacedName}
    (hwork : s.work = some (key, .started)) (calls : Calls) :
    ∃ actions t, actions <+: [.getService calls.getService, .getRoute calls.getRoute,
        .writeRoute calls.write] ∧
      exec (step r m) s actions = some t ∧ t.work = none ∧
      t.cluster = (r.reconcileFrom m calls h.caches key).1 ∧
      t.queue = if (r.reconcileFrom m calls h.caches key).2.retries then s.queue.insert key
        else s.queue := by
  obtain ⟨after, o, hafter⟩ : ∃ after o, r.reconcileFrom m calls h.caches key = (after, o) :=
    ⟨_, _, rfl⟩
  rw [hafter]
  unfold reconcileFrom at hafter
  dsimp only [Versioned.caches] at hafter
  split at hafter
  · rename_i hservice
    obtain ⟨rfl, rfl⟩ := Prod.mk.inj hafter
    refine ⟨[.getService calls.getService], s.finish key _, by simp, exec_single ?_, rfl, rfl, rfl⟩
    simp [step, hwork, hservice]
  · rename_i svc hservice
    have hfirst : step r m s (.getService calls.getService) =
        some { s with work := some (key, .serviceRead svc) } := by
      simp [step, hwork, hservice]
    split at hafter
    · rename_i hroute
      obtain ⟨rfl, rfl⟩ := Prod.mk.inj hafter
      refine ⟨[.getService calls.getService, .getRoute calls.getRoute], s.finish key _, by simp,
        exec_cons.mpr ⟨_, hfirst, exec_single ?_⟩, rfl, rfl, rfl⟩
      simp [step, hroute, finish]
    · rename_i found hroute
      obtain ⟨change, o', hwrite⟩ : ∃ change o', r.writeRoute m (s.version + 1) s.routes.store
          calls.write key svc found = (change, o') := ⟨_, _, rfl⟩
      dsimp only [cluster] at hafter
      rw [hwrite] at hafter
      obtain ⟨rfl, rfl⟩ := Prod.mk.inj hafter
      let read : Loop := { s with work := some (key, .routeRead svc found) }
      have hlast : step r m read (.writeRoute calls.write) =
          some ((read.writeRoutes change).finish key o') := by
        simp [step, read, hwrite]
      refine ⟨_, _, List.prefix_rfl, exec_cons.mpr ⟨_, hfirst, exec_cons.mpr
        ⟨read, by simp [step, read, hroute], exec_single hlast⟩⟩, rfl, ?_⟩
      cases change <;> exact ⟨rfl, rfl⟩

/-! ## What a write finds -/

/-- In every run, and whatever others write in between: a write of the controller that changes
a stored route stores what the mutation makes of that very route, with its status, or it
deletes the route. What it deletes need not be what it read: it read a route that discovery
generated for the Service. -/
theorem discovery_loses_no_update {actions : List ClusterAction} {reply : Reply}
    {k : NamespacedName} {route : PostgresRoute}
    (hrun : exec (clusterStep r m) {} actions = some s)
    (hstep : clusterStep r m s (.loop (.writeRoute reply)) = some t)
    (hroute : s.routes.store.get k = some route)
    (hchanged : t.routes.store.get k ≠ some route) :
    ∃ key svc old, s.work = some (key, .routeRead svc (some old)) ∧ k = generatedKey svc.key ∧
      ((r.outOfScope svc = false ∧ old = route ∧ ∃ new, r.mutate m svc route = .ok new ∧
          t.routes.store.get k =
            some { commit.stamped (s.version + 1) new with status := route.status }) ∨
        (r.outOfScope svc ∧ old.discoveryManaged ∧ t.routes.store.get k = none)) := by
  simp only [clusterStep, step] at hstep
  split at hstep
  · rename_i key svc found hwork
    obtain rfl := Option.some.inj hstep
    obtain ⟨c, hchange, rfl⟩ := changed_at (hroute.symm ▸ hchanged)
    have hafter : (s.writeRoutes (some c)).routes.store.get c.target = c.result :=
      Store.get_apply_self _ c
    obtain ⟨old, rfl, hover⟩ := overwrites_of_writeRoute hchange hroute
    obtain ⟨hkey, hseen⟩ := (versioned_of_run hrun).read key svc old hwork
    have htarget : c.target = generatedKey svc.key := hover.target.trans hkey
    refine ⟨key, svc, old, hwork, htarget, ?_⟩
    rw [hchange]
    cases hover with
    | updated hscope hversion hmutate =>
      obtain rfl : route = old := hseen.same route (htarget ▸ hroute) hversion
      exact .inl ⟨hscope, rfl, _, hmutate, hafter⟩
    | deleted hscope hmanaged _ => exact .inr ⟨hscope, hmanaged, hafter⟩
  · exact absurd hstep (by simp)

end Races

def seizedRoute : PostgresRoute where
  metadata :=
    { handWrittenRoute.metadata with
      labels := (∅ : GoMap GoString GoString).insert managedByLabel (str "helm") }
  spec := handWrittenRoute.spec

/-- The Service leaves discovery, and a user takes the route over after it was read. -/
def seizeRun : List ClusterAction :=
  List.map .loop (discoverRun ++ [.editService ignoredService, .syncServices, .serviceEvent,
    .take sampleService.key, .getService none, .getRoute none, .handWrite seizedRoute])

theorem discovery_loses_no_update_seized :
    ∃ s t route key svc old,
      exec (@clusterStep plainQuote sampleReconciler sampleMachinery) {} seizeRun = some s ∧
      @clusterStep plainQuote sampleReconciler sampleMachinery s (.loop (.writeRoute .done)) =
        some t ∧
      s.routes.store.get seizedRoute.key = some route ∧ route.discoveryManaged = false ∧
      t.routes.store.get seizedRoute.key = none ∧
      s.work = some (key, .routeRead svc (some old)) ∧ old.discoveryManaged := by
  obtain ⟨s, t, route, hrun, hstep, hroute, hmanaged, hgone⟩ : ∃ s t route,
      exec (@clusterStep plainQuote sampleReconciler sampleMachinery) {} seizeRun = some s ∧
      @clusterStep plainQuote sampleReconciler sampleMachinery s (.loop (.writeRoute .done)) =
        some t ∧
      s.routes.store.get seizedRoute.key = some route ∧ route.discoveryManaged = false ∧
      t.routes.store.get seizedRoute.key = none :=
    ⟨_, _, _, rfl, rfl, rfl, by decide, rfl⟩
  obtain ⟨key, svc, old, hwork, -, ⟨-, -, new, -, hnew⟩ | ⟨-, hold, -⟩⟩ :=
    @discovery_loses_no_update sampleReconciler sampleMachinery s t plainQuote _ _ _ _ hrun hstep
      hroute (by simp [hgone])
  · exact absurd (hgone.symm.trans hnew) (by simp)
  · exact ⟨s, t, route, key, svc, old, hrun, hstep, hroute, hmanaged, hgone, hwork, hold⟩

end Loop
end PgProxy
