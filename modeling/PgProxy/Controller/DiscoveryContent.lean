import PgProxy.Controller.DiscoveredPort
import PgProxy.Controller.DiscoveryRaces

/-!
# What discovery converges to

Once the controller has nothing left to do, every Service in scope has its route, and the route
reads as the mutation writes it, whatever others did to either of them before. The invariant
looks at the caches alone: they agree, or somebody changed one of them, and that makes another
Reconcile due.
-/

namespace PgProxy
set_option autoImplicit false

open ServiceDiscoveryReconciler

theorem ServiceDiscoveryReconciler.matches_of_inScope {r : ServiceDiscoveryReconciler}
    {svc : Service} (h : r.outOfScope svc = false) : r.matchesSelector svc := by
  by_contra hno
  simp [outOfScope, hno] at h

namespace Loop

/-- `c` is the Service in the cache, if that one is in scope. -/
def StillCached (r : ServiceDiscoveryReconciler) (k : NamespacedName) (c : Service) (s : Loop) :
    Prop :=
  ∀ now, s.services.cache.get k = some now → r.outOfScope now = false → now = c

section Correcting
variable {r : ServiceDiscoveryReconciler} {m : Machinery} {k : NamespacedName} {s t : Loop}

theorem due_serviceEvent {event : Event Service} {services : Watched Service.key}
    (hnext : s.services.next = some (event, services)) (h : s.Due r m k) :
    ({ s with services, queue := r.serviceRequests event ∪ s.queue } : Loop).Due r m k := by
  rcases h with hqueue | hpending | hpending
  · exact .inl (List.mem_union_iff.mpr (.inr hqueue))
  · rcases hpending.next hnext with hconcerns | hrest
    · exact .inl (List.mem_union_iff.mpr (.inl (mem_serviceRequests hconcerns)))
    · exact .inr (.inl hrest)
  · exact .inr (.inr hpending)

theorem due_routeEvent {event : Event PostgresRoute} {routes : Watched PostgresRoute.key}
    (hnext : s.routes.next = some (event, routes)) (h : s.Due r m k) :
    ({ s with routes, queue := m.routeRequests event ∪ s.queue } : Loop).Due r m k := by
  rcases h with hqueue | hpending | hpending
  · exact .inl (List.mem_union_iff.mpr (.inr hqueue))
  · exact .inr (.inl hpending)
  · rcases hpending.next hnext with hconcerns | hrest
    · exact .inl (List.mem_union_iff.mpr (.inl (mem_routeRequests hconcerns)))
    · exact .inr (.inr hrest)

theorem Quiescent.caches (h : s.Quiescent) :
    s.services.cache = s.services.store ∧ s.routes.cache = s.routes.store := by
  constructor
  · rw [← s.services.follows, h.services.1]
    rfl
  · rw [← s.routes.follows, h.routes.1]
    rfl

variable [GoFmt]

/-- The route in the cache reads as the mutation writes it for the Service in the cache. -/
def CacheCorrect (r : ServiceDiscoveryReconciler) (m : Machinery) (k : NamespacedName)
    (s : Loop) : Prop :=
  ∀ c, s.services.cache.get k = some c → r.outOfScope c = false →
    ∃ route, s.routes.cache.get (generatedKey k) = some route ∧ r.mutate m c route = .ok route

/-- The cache is correct, or a Reconcile will see to it. -/
inductive Correcting (r : ServiceDiscoveryReconciler) (m : Machinery) (k : NamespacedName)
    (s : Loop) : Prop
  | due (h : s.Due r m k)
  | correct (hwork : ∀ phase, s.work ≠ some (k, phase)) (h : s.CacheCorrect r m k)
  | started (hwork : s.work = some (k, .started))
  | serviceRead {c : Service} (hwork : s.work = some (k, .serviceRead c)) (hkey : c.key = k)
      (hc : s.StillCached r k c)
  | routeRead {c : Service} {found : Option PostgresRoute}
      (hwork : s.work = some (k, .routeRead c found)) (hkey : c.key = k)
      (hc : s.StillCached r k c)
      (hfound : ∀ old, found = some old → old.key = generatedKey k ∧
        (Names m k old → s.routes.cache.get (generatedKey k) = some old))

theorem Correcting.transfer (hs : Correcting r m k s) (hdue : s.Due r m k → t.Due r m k)
    (hwork : ∀ phase, t.work = some (k, phase) ↔ s.work = some (k, phase))
    (hservices : t.services.cache.get k = s.services.cache.get k)
    (hroutes : t.routes.cache.get (generatedKey k) = s.routes.cache.get (generatedKey k)) :
    Correcting r m k t := by
  have hstill : ∀ {c}, s.StillCached r k c → t.StillCached r k c := by
    intro c hc now hnow
    exact hc now (hservices ▸ hnow)
  cases hs with
  | due h => exact .due (hdue h)
  | correct hrest h =>
    refine .correct (fun phase hphase => hrest phase ((hwork phase).mp hphase)) ?_
    intro c hc hscope
    rw [hroutes]
    exact h c (hservices ▸ hc) hscope
  | started hstarted => exact .started ((hwork _).mpr hstarted)
  | serviceRead hread hkey hc => exact .serviceRead ((hwork _).mpr hread) hkey (hstill hc)
  | routeRead hread hkey hc hfound =>
    refine .routeRead ((hwork _).mpr hread) hkey (hstill hc) ?_
    rw [hroutes]
    exact hfound

/-! ### The informers -/

theorem names_of_fixed {c : Service} {route : PostgresRoute} (hkey : c.key = k)
    (hroute : route.key = generatedKey k) (h : r.mutate m c route = .ok route) :
    Names m k route := by
  subst hkey
  exact (generated_of_mutate hroute h).request m

theorem Correcting.syncServices {services : Watched Service.key} (hs : Correcting r m k s)
    (hsync : s.services.sync = some services) : Correcting r m k { s with services } := by
  have hdue : s.Due r m k → ({ s with services } : Loop).Due r m k :=
    Or.imp_right (Or.imp_left fun hpending => hpending.sync hsync)
  by_cases hcache : services.cache.get k = s.services.cache.get k
  · exact hs.transfer hdue (fun _ => .rfl) hcache rfl
  · by_cases hscope : ∃ now, services.cache.get k = some now ∧ r.outOfScope now = false
    · -- a Service that is in scope now passes the filter of the watch
      obtain ⟨now, hnow, hin⟩ := hscope
      have hwatches : Watches r k now := ⟨Store.key_of_get hnow, matches_of_inScope hin⟩
      exact .due (.inr (.inl (Watched.pending_of_sync hsync hcache (.inr ⟨now, hnow, hwatches⟩))))
    · have hnone : ∀ now, services.cache.get k = some now → r.outOfScope now ≠ false :=
        fun now hnow hin => hscope ⟨now, hnow, hin⟩
      cases hs with
      | due h => exact .due (hdue h)
      | correct hwork h => exact .correct hwork fun c hc hin => absurd hin (hnone c hc)
      | started hwork => exact .started hwork
      | serviceRead hwork hkey hc =>
        exact .serviceRead hwork hkey fun now hnow hin => absurd hin (hnone now hnow)
      | routeRead hwork hkey hc hfound =>
        exact .routeRead hwork hkey (fun now hnow hin => absurd hin (hnone now hnow)) hfound

theorem Correcting.syncRoutes {routes : Watched PostgresRoute.key} (hs : Correcting r m k s)
    (hsync : s.routes.sync = some routes) : Correcting r m k { s with routes } := by
  have hdue : s.Due r m k → ({ s with routes } : Loop).Due r m k :=
    Or.imp_right (Or.imp_right fun hpending => hpending.sync hsync)
  by_cases hcache : routes.cache.get (generatedKey k) = s.routes.cache.get (generatedKey k)
  · exact hs.transfer hdue (fun _ => .rfl) rfl hcache
  · -- the copy that names the Service is gone, and its update or deletion is reported
    have hgone : ∀ route, s.routes.cache.get (generatedKey k) = some route → Names m k route →
        ({ s with routes } : Loop).Due r m k := fun route hroute hnames =>
      .inr (.inr (Watched.pending_of_sync hsync hcache (.inl ⟨route, hroute, hnames⟩)))
    cases hs with
    | due h => exact .due (hdue h)
    | correct hwork h =>
      by_cases hscope : ∃ c, s.services.cache.get k = some c ∧ r.outOfScope c = false
      · obtain ⟨c, hc, hin⟩ := hscope
        obtain ⟨route, hroute, hfixed⟩ := h c hc hin
        exact .due (hgone route hroute
          (names_of_fixed (Store.key_of_get hc) (Store.key_of_get hroute) hfixed))
      · exact .correct hwork fun c hc hin => absurd ⟨c, hc, hin⟩ hscope
    | started hwork => exact .started hwork
    | serviceRead hwork hkey hc => exact .serviceRead hwork hkey hc
    | @routeRead c found hwork hkey hc hfound =>
      by_cases hnames : ∃ old, found = some old ∧ Names m k old
      · obtain ⟨old, hold, hnamed⟩ := hnames
        exact .due (hgone old ((hfound old hold).2 hnamed) hnamed)
      · exact .routeRead hwork hkey hc fun old hold =>
          ⟨(hfound old hold).1, fun hnamed => absurd ⟨old, hold, hnamed⟩ hnames⟩

/-! ### The worker -/

theorem Correcting.elsewhere {queue : List NamespacedName}
    {work : Option (NamespacedName × Phase)} (hs : Correcting r m k s)
    (hqueue : k ∈ s.queue → k ∈ queue) (hbefore : ∀ phase, s.work ≠ some (k, phase))
    (hafter : ∀ phase, work ≠ some (k, phase)) : Correcting r m k { s with queue, work } :=
  hs.transfer (Or.imp_left hqueue) (fun phase => iff_of_false (hafter phase) (hbefore phase))
    rfl rfl

theorem Correcting.take {key : NamespacedName} (hs : Correcting r m k s) (hwork : s.work = none) :
    Correcting r m k { s with queue := s.queue.erase key, work := some (key, .started) } := by
  by_cases hkey : key = k
  · exact .started (by rw [hkey])
  · refine hs.elsewhere (fun hmem => ?_) (by simp [hwork]) (ne_of_work hkey rfl)
    exact (List.mem_erase_of_ne (Ne.symm hkey)).mpr hmem

theorem Correcting.returned {key : NamespacedName} {phase : Phase} {o : Outcome}
    (hs : Correcting r m k s) (hwork : s.work = some (key, phase))
    (ho : o.retries ∨ s.services.cache.get key = none) : Correcting r m k (s.finish key o) := by
  by_cases hkey : key = k
  · subst hkey
    rcases ho with hretries | hnone
    · exact .due (.inl (mem_finish_of_retries hretries))
    · refine .correct (by simp [Loop.finish]) fun c hc _ => ?_
      exact absurd (hnone.symm.trans hc) (by simp)
  · exact hs.elsewhere mem_finish (ne_of_work hkey hwork) (by simp)

theorem Correcting.readService {key : NamespacedName} {c : Service} (hs : Correcting r m k s)
    (hwork : s.work = some (key, .started)) (hc : s.services.cache.get key = some c) :
    Correcting r m k { s with work := some (key, .serviceRead c) } := by
  by_cases hkey : key = k
  · subst hkey
    refine .serviceRead rfl (Store.key_of_get hc) fun now hnow _ => ?_
    exact Option.some.inj (hnow.symm.trans hc)
  · exact hs.elsewhere id (ne_of_work hkey hwork) (ne_of_work hkey rfl)

theorem Correcting.readRoute {key : NamespacedName} {c : Service} (hs : Correcting r m k s)
    (hwork : s.work = some (key, .serviceRead c)) :
    Correcting r m k
      { s with work := some (key, .routeRead c (s.routes.cache.get (generatedKey c.key))) } := by
  by_cases hkey : key = k
  · subst hkey
    cases hs with
    | due h => exact .due h
    | correct hrest h => exact absurd hwork (hrest _)
    | started hstarted => exact absurd (hwork.symm.trans hstarted) (by simp)
    | serviceRead hread hckey hc =>
      obtain rfl : c = _ := by simpa using hwork.symm.trans hread
      refine .routeRead rfl hckey hc fun old hold => ?_
      rw [hckey] at hold
      exact ⟨Store.key_of_get hold, fun _ => hold⟩
    | routeRead hread hckey hc hfound => exact absurd (hwork.symm.trans hread) (by simp)
  · exact hs.elsewhere id (ne_of_work hkey hwork) (ne_of_work hkey rfl)

/-- The third call. A write comes back as an event of a route that names the Service; a call
that neither writes nor is taken back found the route as it should be. -/
theorem correcting_of_writeMove {c : Service} {found : Option PostgresRoute}
    {change : Option (Change PostgresRoute.key)} {o : Outcome} (hkey : c.key = k)
    (hc : s.StillCached r k c)
    (hfound : ∀ old, found = some old → Names m k old →
      s.routes.cache.get (generatedKey k) = some old)
    (hmove : WriteMove r m c s.routes.store found change o.retries)
    (hfoundKey : ∀ old, found = some old → old.key = generatedKey k) :
    Correcting r m k ((s.writeRoutes change).finish k o) := by
  have hout : r.outOfScope c → Correcting r m k ((s.writeRoutes change).finish k o) := by
    intro hscope
    refine .correct (by simp [Loop.finish]) fun now hnow hin => ?_
    have hcached : s.services.cache.get k = some now := by
      cases change <;> exact hnow
    rw [hc now hcached hin, hscope] at hin
    exact absurd hin (by simp)
  generalize hretries : o.retries = retries at hmove
  cases hmove with
  | retried => exact .due (.inl (mem_finish_of_retries hretries))
  | kept hscope hold hsame =>
    refine .correct (by simp [Loop.finish]) fun now hnow hin => ?_
    obtain rfl : now = c := hc now hnow hin
    have hnames := names_of_fixed hkey (hfoundKey _ hold) hsame
    exact ⟨_, hfound _ hold hnames, hsame⟩
  | left hscope => exact hout hscope
  | put hscope hnew hold =>
    refine .due (due_finish (.inr (.inr ?_)))
    exact Watched.pending_write_new rfl (hkey ▸ hnew.request m)
  | removed hscope hdelete => exact hout hscope

theorem Correcting.written {key : NamespacedName} {c : Service} {found : Option PostgresRoute}
    {reply : Reply} {change : Option (Change PostgresRoute.key)} {o : Outcome}
    (hs : Correcting r m k s) (hwork : s.work = some (key, .routeRead c found))
    (hwrite : r.writeRoute m (s.version + 1) s.routes.store reply key c found = (change, o)) :
    Correcting r m k ((s.writeRoutes change).finish key o) := by
  have hdue : s.Due r m k → ((s.writeRoutes change).finish key o).Due r m k :=
    fun h => due_finish (due_writeRoutes change h)
  by_cases hkey : key = k
  · subst hkey
    cases hs with
    | due h => exact .due (hdue h)
    | correct hrest h => exact absurd hwork (hrest _)
    | started hstarted => exact absurd (hwork.symm.trans hstarted) (by simp)
    | serviceRead hread => exact absurd (hwork.symm.trans hread) (by simp)
    | routeRead hread hckey hc hfound =>
      obtain ⟨rfl, rfl⟩ : c = _ ∧ found = _ := by simpa using hwork.symm.trans hread
      have hfoundKey : ∀ old, found = some old → old.key = generatedKey c.key := by
        intro old hold
        rw [hckey]
        exact (hfound old hold).1
      exact correcting_of_writeMove hckey hc (fun old hold => (hfound old hold).2)
        (writeRoute_move hfoundKey hwrite) fun old hold => (hfound old hold).1
  · refine hs.transfer hdue (fun phase => iff_of_false (by simp [Loop.finish]) ?_) ?_ ?_
    · exact ne_of_work hkey hwork phase
    · cases change <;> rfl
    · cases change <;> rfl

theorem Correcting.writeService (hs : Correcting r m k s) (c : Change Service.key)
    (uids : List GoString) :
    Correcting r m k { s with services := s.services.write c, uids } :=
  hs.transfer (Or.imp_right (Or.imp_left fun hpending => hpending.write c)) (fun _ => .rfl) rfl rfl

theorem Correcting.writeRoute (hs : Correcting r m k s) (c : Change PostgresRoute.key) :
    Correcting r m k (s.writeRoutes (some c)) :=
  hs.transfer (due_writeRoutes _) (fun _ => .rfl) rfl rfl

theorem Correcting.step {a : LoopAction} (hs : Correcting r m k s) (hmove : Move r m s a t) :
    Correcting r m k t := by
  cases hmove with
  | createService => exact hs.writeService _ _
  | editService => exact hs.writeService _ _
  | foreign => exact hs.writeRoute _
  | syncServices hsync => exact hs.syncServices hsync
  | syncRoutes hsync => exact hs.syncRoutes hsync
  | serviceEvent hnext =>
    obtain ⟨-, -, -, hcache⟩ := Watched.next_eq_some hnext
    exact hs.transfer (due_serviceEvent hnext) (fun _ => .rfl) (by rw [hcache]) rfl
  | routeEvent hnext =>
    obtain ⟨-, -, -, hcache⟩ := Watched.next_eq_some hnext
    exact hs.transfer (due_routeEvent hnext) (fun _ => .rfl) rfl (by rw [hcache])
  | take hwork => exact hs.take hwork
  | returned hwork ho => exact hs.returned hwork ho
  | serviceRead hwork hc => exact hs.readService hwork hc
  | routeRead hwork => exact hs.readRoute hwork
  | written hwork hwrite => exact hs.written hwork hwrite

theorem correcting_start : Correcting r m k {} :=
  .correct (by simp) fun c hc _ => absurd hc (by simp)

/-! ## At rest -/

theorem correcting_of_run {actions : List ClusterAction}
    (hrun : exec (clusterStep r m) {} actions = some s) : Correcting r m k s := by
  refine exec_invariant (fun hs hstep => ?_) correcting_start hrun
  rcases clusterStep_cases hstep with ⟨a, hstep⟩ | ⟨key, rfl⟩ | ⟨route, -, rfl⟩
  · exact hs.step (step_move hstep)
  · exact hs.writeService _ _
  · exact hs.writeRoute _

theorem fixed_of_quiescent {actions : List ClusterAction} {svc : Service}
    (hrun : exec (clusterStep r m) {} actions = some s) (hquiet : s.Quiescent)
    (hsvc : s.services.store.get svc.key = some svc) (hscope : r.outOfScope svc = false) :
    ∃ route, s.routes.store.get (generatedKey svc.key) = some route ∧
      r.mutate m svc route = .ok route := by
  obtain ⟨hservices, hroutes⟩ := hquiet.caches
  have hcorrecting : Correcting r m svc.key s := correcting_of_run hrun
  cases hcorrecting with
  | due h => exact absurd h (hquiet.not_due m)
  | correct hwork h =>
    obtain ⟨route, hroute, hfixed⟩ := h svc (hservices ▸ hsvc) hscope
    exact ⟨route, hroutes ▸ hroute, hfixed⟩
  | started hwork => exact absurd (hquiet.work.symm.trans hwork) (by simp)
  | serviceRead hwork => exact absurd (hquiet.work.symm.trans hwork) (by simp)
  | routeRead hwork => exact absurd (hquiet.work.symm.trans hwork) (by simp)

end Correcting

end Loop
end PgProxy
