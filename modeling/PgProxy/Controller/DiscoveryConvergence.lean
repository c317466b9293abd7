import PgProxy.Controller.DiscoveryFrame
import PgProxy.Controller.DiscoveryLoop

/-!
# Discovery converges

Whenever nothing is left to do, the generated routes are those of the Services in scope.
For a Service that matches the selector this is because every change that could make a
difference leads to another Reconcile: it is `Due`, or the worker has it in hand with
reads that are still good. The filter of the Service watch breaks the argument for a
Service that stops matching: that change is the one event it drops.
-/

namespace PgProxy
set_option autoImplicit false

/-! ## Versions of a Service -/

/-- The Service now, as against an earlier version of it. -/
structure Succeeds (r : ServiceDiscoveryReconciler) (k : NamespacedName) (svc now : Service) :
    Prop where
  key : svc.key = now.key
  uid : svc.metadata.uid = now.metadata.uid
  matching : now.key = k → r.matchesSelector svc → r.matchesSelector now

section Versions
variable {r : ServiceDiscoveryReconciler} {k : NamespacedName} {svc now : Service}
  {route : PostgresRoute}

theorem Succeeds.refl (svc : Service) : Succeeds r k svc svc := ⟨rfl, rfl, fun _ h => h⟩

theorem Succeeds.trans {later : Service} (h : Succeeds r k svc now)
    (h' : Succeeds r k now later) : Succeeds r k svc later :=
  ⟨h.key.trans h'.key, h.uid.trans h'.uid, fun hk hmatch =>
    h'.matching hk (h.matching (h'.key.trans hk) hmatch)⟩

theorem Generated.succeeds (hgen : Generated svc route) (h : Succeeds r k svc now) :
    Generated now route := by
  have href : controllerRef svc = controllerRef now := by
    have hname : svc.metadata.name = now.metadata.name := congrArg NamespacedName.name h.key
    simp only [controllerRef, hname, h.uid]
  exact ⟨h.key ▸ hgen.key, hgen.managed, href ▸ hgen.controller⟩

theorem Generated.congr {old : PostgresRoute} (hgen : Generated svc old)
    (hkey : old.key = route.key) (hlabels : old.metadata.labels = route.metadata.labels)
    (howners : old.metadata.ownerReferences = route.metadata.ownerReferences) :
    Generated svc route := by
  obtain ⟨hk, hmanaged, hcontroller⟩ := hgen
  refine ⟨hkey ▸ hk, ?_, ?_⟩
  · rwa [PostgresRoute.discoveryManaged, ← hlabels]
  · rwa [ObjectMeta.controllerOf, ← howners]

theorem Generated.request (m : Machinery) (h : Generated svc route) :
    m.ownerRequest route.metadata = some svc.key := by
  have hns : route.metadata.ns = svc.metadata.ns := congrArg NamespacedName.ns h.key
  rw [m.ownerRequest_controllerRef h.controller, hns]
  rfl

end Versions

namespace Loop

def KeepsSelector (r : ServiceDiscoveryReconciler) (k : NamespacedName) (s : Loop) :
    LoopAction → Prop
  | .editService svc => svc.key = k → ∀ old, s.services.store.get k = some old →
      r.matchesSelector old → r.matchesSelector svc
  | _ => True

def HasRead (s : Loop) (k : NamespacedName) (svc : Service) : Prop :=
  s.work = some (k, .serviceRead svc) ∨ ∃ found, s.work = some (k, .routeRead svc found)

/-- Where Services and generated routes come from. A version of a Service that is cached,
on its way or in the worker's hands is succeeded by the Service now, and the routes that
carry the label were generated. -/
structure Tracked (r : ServiceDiscoveryReconciler) (k : NamespacedName) (s : Loop) : Prop where
  uids : ∀ {k' svc}, s.services.store.get k' = some svc → svc.metadata.uid ∈ s.uids
  distinct : ∀ {k₁ k₂ svc₁ svc₂}, s.services.store.get k₁ = some svc₁ →
    s.services.store.get k₂ = some svc₂ → svc₁.metadata.uid = svc₂.metadata.uid → k₁ = k₂
  seen : ∀ {k' svc}, s.services.Holds k' svc ∨ s.HasRead k' svc →
    ∃ now, s.services.store.get k' = some now ∧ Succeeds r k svc now
  found : ∀ {k' svc old}, s.work = some (k', .routeRead svc (some old)) →
    old.key = generatedKey svc.key
  owned : ∀ {g route}, s.routes.store.get g = some route → route.discoveryManaged →
    ∃ svc, s.services.store.get svc.key = some svc ∧ Generated svc route ∧
      (svc.key = k → r.matchesSelector svc)

section Tracked
variable {r : ServiceDiscoveryReconciler} {m : Machinery} {k : NamespacedName} {s : Loop}

theorem Tracked.putService (h : Tracked r k s) {svc : Service} {uids : List GoString}
    (hsub : s.uids ⊆ uids) (huid : svc.metadata.uid ∈ uids)
    (hdistinct : ∀ {k' old}, s.services.store.get k' = some old →
      old.metadata.uid = svc.metadata.uid → k' = svc.key)
    (hsucceeds : ∀ old, s.services.store.get svc.key = some old → Succeeds r k old svc) :
    Tracked r k { s with services := s.services.write (.put svc), uids } := by
  have hself : (s.services.write (.put svc)).store.get svc.key = some svc :=
    Store.get_apply_self s.services.store (.put svc)
  have hget : ∀ {k' now}, (s.services.write (.put svc)).store.get k' = some now →
      (k' = svc.key ∧ now = svc) ∨ s.services.store.get k' = some now := by
    intro k' now hnow
    by_cases hk : k' = svc.key
    · subst hk
      exact .inl ⟨rfl, Option.some.inj (hnow.symm.trans hself)⟩
    · exact .inr ((Store.get_apply_ne _ hk).symm.trans hnow)
  have hnow : ∀ {k' old}, s.services.store.get k' = some old → ∃ now,
      (s.services.write (.put svc)).store.get k' = some now ∧ Succeeds r k old now := by
    intro k' old hold
    by_cases hk : k' = svc.key
    · subst hk
      exact ⟨svc, hself, hsucceeds old hold⟩
    · exact ⟨old, (Store.get_apply_ne _ hk).trans hold, .refl old⟩
  refine ⟨?_, ?_, ?_, h.found, ?_⟩
  · intro k' now hstored
    rcases hget hstored with ⟨-, rfl⟩ | hold
    · exact huid
    · exact hsub (h.uids hold)
  · intro k₁ k₂ svc₁ svc₂ h₁ h₂ heq
    rcases hget h₁ with ⟨rfl, rfl⟩ | hold₁ <;> rcases hget h₂ with ⟨rfl, rfl⟩ | hold₂
    · rfl
    · exact (hdistinct hold₂ heq.symm).symm
    · exact hdistinct hold₁ heq
    · exact h.distinct hold₁ hold₂ heq
  · intro k' old hseen
    have hbefore : (s.services.Holds k' old ∨ s.HasRead k' old) ∨ (k' = svc.key ∧ old = svc) := by
      rcases hseen with hholds | hread
      · rcases Watched.holds_of_write hholds with hholds | ⟨rfl, hresult⟩
        · exact .inl (.inl hholds)
        · exact .inr ⟨rfl, (Option.some.inj hresult).symm⟩
      · exact .inl (.inr hread)
    rcases hbefore with hbefore | ⟨rfl, rfl⟩
    · obtain ⟨now, hstored, hsucc⟩ := h.seen hbefore
      obtain ⟨later, hlater, hsucc'⟩ := hnow hstored
      exact ⟨later, hlater, hsucc.trans hsucc'⟩
    · exact ⟨_, hself, .refl _⟩
  · intro g route hroute hmanaged
    obtain ⟨owner, howner, hgen, hmatch⟩ := h.owned hroute hmanaged
    obtain ⟨now, hstored, hsucc⟩ := hnow howner
    refine ⟨now, hsucc.key ▸ hstored, hgen.succeeds hsucc, fun hk => ?_⟩
    exact hsucc.matching hk (hmatch (hsucc.key.trans hk))

theorem Tracked.writeRoutes (h : Tracked r k s) {c : Change PostgresRoute.key}
    (hc : ∀ route, c.result = some route → route.discoveryManaged →
      ∃ svc, s.services.store.get svc.key = some svc ∧ Generated svc route ∧
        (svc.key = k → r.matchesSelector svc)) :
    Tracked r k (s.writeRoutes (some c)) := by
  refine ⟨h.uids, h.distinct, h.seen, h.found, ?_⟩
  intro g route hroute hmanaged
  by_cases hg : g = c.target
  · subst hg
    exact hc route ((Store.get_apply_self _ c).symm.trans hroute) hmanaged
  · exact h.owned ((Store.get_apply_ne _ hg).symm.trans hroute) hmanaged

theorem Tracked.unwritten {t : Loop} (h : Tracked r k s)
    (hservices : t.services.store = s.services.store)
    (hroutes : t.routes.store = s.routes.store) (huids : t.uids = s.uids)
    (hholds : ∀ {k' svc}, t.services.Holds k' svc → s.services.Holds k' svc)
    (hread : ∀ {k' svc}, t.HasRead k' svc → s.services.Holds k' svc ∨ s.HasRead k' svc)
    (hfound : ∀ {k' svc old}, t.work = some (k', .routeRead svc (some old)) →
      old.key = generatedKey svc.key) : Tracked r k t where
  uids := by rw [hservices, huids]; exact h.uids
  distinct := by rw [hservices]; exact h.distinct
  seen := by
    intro k' svc hseen
    rw [hservices]
    exact h.seen (hseen.elim (fun hh => .inl (hholds hh)) hread)
  found := hfound
  owned := by rw [hservices, hroutes]; exact h.owned

theorem Tracked.finish (h : Tracked r k s) (key : NamespacedName) (o : Outcome) :
    Tracked r k (s.finish key o) :=
  h.unwritten rfl rfl rfl id (by simp [HasRead, Loop.finish]) (by simp [Loop.finish])

variable [GoFmt]

/-- What a Reconcile writes for the version it has read is generated for the Service now. -/
theorem Tracked.written (h : Tracked r k s) {key : NamespacedName} {svc : Service}
    {found : Option PostgresRoute} {change : Option (Change PostgresRoute.key)} {retries : Bool}
    (hwork : s.work = some (key, .routeRead svc found))
    (hmove : WriteMove r m svc s.routes.store found change retries) :
    Tracked r k (s.writeRoutes change) := by
  cases hmove with
  | put hscope hnew hold =>
    apply h.writeRoutes
    intro route hresult _
    obtain rfl := Option.some.inj hresult
    obtain ⟨now, hstored, hsucc⟩ := h.seen (.inr (.inr ⟨found, hwork⟩))
    have hmatch : r.matchesSelector svc := by
      simp only [ServiceDiscoveryReconciler.outOfScope, Bool.or_eq_false_iff] at hscope
      simpa using hscope.1.2
    refine ⟨now, Store.key_of_get hstored ▸ hstored, hnew.succeeds hsucc, fun hk => ?_⟩
    exact hsucc.matching hk hmatch
  | removed hscope hdelete =>
    exact h.writeRoutes fun route hresult => absurd hresult (by simp [Change.result])
  | _ => exact h

theorem Tracked.writeMove (h : Tracked r k s) {key : NamespacedName} {svc : Service}
    {found : Option PostgresRoute} {reply : Reply} {change : Option (Change PostgresRoute.key)}
    {o : Outcome} (hwork : s.work = some (key, .routeRead svc found))
    (hwrite : r.writeRoute m (s.version + 1) s.routes.store reply key svc found = (change, o)) :
    WriteMove r m svc s.routes.store found change o.retries := by
  refine writeRoute_move (fun old hold => ?_) hwrite
  subst hold
  exact h.found hwork

theorem Tracked.step {a : LoopAction} {t : Loop} (h : Tracked r k s)
    (hkeep : s.KeepsSelector r k a) (hmove : Move r m s a t) : Tracked r k t := by
  cases hmove with
  | createService hnew huid =>
    refine h.putService (List.subset_cons_self _ _) List.mem_cons_self ?_ ?_
    · intro k' old hold heq
      exact absurd (heq ▸ h.uids hold) huid
    · intro old hold
      exact absurd (hnew.symm.trans hold) (by simp)
  | @editService svc old hold huid =>
    refine h.putService (List.Subset.refl _) (huid ▸ h.uids hold) ?_ ?_
    · intro k' other hother heq
      exact h.distinct hother hold (heq.trans huid)
    · intro old' hold'
      obtain rfl : old = old' := Option.some.inj (hold.symm.trans hold')
      refine ⟨Store.key_of_get hold, huid.symm, fun hk => ?_⟩
      exact hkeep hk old (hk ▸ hold)
  | foreign hc =>
    apply h.writeRoutes
    intro route hresult hmanaged
    rcases hc route hresult with hfalse | ⟨old, hold, hlabels, howners⟩
    · rw [hmanaged] at hfalse
      exact absurd hfalse (by simp)
    · have holdManaged : old.discoveryManaged := by
        rwa [PostgresRoute.discoveryManaged, hlabels]
      obtain ⟨owner, howner, hgen, hmatch⟩ := h.owned hold holdManaged
      have hkey : old.key = route.key := by
        rw [Store.key_of_get hold, Change.key_of_result hresult]
      exact ⟨owner, howner, hgen.congr hkey hlabels howners, hmatch⟩
  | syncServices hsync =>
    obtain ⟨-, -, hstore, -⟩ := Watched.sync_eq_some hsync
    exact h.unwritten hstore rfl rfl (Watched.holds_of_sync hsync) .inr h.found
  | syncRoutes hsync =>
    obtain ⟨-, -, hstore, -⟩ := Watched.sync_eq_some hsync
    exact h.unwritten rfl hstore rfl id .inr h.found
  | serviceEvent hnext =>
    obtain ⟨-, hstore, -⟩ := Watched.next_eq_some hnext
    exact h.unwritten hstore rfl rfl (Watched.holds_of_next hnext) .inr h.found
  | routeEvent hnext =>
    obtain ⟨-, hstore, -⟩ := Watched.next_eq_some hnext
    exact h.unwritten rfl hstore rfl id .inr h.found
  | take hwork hkey => exact h.unwritten rfl rfl rfl id (by simp [HasRead]) (by simp)
  | returned hwork ho => exact h.finish _ _
  | serviceRead hwork hsvc =>
    refine h.unwritten rfl rfl rfl id ?_ (by simp)
    rintro k' svc' (hread | ⟨found, hread⟩)
    · simp only [Option.some.injEq, Prod.mk.injEq, Phase.serviceRead.injEq] at hread
      obtain ⟨rfl, rfl⟩ := hread
      exact .inl (.inl hsvc)
    · simp at hread
  | routeRead hwork =>
    refine h.unwritten rfl rfl rfl id ?_ ?_
    · rintro k' svc' (hread | ⟨found, hread⟩)
      · simp at hread
      · simp only [Option.some.injEq, Prod.mk.injEq, Phase.routeRead.injEq] at hread
        obtain ⟨rfl, rfl, -⟩ := hread
        exact .inr (.inl hwork)
    · intro k' svc' old hread
      simp only [Option.some.injEq, Prod.mk.injEq, Phase.routeRead.injEq] at hread
      obtain ⟨-, rfl, hold⟩ := hread
      exact Store.key_of_get hold
  | written hwork hwrite => exact (h.written hwork (h.writeMove hwork hwrite)).finish _ _

end Tracked

/-! ## Due, in hand or settled -/

def Watches (r : ServiceDiscoveryReconciler) (k : NamespacedName) (svc : Service) : Prop :=
  svc.key = k ∧ r.matchesSelector svc

def Names (m : Machinery) (k : NamespacedName) (route : PostgresRoute) : Prop :=
  m.ownerRequest route.metadata = some k

/-- Another Reconcile of the request is certain to come. -/
def Due (r : ServiceDiscoveryReconciler) (m : Machinery) (k : NamespacedName) (s : Loop) : Prop :=
  k ∈ s.queue ∨ s.services.Pending (fun _ => False) (Watches r k) ∨
    s.routes.Pending (Names m k) (Names m k)

def Served (s : Loop) (svc : Service) : Prop :=
  ∃ route, s.routes.store.get (generatedKey svc.key) = some route ∧ Generated svc route

/-- What was read is what is cached, or neither concerns the request. -/
def Alike (m : Machinery) (k : NamespacedName) (found cached : Option PostgresRoute) : Prop :=
  found = cached ∨ ∀ route, found = some route ∨ cached = some route → ¬ Names m k route

/-- The Service is settled, or a Reconcile will see to it: one that is due, or the one
the worker has in hand, whose reads are still good. -/
inductive Settling (r : ServiceDiscoveryReconciler) (m : Machinery) (k : NamespacedName)
    (svc : Service) (s : Loop) : Prop
  | due (h : s.Due r m k)
  | settled (hwork : ∀ phase, s.work ≠ some (k, phase))
      (h : s.Served svc ↔ r.outOfScope svc = false)
  | started (hwork : s.work = some (k, .started))
  | serviceRead {c : Service} (hwork : s.work = some (k, .serviceRead c))
      (hc : s.services.cache.get k = some c)
  | routeRead {c : Service} {found : Option PostgresRoute}
      (hwork : s.work = some (k, .routeRead c found)) (hc : s.services.cache.get k = some c)
      (halike : Alike m k found (s.routes.cache.get (generatedKey k)))

section Settling
variable {r : ServiceDiscoveryReconciler} {m : Machinery} {k : NamespacedName} {svc : Service}
  {s t : Loop}

theorem Settling.transfer (hs : Settling r m k svc s) (hdue : s.Due r m k → t.Due r m k)
    (hwork : ∀ phase, t.work = some (k, phase) ↔ s.work = some (k, phase))
    (hserved : t.Served svc ↔ s.Served svc)
    (hservices : t.services.cache.get k = s.services.cache.get k)
    (hroutes : t.routes.cache.get (generatedKey k) = s.routes.cache.get (generatedKey k)) :
    Settling r m k svc t := by
  cases hs with
  | due h => exact .due (hdue h)
  | settled hrest h =>
    exact .settled (fun phase hphase => hrest phase ((hwork phase).mp hphase)) (hserved.trans h)
  | started hstarted => exact .started ((hwork _).mpr hstarted)
  | serviceRead hread hc => exact .serviceRead ((hwork _).mpr hread) (hservices.trans hc)
  | routeRead hread hc halike =>
    exact .routeRead ((hwork _).mpr hread) (hservices.trans hc) (hroutes ▸ halike)

theorem due_of_uncached (hsvc : s.services.store.get k = some svc) (hmatch : r.matchesSelector svc)
    (hne : s.services.cache.get k ≠ some svc) : s.Due r m k :=
  .inr (.inl (Watched.pending_of_uncached hsvc hne ⟨Store.key_of_get hsvc, hmatch⟩))

theorem mem_serviceRequests {event : Event Service}
    (h : event.Concerns (fun _ => False) (Watches r k)) : k ∈ r.serviceRequests event := by
  cases event with
  | create svc =>
    obtain ⟨rfl, hmatch⟩ := h
    simp [ServiceDiscoveryReconciler.serviceRequests, newPredicateFuncs, hmatch]
  | update old svc =>
    obtain ⟨rfl, hmatch⟩ := h.resolve_left id
    simp [ServiceDiscoveryReconciler.serviceRequests, newPredicateFuncs, hmatch]
  | delete svc => exact absurd h id

theorem mem_routeRequests {event : Event PostgresRoute}
    (h : event.Concerns (Names m k) (Names m k)) : k ∈ m.routeRequests event := by
  cases event with
  | create route | delete route =>
    have h : m.ownerRequest route.metadata = some k := h
    simp [Machinery.routeRequests, h]
  | update old new =>
    have h : m.ownerRequest old.metadata = some k ∨ m.ownerRequest new.metadata = some k := h
    simpa [Machinery.routeRequests] using h

theorem served_writeRoutes_ne {c : Change PostgresRoute.key} (h : generatedKey svc.key ≠ c.target) :
    (s.writeRoutes (some c)).Served svc ↔ s.Served svc := by
  have hget : (s.routes.store.apply c).get (generatedKey svc.key) =
      s.routes.store.get (generatedKey svc.key) := Store.get_apply_ne _ h
  simp only [Served, Loop.writeRoutes, Watched.write, hget]

theorem Settling.putService {new : Service} {uids : List GoString}
    (hbefore : s.services.store.get k = some svc → Settling r m k svc s)
    (hsvc : (s.services.write (.put new)).store.get k = some svc) (hmatch : r.matchesSelector svc) :
    Settling r m k svc { s with services := s.services.write (.put new), uids } := by
  by_cases hk : k = new.key
  · subst hk
    obtain rfl : new = svc := Option.some.inj ((Store.get_apply_self _ _).symm.trans hsvc)
    exact .due (.inr (.inl (Watched.pending_write_new rfl ⟨rfl, hmatch⟩)))
  · have hs := hbefore ((Store.get_apply_ne _ hk).symm.trans hsvc)
    refine hs.transfer ?_ (fun _ => .rfl) .rfl rfl rfl
    exact Or.imp_right (Or.imp_left fun hpending => hpending.write _)

theorem Settling.foreign {c : Change PostgresRoute.key} (hs : Settling r m k svc s)
    (hkey : svc.key = k) (hc : s.Foreign c) : Settling r m k svc (s.writeRoutes (some c)) := by
  have hdue : s.Due r m k → (s.writeRoutes (some c)).Due r m k :=
    Or.imp_right (Or.imp_right fun hpending => hpending.write c)
  by_cases htarget : generatedKey svc.key = c.target
  · by_cases hserved : s.Served svc
    · obtain ⟨route, hroute, hgen⟩ := hserved
      have hnames : Names m k route := hkey ▸ hgen.request m
      rw [htarget] at hroute
      exact .due (.inr (.inr (Watched.pending_write_old hroute hnames hnames)))
    · -- the write does not make a generated route
      have hafter : ¬ (s.writeRoutes (some c)).Served svc := by
        rintro ⟨route, hroute, hgen⟩
        rw [htarget] at hroute
        have hresult : c.result = some route := (Store.get_apply_self _ _).symm.trans hroute
        rcases hc route hresult with hfalse | ⟨old, hold, hlabels, howners⟩
        · exact absurd (hgen.managed.symm.trans hfalse) (by simp)
        · have holdkey : route.key = old.key := by
            rw [Store.key_of_get hold, Change.key_of_result hresult]
          exact hserved ⟨old, htarget ▸ hold, hgen.congr holdkey hlabels.symm howners.symm⟩
      exact hs.transfer hdue (fun _ => .rfl) (iff_of_false hafter hserved) rfl rfl
  · exact hs.transfer hdue (fun _ => .rfl) (served_writeRoutes_ne htarget) rfl rfl

theorem Settling.syncServices {services : Watched Service.key} (hs : Settling r m k svc s)
    (hsvc : s.services.store.get k = some svc) (hmatch : r.matchesSelector svc)
    (hsync : s.services.sync = some services) : Settling r m k svc { s with services } := by
  obtain ⟨c, -, hstore, -⟩ := Watched.sync_eq_some hsync
  by_cases hcache : services.cache.get k = s.services.cache.get k
  · refine hs.transfer ?_ (fun _ => .rfl) .rfl hcache rfl
    exact Or.imp_right (Or.imp_left fun hpending => hpending.sync hsync)
  · -- the version just seen is the Service now, or that one is still to come
    have hstored : services.store.get k = some svc := hstore ▸ hsvc
    by_cases hnow : services.cache.get k = some svc
    · have hwatches : Watches r k svc := ⟨Store.key_of_get hsvc, hmatch⟩
      exact .due (.inr (.inl (Watched.pending_of_sync hsync hcache (.inr ⟨svc, hnow, hwatches⟩))))
    · exact .due (due_of_uncached hstored hmatch hnow)

theorem Settling.syncRoutes {routes : Watched PostgresRoute.key} (hs : Settling r m k svc s)
    (hsync : s.routes.sync = some routes) : Settling r m k svc { s with routes } := by
  obtain ⟨c, -, hstore, -⟩ := Watched.sync_eq_some hsync
  have hserved : ({ s with routes } : Loop).Served svc ↔ s.Served svc := by
    simp only [Served, hstore]
  have hdue : s.Due r m k → ({ s with routes } : Loop).Due r m k :=
    Or.imp_right (Or.imp_right fun hpending => hpending.sync hsync)
  by_cases hcache : routes.cache.get (generatedKey k) = s.routes.cache.get (generatedKey k)
  · exact hs.transfer hdue (fun _ => .rfl) hserved rfl hcache
  · cases hs with
    | due h => exact .due (hdue h)
    | settled hwork h => exact .settled hwork (hserved.trans h)
    | started hwork => exact .started hwork
    | serviceRead hwork hc => exact .serviceRead hwork hc
    | @routeRead svc' found hwork hc halike =>
      by_cases hreported : ∃ route, Names m k route ∧
          (s.routes.cache.get (generatedKey k) = some route ∨
            routes.cache.get (generatedKey k) = some route)
      · obtain ⟨route, hnames, hroute⟩ := hreported
        exact .due (.inr (.inr (Watched.pending_of_sync hsync hcache
          (hroute.imp (fun h => ⟨route, h, hnames⟩) fun h => ⟨route, h, hnames⟩))))
      · refine .routeRead hwork hc (.inr ?_)
        rintro route (hfound | hnow) hnames
        · rcases halike with rfl | hneither
          · exact hreported ⟨route, hnames, .inl hfound⟩
          · exact hneither route (.inl hfound) hnames
        · exact hreported ⟨route, hnames, .inr hnow⟩

theorem Settling.serviceEvent {event : Event Service} {services : Watched Service.key}
    (hs : Settling r m k svc s) (hnext : s.services.next = some (event, services)) :
    Settling r m k svc { s with services, queue := r.serviceRequests event ∪ s.queue } := by
  obtain ⟨-, hstore, -, hcache⟩ := Watched.next_eq_some hnext
  refine hs.transfer ?_ (fun _ => .rfl) .rfl (by rw [hcache]) rfl
  rintro (hqueue | hpending | hpending)
  · exact .inl (List.mem_union_iff.mpr (.inr hqueue))
  · rcases hpending.next hnext with hconcerns | hrest
    · exact .inl (List.mem_union_iff.mpr (.inl (mem_serviceRequests hconcerns)))
    · exact .inr (.inl hrest)
  · exact .inr (.inr hpending)

theorem Settling.routeEvent {event : Event PostgresRoute} {routes : Watched PostgresRoute.key}
    (hs : Settling r m k svc s) (hnext : s.routes.next = some (event, routes)) :
    Settling r m k svc { s with routes, queue := m.routeRequests event ∪ s.queue } := by
  obtain ⟨-, hstore, -, hcache⟩ := Watched.next_eq_some hnext
  refine hs.transfer ?_ (fun _ => .rfl) (by simp only [Served, hstore]) rfl (by rw [hcache])
  rintro (hqueue | hpending | hpending)
  · exact .inl (List.mem_union_iff.mpr (.inr hqueue))
  · exact .inr (.inl hpending)
  · rcases hpending.next hnext with hconcerns | hrest
    · exact .inl (List.mem_union_iff.mpr (.inl (mem_routeRequests hconcerns)))
    · exact .inr (.inr hrest)

/-! ### The worker's own steps -/

theorem Settling.elsewhere {queue : List NamespacedName} {work : Option (NamespacedName × Phase)}
    (hs : Settling r m k svc s) (hqueue : k ∈ s.queue → k ∈ queue)
    (hbefore : ∀ phase, s.work ≠ some (k, phase)) (hafter : ∀ phase, work ≠ some (k, phase)) :
    Settling r m k svc { s with queue, work } :=
  hs.transfer (Or.imp_left hqueue) (fun phase => iff_of_false (hafter phase) (hbefore phase))
    .rfl rfl rfl

theorem ne_of_work {key : NamespacedName} {phase : Phase} (hkey : key ≠ k)
    {work : Option (NamespacedName × Phase)} (hwork : work = some (key, phase)) (phase' : Phase) :
    work ≠ some (k, phase') := by
  rw [hwork]
  intro h
  exact hkey (congrArg Prod.fst (Option.some.inj h))

theorem mem_finish {key : NamespacedName} {o : Outcome} (h : k ∈ s.queue) :
    k ∈ (s.finish key o).queue := by
  simp only [Loop.finish]
  split
  · exact List.mem_insert_of_mem h
  · exact h

theorem mem_finish_of_retries {o : Outcome} (h : o.retries) : k ∈ (s.finish k o).queue := by
  simp [Loop.finish, h]

theorem Settling.take {key : NamespacedName} (hs : Settling r m k svc s) (hwork : s.work = none) :
    Settling r m k svc { s with queue := s.queue.erase key, work := some (key, .started) } := by
  by_cases hkey : key = k
  · exact .started (by rw [hkey])
  · refine hs.elsewhere (fun hmem => ?_) (by simp [hwork]) (ne_of_work hkey rfl)
    exact (List.mem_erase_of_ne (Ne.symm hkey)).mpr hmem

theorem Settling.returned {key : NamespacedName} {phase : Phase} {o : Outcome}
    (hs : Settling r m k svc s) (hsvc : s.services.store.get k = some svc)
    (hmatch : r.matchesSelector svc) (hwork : s.work = some (key, phase))
    (ho : o.retries ∨ s.services.cache.get key = none) : Settling r m k svc (s.finish key o) := by
  by_cases hkey : key = k
  · subst hkey
    rcases ho with hretries | hnone
    · exact .due (.inl (mem_finish_of_retries hretries))
    · exact .due (due_of_uncached hsvc hmatch (by simp [Loop.finish, hnone]))
  · exact hs.elsewhere mem_finish (ne_of_work hkey hwork) (by simp)

theorem Settling.readService {key : NamespacedName} {c : Service} (hs : Settling r m k svc s)
    (hwork : s.work = some (key, .started)) (hc : s.services.cache.get key = some c) :
    Settling r m k svc { s with work := some (key, .serviceRead c) } := by
  by_cases hkey : key = k
  · subst hkey
    exact .serviceRead rfl hc
  · exact hs.elsewhere id (ne_of_work hkey hwork) (ne_of_work hkey rfl)

theorem Settling.readRoute {key : NamespacedName} {c : Service} (hs : Settling r m k svc s)
    (hwork : s.work = some (key, .serviceRead c)) :
    Settling r m k svc
      { s with work := some (key, .routeRead c (s.routes.cache.get (generatedKey c.key))) } := by
  by_cases hkey : key = k
  · subst hkey
    cases hs with
    | due h => exact .due h
    | settled hrest h => exact absurd hwork (hrest _)
    | started hstarted => exact absurd (hwork.symm.trans hstarted) (by simp)
    | serviceRead hread hc =>
      obtain rfl : c = _ := by simpa using hwork.symm.trans hread
      exact .routeRead rfl hc (.inl (by rw [Store.key_of_get hc]))
    | routeRead hread hc halike => exact absurd (hwork.symm.trans hread) (by simp)
  · exact hs.elsewhere id (ne_of_work hkey hwork) (ne_of_work hkey rfl)

theorem due_finish {key : NamespacedName} {o : Outcome} (h : s.Due r m k) :
    (s.finish key o).Due r m k :=
  h.imp_left mem_finish

theorem due_writeRoutes (change : Option (Change PostgresRoute.key)) (h : s.Due r m k) :
    (s.writeRoutes change).Due r m k := by
  cases change with
  | none => exact h
  | some c => exact h.imp_right (Or.imp_right fun hpending => hpending.write c)

theorem settled_finish {o : Outcome} (h : s.Served svc ↔ r.outOfScope svc = false) :
    Settling r m k svc (s.finish k o) :=
  .settled (by simp [Loop.finish]) h

theorem deleteGeneratedRoute_generated {route : PostgresRoute} (h : Generated svc route) :
    ServiceDiscoveryReconciler.deleteGeneratedRoute svc (some route) = .delete route := by
  have hlabel : mapGet route.metadata.labels managedByLabel = managedByServiceDiscovery :=
    of_decide_eq_true h.managed
  simp [ServiceDiscoveryReconciler.deleteGeneratedRoute, hlabel, h.controller, controllerRef]

variable [GoFmt]

theorem served_of_writeMove {c : Service} {found : Option PostgresRoute}
    {change : Option (Change PostgresRoute.key)} {retries : Bool} (hne : c.key ≠ svc.key)
    (hmove : WriteMove r m c s.routes.store found change retries) :
    (s.writeRoutes change).Served svc ↔ s.Served svc := by
  have htarget : generatedKey svc.key ≠ generatedKey c.key :=
    fun h => hne (generatedKey_injective h).symm
  cases hmove with
  | put hscope hnew hold =>
    exact served_writeRoutes_ne (by rwa [Change.target, hnew.key])
  | removed hscope hdelete => exact served_writeRoutes_ne htarget
  | _ => exact .rfl

/-- The third call for the Service as it is now: it is settled, or one of the reads the
call rested on is out of date, and that is reported. -/
theorem Settling.writtenNow {found : Option PostgresRoute}
    {change : Option (Change PostgresRoute.key)} {o : Outcome} (hkey : svc.key = k)
    (hfound : ∀ old, found = some old → old.key = generatedKey svc.key)
    (halike : Alike m k found (s.routes.cache.get (generatedKey k)))
    (hmove : WriteMove r m svc s.routes.store found change o.retries) :
    Settling r m k svc ((s.writeRoutes change).finish k o) := by
  subst hkey
  generalize hretries : o.retries = retries at hmove
  cases hmove with
  | retried => exact .due (.inl (mem_finish_of_retries hretries))
  -- Nothing was written because the route read is as it should be. If it is no longer in the
  -- store, the cache is behind, and the watch of owned routes will report what happened.
  | @kept route hscope hroute hsame =>
    have hgen := generated_of_mutate (hfound route hroute) hsame
    have hcached : s.routes.cache.get (generatedKey svc.key) = some route := by
      rcases halike with rfl | hneither
      · exact hroute
      · exact absurd (hgen.request m) (hneither route (.inl hroute))
    by_cases hstored : s.routes.store.get (generatedKey svc.key) = some route
    · exact settled_finish (iff_of_true ⟨route, hstored, hgen⟩ hscope)
    · exact .due (.inr (.inr (Watched.pending_of_stale hcached hstored (hgen.request m))))
  | left hscope hleft =>
    by_cases hserved : s.Served svc
    · obtain ⟨route, hroute, hgen⟩ := hserved
      by_cases hcached : s.routes.cache.get (generatedKey svc.key) = some route
      · -- the call saw this very route, and would have deleted it
        obtain rfl : found = some route := by
          rcases halike with rfl | hneither
          · exact hcached
          · exact absurd (hgen.request m) (hneither route (.inr hcached))
        rw [deleteGeneratedRoute_generated hgen, hroute] at hleft
        exact absurd hleft (by simp)
      · exact .due (.inr (.inr (Watched.pending_of_uncached hroute hcached (hgen.request m))))
    · exact settled_finish (iff_of_false hserved (by simp [hscope]))
  | @put route _ hscope hnew hold =>
    refine settled_finish (iff_of_true ⟨route, ?_, hnew⟩ hscope)
    exact hnew.key ▸ Store.get_apply_self s.routes.store (.put route)
  | removed hscope hdelete =>
    refine settled_finish (iff_of_false ?_ (by simp [hscope]))
    rintro ⟨route, hroute, -⟩
    exact absurd ((Store.get_apply_self _ _).symm.trans hroute) (by simp [Change.result])

theorem Settling.written {key : NamespacedName} {c : Service} {found : Option PostgresRoute}
    {change : Option (Change PostgresRoute.key)} {o : Outcome} (hs : Settling r m k svc s)
    (htracked : Tracked r k s) (hsvc : s.services.store.get k = some svc)
    (hmatch : r.matchesSelector svc) (hwork : s.work = some (key, .routeRead c found))
    (hmove : WriteMove r m c s.routes.store found change o.retries) :
    Settling r m k svc ((s.writeRoutes change).finish key o) := by
  have hdue : s.Due r m k → ((s.writeRoutes change).finish key o).Due r m k :=
    fun h => due_finish (due_writeRoutes change h)
  have hwritten : (s.writeRoutes change).services = s.services := by cases change <;> rfl
  by_cases hkey : key = k
  · subst hkey
    cases hs with
    | due h => exact .due (hdue h)
    | settled hrest h => exact absurd hwork (hrest _)
    | started hstarted => exact absurd (hwork.symm.trans hstarted) (by simp)
    | serviceRead hread hc => exact absurd (hwork.symm.trans hread) (by simp)
    | routeRead hread hc halike =>
      obtain ⟨rfl, rfl⟩ : c = _ ∧ found = _ := by simpa using hwork.symm.trans hread
      -- A Reconcile of an older version may write the wrong thing, but then the version in the
      -- store has not reached the cache, and its event is still to come.
      by_cases hnow : c = svc
      · subst hnow
        refine Settling.writtenNow (Store.key_of_get hsvc) (fun old hold => ?_) halike hmove
        subst hold
        exact htracked.found hwork
      · have hstale : s.services.cache.get key ≠ some svc := by
          rw [hc]
          exact fun h => hnow (Option.some.inj h)
        exact .due (hdue (due_of_uncached hsvc hmatch hstale))
  · obtain ⟨now, hstored, hsucc⟩ := htracked.seen (.inr (.inr ⟨found, hwork⟩))
    have hne : c.key ≠ svc.key := by
      rw [hsucc.key, Store.key_of_get hstored, Store.key_of_get hsvc]
      exact hkey
    refine hs.transfer hdue (fun phase => iff_of_false (by simp [Loop.finish])
      (ne_of_work hkey hwork phase)) (served_of_writeMove hne hmove) ?_ ?_
    · simp only [Loop.finish, hwritten]
    · cases change <;> rfl

theorem Settling.step {a : LoopAction}
    (hbefore : ∀ svc, s.services.store.get k = some svc → r.matchesSelector svc →
      Settling r m k svc s) (htracked : Tracked r k s) (hmove : Move r m s a t)
    (hsvc : t.services.store.get k = some svc) (hmatch : r.matchesSelector svc) :
    Settling r m k svc t := by
  cases hmove with
  | createService hnew huid => exact .putService (fun h => hbefore svc h hmatch) hsvc hmatch
  | editService hold huid => exact .putService (fun h => hbefore svc h hmatch) hsvc hmatch
  | foreign hc => exact (hbefore svc hsvc hmatch).foreign (Store.key_of_get hsvc) hc
  | syncServices hsync =>
    obtain ⟨-, -, hstore, -⟩ := Watched.sync_eq_some hsync
    have hstored : s.services.store.get k = some svc := hstore ▸ hsvc
    exact (hbefore svc hstored hmatch).syncServices hstored hmatch hsync
  | syncRoutes hsync => exact (hbefore svc hsvc hmatch).syncRoutes hsync
  | serviceEvent hnext =>
    obtain ⟨-, hstore, -⟩ := Watched.next_eq_some hnext
    exact (hbefore svc (hstore ▸ hsvc) hmatch).serviceEvent hnext
  | routeEvent hnext => exact (hbefore svc hsvc hmatch).routeEvent hnext
  | take hwork hkey => exact (hbefore svc hsvc hmatch).take hwork
  | returned hwork ho => exact (hbefore svc hsvc hmatch).returned hsvc hmatch hwork ho
  | serviceRead hwork hc => exact (hbefore svc hsvc hmatch).readService hwork hc
  | routeRead hwork => exact (hbefore svc hsvc hmatch).readRoute hwork
  | @written _ _ _ _ _ change _ hwork hwrite =>
    have hstored : s.services.store.get k = some svc := by
      cases change <;> exact hsvc
    exact (hbefore svc hstored hmatch).written htracked hstored hmatch hwork
      (htracked.writeMove hwork hwrite)

end Settling

/-! ## Convergence -/

def ControlledBy (svc : Service) (route : PostgresRoute) : Prop :=
  ∃ ref, route.metadata.controllerOf = some ref ∧ ref.uid = svc.metadata.uid

def HasGeneratedRoute (s : Loop) (svc : Service) : Prop :=
  ∃ key route, s.routes.store.get key = some route ∧ route.discoveryManaged ∧
    ControlledBy svc route

section Convergence
variable {r : ServiceDiscoveryReconciler} {k : NamespacedName} {svc : Service} {s : Loop}

theorem tracked_start : Tracked r k {} where
  uids := by simp
  distinct := by simp
  seen := by simp [Watched.Holds, HasRead]
  found := by simp
  owned := by simp

theorem Tracked.hasGeneratedRoute_iff (h : Tracked r k s)
    (hsvc : s.services.store.get k = some svc) : s.HasGeneratedRoute svc ↔ s.Served svc := by
  constructor
  · rintro ⟨key, route, hroute, hmanaged, ref, href, huid⟩
    obtain ⟨owner, howner, hgen, -⟩ := h.owned hroute hmanaged
    obtain rfl : controllerRef owner = ref := Option.some.inj (hgen.controller.symm.trans href)
    obtain rfl := h.distinct howner hsvc huid
    obtain rfl : owner = svc := Option.some.inj (howner.symm.trans hsvc)
    exact ⟨route, hgen.key ▸ Store.key_of_get hroute ▸ hroute, hgen⟩
  · rintro ⟨route, hroute, hgen⟩
    exact ⟨_, route, hroute, hgen.managed, _, hgen.controller, rfl⟩

theorem Tracked.matching_of_served (h : Tracked r k s) (hsvc : s.services.store.get k = some svc)
    (hserved : s.Served svc) : r.matchesSelector svc := by
  obtain ⟨route, hroute, hgen⟩ := hserved
  obtain ⟨owner, howner, hgen', hmatch⟩ := h.owned hroute hgen.managed
  have hkey : owner.key = k :=
    (generatedKey_injective (hgen'.key.symm.trans hgen.key)).trans (Store.key_of_get hsvc)
  obtain rfl : owner = svc := Option.some.inj ((hkey ▸ howner).symm.trans hsvc)
  exact hmatch hkey

theorem Quiescent.not_due (h : s.Quiescent) (m : Machinery) : ¬ s.Due r m k := by
  simp [Due, Watched.Pending, h.queue, h.services.1, h.services.2, h.routes.1, h.routes.2]

theorem Settling.served_of_quiescent {m : Machinery} (hs : Settling r m k svc s)
    (h : s.Quiescent) : s.Served svc ↔ r.outOfScope svc = false := by
  cases hs with
  | due hdue => exact absurd hdue (h.not_due m)
  | settled hwork hiff => exact hiff
  | started hwork => exact absurd (h.work.symm.trans hwork) (by simp)
  | serviceRead hwork hc => exact absurd (h.work.symm.trans hwork) (by simp)
  | routeRead hwork hc halike => exact absurd (h.work.symm.trans hwork) (by simp)

variable [GoFmt]

/-- In every run that never takes the Service out of the selector, whenever every event
is delivered and the queue is empty: the Service has a generated route exactly if it is in
scope. A Service whose name is taken keeps its request in the queue. -/
theorem discovery_converges {m : Machinery} {actions : List LoopAction}
    (hkeep : Always (step r m) (KeepsSelector r k) {} actions)
    (hrun : exec (step r m) {} actions = some s) (hquiet : s.Quiescent)
    (hsvc : s.services.store.get k = some svc) (hdeleted : svc.metadata.beingDeleted = false) :
    s.HasGeneratedRoute svc ↔
      r.matchesSelector svc ∧ ¬ ServiceDiscoveryReconciler.ignored svc := by
  have hinv : Tracked r k s ∧ ∀ svc, s.services.store.get k = some svc →
      r.matchesSelector svc → Settling r m k svc s := by
    refine exec_always (I := fun s => Tracked r k s ∧ ∀ svc, s.services.store.get k = some svc →
      r.matchesSelector svc → Settling r m k svc s) ?_ ?_ hkeep hrun
    · rintro s a t ⟨htracked, hsettling⟩ hkeep hstep
      have hmove := step_move hstep
      exact ⟨htracked.step hkeep hmove, fun _ => Settling.step hsettling htracked hmove⟩
    · exact ⟨tracked_start, by simp⟩
  obtain ⟨htracked, hsettling⟩ := hinv
  rw [htracked.hasGeneratedRoute_iff hsvc]
  -- Outside the selector no event is ever enqueued; there it is `Tracked` that knows that
  -- no route was generated.
  by_cases hmatch : r.matchesSelector svc
  · rw [(hsettling svc hsvc hmatch).served_of_quiescent hquiet]
    simp [ServiceDiscoveryReconciler.outOfScope, hdeleted, hmatch]
  · refine iff_of_false (fun hserved => hmatch (htracked.matching_of_served hsvc hserved)) ?_
    exact fun h => hmatch h.1

end Convergence

/-! A Service is discovered, and then taken out of discovery in two ways. -/

def sampleReconcile : List LoopAction :=
  [.take sampleService.key, .getService none, .getRoute none, .writeRoute .done]

def discoverRun : List LoopAction :=
  [.createService sampleService, .syncServices, .serviceEvent] ++ sampleReconcile ++
    [.syncRoutes, .routeEvent] ++ sampleReconcile

def ignoredService : Service :=
  { sampleService with
    metadata :=
      { sampleService.metadata with
        annotations := (∅ : GoMap GoString GoString).insert ignoreAnnotation (str "true") } }

def unlabelledService : Service :=
  { sampleService with metadata := { sampleService.metadata with labels := ∅ } }

def ignoreRun : List LoopAction :=
  discoverRun ++ [.editService ignoredService, .syncServices, .serviceEvent] ++ sampleReconcile ++
    [.syncRoutes, .routeEvent] ++ sampleReconcile

theorem discovery_converges_ignored :
    ∃ s, exec (@step plainQuote sampleReconciler sampleMachinery) {} ignoreRun = some s ∧
      s.Quiescent ∧ ¬ s.HasGeneratedRoute ignoredService := by
  have hkeep : Always (@step plainQuote sampleReconciler sampleMachinery)
      (KeepsSelector sampleReconciler sampleService.key) {} ignoreRun := by
    apply always_of_forall
    intro a ha s
    cases a with
    | editService svc =>
      obtain rfl : svc = ignoredService := by
        simpa [ignoreRun, discoverRun, sampleReconcile] using ha
      exact fun _ _ _ _ => rfl
    | _ => trivial
  refine ⟨_, rfl, ⟨⟨rfl, rfl⟩, ⟨rfl, rfl⟩, rfl, rfl⟩, ?_⟩
  intro hroute
  have hiff := @discovery_converges sampleReconciler sampleService.key ignoredService _ plainQuote
    sampleMachinery ignoreRun hkeep rfl ⟨⟨rfl, rfl⟩, ⟨rfl, rfl⟩, rfl, rfl⟩ rfl rfl
  exact absurd (hiff.mp hroute) (by decide)

/-- A Service that loses its label keeps its generated route, with nothing left to do. -/
theorem dropped_label_keeps_the_route :
    ∃ s, exec (@step plainQuote sampleReconciler sampleMachinery) {}
        (discoverRun ++ [.editService unlabelledService, .syncServices, .serviceEvent]) = some s ∧
      s.Quiescent ∧ s.services.store.get sampleService.key = some unlabelledService ∧
      unlabelledService.metadata.beingDeleted = false ∧
      ¬ sampleReconciler.matchesSelector unlabelledService ∧
      ∃ route, s.routes.store.get (generatedKey unlabelledService.key) = some route ∧
        route.discoveryManaged ∧ ControlledBy unlabelledService route :=
  ⟨_, rfl, ⟨⟨rfl, rfl⟩, ⟨rfl, rfl⟩, rfl, rfl⟩, rfl, rfl, by decide, _, rfl, by decide, _, rfl, rfl⟩

end Loop
end PgProxy
