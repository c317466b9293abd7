import PgProxy.Controller.DiscoveryRaces

/-!
# Generated routes and their owners

Discovery does not remove the route of a Service that is gone. It leaves that to the garbage
collector, which goes by the UID in the owner reference and may meet the route at any time: after
the Service was deleted, while another one of the same name is being created, or after a Reconcile
that still had the old one in hand. Every generated route names a Service that was created under
the name it was generated for, and no Service of another name ever has that UID.
-/

namespace PgProxy
set_option autoImplicit false

namespace Loop

/-- The UID of the Service was given out, and only ever to Services of its name. -/
structure Created (s : Loop) (svc : Service) : Prop where
  uid : svc.metadata.uid ∈ s.uids
  only : ∀ k now, s.services.store.get k = some now →
    now.metadata.uid = svc.metadata.uid → now.key = svc.key

structure Owned (s : Loop) : Prop where
  held : ∀ k svc, s.services.Holds k svc ∨ s.HasRead k svc → s.Created svc
  owned : ∀ k route, s.routes.store.get k = some route → route.discoveryManaged →
    ∃ svc, Generated svc route ∧ s.Created svc

/-- What a step does to the Services and their informer. -/
inductive ServicesMove (s t : Loop) : Prop
  | kept (huids : t.uids = s.uids) (hstore : t.services.store = s.services.store)
      (hholds : ∀ k svc, t.services.Holds k svc → s.services.Holds k svc)
  | put {new : Service} (hservices : t.services = s.services.write (.put new))
      (hsub : s.uids ⊆ t.uids)
      (hnew : (new.metadata.uid ∉ s.uids ∧ new.metadata.uid ∈ t.uids) ∨
        ∃ old, s.services.store.get new.key = some old ∧ old.metadata.uid = new.metadata.uid)
  | removed {key : NamespacedName} (hservices : t.services = s.services.write (.remove key))
      (huids : t.uids = s.uids)

section Services
variable {r : ServiceDiscoveryReconciler} {m : Machinery} {s t : Loop} {svc : Service}

theorem stored_of_put {new now : Service} {k : NamespacedName}
    (h : (s.services.write (.put new)).store.get k = some now) :
    now = new ∨ s.services.store.get k = some now := by
  by_cases hk : k = new.key
  · subst hk
    exact .inl (Option.some.inj (h.symm.trans (Store.get_apply_self s.services.store (.put new))))
  · exact .inr ((Store.get_apply_ne s.services.store (c := .put new) hk).symm.trans h)

theorem stored_of_remove {now : Service} {k key : NamespacedName}
    (h : (s.services.write (.remove key)).store.get k = some now) :
    s.services.store.get k = some now := by
  have hk : k ≠ key := by
    rintro rfl
    have hnone : (s.services.write (.remove k)).store.get k = none :=
      Store.get_apply_self s.services.store (.remove k)
    exact absurd (hnone.symm.trans h) (by simp)
  exact (Store.get_apply_ne s.services.store (c := .remove key) hk).symm.trans h

theorem Created.move (h : s.Created svc) (hmove : ServicesMove s t) : t.Created svc := by
  cases hmove with
  | kept huids hstore =>
    exact ⟨huids ▸ h.uid, fun k now hnow => h.only k now (hstore ▸ hnow)⟩
  | put hservices hsub hnew =>
    refine ⟨hsub h.uid, fun k now hnow heq => ?_⟩
    rcases stored_of_put (hservices ▸ hnow) with rfl | hold
    · rcases hnew with ⟨hfresh, -⟩ | ⟨old, hold, hsame⟩
      · exact absurd (heq ▸ h.uid) hfresh
      · rw [← h.only _ old hold (hsame.trans heq), Store.key_of_get hold]
    · exact h.only k now hold heq
  | removed hservices huids =>
    exact ⟨huids ▸ h.uid, fun k now hnow => h.only k now (stored_of_remove (hservices ▸ hnow))⟩

theorem Owned.stored (h : s.Owned) {k : NamespacedName} (hsvc : s.services.store.get k = some svc) :
    s.Created svc :=
  h.held k svc (.inl (Watched.cached_or_unseen hsvc))

theorem Owned.created_put (h : s.Owned) {new : Service}
    (hservices : t.services = s.services.write (.put new)) (hsub : s.uids ⊆ t.uids)
    (hnew : (new.metadata.uid ∉ s.uids ∧ new.metadata.uid ∈ t.uids) ∨
      ∃ old, s.services.store.get new.key = some old ∧ old.metadata.uid = new.metadata.uid) :
    t.Created new := by
  have huid : new.metadata.uid ∈ t.uids := by
    rcases hnew with ⟨-, huid⟩ | ⟨old, hold, hsame⟩
    · exact huid
    · exact hsame ▸ hsub (h.stored hold).uid
  refine ⟨huid, fun k now hnow heq => ?_⟩
  rcases stored_of_put (hservices ▸ hnow) with rfl | hold
  · rfl
  · rcases hnew with ⟨hfresh, -⟩ | ⟨old, hstored, hsame⟩
    · exact absurd (heq ▸ (h.stored hold).uid) hfresh
    · rw [(h.stored hstored).only k now hold (heq.trans hsame.symm), Store.key_of_get hstored]

theorem Owned.held_move (h : s.Owned) (hmove : ServicesMove s t) {k : NamespacedName}
    (hholds : t.services.Holds k svc) : t.Created svc := by
  have hbefore : ∀ k, s.services.Holds k svc → t.Created svc := fun k hold =>
    (h.held k svc (.inl hold)).move hmove
  cases hmove with
  | kept huids hstore hkept => exact hbefore k (hkept k svc hholds)
  | put hservices hsub hnew =>
    rcases Watched.holds_of_write (hservices ▸ hholds) with hold | ⟨-, hresult⟩
    · exact hbefore k hold
    · obtain rfl := Option.some.inj hresult
      exact h.created_put hservices hsub hnew
  | removed hservices huids =>
    rcases Watched.holds_of_write (hservices ▸ hholds) with hold | ⟨-, hresult⟩
    · exact hbefore k hold
    · exact absurd hresult (by simp [Change.result])

variable [GoFmt]

end Services

/-! ## Routes -/

section Routes
variable [GoFmt] {r : ServiceDiscoveryReconciler} {m : Machinery} {s t : Loop}

omit [GoFmt] in
theorem stored_of_writeRoutes {c : Change PostgresRoute.key} {k : NamespacedName}
    {route : PostgresRoute} (h : (s.writeRoutes (some c)).routes.store.get k = some route) :
    s.routes.store.get k = some route ∨ k = c.target ∧ c.result = some route := by
  by_cases hk : k = c.target
  · subst hk
    exact .inr ⟨rfl, (Store.get_apply_self s.routes.store c).symm.trans h⟩
  · exact .inl ((Store.get_apply_ne s.routes.store hk).symm.trans h)

omit [GoFmt] in
theorem Owned.deleteService (h : s.Owned) (key : NamespacedName) :
    ({ s with services := s.services.write (.remove key) } : Loop).Owned := by
  have hmove : ServicesMove s { s with services := s.services.write (.remove key) } :=
    .removed rfl rfl
  refine ⟨fun k svc hheld => ?_, fun k route hroute hmanaged => ?_⟩
  · rcases hheld with hholds | hread
    · exact h.held_move hmove hholds
    · exact (h.held k svc (.inr hread)).move hmove
  · obtain ⟨svc, hgen, hcreated⟩ := h.owned k route hroute hmanaged
    exact ⟨svc, hgen, hcreated.move hmove⟩

/-- Nobody but discovery puts its label on a route, or gives another controller to a route that
has it. -/
def Unforged (s : Loop) : ClusterAction → Prop
  | .putRoute route => route.discoveryManaged → ∃ old, s.routes.store.get route.key = some old ∧
      old.discoveryManaged ∧ old.metadata.controllerOf = route.metadata.controllerOf
  | _ => True

omit [GoFmt] in
theorem Owned.putRoute (h : s.Owned) {route : PostgresRoute}
    (hunforged : s.Unforged (.putRoute route)) (version : Nat) :
    (s.writeRoutes (some (.put (commit.stamped version route)))).Owned := by
  refine ⟨fun k svc hheld => ?_, fun k now hnow hmanaged => ?_⟩
  · obtain ⟨huid, honly⟩ := h.held k svc hheld
    exact ⟨huid, honly⟩
  · have hbefore : ∃ svc, Generated svc now ∧ s.Created svc := by
      rcases stored_of_writeRoutes hnow with hold | ⟨rfl, hresult⟩
      · exact h.owned k now hold hmanaged
      · obtain rfl := Option.some.inj hresult
        obtain ⟨old, hold, holdmanaged, hcontroller⟩ := hunforged hmanaged
        obtain ⟨svc, hgen, hcreated⟩ := h.owned _ old hold holdmanaged
        exact ⟨svc, ⟨(Store.key_of_get hold).symm.trans hgen.key, hmanaged,
          hcontroller.symm.trans hgen.controller⟩, hcreated⟩
    obtain ⟨svc, hgen, huid, honly⟩ := hbefore
    exact ⟨svc, hgen, huid, honly⟩

end Routes

end Loop
end PgProxy
