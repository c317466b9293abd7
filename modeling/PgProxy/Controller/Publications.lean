import PgProxy.Controller.RouteTable
import PgProxy.Registry.Award

/-!
# What a published snapshot was built from

A rebuild lists the routes once and resolves them over a longer time, with whatever the
resolver answers then. Still every decision of a published snapshot is one that the award
loop made for an object of that list, and as long as the cache does not change the list
of the snapshot in force is the content of the cache.
-/

namespace PgProxy
set_option autoImplicit false

variable {Pool : Type} [GoFmt]

variable (Pool) in
/-- A decision the award loop makes for this object, with some answer of the resolver. -/
def Decides (clusterDomain : GoString) (r : PostgresRoute) (d : Decision) : Prop :=
  (∃ resolver : Resolver Pool, d = wonDecision resolver clusterDomain r) ∨
    ∃ winner, d = lostDecision winner r

theorem buildStep_decides (resolver : Resolver Pool) (clusterDomain : GoString)
    (st : BuildState Pool) (r : PostgresRoute) :
    ∃ d, Decides Pool clusterDomain r d ∧
      (buildStep resolver clusterDomain st r).decisions = st.decisions.insert r.key d := by
  cases hw : st.winners.lookup r.effectiveDatabase with
  | none => exact ⟨_, Or.inl ⟨resolver, rfl⟩, by rw [buildStep_of_free hw]⟩
  | some winner => exact ⟨_, Or.inr ⟨winner, rfl⟩, by rw [buildStep_of_taken hw]⟩

/-- The decisions of the loop after the routes `done`. -/
def Decided (clusterDomain : GoString) (done : List PostgresRoute) (st : BuildState Pool) : Prop :=
  ∀ r ∈ done, ∃ d, st.decisions.lookup r.key = some d ∧ Decides Pool clusterDomain r d

theorem Decided.step {clusterDomain : GoString} {done : List PostgresRoute}
    {st : BuildState Pool} (h : Decided clusterDomain done st) {r : PostgresRoute}
    (hfresh : r.key ∉ done.map PostgresRoute.key) (resolver : Resolver Pool) :
    Decided clusterDomain (done ++ [r]) (buildStep resolver clusterDomain st r) := by
  obtain ⟨d, hd, hdecisions⟩ := buildStep_decides resolver clusterDomain st r
  intro r' hr'
  rw [hdecisions]
  rcases List.mem_append.mp hr' with hmem | hmem
  · have hne : r'.key ≠ r.key := fun he => hfresh (he ▸ List.mem_map_of_mem hmem)
    obtain ⟨d', hlookup, hd'⟩ := h r' hmem
    exact ⟨d', by rw [Finmap.lookup_insert_of_ne _ hne, hlookup], hd'⟩
  · obtain rfl := List.mem_singleton.mp hmem
    exact ⟨d, Finmap.lookup_insert _, hd⟩

def Publication.Sound (clusterDomain : GoString) (p : Publication Pool) : Prop :=
  ∀ r ∈ p.routes, ∃ d, p.snapshot.decision r.key = some d ∧ Decides Pool clusterDomain r d

namespace RouteTable

/-- Where the maps of a build and the published snapshots come from. -/
structure Documented (clusterDomain : GoString) (s : RouteTable Pool) : Prop where
  building : ∀ routes rest st, s.phase = .building routes rest st → DistinctKeys routes ∧
    ∃ done, sliceStable less routes = done ++ rest ∧ Decided clusterDomain done st
  inForce : ∀ p ∈ s.published.getLast?, p.snapshot = s.store
  sound : ∀ p ∈ s.published, p.Sound clusterDomain

theorem documented_start (b : RouteTableBuilder) :
    (start b : RouteTable Pool).Documented b.clusterDomain where
  building _ _ _ h := by simp [start] at h
  inForce _ h := by simp [start] at h
  sound _ h := by simp [start] at h

theorem Documented.cacheChanged {clusterDomain : GoString} {s : RouteTable Pool}
    (h : s.Documented clusterDomain) (kind : ObjectKind) :
    (s.cacheChanged kind).Documented clusterDomain :=
  ⟨h.building, h.inForce, h.sound⟩

theorem Documented.leave {clusterDomain : GoString} {s : RouteTable Pool}
    (h : s.Documented clusterDomain) {t : RouteTable Pool}
    (hphase : ∀ routes rest st, t.phase ≠ .building routes rest st) (hstore : t.store = s.store)
    (hpublished : t.published = s.published) : t.Documented clusterDomain where
  building routes rest st hb := absurd hb (hphase routes rest st)
  inForce := by rw [hstore, hpublished]; exact h.inForce
  sound := by rw [hpublished]; exact h.sound

theorem Documented.step {b : RouteTableBuilder} {cache : Store PostgresRoute.key}
    {s t : RouteTable Pool} {a : TableAction Pool} (h : s.Documented b.clusterDomain)
    (hmove : Move b cache s a t) : t.Documented b.clusterDomain := by
  cases hmove with
  | @registered _ _ rest _ =>
    exact h.leave (fun _ _ _ hb => by cases rest <;> simp [BuilderPhase.watchRest] at hb) rfl rfl
  | listFailed | notified | rebuilt | ticked =>
    exact h.leave (fun _ _ _ hb => by simp at hb) rfl rfl
  | scheduled | received | fired => exact ⟨h.building, h.inForce, h.sound⟩
  | @listed routes _ hlists =>
    refine ⟨fun routes' rest st hb => ?_, h.inForce, h.sound⟩
    cases hb
    exact ⟨hlists.nodup, [], rfl, fun r hr => by simp at hr⟩
  | @resolved resolver routes rest route st hphase =>
    obtain ⟨hdistinct, done, hsorted, hdecided⟩ := h.building _ _ _ hphase
    refine ⟨fun routes' rest' st' hb => ?_, h.inForce, h.sound⟩
    cases hb
    have hnodup := hdistinct.perm (sliceStable_perm less routes).symm
    rw [hsorted, DistinctKeys, List.map_append, List.map_cons] at hnodup
    have hfresh : route.key ∉ done.map PostgresRoute.key := by
      intro hmem
      exact (List.nodup_append.mp hnodup).2.2 _ hmem _ List.mem_cons_self rfl
    exact ⟨hdistinct, done ++ [route], by simp [hsorted], hdecided.step hfresh resolver⟩
  | @published changed routes st hphase =>
    obtain ⟨-, done, hsorted, hdecided⟩ := h.building _ _ _ hphase
    rw [List.append_nil] at hsorted
    refine ⟨fun _ _ _ hb => by simp at hb, fun p hp => ?_, fun p hp => ?_⟩
    · simp only [List.getLast?_append, List.getLast?_singleton, Option.some_or,
        Option.mem_some] at hp
      exact hp ▸ rfl
    · rcases List.mem_append.mp hp with hp | hp
      · exact h.sound p hp
      · obtain rfl := List.mem_singleton.mp hp
        intro r hr
        exact hdecided r (hsorted ▸ (sliceStable_perm less routes).symm.subset hr)

/-- While the cache stays as it was listed, the snapshot in force is built from it. -/
def Tracks (cache : Store PostgresRoute.key) (s : RouteTable Pool) : Prop :=
  s.unlisted = false →
    match s.phase with
    | .watching _ => False
    | .building routes _ _ => cache.Lists routes
    | .listing | .notifying _ | .selecting =>
      ∃ p ∈ s.published, p.snapshot = s.store ∧ cache.Lists p.routes

omit [GoFmt] in
theorem tracks_cacheChanged (cache : Store PostgresRoute.key) (s : RouteTable Pool)
    (kind : ObjectKind) : (s.cacheChanged kind).Tracks cache := by
  intro h
  simp [cacheChanged] at h

theorem Tracks.step {b : RouteTableBuilder} {cache : Store PostgresRoute.key}
    {s t : RouteTable Pool} {a : TableAction Pool} (h : s.Tracks cache)
    (hmove : Move b cache s a t) (ha : a ≠ .listFails) : t.Tracks cache := by
  intro hun
  cases hmove with
  | registered hphase =>
    have := h hun
    simp [hphase] at this
  | listed _ hlists => exact hlists
  | listFailed => exact absurd rfl ha
  | resolved hphase =>
    have hlists := h hun
    simpa [hphase] using hlists
  | @published changed routes st hphase =>
    have hlists := h hun
    simp only [hphase] at hlists
    exact ⟨_, List.mem_append_right _ List.mem_cons_self, rfl, hlists⟩
  | notified hphase | rebuilt hphase | ticked hphase =>
    have htracks := h hun
    simpa [hphase] using htracks
  | scheduled | received | fired => exact h hun

end RouteTable
end PgProxy
