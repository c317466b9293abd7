import PgProxy.Controller.Publications
import PgProxy.Controller.Wakeup
import PgProxy.Registry.Specification

/-!
# Where the entries of a published table come from

The resolver may answer differently from one route of a build to the next, and the cache may
have moved on by the time the snapshot is published. Still an entry of the table belongs to the
route that wins its name in the list of that build, it is what that route once resolved to, and
it is there exactly if the decision of the route says that it is programmed.
-/

namespace PgProxy
set_option autoImplicit false

variable {Pool : Type}

def routedDecision (database : GoString) (route : Route Pool) : Decision :=
  { database, accepted := true, endpoint := route.address }

section Build
variable [GoFmt] {clusterDomain : GoString}

/-- The maps of the award loop after the routes `done`, each of them resolved with some
resolver. -/
structure Routed (clusterDomain : GoString) (done : List PostgresRoute) (st : BuildState Pool) :
    Prop where
  winners : ∀ database, st.winners.lookup database =
    (firstClaimant done database).map PostgresRoute.key
  routed : ∀ database route, st.table.lookup database = some route →
    ∃ w, firstClaimant done database = some w ∧
      (∃ resolver : Resolver Pool, resolve resolver clusterDomain w = .ok route) ∧
      st.decisions.lookup w.key = some (routedDecision database route)
  programmed : ∀ key d, st.decisions.lookup key = some d → d.programmed = true →
    ∃ route, st.table.lookup d.database = some route ∧ route.source = key ∧
      d = routedDecision d.database route

theorem Routed.nil : Routed clusterDomain [] ({} : BuildState Pool) :=
  ⟨fun _ => by simp [firstClaimant], fun _ _ h => by simp at h, fun _ _ h => by simp at h⟩

omit [GoFmt] in
theorem firstClaimant_snoc_of_some {done : List PostgresRoute} {database : GoString}
    {w : PostgresRoute} (h : firstClaimant done database = some w) (r : PostgresRoute) :
    firstClaimant (done ++ [r]) database = some w := by
  rw [firstClaimant_snoc, h, Option.some_or]

variable {done : List PostgresRoute} {st : BuildState Pool} {r : PostgresRoute}

theorem Routed.routed_before (h : Routed clusterDomain done st)
    (hfresh : r.key ∉ done.map PostgresRoute.key) (d : Decision) {database : GoString}
    {route : Route Pool} (hroute : st.table.lookup database = some route) :
    ∃ w, firstClaimant (done ++ [r]) database = some w ∧
      (∃ resolver : Resolver Pool, resolve resolver clusterDomain w = .ok route) ∧
      (st.decisions.insert r.key d).lookup w.key = some (routedDecision database route) := by
  obtain ⟨w, hw, hresolved, hdecision⟩ := h.routed database route hroute
  have hne : w.key ≠ r.key := by
    intro heq
    exact hfresh (heq ▸ List.mem_map_of_mem (firstClaimant_some hw).1)
  exact ⟨w, firstClaimant_snoc_of_some hw r, hresolved,
    by rw [Finmap.lookup_insert_of_ne _ hne, hdecision]⟩

theorem Routed.step_taken (h : Routed clusterDomain done st)
    (hfresh : r.key ∉ done.map PostgresRoute.key) {winner : NamespacedName}
    (htaken : st.winners.lookup r.effectiveDatabase = some winner) :
    Routed clusterDomain (done ++ [r])
      { st with decisions := st.decisions.insert r.key (lostDecision winner r) } := by
  refine ⟨?_, fun database route => h.routed_before hfresh _, ?_⟩
  · intro database
    rw [h.winners, firstClaimant_snoc]
    cases hclaimed : firstClaimant done database with
    | some w => rfl
    | none =>
      have hother : r.effectiveDatabase ≠ database := by
        rintro rfl
        rw [h.winners, hclaimed] at htaken
        simp at htaken
      rw [Option.none_or, if_neg hother]
  · intro key d hd hprogrammed
    by_cases hkey : key = r.key
    · subst hkey
      rw [Finmap.lookup_insert, Option.some.injEq] at hd
      rw [← hd] at hprogrammed
      simp [lostDecision, Decision.programmed] at hprogrammed
    · rw [Finmap.lookup_insert_of_ne _ hkey] at hd
      exact h.programmed key d hd hprogrammed

theorem Routed.winners_free (h : Routed clusterDomain done st)
    (hclaimed : firstClaimant done r.effectiveDatabase = none) (database : GoString) :
    (st.winners.insert r.effectiveDatabase r.key).lookup database =
      (firstClaimant (done ++ [r]) database).map PostgresRoute.key := by
  rw [firstClaimant_snoc]
  by_cases hdb : database = r.effectiveDatabase
  · subst hdb
    rw [Finmap.lookup_insert, hclaimed, Option.none_or, if_pos rfl]
    rfl
  · rw [Finmap.lookup_insert_of_ne _ hdb, h.winners, if_neg (Ne.symm hdb), Option.or_none]

theorem Routed.step_unresolved (h : Routed clusterDomain done st)
    (hfresh : r.key ∉ done.map PostgresRoute.key)
    (hclaimed : firstClaimant done r.effectiveDatabase = none) (e : GoError) :
    Routed clusterDomain (done ++ [r])
      { st with
        winners := st.winners.insert r.effectiveDatabase r.key
        decisions := st.decisions.insert r.key
          { database := r.effectiveDatabase, accepted := true, resolveErr := some e } } := by
  refine ⟨h.winners_free hclaimed, fun database route => h.routed_before hfresh _, ?_⟩
  intro key d hd hprogrammed
  by_cases hkey : key = r.key
  · subst hkey
    rw [Finmap.lookup_insert, Option.some.injEq] at hd
    rw [← hd] at hprogrammed
    simp [Decision.programmed] at hprogrammed
  · rw [Finmap.lookup_insert_of_ne _ hkey] at hd
    exact h.programmed key d hd hprogrammed

theorem Routed.step_resolved (h : Routed clusterDomain done st)
    (hfresh : r.key ∉ done.map PostgresRoute.key)
    (hclaimed : firstClaimant done r.effectiveDatabase = none) {resolver : Resolver Pool}
    {route : Route Pool} (hresolved : resolve resolver clusterDomain r = .ok route) :
    Routed clusterDomain (done ++ [r])
      { winners := st.winners.insert r.effectiveDatabase r.key
        table := st.table.insert r.effectiveDatabase route
        decisions := st.decisions.insert r.key (routedDecision r.effectiveDatabase route) } := by
  obtain ⟨hsource, hdatabase, -⟩ := resolve_names hresolved
  refine ⟨h.winners_free hclaimed, ?_, ?_⟩
  · intro database route' hroute'
    by_cases hdb : database = r.effectiveDatabase
    · subst hdb
      rw [Finmap.lookup_insert, Option.some.injEq] at hroute'
      subst hroute'
      refine ⟨r, ?_, ⟨resolver, hresolved⟩, Finmap.lookup_insert _⟩
      rw [firstClaimant_snoc, hclaimed, Option.none_or, if_pos rfl]
    · rw [Finmap.lookup_insert_of_ne _ hdb] at hroute'
      exact h.routed_before hfresh _ hroute'
  · intro key d hd hprogrammed
    by_cases hkey : key = r.key
    · subst hkey
      rw [Finmap.lookup_insert, Option.some.injEq] at hd
      subst hd
      exact ⟨route, Finmap.lookup_insert _, hsource, rfl⟩
    · rw [Finmap.lookup_insert_of_ne _ hkey] at hd
      obtain ⟨route', hroute', hsource', heq⟩ := h.programmed key d hd hprogrammed
      -- a name that is routed already has a claimant
      obtain ⟨w, hw, -⟩ := h.routed _ _ hroute'
      have hdb : d.database ≠ r.effectiveDatabase := by
        intro hdb
        rw [hdb, hclaimed] at hw
        simp at hw
      exact ⟨route', by rw [Finmap.lookup_insert_of_ne _ hdb, hroute'], hsource', heq⟩

theorem Routed.step (h : Routed clusterDomain done st)
    (hfresh : r.key ∉ done.map PostgresRoute.key) (resolver : Resolver Pool) :
    Routed clusterDomain (done ++ [r]) (buildStep resolver clusterDomain st r) := by
  cases hwinner : st.winners.lookup r.effectiveDatabase with
  | some winner =>
    rw [buildStep_of_taken hwinner]
    exact h.step_taken hfresh hwinner
  | none =>
    have hclaimed : firstClaimant done r.effectiveDatabase = none := by
      rwa [h.winners, Option.map_eq_none_iff] at hwinner
    rw [buildStep_of_free hwinner, wonDecision]
    cases hresolved : resolve resolver clusterDomain r with
    | error e => exact h.step_unresolved hfresh hclaimed e
    | ok route => exact h.step_resolved hfresh hclaimed hresolved

end Build

/-- The table of a publication, its decisions and the list it was built from. -/
structure Publication.Programs [GoFmt] (clusterDomain : GoString) (p : Publication Pool) :
    Prop where
  routed : ∀ database route, p.snapshot.table.lookup database = some route →
    ∃ w, Wins p.routes database w ∧
      (∃ resolver : Resolver Pool, resolve resolver clusterDomain w = .ok route) ∧
      p.snapshot.decision w.key = some (routedDecision database route)
  programmed : ∀ key d, p.snapshot.decision key = some d → d.programmed = true →
    ∃ route, p.snapshot.table.lookup d.database = some route ∧ route.source = key ∧
      d = routedDecision d.database route

theorem Routed.programs [GoFmt] {clusterDomain : GoString} {routes : List PostgresRoute}
    {st : BuildState Pool} (hd : DistinctKeys routes)
    (h : Routed clusterDomain (sliceStable less routes) st) :
    Publication.Programs clusterDomain { routes, snapshot := RouteTable.snapshot st } := by
  refine ⟨?_, h.programmed⟩
  intro database route hroute
  obtain ⟨w, hw, hresolved, hdecision⟩ := h.routed database route hroute
  exact ⟨w, wins_of_firstClaimant hd hw, hresolved, hdecision⟩

namespace RouteTable

/-- `L` holds of every list that a build has worked on. -/
structure Listed (L : List PostgresRoute → Prop) (s : RouteTable Pool) : Prop where
  building : ∀ routes rest st, s.phase = .building routes rest st → L routes
  published : ∀ p ∈ s.published, L p.routes

/-- Every build does what the award loop does, and the store is empty or holds a snapshot that
was published. -/
structure Programs [GoFmt] (clusterDomain : GoString) (s : RouteTable Pool) : Prop where
  building : ∀ routes rest st, s.phase = .building routes rest st → DistinctKeys routes ∧
    ∃ done, sliceStable less routes = done ++ rest ∧ Routed clusterDomain done st
  offered : ∀ database route, s.store.table.lookup database = some route →
    ∃ p ∈ s.published, p.snapshot = s.store
  published : ∀ p ∈ s.published, p.Programs clusterDomain

theorem Listed.start (L : List PostgresRoute → Prop) (b : RouteTableBuilder) :
    (start b : RouteTable Pool).Listed L :=
  ⟨fun _ _ _ h => by simp [RouteTable.start] at h, fun _ h => by simp [RouteTable.start] at h⟩

theorem Listed.mono {L L' : List PostgresRoute → Prop} (himp : ∀ routes, L routes → L' routes)
    {s : RouteTable Pool} (h : s.Listed L) : s.Listed L' :=
  ⟨fun routes rest st hphase => himp _ (h.building routes rest st hphase),
    fun p hp => himp _ (h.published p hp)⟩

section Steps
variable [GoFmt] {b : RouteTableBuilder} {cache : Store PostgresRoute.key}
variable {s t : RouteTable Pool} {a : TableAction Pool}

theorem Listed.step {L : List PostgresRoute → Prop} (h : s.Listed L)
    (hlist : ∀ routes, cache.Lists routes → L routes) (hmove : Move b cache s a t) :
    t.Listed L := by
  cases hmove with
  | @registered _ _ rest _ =>
    refine ⟨fun _ _ _ hb => ?_, h.published⟩
    cases rest <;> simp [BuilderPhase.watchRest] at hb
  | listFailed | notified | rebuilt | ticked => exact ⟨fun _ _ _ hb => by simp at hb, h.published⟩
  | scheduled | received | fired => exact ⟨h.building, h.published⟩
  | listed hphase hlists =>
    refine ⟨fun routes rest st hb => ?_, h.published⟩
    cases hb
    exact hlist _ hlists
  | resolved hphase =>
    refine ⟨fun routes rest st hb => ?_, h.published⟩
    cases hb
    exact h.building _ _ _ hphase
  | published hphase =>
    refine ⟨fun _ _ _ hb => by simp at hb, fun p hp => ?_⟩
    rcases List.mem_append.mp hp with hold | hnew
    · exact h.published p hold
    · obtain rfl := List.mem_singleton.mp hnew
      exact h.building _ _ _ hphase

theorem Programs.start (b : RouteTableBuilder) :
    (start b : RouteTable Pool).Programs b.clusterDomain where
  building _ _ _ h := by simp [RouteTable.start] at h
  offered database route h := by simp [RouteTable.start, Table.new, Table.lookup] at h
  published _ h := by simp [RouteTable.start] at h

theorem Programs.cacheChanged {clusterDomain : GoString} (h : s.Programs clusterDomain)
    (kind : ObjectKind) : (s.cacheChanged kind).Programs clusterDomain :=
  ⟨h.building, h.offered, h.published⟩

theorem Programs.step (h : s.Programs b.clusterDomain) (hmove : Move b cache s a t) :
    t.Programs b.clusterDomain := by
  cases hmove with
  | @registered _ _ rest _ =>
    refine ⟨fun _ _ _ hb => ?_, h.offered, h.published⟩
    cases rest <;> simp [BuilderPhase.watchRest] at hb
  | listFailed | notified | rebuilt | ticked =>
    exact ⟨fun _ _ _ hb => by simp at hb, h.offered, h.published⟩
  | scheduled | received | fired => exact ⟨h.building, h.offered, h.published⟩
  | listed hphase hlists =>
    refine ⟨fun routes rest st hb => ?_, h.offered, h.published⟩
    cases hb
    exact ⟨hlists.nodup, [], rfl, .nil⟩
  | @resolved resolver routes rest route st hphase =>
    obtain ⟨hdistinct, done, hsorted, hrouted⟩ := h.building _ _ _ hphase
    refine ⟨fun routes' rest' st' hb => ?_, h.offered, h.published⟩
    cases hb
    have hnodup := hdistinct.perm (sliceStable_perm less routes).symm
    rw [hsorted, DistinctKeys, List.map_append, List.map_cons] at hnodup
    have hfresh : route.key ∉ done.map PostgresRoute.key := by
      intro hmem
      exact (List.nodup_append.mp hnodup).2.2 _ hmem _ List.mem_cons_self rfl
    exact ⟨hdistinct, done ++ [route], by simp [hsorted], hrouted.step hfresh resolver⟩
  | @published changed routes st hphase =>
    obtain ⟨hdistinct, done, hsorted, hrouted⟩ := h.building _ _ _ hphase
    rw [List.append_nil] at hsorted
    refine ⟨fun _ _ _ hb => by simp at hb, fun _ _ _ => ?_, fun p hp => ?_⟩
    · exact ⟨_, List.mem_append_right _ List.mem_cons_self, rfl⟩
    · rcases List.mem_append.mp hp with hold | hnew
      · exact h.published p hold
      · obtain rfl := List.mem_singleton.mp hnew
        exact (hsorted ▸ hrouted).programs hdistinct

end Steps

end RouteTable
end PgProxy
