import PgProxy.Registry.Agreement

/-!
# What the award loop computes

The abstract rule: a name belongs to its first claimant in the sorted list, the
table holds what that claimant resolves to, and every other claimant loses to it.
`Awarded` relates the three maps of the loop to this rule for the routes seen so
far; one iteration extends it by one route.
-/

namespace PgProxy
set_option autoImplicit false

def firstClaimant (routes : List PostgresRoute) (database : GoString) : Option PostgresRoute :=
  routes.find? fun r => r.effectiveDatabase = database

def routeWithKey (routes : List PostgresRoute) (key : NamespacedName) : Option PostgresRoute :=
  routes.find? fun r => r.key = key

theorem firstClaimant_some {routes : List PostgresRoute} {database : GoString}
    {w : PostgresRoute} (h : firstClaimant routes database = some w) :
    w ∈ routes ∧ w.effectiveDatabase = database :=
  ⟨List.mem_of_find?_eq_some h, by simpa using List.find?_some h⟩

theorem exists_firstClaimant {routes : List PostgresRoute} {r : PostgresRoute}
    (h : r ∈ routes) : ∃ w, firstClaimant routes r.effectiveDatabase = some w := by
  rw [← Option.isSome_iff_exists, firstClaimant, List.find?_isSome]
  exact ⟨r, h, by simp⟩

theorem routeWithKey_of_mem {routes : List PostgresRoute} (hd : DistinctKeys routes)
    {r : PostgresRoute} (h : r ∈ routes) : routeWithKey routes r.key = some r := by
  cases hf : routeWithKey routes r.key with
  | none =>
    have hnone := List.find?_eq_none.mp hf r h
    simp at hnone
  | some r' =>
    have hmem := List.mem_of_find?_eq_some hf
    have hkey : r'.key = r.key := by simpa using List.find?_some hf
    exact congrArg some (hd.eq_of_key hmem h hkey)

theorem firstClaimant_snoc (seen : List PostgresRoute) (r : PostgresRoute) (d : GoString) :
    firstClaimant (seen ++ [r]) d =
      (firstClaimant seen d).or (if r.effectiveDatabase = d then some r else none) := by
  simp only [firstClaimant, List.find?_append, List.find?_singleton, decide_eq_true_eq]

theorem routeWithKey_snoc (seen : List PostgresRoute) (r : PostgresRoute) (k : NamespacedName) :
    routeWithKey (seen ++ [r]) k =
      (routeWithKey seen k).or (if r.key = k then some r else none) := by
  simp only [routeWithKey, List.find?_append, List.find?_singleton, decide_eq_true_eq]

section Award
variable {Pool : Type} [GoFmt] (resolver : Resolver Pool) (clusterDomain : GoString)

def wonDecision (r : PostgresRoute) : Decision :=
  match resolve resolver clusterDomain r with
  | .error e => { database := r.effectiveDatabase, accepted := true, resolveErr := some e }
  | .ok route =>
    { database := r.effectiveDatabase, accepted := true, endpoint := route.address }

def lostDecision (winner : NamespacedName) (r : PostgresRoute) : Decision :=
  { database := r.effectiveDatabase, accepted := false, conflictsWith := winner }

def verdict (routes : List PostgresRoute) (r : PostgresRoute) : Decision :=
  match firstClaimant routes r.effectiveDatabase with
  | some w => if w.key = r.key then wonDecision resolver clusterDomain r else lostDecision w.key r
  | none => wonDecision resolver clusterDomain r

/-- The maps of the loop after the routes `seen`. -/
structure Awarded (seen : List PostgresRoute) (st : BuildState Pool) : Prop where
  winners : ∀ d, st.winners.lookup d = (firstClaimant seen d).map PostgresRoute.key
  table : ∀ d, st.table.lookup d =
    (firstClaimant seen d).bind fun w => (resolve resolver clusterDomain w).toOption
  decisions : ∀ k, st.decisions.lookup k =
    (routeWithKey seen k).map (verdict resolver clusterDomain seen)

variable {resolver clusterDomain}

theorem verdict_snoc {seen : List PostgresRoute} {r : PostgresRoute} (h : r ∈ seen)
    (next : PostgresRoute) :
    verdict resolver clusterDomain (seen ++ [next]) r = verdict resolver clusterDomain seen r := by
  obtain ⟨w, hw⟩ := exists_firstClaimant h
  simp only [verdict, firstClaimant_snoc, hw, Option.some_or]

theorem buildStep_of_taken {st : BuildState Pool} {r : PostgresRoute} {winner : NamespacedName}
    (h : st.winners.lookup r.effectiveDatabase = some winner) :
    buildStep resolver clusterDomain st r =
      { st with decisions := st.decisions.insert r.key (lostDecision winner r) } := by
  simp only [buildStep, h, lostDecision]

theorem buildStep_of_free {st : BuildState Pool} {r : PostgresRoute}
    (h : st.winners.lookup r.effectiveDatabase = none) :
    buildStep resolver clusterDomain st r =
      { winners := st.winners.insert r.effectiveDatabase r.key
        table := match resolve resolver clusterDomain r with
          | .error _ => st.table
          | .ok route => st.table.insert r.effectiveDatabase route
        decisions := st.decisions.insert r.key (wonDecision resolver clusterDomain r) } := by
  simp only [buildStep, h, wonDecision]
  cases resolve resolver clusterDomain r <;> rfl

theorem verdict_of_taken {seen : List PostgresRoute} {r w : PostgresRoute}
    (hw : firstClaimant seen r.effectiveDatabase = some w) (hne : w.key ≠ r.key) :
    verdict resolver clusterDomain (seen ++ [r]) r = lostDecision w.key r := by
  simp only [verdict, firstClaimant_snoc, hw, Option.some_or, if_neg hne]

theorem verdict_of_free {seen : List PostgresRoute} {r : PostgresRoute}
    (hw : firstClaimant seen r.effectiveDatabase = none) :
    verdict resolver clusterDomain (seen ++ [r]) r = wonDecision resolver clusterDomain r := by
  simp only [verdict, firstClaimant_snoc, hw, Option.none_or, if_true]

theorem decisions_snoc {seen : List PostgresRoute} {st : BuildState Pool} {r : PostgresRoute}
    (h : Awarded resolver clusterDomain seen st) (hfresh : r.key ∉ seen.map PostgresRoute.key)
    (k : NamespacedName) :
    (st.decisions.insert r.key (verdict resolver clusterDomain (seen ++ [r]) r)).lookup k =
      (routeWithKey (seen ++ [r]) k).map (verdict resolver clusterDomain (seen ++ [r])) := by
  rw [routeWithKey_snoc]
  by_cases hk : r.key = k
  · subst hk
    have hnone : routeWithKey seen r.key = none := by
      apply List.find?_eq_none.mpr
      intro x hx
      simpa using fun he : x.key = r.key => hfresh (he ▸ List.mem_map_of_mem hx)
    simp [hnone]
  · rw [Finmap.lookup_insert_of_ne _ (Ne.symm hk), h.decisions, if_neg hk, Option.or_none]
    cases hr : routeWithKey seen k with
    | none => rfl
    | some x =>
      simp only [Option.map_some]
      rw [verdict_snoc (List.mem_of_find?_eq_some hr)]

theorem Awarded.step {seen : List PostgresRoute} {st : BuildState Pool} {r : PostgresRoute}
    (h : Awarded resolver clusterDomain seen st) (hfresh : r.key ∉ seen.map PostgresRoute.key) :
    Awarded resolver clusterDomain (seen ++ [r]) (buildStep resolver clusterDomain st r) := by
  have hdec := decisions_snoc h hfresh
  cases hw : firstClaimant seen r.effectiveDatabase with
  | some w =>
    have hne : w.key ≠ r.key := by
      intro he
      exact hfresh (he ▸ List.mem_map_of_mem (firstClaimant_some hw).1)
    -- a claim that comes later never changes who came first
    have hkeep : ∀ d, firstClaimant (seen ++ [r]) d = firstClaimant seen d := by
      intro d
      rw [firstClaimant_snoc]
      split
      · rename_i hd
        rw [← hd, hw, Option.some_or]
      · rw [Option.or_none]
    have htaken : st.winners.lookup r.effectiveDatabase = some w.key := by
      rw [h.winners, hw, Option.map_some]
    rw [buildStep_of_taken htaken]
    rw [verdict_of_taken hw hne] at hdec
    exact ⟨fun d => by rw [hkeep, h.winners], fun d => by rw [hkeep, h.table], hdec⟩
  | none =>
    rw [buildStep_of_free (by rw [h.winners, hw]; rfl)]
    rw [verdict_of_free hw] at hdec
    refine ⟨fun d => ?_, fun d => ?_, hdec⟩
    · rw [firstClaimant_snoc]
      by_cases hd : r.effectiveDatabase = d
      · subst hd
        simp [hw]
      · simp [Finmap.lookup_insert_of_ne _ (Ne.symm hd), h.winners, hd]
    · rw [firstClaimant_snoc]
      by_cases hd : r.effectiveDatabase = d
      · subst hd
        cases hr : resolve resolver clusterDomain r with
        | error e => simp [hw, h.table, hr, Except.toOption]
        | ok route => simp [hw, hr, Except.toOption]
      · cases hr : resolve resolver clusterDomain r with
        | error e => simp [h.table, hd]
        | ok route => simp [Finmap.lookup_insert_of_ne _ (Ne.symm hd), h.table, hd]

theorem Awarded.foldl {seen rest : List PostgresRoute} {st : BuildState Pool}
    (h : Awarded resolver clusterDomain seen st) (hd : DistinctKeys (seen ++ rest)) :
    Awarded resolver clusterDomain (seen ++ rest)
      (rest.foldl (buildStep resolver clusterDomain) st) := by
  -- By the routes still to come; the invariant speaks of those already seen.
  induction rest generalizing seen st with
  | nil => simpa using h
  | cons r rest ih =>
    have hfresh : r.key ∉ seen.map PostgresRoute.key := by
      intro hmem
      unfold DistinctKeys at hd
      rw [List.map_append, List.map_cons] at hd
      exact (List.nodup_append.mp hd).2.2 _ hmem _ List.mem_cons_self rfl
    have := ih (h.step hfresh) (by simpa using hd)
    simpa using this

theorem awarded_nil : Awarded resolver clusterDomain [] ({} : BuildState Pool) :=
  ⟨fun _ => rfl, fun _ => rfl, fun _ => rfl⟩

/-- Every entry of the maps comes from routes of the list, whether their keys are distinct
or not. -/
structure FromRoutes (resolver : Resolver Pool) (clusterDomain : GoString)
    (routes : List PostgresRoute) (st : BuildState Pool) : Prop where
  winners : ∀ {d k}, st.winners.lookup d = some k → ∃ w ∈ routes, w.key = k
  table : ∀ {d r}, st.table.lookup d = some r → ∃ route ∈ routes, route.effectiveDatabase = d ∧
    resolve resolver clusterDomain route = .ok r
  decisions : ∀ {k d}, st.decisions.lookup k = some d → ∃ r ∈ routes, r.key = k ∧
    (d = wonDecision resolver clusterDomain r ∨ ∃ w ∈ routes, d = lostDecision w.key r)

theorem FromRoutes.step {routes : List PostgresRoute} {st : BuildState Pool} {r : PostgresRoute}
    (h : FromRoutes resolver clusterDomain routes st) (hr : r ∈ routes) :
    FromRoutes resolver clusterDomain routes (buildStep resolver clusterDomain st r) := by
  cases hw : st.winners.lookup r.effectiveDatabase with
  | some winner =>
    obtain ⟨w, hwmem, hwkey⟩ := h.winners hw
    rw [buildStep_of_taken hw]
    refine ⟨h.winners, h.table, fun hd => ?_⟩
    rcases GoMap.lookup_insert_cases hd with ⟨hkey, hlost⟩ | hd
    · exact ⟨r, hr, hkey, Or.inr ⟨w, hwmem, by rw [hwkey, hlost]⟩⟩
    · exact h.decisions hd
  | none =>
    rw [buildStep_of_free hw]
    refine ⟨fun hk => ?_, fun ht => ?_, fun hd => ?_⟩
    · rcases GoMap.lookup_insert_cases hk with ⟨-, hkey⟩ | hk
      · exact ⟨r, hr, hkey⟩
      · exact h.winners hk
    · cases hresolve : resolve resolver clusterDomain r with
      | error e => exact h.table (by simpa only [hresolve] using ht)
      | ok route =>
        simp only [hresolve] at ht
        rcases GoMap.lookup_insert_cases ht with ⟨hdatabase, hroute⟩ | ht
        · exact ⟨r, hr, hdatabase, hroute ▸ hresolve⟩
        · exact h.table ht
    · rcases GoMap.lookup_insert_cases hd with ⟨hkey, hwon⟩ | hd
      · exact ⟨r, hr, hkey, Or.inl hwon.symm⟩
      · exact h.decisions hd

theorem FromRoutes.foldl {routes rest : List PostgresRoute} {st : BuildState Pool}
    (h : FromRoutes resolver clusterDomain routes st) (hrest : ∀ r ∈ rest, r ∈ routes) :
    FromRoutes resolver clusterDomain routes
      (rest.foldl (buildStep resolver clusterDomain) st) := by
  induction rest generalizing st with
  | nil => exact h
  | cons r rest ih =>
    exact ih (h.step (hrest r List.mem_cons_self)) fun x hx => hrest x (List.mem_cons_of_mem _ hx)

theorem build_fromRoutes (routes : List PostgresRoute) :
    FromRoutes resolver clusterDomain routes
      ((sliceStable less routes).foldl (buildStep resolver clusterDomain) {}) := by
  have h : FromRoutes resolver clusterDomain routes {} :=
    ⟨fun h => by simp at h, fun h => by simp at h, fun h => by simp at h⟩
  exact h.foldl fun r hr => (sliceStable_perm less routes).subset hr

theorem build_lookup_resolved {routes : List PostgresRoute} {database : GoString}
    {r : Route Pool}
    (h : (build resolver clusterDomain routes).table.lookup database = some r) :
    ∃ route ∈ routes, route.effectiveDatabase = database ∧
      resolve resolver clusterDomain route = .ok r :=
  (build_fromRoutes routes).table h

variable {routes : List PostgresRoute} (hd : DistinctKeys routes)
include hd

theorem build_awarded :
    Awarded resolver clusterDomain (sliceStable less routes)
      ((sliceStable less routes).foldl (buildStep resolver clusterDomain) {}) := by
  have h : Awarded resolver clusterDomain [] {} := awarded_nil
  exact h.foldl (hd.perm (sliceStable_perm less routes).symm)

theorem build_lookup (database : GoString) :
    (build resolver clusterDomain routes).table.lookup database =
      (firstClaimant (sliceStable less routes) database).bind
        fun w => (resolve resolver clusterDomain w).toOption :=
  (build_awarded hd).table database

theorem build_decision {r : PostgresRoute} (h : r ∈ routes) :
    (build resolver clusterDomain routes).decision r.key =
      some (verdict resolver clusterDomain (sliceStable less routes) r) := by
  have hperm := (sliceStable_perm less routes).symm
  change Finmap.lookup _ _ = _
  rw [build, (build_awarded hd).decisions, routeWithKey_of_mem (hd.perm hperm) (hperm.subset h)]
  rfl

end Award
end PgProxy
