import PgProxy.Controller.Status
import PgProxy.Registry.Award

/-!
# The reported status is what the data plane does

Status is derived from decisions, traffic follows the table. Both come out of one
award loop, so the conditions can be read off the table and the other way round.
-/

namespace PgProxy
set_option autoImplicit false

def statusOf (conditions : List Condition) (type : GoString) : Option ConditionStatus :=
  (findStatusCondition conditions type).map Condition.status

theorem findStatusCondition_upsertCondition (cs : List Condition) (c : Condition)
    (type : GoString) :
    findStatusCondition (upsertCondition cs c) type =
      if c.type = type then some c else findStatusCondition cs type := by
  induction cs with
  | nil => by_cases h : c.type = type <;> simp [findStatusCondition, upsertCondition, h]
  | cons x xs ih =>
    simp only [findStatusCondition] at ih ⊢
    rw [upsertCondition]
    by_cases hx : x.type = c.type
    · rw [if_pos hx]
      by_cases h : c.type = type
      · simp [h]
      · simp [h, hx]
    · rw [if_neg hx]
      by_cases ht : x.type = type
      · have hct : c.type ≠ type := fun he => hx (ht.trans he.symm)
        simp [ht, hct]
      · simp [ht, ih]

theorem statusOf_set (setter : ConditionSetter) (cs : List Condition) (c : Condition)
    (type : GoString) :
    statusOf (setter.set cs c) type =
      if c.type = type then some c.status else statusOf cs type := by
  obtain ⟨time, h⟩ := setter.upserts cs c
  rw [h, statusOf, findStatusCondition_upsertCondition]
  split <;> rfl

section Desired
variable [GoFmt] (setter : ConditionSetter) (route : PostgresRoute) (decision : Decision)

theorem acceptedCondition_type : (acceptedCondition decision).type = conditionAccepted := by
  unfold acceptedCondition
  split <;> rfl

omit [GoFmt] in
theorem resolvedCondition_type : (resolvedCondition decision).type = conditionResolved := by
  unfold resolvedCondition
  split
  · rfl
  · split <;> rfl

theorem programmedCondition_type : (programmedCondition decision).type = conditionProgrammed := by
  unfold programmedCondition
  split <;> rfl

theorem desiredStatus_accepted :
    statusOf (desiredStatus setter route decision).conditions conditionAccepted =
      some (if decision.accepted then .true else .false) := by
  simp only [desiredStatus, applyConditions, statusOf_set, acceptedCondition_type,
    resolvedCondition_type, programmedCondition_type]
  rw [if_neg (by decide), if_neg (by decide), if_true, acceptedCondition]
  split <;> rfl

theorem desiredStatus_resolved :
    statusOf (desiredStatus setter route decision).conditions conditionResolved =
      some (if decision.programmed then .true else .false) := by
  simp only [desiredStatus, applyConditions, statusOf_set, resolvedCondition_type,
    programmedCondition_type]
  rw [if_neg (by decide), if_true, resolvedCondition, Decision.programmed]
  cases decision.accepted
  · rfl
  · cases decision.resolveErr <;> rfl

theorem desiredStatus_programmed :
    statusOf (desiredStatus setter route decision).conditions conditionProgrammed =
      some (if decision.programmed then .true else .false) := by
  simp only [desiredStatus, applyConditions, statusOf_set, programmedCondition_type]
  rw [if_true, programmedCondition]
  split <;> rfl

theorem desiredStatus_endpoint : (desiredStatus setter route decision).endpoint =
    if decision.accepted then decision.endpoint else [] := by
  simp only [desiredStatus, applyConditions]
  split <;> rfl

theorem desiredStatus_conflictingRoute : (desiredStatus setter route decision).conflictingRoute =
    if decision.accepted then [] else decision.conflictsWith.string := by
  simp only [desiredStatus, applyConditions]
  split <;> rfl

end Desired

def derivedStatus [GoFmt] {Pool : Type} (setter : ConditionSetter) (snapshot : Snapshot Pool)
    (route : PostgresRoute) : Option PostgresRouteStatus :=
  (snapshot.decision route.key).map (desiredStatus setter route)

def Shows (status : PostgresRouteStatus) (type : GoString) (s : ConditionStatus) : Prop :=
  statusOf status.conditions type = some s

section Verdict
variable [GoFmt] {Pool : Type} {resolver : Resolver Pool} {clusterDomain : GoString}
variable {routes : List PostgresRoute} {r : PostgresRoute}

variable (resolver clusterDomain) in
theorem verdict_cases (hd : DistinctKeys routes) (hr : r ∈ routes) :
    (firstClaimant routes r.effectiveDatabase = some r ∧
      verdict resolver clusterDomain routes r = wonDecision resolver clusterDomain r) ∨
    (∃ w, firstClaimant routes r.effectiveDatabase = some w ∧ w ≠ r ∧
      verdict resolver clusterDomain routes r = lostDecision w.key r) := by
  obtain ⟨w, hw⟩ := exists_firstClaimant hr
  by_cases hk : w.key = r.key
  · have heq : w = r := hd.eq_of_key (firstClaimant_some hw).1 hr hk
    subst heq
    exact Or.inl ⟨hw, by simp only [verdict, hw, if_true]⟩
  · refine Or.inr ⟨w, hw, fun he => hk (he ▸ rfl), ?_⟩
    simp only [verdict, hw, if_neg hk]

theorem wonDecision_accepted : (wonDecision resolver clusterDomain r).accepted = true := by
  unfold wonDecision
  split <;> rfl

theorem wonDecision_programmed :
    (wonDecision resolver clusterDomain r).programmed = true ↔
      ∃ route, resolve resolver clusterDomain r = .ok route := by
  unfold wonDecision
  cases resolve resolver clusterDomain r <;> simp [Decision.programmed]

theorem wonDecision_endpoint {route : Route Pool}
    (h : resolve resolver clusterDomain r = .ok route) :
    (wonDecision resolver clusterDomain r).endpoint = route.address := by
  simp only [wonDecision, h]

end Verdict

section Truth
variable [GoFmt] {Pool : Type} {resolver : Resolver Pool} {clusterDomain : GoString}
variable {routes : List PostgresRoute} (hd : DistinctKeys routes)
include hd

variable (resolver clusterDomain) in
theorem verdict_sorted_cases {k : PostgresRoute} (hk : k ∈ routes) :
    (firstClaimant (sliceStable less routes) k.effectiveDatabase = some k ∧
      verdict resolver clusterDomain (sliceStable less routes) k =
        wonDecision resolver clusterDomain k) ∨
    (∃ w ∈ routes, w ≠ k ∧ w.effectiveDatabase = k.effectiveDatabase ∧
      firstClaimant (sliceStable less routes) k.effectiveDatabase = some w ∧
      verdict resolver clusterDomain (sliceStable less routes) k = lostDecision w.key k) := by
  have hp := sliceStable_perm less routes
  rcases verdict_cases resolver clusterDomain (hd.perm hp.symm) (hp.symm.subset hk) with
    hwon | ⟨w, hw, hne, hlost⟩
  · exact Or.inl hwon
  · obtain ⟨hmem, hdb⟩ := firstClaimant_some hw
    exact Or.inr ⟨w, hp.subset hmem, hne, hdb, hw, hlost⟩

theorem lookup_eq_some_iff {k : PostgresRoute} (hk : k ∈ routes) {r : Route Pool} :
    ((build resolver clusterDomain routes).table.lookup k.effectiveDatabase = some r ∧
      r.source = k.key) ↔
    firstClaimant (sliceStable less routes) k.effectiveDatabase = some k ∧
      resolve resolver clusterDomain k = .ok r := by
  rw [build_lookup hd]
  constructor
  -- The entry was resolved from the first claimant, whose key is the source of the entry.
  · rintro ⟨hlookup, hsource⟩
    obtain ⟨w, hw, hres⟩ := Option.bind_eq_some_iff.mp hlookup
    cases hr : resolve resolver clusterDomain w with
    | error e => simp [hr, Except.toOption] at hres
    | ok r' =>
      have heq : r' = r := by simpa [hr, Except.toOption] using hres
      subst heq
      have hwk : w = k := by
        apply hd.eq_of_key ((sliceStable_perm less routes).subset (firstClaimant_some hw).1) hk
        rw [← (resolve_names hr).1, hsource]
      subst hwk
      exact ⟨hw, hr⟩
  · rintro ⟨hw, hr⟩
    exact ⟨by simp [hw, hr, Except.toOption], (resolve_names hr).1⟩

variable (resolver clusterDomain) in
theorem verdict_programmed_iff {k : PostgresRoute} (hk : k ∈ routes) :
    (verdict resolver clusterDomain (sliceStable less routes) k).programmed = true ↔
      ∃ r, (build resolver clusterDomain routes).table.lookup k.effectiveDatabase = some r ∧
        r.source = k.key := by
  simp only [lookup_eq_some_iff hd hk]
  rcases verdict_sorted_cases resolver clusterDomain hd hk with ⟨hw, hv⟩ | ⟨w, _, hne, _, hw, hv⟩
  · rw [hv, wonDecision_programmed]
    simp [hw]
  · rw [hv]
    simp [hw, hne, lostDecision, Decision.programmed]

/-- What the status of one route says, in terms of the table and of the other
routes' statuses. -/
structure Truthful (setter : ConditionSetter) (snapshot : Snapshot Pool)
    (routes : List PostgresRoute) (k : PostgresRoute) (status : PostgresRouteStatus) : Prop where
  programmed : Shows status conditionProgrammed .true ↔
    ∃ r, snapshot.table.lookup k.effectiveDatabase = some r ∧ r.source = k.key
  endpoint : ∀ r, snapshot.table.lookup k.effectiveDatabase = some r → r.source = k.key →
    status.endpoint = r.address
  conditions : Shows status conditionProgrammed .true ↔
    Shows status conditionAccepted .true ∧ Shows status conditionResolved .true
  rejected : Shows status conditionAccepted .false ↔ status.conflictingRoute ≠ []
  conflict : status.conflictingRoute ≠ [] → ∃ w ∈ routes,
    status.conflictingRoute = w.key.string ∧ w.effectiveDatabase = k.effectiveDatabase ∧
    ∃ ws, derivedStatus setter snapshot w = some ws ∧ Shows ws conditionAccepted .true

variable (setter : ConditionSetter)

theorem shows_accepted_iff {k : PostgresRoute} (hk : k ∈ routes) :
    (∃ s, derivedStatus setter (build resolver clusterDomain routes) k = some s ∧
      Shows s conditionAccepted .true) ↔
    firstClaimant (sliceStable less routes) k.effectiveDatabase = some k := by
  simp only [derivedStatus, build_decision hd hk, Option.map_some, Option.some.injEq,
    exists_eq_left', Shows, desiredStatus_accepted]
  rcases verdict_sorted_cases resolver clusterDomain hd hk with
    ⟨hw, hv⟩ | ⟨w, _, hne, _, hw, hv⟩
  · simp [hv, hw, wonDecision_accepted]
  · simp [hv, hw, hne, lostDecision]

theorem status_truthful {k : PostgresRoute} (hk : k ∈ routes) :
    ∃ status, derivedStatus setter (build resolver clusterDomain routes) k = some status ∧
      Truthful setter (build resolver clusterDomain routes) routes k status := by
  refine ⟨_, by rw [derivedStatus, build_decision hd hk, Option.map_some], ?_⟩
  have hprog := verdict_programmed_iff resolver clusterDomain hd hk
  rcases verdict_sorted_cases resolver clusterDomain hd hk with
    ⟨hw, hv⟩ | ⟨w, hmem, hne, hdb, hw, hv⟩
  · have hacc : (verdict resolver clusterDomain (sliceStable less routes) k).accepted = true := by
      rw [hv, wonDecision_accepted]
    refine ⟨?_, ?_, ?_, ?_, ?_⟩
    · rw [Shows, desiredStatus_programmed, ← hprog]
      simp
    · intro r hr hs
      have hres := ((lookup_eq_some_iff hd hk).mp ⟨hr, hs⟩).2
      rw [desiredStatus_endpoint, if_pos hacc, hv, wonDecision_endpoint hres]
    · simp [Shows, desiredStatus_programmed, desiredStatus_accepted, desiredStatus_resolved, hacc]
    · simp [Shows, desiredStatus_accepted, desiredStatus_conflictingRoute, hacc]
    · simp [desiredStatus_conflictingRoute, hacc]
  · have hacc : (verdict resolver clusterDomain (sliceStable less routes) k).accepted = false := by
      rw [hv, lostDecision]
    have hunprog :
        (verdict resolver clusterDomain (sliceStable less routes) k).programmed = false := by
      rw [hv, lostDecision, Decision.programmed, Bool.false_and]
    have hconf : (desiredStatus setter k
        (verdict resolver clusterDomain (sliceStable less routes) k)).conflictingRoute =
        w.key.string := by
      rw [desiredStatus_conflictingRoute, hacc, hv]
      rfl
    refine ⟨?_, ?_, ?_, ?_, ?_⟩
    · rw [Shows, desiredStatus_programmed, ← hprog]
      simp
    · intro r hr hs
      have hwin := ((lookup_eq_some_iff hd hk).mp ⟨hr, hs⟩).1
      exact absurd (Option.some.inj (hw.symm.trans hwin)) hne
    · simp [Shows, desiredStatus_programmed, desiredStatus_accepted, desiredStatus_resolved,
        hunprog]
    · rw [hconf]
      simp [Shows, desiredStatus_accepted, hacc, w.key.string_ne_nil]
    · intro _
      refine ⟨w, hmem, hconf, hdb, ?_⟩
      apply (shows_accepted_iff hd setter hmem).mpr
      rw [hdb, hw]

/-- Status tells the truth about the data plane, route by route, and of the
claimants of a name exactly one is shown as accepted. -/
theorem status_tells_the_truth :
    (∀ k ∈ routes, ∃ status,
      derivedStatus setter (build resolver clusterDomain routes) k = some status ∧
      Truthful setter (build resolver clusterDomain routes) routes k status) ∧
    (∀ database, (∃ k ∈ routes, k.effectiveDatabase = database) →
      ∃! k, k ∈ routes ∧ k.effectiveDatabase = database ∧
        ∃ status, derivedStatus setter (build resolver clusterDomain routes) k = some status ∧
          Shows status conditionAccepted .true) := by
  refine ⟨fun k hk => status_truthful hd setter hk, ?_⟩
  rintro database ⟨k, hk, rfl⟩
  have hp := sliceStable_perm less routes
  obtain ⟨w, hw⟩ := exists_firstClaimant (hp.symm.subset hk)
  obtain ⟨hmem, hdb⟩ := firstClaimant_some hw
  refine ⟨w, ⟨hp.subset hmem, hdb, ?_⟩, ?_⟩
  · apply (shows_accepted_iff hd setter (hp.subset hmem)).mpr
    rw [hdb, hw]
  · rintro k' ⟨hk', hdb', hs⟩
    have hfirst := (shows_accepted_iff hd setter hk').mp hs
    rw [hdb', hw] at hfirst
    exact (Option.some.inj hfirst).symm

end Truth

def frozenSetter : ConditionSetter where
  set cs c := upsertCondition cs { c with lastTransitionTime := 0 }
  upserts _ _ := ⟨0, rfl⟩

theorem status_tells_the_truth_on_conflict :
    let a := appRoute "east" "main" "db1"
    let b := appRoute "west" "main" "db2"
    let snapshot := @build Unit plainQuote emptyCluster (str "cluster.local") [a, b]
    DistinctKeys [a, b] ∧
    (@derivedStatus plainQuote Unit frozenSetter snapshot b).map
      PostgresRouteStatus.conflictingRoute = some (str "east/main") ∧
    ∃! k, k ∈ [a, b] ∧ k.effectiveDatabase = str "app" ∧
      ∃ status, @derivedStatus plainQuote Unit frozenSetter snapshot k = some status ∧
        Shows status conditionAccepted .true := by
  intro a b snapshot
  have hd : DistinctKeys [a, b] := by decide
  have h := @status_tells_the_truth plainQuote Unit emptyCluster (str "cluster.local") _ hd
    frozenSetter
  exact ⟨hd, by decide, h.2 (str "app") ⟨a, by simp, by decide⟩⟩

end PgProxy
