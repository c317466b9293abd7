import PgProxy.Controller.StatusReport

/-!
# A status has no memory

A reconcile edits a copy of whatever status it finds. On a status with one condition for
each type, as the API server keeps them, what it leaves depends on the decision and the
generation alone, conditions of other types stay as they are, and it writes exactly when
the stored status reports something else.
-/

namespace PgProxy
set_option autoImplicit false

/-- The types of the conditions that the reconciler sets. -/
def ownConditions : List GoString := [conditionAccepted, conditionResolved, conditionProgrammed]

/-- The conditions that belong to someone else. -/
def otherConditions (cs : List Condition) : List Condition :=
  cs.filter fun c => ¬ ownConditions.contains c.type

theorem findStatusCondition_others {type : GoString} (h : type ∉ ownConditions)
    (cs : List Condition) :
    findStatusCondition (otherConditions cs) type = findStatusCondition cs type := by
  rw [findStatusCondition, otherConditions, List.find?_filter, findStatusCondition]
  congr 1
  funext c
  by_cases hc : c.type = type
  · simp [hc, h]
  · simp [hc]

def UniqueTypes (cs : List Condition) : Prop := (cs.map Condition.type).Nodup

theorem UniqueTypes.find_eq {cs : List Condition} (h : UniqueTypes cs) {c : Condition}
    (hc : c ∈ cs) : findStatusCondition cs c.type = some c := by
  unfold UniqueTypes at h
  induction cs with
  | nil => simp at hc
  | cons x xs ih =>
    rw [List.map_cons, List.nodup_cons] at h
    rcases List.mem_cons.mp hc with rfl | hc
    · simp [findStatusCondition]
    · have hne : x.type ≠ c.type := fun he => h.1 (he ▸ List.mem_map_of_mem hc)
      rw [findStatusCondition, List.find?_cons_of_neg (by simpa using hne)]
      exact ih h.2 hc

/-! ## Setting a condition -/

theorem upsertCondition_types (cs : List Condition) (c : Condition) :
    (upsertCondition cs c).map Condition.type =
      if c.type ∈ cs.map Condition.type then cs.map Condition.type
      else cs.map Condition.type ++ [c.type] := by
  induction cs with
  | nil => simp [upsertCondition]
  | cons x xs ih =>
    rw [upsertCondition]
    by_cases hx : x.type = c.type
    · simp [hx]
    · rw [if_neg hx, List.map_cons, ih, List.map_cons]
      by_cases hmem : c.type ∈ xs.map Condition.type
      · rw [if_pos hmem, if_pos (List.mem_cons_of_mem _ hmem)]
      · have hnot : c.type ∉ x.type :: xs.map Condition.type := by
          rw [List.mem_cons, not_or]
          exact ⟨fun he => hx he.symm, hmem⟩
        rw [if_neg hmem, if_neg hnot, List.cons_append]

theorem upsertCondition_others {c : Condition} (hc : c.type ∈ ownConditions)
    (cs : List Condition) : otherConditions (upsertCondition cs c) = otherConditions cs := by
  induction cs with
  | nil => simp [upsertCondition, otherConditions, hc]
  | cons x xs ih =>
    unfold otherConditions at ih ⊢
    rw [upsertCondition]
    split
    · rename_i hx
      rw [List.filter_cons_of_neg (by simpa using hc),
        List.filter_cons_of_neg (by simpa [hx] using hc)]
    · rw [List.filter_cons, List.filter_cons, ih]

/-- What setting conditions of the reconciler's own types leaves as it is. -/
structure Keeps (before after : List Condition) : Prop where
  others : otherConditions after = otherConditions before
  unique : UniqueTypes before → UniqueTypes after
  length : (∀ type ∈ ownConditions, type ∈ before.map Condition.type) →
    after.map Condition.type = before.map Condition.type

theorem Keeps.trans {a b c : List Condition} (hab : Keeps a b) (hbc : Keeps b c) : Keeps a c where
  others := hbc.others.trans hab.others
  unique h := hbc.unique (hab.unique h)
  length h := by
    have heq := hab.length h
    rw [← heq]
    exact hbc.length (heq ▸ h)

theorem keeps_set (setter : ConditionSetter) {c : Condition} (hc : c.type ∈ ownConditions)
    (cs : List Condition) : Keeps cs (setter.set cs c) := by
  obtain ⟨time, hset⟩ := setter.upserts cs c
  have htypes := upsertCondition_types cs { c with lastTransitionTime := time }
  rw [hset]
  refine ⟨upsertCondition_others (c := { c with lastTransitionTime := time }) hc cs, ?_, ?_⟩
  · intro hunique
    unfold UniqueTypes at hunique ⊢
    rw [htypes]
    split
    · exact hunique
    · rename_i hnot
      rw [List.nodup_append]
      refine ⟨hunique, List.nodup_singleton _, ?_⟩
      intro a ha b hb hab
      rw [List.mem_singleton] at hb
      exact hnot (hb ▸ hab ▸ ha)
  · intro hall
    rw [htypes, if_pos (hall c.type hc)]

section Reconcile
variable [GoFmt]

theorem keeps_desired (setter : ConditionSetter) (route : PostgresRoute) (d : Decision) :
    Keeps route.status.conditions (desiredStatus setter route d).conditions := by
  have hconditions : (desiredStatus setter route d).conditions =
      setter.set (setter.set (setter.set route.status.conditions
        { acceptedCondition d with observedGeneration := route.metadata.generation })
        { resolvedCondition d with observedGeneration := route.metadata.generation })
        { programmedCondition d with observedGeneration := route.metadata.generation } := by
    simp only [desiredStatus, applyConditions]
    split <;> rfl
  rw [hconditions]
  refine ((keeps_set setter ?_ _).trans (keeps_set setter ?_ _)).trans (keeps_set setter ?_ _)
  · simp [acceptedCondition_type, ownConditions]
  · simp [resolvedCondition_type, ownConditions]
  · simp [programmedCondition_type, ownConditions]

def setConditions (d : Decision) : List Condition :=
  [acceptedCondition d, resolvedCondition d, programmedCondition d]

theorem setConditions_types (d : Decision) :
    (setConditions d).map Condition.type = ownConditions := by
  simp [setConditions, acceptedCondition_type, resolvedCondition_type, programmedCondition_type,
    ownConditions]

theorem exists_setCondition {type : GoString} (h : type ∈ ownConditions) (d : Decision) :
    ∃ c ∈ setConditions d, c.type = type := by
  rw [← setConditions_types d] at h
  exact List.mem_map.mp h

theorem Reports.stored {status : PostgresRouteStatus} {generation : Int} {d : Decision}
    (h : Reports status generation d) {c : Condition} (hc : c ∈ setConditions d) :
    Stored status.conditions generation c := by
  simp only [setConditions, List.mem_cons, List.not_mem_nil, or_false] at hc
  rcases hc with rfl | rfl | rfl
  · exact h.accepted
  · exact h.resolved
  · exact h.programmed

theorem Reports.mem_types {status : PostgresRouteStatus} {generation : Int} {d : Decision}
    (h : Reports status generation d) {type : GoString} (htype : type ∈ ownConditions) :
    type ∈ status.conditions.map Condition.type := by
  obtain ⟨c, hc, rfl⟩ := exists_setCondition htype d
  obtain ⟨got, hgot, -⟩ := h.stored hc
  have hgotType : got.type = c.type := by simpa using List.find?_some hgot
  exact hgotType ▸ List.mem_map_of_mem (List.mem_of_find?_eq_some hgot)

theorem equalStatus_desired_iff (setter : ConditionSetter) (route : PostgresRoute)
    (hunique : UniqueTypes route.status.conditions) (d : Decision) :
    equalStatus route.status (desiredStatus setter route d) = true ↔
      Reports route.status route.metadata.generation d := by
  have hdesired := reports_desired setter route d
  have hkeeps := keeps_desired setter route d
  refine ⟨fun h => hdesired.of_equalStatus h, fun h => ?_⟩
  have hlength : route.status.conditions.length =
      (desiredStatus setter route d).conditions.length := by
    have := congrArg List.length (hkeeps.length fun _ => h.mem_types)
    rw [List.length_map, List.length_map] at this
    exact this.symm
  simp only [equalStatus, Bool.and_eq_true, beq_iff_eq, List.all_eq_true]
  refine ⟨⟨⟨⟨⟨?_, ?_⟩, ?_⟩, ?_⟩, hlength⟩, ?_⟩
  · rw [h.observedGeneration, hdesired.observedGeneration]
  · rw [h.database, hdesired.database]
  · rw [h.endpoint, hdesired.endpoint]
  · rw [h.conflictingRoute, hdesired.conflictingRoute]
  · intro want hwant
    have hfind := (hkeeps.unique hunique).find_eq hwant
    by_cases htype : want.type ∈ ownConditions
    · -- the reconciler's own conditions: both statuses report the decision
      obtain ⟨c, hc, hctype⟩ := exists_setCondition htype d
      obtain ⟨got, hgot, h₁, h₂, h₃, h₄⟩ := h.stored hc
      obtain ⟨got', hgot', h₁', h₂', h₃', h₄'⟩ := hdesired.stored hc
      rw [hctype] at hgot hgot'
      obtain rfl : want = got' := Option.some.inj (hfind.symm.trans hgot')
      simp [hgot, h₁, h₂, h₃, h₄, h₁', h₂', h₃', h₄']
    · -- everyone else's: the condition itself is in the stored status
      have hother : want ∈ otherConditions (desiredStatus setter route d).conditions :=
        List.mem_filter.mpr ⟨hwant, by simpa using htype⟩
      rw [hkeeps.others] at hother
      have hstored := hunique.find_eq (List.mem_of_mem_filter hother)
      simp [hstored]

/-! ## A sequence of reconciles -/

/-- One reconcile of a route: the generation it meets and the snapshot that decides. -/
structure Turn (Pool : Type) (key : NamespacedName) where
  setter : ConditionSetter
  generation : Int
  snapshot : Snapshot Pool
  decision : Decision
  decided : snapshot.decision key = some decision

variable {Pool : Type} {key : NamespacedName}

def Turn.meets (turn : Turn Pool key) (route : PostgresRoute) : PostgresRoute :=
  { route with metadata := { route.metadata with generation := turn.generation } }

def Turn.reconcile (turn : Turn Pool key) (route : PostgresRoute) : StatusReconcile :=
  reconcileStatus turn.setter turn.snapshot key (.ok (turn.meets route)) none

/-- The route after the turn, with the patch applied if there is one. -/
def Turn.leaves (route : PostgresRoute) (turn : Turn Pool key) : PostgresRoute :=
  match (turn.reconcile route).patch with
  | none => turn.meets route
  | some status => { turn.meets route with status }

theorem Turn.patch_cases (turn : Turn Pool key) {route : PostgresRoute}
    (hlive : route.metadata.beingDeleted = false)
    (hunique : UniqueTypes route.status.conditions) :
    (Reports route.status turn.generation turn.decision ∧ (turn.reconcile route).patch = none) ∨
    (¬ Reports route.status turn.generation turn.decision ∧ (turn.reconcile route).patch =
      some (desiredStatus turn.setter (turn.meets route) turn.decision)) := by
  have hmeets : (turn.meets route).metadata.beingDeleted = false := hlive
  have hiff : equalStatus (turn.meets route).status
        (desiredStatus turn.setter (turn.meets route) turn.decision) = true ↔
      Reports route.status turn.generation turn.decision :=
    equalStatus_desired_iff turn.setter (turn.meets route) hunique turn.decision
  simp only [Turn.reconcile, reconcileStatus, hmeets, turn.decided, Bool.false_eq_true, if_false]
  by_cases hreports : Reports route.status turn.generation turn.decision
  · exact Or.inl ⟨hreports, by rw [if_pos (hiff.mpr hreports)]⟩
  · exact Or.inr ⟨hreports, by rw [if_neg (mt hiff.mp hreports)]⟩

/-- What every turn keeps of the route it started from. -/
structure Continues (route now : PostgresRoute) : Prop where
  live : now.metadata.beingDeleted = false
  unique : UniqueTypes now.status.conditions
  others : otherConditions now.status.conditions = otherConditions route.status.conditions

theorem Turn.leaves_spec (turn : Turn Pool key) {route now : PostgresRoute}
    (h : Continues route now) :
    Continues route (Turn.leaves now turn) ∧
    Reports (Turn.leaves now turn).status turn.generation turn.decision := by
  unfold Turn.leaves
  rcases turn.patch_cases h.live h.unique with ⟨hreports, hpatch⟩ | ⟨-, hpatch⟩
  · rw [hpatch]
    exact ⟨⟨h.live, h.unique, h.others⟩, hreports⟩
  · have hkeeps := keeps_desired turn.setter (turn.meets now) turn.decision
    rw [hpatch]
    exact ⟨⟨h.live, hkeeps.unique h.unique, hkeeps.others.trans h.others⟩,
      reports_desired turn.setter (turn.meets now) turn.decision⟩

theorem continues_foldl {route now : PostgresRoute} (h : Continues route now)
    (turns : List (Turn Pool key)) : Continues route (turns.foldl Turn.leaves now) := by
  induction turns generalizing now with
  | nil => exact h
  | cons turn turns ih => exact ih (turn.leaves_spec h).1

/-- After any sequence of reconciles the status reports the last decision at the last
generation and nothing of what came before, and everyone else's conditions are as they
were. The last reconcile has written exactly if it had something to change, and another
one with its decision and generation does not write. A route that is being deleted is left
alone before its decision is read. -/
theorem status_depends_on_last_decision {route : PostgresRoute}
    (hlive : route.metadata.beingDeleted = false)
    (hunique : UniqueTypes route.status.conditions) (turns : List (Turn Pool key))
    (last : Turn Pool key) :
    let before := turns.foldl Turn.leaves route
    let after := Turn.leaves before last
    Reports after.status last.generation last.decision ∧
    otherConditions after.status.conditions = otherConditions route.status.conditions ∧
    ((last.reconcile before).patch.isSome = true ↔
      ¬ Reports before.status last.generation last.decision) ∧
    ∀ again : Turn Pool key, again.generation = last.generation →
      again.decision = last.decision → (again.reconcile after).patch = none := by
  intro before after
  have hbefore : Continues route before := continues_foldl ⟨hlive, hunique, rfl⟩ turns
  obtain ⟨hafter, hreports⟩ := last.leaves_spec hbefore
  refine ⟨hreports, hafter.others, ?_, ?_⟩
  · rcases last.patch_cases hbefore.live hbefore.unique with ⟨hsame, hpatch⟩ | ⟨hnot, hpatch⟩
    · simp [hpatch, hsame]
    · simp [hpatch, hnot]
  · intro again hgeneration hdecision
    rcases again.patch_cases hafter.live hafter.unique with ⟨-, hpatch⟩ | ⟨hnot, -⟩
    · exact hpatch
    · rw [hgeneration, hdecision] at hnot
      exact absurd hreports hnot

end Reconcile

def auditedRoute : PostgresRoute :=
  { appRoute "east" "main" "db1" with
    status.conditions :=
      [{ type := str "Audited", status := .true, reason := str "Weekly", message := [] }] }

def reconcileWith (generation : Int) (d : Decision) : Turn Unit auditedRoute.key where
  setter := frozenSetter
  generation := generation
  snapshot := ⟨⟨∅⟩, Finmap.singleton auditedRoute.key d⟩
  decision := d
  decided := Finmap.lookup_singleton_eq

theorem status_depends_on_last_decision_conflict :
    let lost : Decision :=
      { database := str "app", accepted := false, conflictsWith := ⟨str "west", str "main"⟩ }
    let won : Decision :=
      { database := str "app", accepted := true, endpoint := str "10.0.0.1:5432" }
    let before := @Turn.leaves plainQuote _ _ auditedRoute (reconcileWith 1 lost)
    let after := @Turn.leaves plainQuote _ _ before (reconcileWith 1 won)
    before.status.conflictingRoute = str "west/main" ∧
    @Reports plainQuote after.status 1 won ∧
    otherConditions after.status.conditions = auditedRoute.status.conditions ∧
    (@Turn.reconcile plainQuote _ _ (reconcileWith 1 won) before).patch.isSome = true ∧
    (@Turn.reconcile plainQuote _ _ (reconcileWith 1 won) after).patch = none := by
  intro lost won before after
  have hunique : UniqueTypes auditedRoute.status.conditions := List.nodup_singleton _
  have h := @status_depends_on_last_decision plainQuote Unit auditedRoute.key auditedRoute
    rfl hunique [reconcileWith 1 lost] (reconcileWith 1 won)
  exact ⟨by decide, h.1, h.2.1, by decide, h.2.2.2 (reconcileWith 1 won) rfl rfl⟩

end PgProxy
