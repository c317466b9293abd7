import PgProxy.Controller.RouteTable
import PgProxy.Controller.StatusTruth

/-!
# What a status reports

`Reports status generation d` says that a status, timestamps aside, is the one derived
from the decision `d` for an object of that generation. The status a reconcile derives
reports its decision, a status the reconcile leaves alone does, and a status does not see
more of a decision than its `report`.
-/

namespace PgProxy
set_option autoImplicit false

/-- The condition is there, with whatever transition time. -/
def Stored (conditions : List Condition) (generation : Int) (want : Condition) : Prop :=
  ∃ got, findStatusCondition conditions want.type = some got ∧ got.status = want.status ∧
    got.reason = want.reason ∧ got.message = want.message ∧ got.observedGeneration = generation

section Stored
variable (setter : ConditionSetter) {cs : List Condition} {generation : Int} {want : Condition}

theorem stored_set_self (cs : List Condition) (generation : Int) (want : Condition) :
    Stored (setter.set cs { want with observedGeneration := generation }) generation want := by
  obtain ⟨time, h⟩ := setter.upserts cs { want with observedGeneration := generation }
  rw [h, Stored, findStatusCondition_upsertCondition, if_pos rfl]
  exact ⟨_, rfl, rfl, rfl, rfl, rfl⟩

theorem Stored.set {c : Condition} (h : Stored cs generation want) (hne : c.type ≠ want.type) :
    Stored (setter.set cs c) generation want := by
  obtain ⟨got, hgot, hrest⟩ := h
  obtain ⟨time, hset⟩ := setter.upserts cs c
  refine ⟨got, ?_, hrest⟩
  rw [hset, findStatusCondition_upsertCondition, if_neg hne, hgot]

end Stored

variable [GoFmt]

structure Reports (status : PostgresRouteStatus) (generation : Int) (d : Decision) : Prop where
  observedGeneration : status.observedGeneration = generation
  database : status.database = d.database
  endpoint : status.endpoint = if d.accepted then d.endpoint else []
  conflictingRoute : status.conflictingRoute = if d.accepted then [] else d.conflictsWith.string
  accepted : Stored status.conditions generation (acceptedCondition d)
  resolved : Stored status.conditions generation (resolvedCondition d)
  programmed : Stored status.conditions generation (programmedCondition d)

theorem reports_desired (setter : ConditionSetter) (route : PostgresRoute) (d : Decision) :
    Reports (desiredStatus setter route d) route.metadata.generation d where
  observedGeneration := by
    simp only [desiredStatus, applyConditions]
    split <;> rfl
  database := by
    simp only [desiredStatus, applyConditions]
    split <;> rfl
  endpoint := desiredStatus_endpoint setter route d
  conflictingRoute := desiredStatus_conflictingRoute setter route d
  accepted := by
    refine ((stored_set_self setter _ _ _).set setter ?_).set setter ?_
    · rw [acceptedCondition_type, resolvedCondition_type]
      decide
    · rw [acceptedCondition_type, programmedCondition_type]
      decide
  resolved := by
    refine (stored_set_self setter _ _ _).set setter ?_
    rw [resolvedCondition_type, programmedCondition_type]
    decide
  programmed := stored_set_self setter _ _ _

omit [GoFmt] in
theorem Stored.of_equalStatus {a b : PostgresRouteStatus} {generation : Int} {want : Condition}
    (h : Stored b.conditions generation want) (heq : equalStatus a b = true) :
    Stored a.conditions generation want := by
  obtain ⟨got, hgot, hstatus, hreason, hmessage, hgeneration⟩ := h
  have htype : got.type = want.type := by simpa using List.find?_some hgot
  simp only [equalStatus, Bool.and_eq_true, List.all_eq_true] at heq
  have hall := heq.2 got (List.mem_of_find?_eq_some hgot)
  split at hall
  · cases hall
  · rename_i mine hmine
    simp only [Bool.and_eq_true, beq_iff_eq] at hall
    obtain ⟨⟨⟨h₁, h₂⟩, h₃⟩, h₄⟩ := hall
    exact ⟨mine, htype ▸ hmine, h₁.trans hstatus, h₂.trans hreason, h₃.trans hmessage,
      h₄.trans hgeneration⟩

theorem Reports.of_equalStatus {a b : PostgresRouteStatus} {generation : Int} {d : Decision}
    (h : Reports b generation d) (heq : equalStatus a b = true) : Reports a generation d := by
  have hfields := heq
  simp only [equalStatus, Bool.and_eq_true, beq_iff_eq] at hfields
  obtain ⟨⟨⟨⟨⟨hgeneration, hdatabase⟩, hendpoint⟩, hconflict⟩, -⟩, -⟩ := hfields
  exact
    { observedGeneration := hgeneration.trans h.observedGeneration
      database := hdatabase.trans h.database
      endpoint := hendpoint.trans h.endpoint
      conflictingRoute := hconflict.trans h.conflictingRoute
      accepted := h.accepted.of_equalStatus heq
      resolved := h.resolved.of_equalStatus heq
      programmed := h.programmed.of_equalStatus heq }

/-- What a status shows of a decision. -/
def Decision.report (d : Decision) :
    GoString × Bool × NamespacedName × GoString × Option (GoString × GoString) :=
  (d.database, d.accepted, d.conflictsWith, d.endpoint,
    d.resolveErr.map fun e => (resolveFailureReason e, e.text))

theorem Reports.of_report {status : PostgresRouteStatus} {generation : Int} {d d' : Decision}
    (h : Reports status generation d) (heq : d.report = d'.report) :
    Reports status generation d' := by
  cases d with
  | mk database accepted conflictsWith endpoint resolveErr =>
  cases d' with
  | mk database' accepted' conflictsWith' endpoint' resolveErr' =>
  simp only [Decision.report, Prod.mk.injEq] at heq
  obtain ⟨rfl, rfl, rfl, rfl, herr⟩ := heq
  cases resolveErr with
  | none =>
    obtain rfl : resolveErr' = none := by simpa using herr.symm
    exact h
  | some e =>
    obtain ⟨e', rfl, he⟩ := Option.map_eq_some_iff.mp herr.symm
    obtain ⟨hreason, htext⟩ := Prod.mk.injEq .. ▸ he
    exact
      { h with
        resolved := by
          have := h.resolved
          simpa only [resolvedCondition, hreason, htext] using this }

omit [GoFmt] in
/-- `decisionChanged` compares resolution errors by their text only. -/
theorem report_eq_of_unchanged {d d' : Decision} (h : decisionChanged d d' = false)
    (hreason : d.resolveErr.map resolveFailureReason = d'.resolveErr.map resolveFailureReason) :
    d.report = d'.report := by
  simp only [decisionChanged, Bool.or_eq_false_iff, decide_eq_false_iff_not, not_not] at h
  obtain ⟨⟨⟨⟨hdatabase, haccepted⟩, hconflict⟩, hendpoint⟩, htext⟩ := h
  simp only [Decision.report, hdatabase, haccepted, hconflict, hendpoint, Prod.mk.injEq, true_and]
  cases he : d.resolveErr with
  | none =>
    rw [he] at hreason
    have hnone : d'.resolveErr = none := by simpa using hreason.symm
    rw [hnone]
  | some e =>
    rw [he] at hreason htext
    obtain ⟨e', he', hclass⟩ := Option.map_eq_some_iff.mp hreason.symm
    rw [he'] at htext ⊢
    simp only [Option.map_some, hclass, errorMessage] at htext ⊢
    rw [htext]

end PgProxy
