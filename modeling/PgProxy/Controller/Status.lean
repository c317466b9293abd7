import PgProxy.Registry.Table

/-!
# The status reconciler

`desiredStatus` is the status one reconcile derives from a route and its routing
decision. How conditions are stored is the API machinery's business: all the code
relies on is that setting one replaces the condition of its type or appends it,
with a transition time of its own choosing.
-/

namespace PgProxy
set_option autoImplicit false

def conditionAccepted : GoString := str "Accepted"
def conditionResolved : GoString := str "Resolved"
def conditionProgrammed : GoString := str "Programmed"

def reasonAccepted : GoString := str "Accepted"
def reasonDatabaseConflict : GoString := str "DatabaseNameConflict"
def reasonResolved : GoString := str "Resolved"
def reasonBackendNotFound : GoString := str "BackendNotFound"
def reasonPortNotFound : GoString := str "PortNotFound"
def reasonInvalidBackend : GoString := str "InvalidBackend"
def reasonCABundleFailed : GoString := str "CABundleUnavailable"
def reasonProgrammed : GoString := str "Programmed"
def reasonNotProgrammed : GoString := str "NotProgrammed"

/-- `meta.FindStatusCondition`. -/
def findStatusCondition (conditions : List Condition) (type : GoString) : Option Condition :=
  conditions.find? fun c => c.type = type

/-- Replace the first condition of the same type, or append. -/
def upsertCondition : List Condition → Condition → List Condition
  | [], c => [c]
  | x :: xs, c => if x.type = c.type then c :: xs else x :: upsertCondition xs c

/-- `meta.SetStatusCondition`, by what its documentation promises. -/
structure ConditionSetter where
  set : List Condition → Condition → List Condition
  upserts : ∀ cs c, ∃ time, set cs c = upsertCondition cs { c with lastTransitionTime := time }

variable [GoFmt]

/-- The reason reported for a resolution error; the first matching class wins. -/
def resolveFailureReason (err : GoError) : GoString :=
  if err.is .backendNotFound || err.isNotFound then reasonBackendNotFound
  else if err.is .portNotFound then reasonPortNotFound
  else if err.is .caBundle then reasonCABundleFailed
  else reasonInvalidBackend

def acceptedCondition (decision : Decision) : Condition :=
  if decision.accepted then
    { type := conditionAccepted, status := .true, reason := reasonAccepted
      message := str "This route owns the database name " ++ quote decision.database ++ str "." }
  else
    { type := conditionAccepted, status := .false, reason := reasonDatabaseConflict
      message := str "Database name " ++ quote decision.database ++ str " is already claimed by " ++
        decision.conflictsWith.string ++ str ", which has a higher priority or is older." }

def resolvedCondition (decision : Decision) : Condition :=
  if ¬ decision.accepted then
    { type := conditionResolved, status := .false, reason := reasonDatabaseConflict
      message :=
        str "The backend was not resolved because the route did not win its database name." }
  else
    match decision.resolveErr with
    | some e =>
      { type := conditionResolved, status := .false, reason := resolveFailureReason e
        message := e.text }
    | none =>
      { type := conditionResolved, status := .true, reason := reasonResolved
        message := str "The backend resolved to " ++ decision.endpoint ++ str "." }

def programmedCondition (decision : Decision) : Condition :=
  if decision.programmed then
    { type := conditionProgrammed, status := .true, reason := reasonProgrammed
      message := str "Connections to database " ++ quote decision.database ++
        str " are routed to " ++ decision.endpoint ++ str "." }
  else
    { type := conditionProgrammed, status := .false, reason := reasonNotProgrammed
      message := str "The gateway is not routing connections for this route." }

def applyConditions (setter : ConditionSetter) (status : PostgresRouteStatus)
    (route : PostgresRoute) (decision : Decision) : PostgresRouteStatus :=
  let generation := route.metadata.generation
  let put (cs : List Condition) (c : Condition) :=
    setter.set cs { c with observedGeneration := generation }
  let status := if decision.accepted then status
    else { status with conflictingRoute := decision.conflictsWith.string, endpoint := [] }
  let conditions := put status.conditions (acceptedCondition decision)
  let conditions := put conditions (resolvedCondition decision)
  { status with conditions := put conditions (programmedCondition decision) }

def desiredStatus (setter : ConditionSetter) (route : PostgresRoute) (decision : Decision) :
    PostgresRouteStatus :=
  applyConditions setter
    { route.status with
      observedGeneration := route.metadata.generation
      database := decision.database
      endpoint := decision.endpoint
      conflictingRoute := [] } route decision

def equalStatus (a b : PostgresRouteStatus) : Bool :=
  a.observedGeneration == b.observedGeneration && a.database == b.database &&
  a.endpoint == b.endpoint && a.conflictingRoute == b.conflictingRoute &&
  a.conditions.length == b.conditions.length &&
  b.conditions.all fun want =>
    match findStatusCondition a.conditions want.type with
    | none => false
    | some got => got.status == want.status && got.reason == want.reason &&
        got.message == want.message && got.observedGeneration == want.observedGeneration

/-- What a status reconcile asks of the API server and of the work queue: `patch` is the
status it requests, whether or not the request succeeds. -/
structure StatusReconcile where
  patch : Option PostgresRouteStatus := none
  requeueAfter : Bool := false
  err : Option GoError := none

/-- `Reconcile`, given the outcome of reading the route and of the patch request. -/
def reconcileStatus {Pool : Type} (setter : ConditionSetter) (snapshot : Snapshot Pool)
    (req : NamespacedName) (got : Except GoError PostgresRoute) (patchErr : Option GoError) :
    StatusReconcile :=
  match got with
  | .error e => { err := if e.isNotFound then none else some e }
  | .ok route =>
    if route.metadata.beingDeleted then {}
    else
      match snapshot.decision req with
      -- the builder debounces, so a fresh route may not be in the snapshot yet
      | none => { requeueAfter := true }
      | some decision =>
        let desired := desiredStatus setter route decision
        if equalStatus route.status desired then {}
        else
          { patch := some desired
            err := patchErr.bind fun e => if e.isConflict then none
              else some (errorfWrap (str "patching PostgresRoute status") e) }

end PgProxy
