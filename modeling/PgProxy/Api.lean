import PgProxy.Go

/-!
# The PostgresRoute API

The custom resource, the parts of a Service the controllers read, and the two
defaulting rules every component shares. Enumerated string types keep a last
constructor for the values validation would refuse, because the code has
branches for them.
-/

namespace PgProxy
set_option autoImplicit false

structure OwnerReference where
  apiVersion : GoString
  kind : GoString
  name : GoString
  uid : GoString
  controller : Option Bool
  blockOwnerDeletion : Option Bool
  deriving DecidableEq

/-- The metadata the controllers look at. A timestamp is an instant in
nanoseconds, with the zero time at `0`. -/
structure ObjectMeta where
  ns : GoString
  name : GoString
  uid : GoString := []
  resourceVersion : Nat := 0
  generation : Int := 0
  creationTimestamp : Int := 0
  deletionTimestamp : Option Int := none
  labels : GoMap GoString GoString := ∅
  annotations : GoMap GoString GoString := ∅
  ownerReferences : List OwnerReference := []
  deriving DecidableEq

def ObjectMeta.key (m : ObjectMeta) : NamespacedName := ⟨m.ns, m.name⟩

/-- `!DeletionTimestamp.IsZero()`: neither absent nor the zero time. -/
def ObjectMeta.beingDeleted (m : ObjectMeta) : Bool := m.deletionTimestamp.getD 0 ≠ 0

/-- Reading a string map: a missing key gives the empty string. -/
def mapGet (m : GoMap GoString GoString) (k : GoString) : GoString := (m.lookup k).getD []

/-- `metav1.GetControllerOf`: the first owner marked as the controller. -/
def ObjectMeta.controllerOf (m : ObjectMeta) : Option OwnerReference :=
  m.ownerReferences.find? fun ref => ref.controller == some true

/-- `intstr.IntOrString`; `other` is a type tag that is neither of the two. -/
inductive IntOrString where
  | int (v : Int32)
  | string (s : GoString)
  | other
  deriving DecidableEq

inductive BackendType where
  | service
  | address
  | other (raw : GoString)
  deriving DecidableEq

inductive BackendTLSMode where
  | unset
  | disable
  | require
  | verifyCA
  | verifyFull
  | other (raw : GoString)
  deriving DecidableEq

def BackendTLSMode.string : BackendTLSMode → GoString
  | .unset => []
  | .disable => str "Disable"
  | .require => str "Require"
  | .verifyCA => str "VerifyCA"
  | .verifyFull => str "VerifyFull"
  | .other raw => raw

structure ServiceBackend where
  name : GoString
  ns : GoString
  port : IntOrString
  deriving DecidableEq

structure AddressBackend where
  host : GoString
  port : Int32
  deriving DecidableEq

structure Backend where
  type : BackendType := .service
  service : Option ServiceBackend := none
  address : Option AddressBackend := none
  deriving DecidableEq

structure SecretKeyReference where
  name : GoString
  key : GoString
  deriving DecidableEq

structure BackendTLS where
  mode : BackendTLSMode
  caSecretRef : Option SecretKeyReference
  serverName : GoString
  deriving DecidableEq

structure PostgresRouteSpec where
  database : GoString := []
  targetDatabase : GoString := []
  backend : Backend := {}
  tls : Option BackendTLS := none
  priority : Int32 := 0
  deriving DecidableEq

inductive ConditionStatus where
  | true
  | false
  | unknown
  deriving DecidableEq

structure Condition where
  type : GoString
  status : ConditionStatus
  observedGeneration : Int := 0
  lastTransitionTime : Int := 0
  reason : GoString
  message : GoString
  deriving DecidableEq

structure PostgresRouteStatus where
  observedGeneration : Int := 0
  database : GoString := []
  endpoint : GoString := []
  conflictingRoute : GoString := []
  conditions : List Condition := []
  deriving DecidableEq

structure PostgresRoute where
  metadata : ObjectMeta
  spec : PostgresRouteSpec := {}
  status : PostgresRouteStatus := {}
  deriving DecidableEq

namespace PostgresRoute

def key (r : PostgresRoute) : NamespacedName := r.metadata.key

def effectiveDatabase (r : PostgresRoute) : GoString :=
  if r.spec.database ≠ [] then r.spec.database else r.metadata.name

def effectiveTargetDatabase (r : PostgresRoute) : GoString :=
  if r.spec.targetDatabase ≠ [] then r.spec.targetDatabase else r.effectiveDatabase

theorem effectiveTargetDatabase_ne_nil {r : PostgresRoute} (h : r.effectiveDatabase ≠ []) :
    r.effectiveTargetDatabase ≠ [] := by
  unfold effectiveTargetDatabase
  split
  · assumption
  · exact h

end PostgresRoute

structure ServicePort where
  name : GoString
  port : Int32
  deriving DecidableEq

structure Service where
  metadata : ObjectMeta
  ports : List ServicePort := []
  deriving DecidableEq

def Service.key (s : Service) : NamespacedName := s.metadata.key

end PgProxy
