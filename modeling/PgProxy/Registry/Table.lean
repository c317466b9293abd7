import PgProxy.Api
import PgProxy.Lib.Ranking

/-!
# The routing table and how it is built

`build` sorts the routes, hands every database name to its first claimant and
resolves the backends of the winners. It is a function of the route list, the
cluster domain and the answers of the resolver, so the deadline put on each
resolution appears only as one more error a resolver may answer with.
-/

namespace PgProxy
set_option autoImplicit false

variable {Pool : Type} [GoFmt]

/-- The cluster state behind a backend reference. `Pool` is a set of trust anchors. -/
structure Resolver (Pool : Type) where
  resolveServicePort : (ns name : GoString) → IntOrString → Except GoError Int32
  loadCABundle : (ns secretName key : GoString) → Except GoError Pool

structure TLSConfig (Pool : Type) where
  mode : BackendTLSMode := .unset
  rootCAs : Option Pool := none
  serverName : GoString := []
  deriving DecidableEq

def TLSConfig.enabled (t : TLSConfig Pool) : Bool := t.mode ≠ .unset && t.mode ≠ .disable

/-- A fully resolved routing decision, ready for the data plane. -/
structure Route (Pool : Type) where
  source : NamespacedName
  database : GoString
  targetDatabase : GoString
  host : GoString := []
  port : Int32 := 0
  tls : TLSConfig Pool := {}
  deriving DecidableEq

def Route.address (r : Route Pool) : GoString := joinHostPort r.host (itoa r.port.toInt)

structure Table (Pool : Type) where
  routes : GoMap GoString (Route Pool)

namespace Table

def new (routes : GoMap GoString (Route Pool)) : Table Pool := ⟨routes⟩

def lookup (t : Table Pool) (database : GoString) : Option (Route Pool) :=
  t.routes.lookup database

def len (t : Table Pool) : Nat := t.routes.keys.card

end Table

/-- The outcome for a single PostgresRoute. -/
structure Decision where
  database : GoString
  accepted : Bool
  conflictsWith : NamespacedName := ⟨[], []⟩
  endpoint : GoString := []
  resolveErr : Option GoError := none
  deriving DecidableEq

/-- Whether the route is actually serving traffic. -/
def Decision.programmed (d : Decision) : Bool := d.accepted && d.resolveErr.isNone

structure Snapshot (Pool : Type) where
  table : Table Pool
  decisions : GoMap NamespacedName Decision

def Snapshot.decision (s : Snapshot Pool) (key : NamespacedName) : Option Decision :=
  s.decisions.lookup key

/-- Descending priority, then ascending age, then namespace and name. -/
def less (a b : PostgresRoute) : Bool :=
  if a.spec.priority ≠ b.spec.priority then
    decide (a.spec.priority > b.spec.priority)
  else if a.metadata.creationTimestamp ≠ b.metadata.creationTimestamp then
    decide (a.metadata.creationTimestamp < b.metadata.creationTimestamp)
  else if a.metadata.ns ≠ b.metadata.ns then
    decide (a.metadata.ns < b.metadata.ns)
  else decide (a.metadata.name < b.metadata.name)

def resolveTLS (resolver : Resolver Pool) (route : PostgresRoute) :
    Except GoError (TLSConfig Pool) :=
  match route.spec.tls with
  | none => .ok { mode := .disable }
  | some spec =>
    if spec.mode = .unset ∨ spec.mode = .disable then .ok { mode := .disable }
    else
      let out : TLSConfig Pool := { mode := spec.mode, serverName := spec.serverName }
      if ¬ (spec.mode = .verifyCA ∨ spec.mode = .verifyFull) then .ok out
      else
        match spec.caSecretRef with
        -- the system trust store
        | none => .ok out
        | some ref =>
          let key := if ref.key = [] then str "ca.crt" else ref.key
          match resolver.loadCABundle route.metadata.ns ref.name key with
          | .error e =>
            .error (.wrap2 (Sentinel.caBundle.text ++ str ": " ++ e.text) (.sentinel .caBundle) e)
          | .ok pool => .ok { out with rootCAs := some pool }

/-- The host and port of the backend reference. -/
def resolveBackend (resolver : Resolver Pool) (clusterDomain : GoString) (route : PostgresRoute) :
    Except GoError (GoString × Int32) :=
  let invalid (text : GoString) : GoError :=
    .wrap (Sentinel.invalidBackend.text ++ str ": " ++ text) (.sentinel .invalidBackend)
  match route.spec.backend.type with
  | .service =>
    match route.spec.backend.service with
    | none => .error (invalid (str "backend.type is Service but backend.service is unset"))
    | some backend =>
      let ns := if backend.ns = [] then route.metadata.ns else backend.ns
      match resolver.resolveServicePort ns backend.name backend.port with
      | .error e => .error e
      | .ok port => .ok (backend.name ++ str "." ++ ns ++ str ".svc." ++ clusterDomain, port)
  | .address =>
    match route.spec.backend.address with
    | none => .error (invalid (str "backend.type is Address but backend.address is unset"))
    | some backend => .ok (backend.host, if backend.port = 0 then 5432 else backend.port)
  | .other raw => .error (invalid (str "unsupported backend type " ++ quote raw))

def resolve (resolver : Resolver Pool) (clusterDomain : GoString) (route : PostgresRoute) :
    Except GoError (Route Pool) :=
  match resolveBackend resolver clusterDomain route with
  | .error e => .error e
  | .ok (host, port) =>
    match resolveTLS resolver route with
    | .error e => .error e
    | .ok tls =>
      .ok { source := route.key, database := route.effectiveDatabase,
            targetDatabase := route.effectiveTargetDatabase, host, port, tls }

/-- The three maps the award loop fills. -/
structure BuildState (Pool : Type) where
  table : GoMap GoString (Route Pool) := ∅
  winners : GoMap GoString NamespacedName := ∅
  decisions : GoMap NamespacedName Decision := ∅

def buildStep (resolver : Resolver Pool) (clusterDomain : GoString)
    (st : BuildState Pool) (route : PostgresRoute) : BuildState Pool :=
  let key := route.key
  let database := route.effectiveDatabase
  match st.winners.lookup database with
  | some winner =>
    { st with decisions :=
        st.decisions.insert key { database, accepted := false, conflictsWith := winner } }
  | none =>
    -- the name is taken even if the backend does not resolve
    let winners := st.winners.insert database key
    match resolve resolver clusterDomain route with
    | .error e =>
      { st with
        winners
        decisions := st.decisions.insert key { database, accepted := true, resolveErr := some e } }
    | .ok resolved =>
      { winners
        table := st.table.insert database resolved
        decisions := st.decisions.insert key
          { database, accepted := true, endpoint := resolved.address } }

def build (resolver : Resolver Pool) (clusterDomain : GoString) (routes : List PostgresRoute) :
    Snapshot Pool :=
  let ordered := sliceStable less routes
  let result := ordered.foldl (buildStep resolver clusterDomain) {}
  { table := Table.new result.table, decisions := result.decisions }

theorem resolve_names {resolver : Resolver Pool} {clusterDomain : GoString}
    {route : PostgresRoute} {r : Route Pool} (h : resolve resolver clusterDomain route = .ok r) :
    r.source = route.key ∧ r.database = route.effectiveDatabase ∧
      r.targetDatabase = route.effectiveTargetDatabase := by
  unfold resolve at h
  split at h
  · simp at h
  · split at h
    · simp at h
    · injection h with h
      subst h
      exact ⟨rfl, rfl, rfl⟩

end PgProxy
