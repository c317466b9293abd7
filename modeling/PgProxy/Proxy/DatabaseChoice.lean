import PgProxy.Proxy.BackendStream
import PgProxy.Registry.Award

/-!
# Which database the backend opens

The gateway looks at the first parameter under a key, a PostgreSQL server scans the
whole list and keeps the last. `selectedDatabase` is the server's rule. The two agree
on the packets that name one database, and on some that repeat a key by accident.
-/

namespace PgProxy
set_option autoImplicit false

namespace Proxy
open Pgwire

/-- A scan in which a later value under the key overrides an earlier one. -/
def lastValue (key : GoString) : List Parameter → Option GoString
  | [] => none
  | param :: rest =>
    (lastValue key rest).or (if param.key = key then some param.value else none)

/-- The database a PostgreSQL server opens for a startup packet. -/
def selectedDatabase (params : List Parameter) : Option GoString :=
  match lastValue (str "database") params with
  | none => lastValue (str "user") params
  | some database => if database = [] then lastValue (str "user") params else some database

theorem lastValue_append (key : GoString) (xs ys : List Parameter) :
    lastValue key (xs ++ ys) = (lastValue key ys).or (lastValue key xs) := by
  induction xs with
  | nil => simp [lastValue]
  | cons x xs ih => rw [List.cons_append, lastValue, ih, lastValue, Option.or_assoc]

theorem lastValue_of_absent {key : GoString} {params : List Parameter}
    (h : ∀ param ∈ params, param.key ≠ key) : lastValue key params = none := by
  induction params with
  | nil => rfl
  | cons param rest ih =>
    rw [List.forall_mem_cons] at h
    rw [lastValue, ih h.2, if_neg h.1]
    rfl

def occurrences (key : GoString) (params : List Parameter) : Nat :=
  params.countP fun param => param.key = key

theorem occurrences_eq_zero_iff {key : GoString} {params : List Parameter} :
    occurrences key params = 0 ↔ ∀ param ∈ params, param.key ≠ key := by
  simp [occurrences, List.countP_eq_zero]

theorem occurrences_eq_zero_iff_lastValue {key : GoString} {params : List Parameter} :
    occurrences key params = 0 ↔ lastValue key params = none := by
  induction params with
  | nil => simp [occurrences, lastValue]
  | cons param rest ih =>
    simp only [occurrences] at ih
    simp only [occurrences, List.countP_cons, lastValue]
    by_cases hk : param.key = key <;> simp [hk, ih]

/-- When the server's choice is the route's target, in terms of the client's packet: it
names one database; or none, and the name is rewritten or the user is not repeated with
another value; or several, and the one the server sees is the target anyway. -/
def ServerAgrees (params : List Parameter) (database target : GoString) : Prop :=
  occurrences (str "database") params = 1 ∨
  (occurrences (str "database") params = 0 ∧
    (target ≠ database ∨ lastValue (str "user") params = some database)) ∨
  (2 ≤ occurrences (str "database") params ∧
    (lastValue (str "database") params = some target ∨
      (lastValue (str "database") params = some [] ∧
        lastValue (str "user") params = some target)))

section Choice
variable {Pool : Type} {route : Route Pool} {p : StartupPacket} {database : GoString}

theorem requestedDatabase_of_first {pre post : List Parameter} {old : GoString}
    (hp : p.parameters = pre ++ ⟨str "database", old⟩ :: post)
    (hpre : ∀ param ∈ pre, param.key ≠ str "database")
    (h : requestedDatabase p = some database) : old = database := by
  have hfind : p.parameter (str "database") = some old := by
    rw [StartupPacket.parameter, hp, List.find?_append,
      List.find?_eq_none.mpr (by simpa using hpre)]
    simp
  simp only [requestedDatabase, hfind, Option.filter_eq_some_iff, Option.some.injEq] at h
  exact h.1

theorem selectedDatabase_of_first {pre post : List Parameter} {target : GoString}
    (hpre : ∀ param ∈ pre, param.key ≠ str "database") (htarget : target ≠ []) :
    selectedDatabase (pre ++ ⟨str "database", target⟩ :: post) = some target ↔
      lastValue (str "database") post = none ∨
      lastValue (str "database") post = some target ∨
      (lastValue (str "database") post = some [] ∧
        lastValue (str "user") (pre ++ ⟨str "database", target⟩ :: post) = some target) := by
  have hlast : lastValue (str "database") (pre ++ ⟨str "database", target⟩ :: post) =
      (lastValue (str "database") post).or (some target) := by
    rw [lastValue_append, lastValue, lastValue_of_absent hpre, if_pos rfl, Option.or_none]
  rw [selectedDatabase, hlast]
  cases hpost : lastValue (str "database") post with
  | none => simp [htarget]
  | some v =>
    by_cases hv : v = []
    · subst hv
      simp [Ne.symm htarget]
    · simp [hv]

theorem lastValue_user_replace (pre post : List Parameter) (old new : GoString) :
    lastValue (str "user") (pre ++ ⟨str "database", old⟩ :: post) =
      lastValue (str "user") (pre ++ ⟨str "database", new⟩ :: post) := by
  have hne : str "database" ≠ str "user" := by decide
  simp only [lastValue_append, lastValue, if_neg hne]

theorem selectedDatabase_forwarded (hdatabase : requestedDatabase p = some database)
    (htarget : route.targetDatabase ≠ []) :
    selectedDatabase (forwardedPacket route database p).parameters =
        some route.targetDatabase ↔
      ServerAgrees p.parameters database route.targetDatabase := by
  rcases setParameterIn_setsFirst (str "database") route.targetDatabase p.parameters with
    ⟨pre, old, post, hp, hpre, hset⟩ | ⟨hnone, hset⟩
  · have hold := requestedDatabase_of_first hp hpre hdatabase
    subst hold
    -- an equal name is not rewritten, but it is the target already
    have hforwarded : (forwardedPacket route old p).parameters =
        pre ++ ⟨str "database", route.targetDatabase⟩ :: post := by
      by_cases heq : route.targetDatabase = old
      · rw [forwardedPacket_same (Or.inr heq), hp, heq]
      · rw [forwardedPacket_renamed htarget heq]
        exact hset
    have hcount : occurrences (str "database") p.parameters =
        occurrences (str "database") post + 1 := by
      have := occurrences_eq_zero_iff.mpr hpre
      simp only [occurrences] at this
      simp [occurrences, hp, this]
    have hlast : lastValue (str "database") p.parameters =
        (lastValue (str "database") post).or (some old) := by
      rw [hp, lastValue_append, lastValue, lastValue_of_absent hpre, if_pos rfl, Option.or_none]
    rw [hforwarded, selectedDatabase_of_first hpre htarget, ServerAgrees, hcount, hlast, hp,
      lastValue_user_replace pre post old route.targetDatabase]
    cases hpost : lastValue (str "database") post with
    | none =>
      have := occurrences_eq_zero_iff_lastValue.mpr hpost
      simp [this]
    | some v =>
      have : occurrences (str "database") post ≠ 0 := by
        rw [Ne, occurrences_eq_zero_iff_lastValue, hpost]
        simp
      have hmany : 2 ≤ occurrences (str "database") post + 1 := by omega
      simp [this, hmany]
  · have hzero := occurrences_eq_zero_iff.mpr hnone
    have hlast := lastValue_of_absent hnone
    rw [ServerAgrees, hzero]
    by_cases heq : route.targetDatabase = database
    · rw [forwardedPacket_same (Or.inr heq), selectedDatabase, hlast]
      simp [heq]
    · have hforwarded : (forwardedPacket route database p).parameters =
          p.parameters ++ [⟨str "database", route.targetDatabase⟩] := by
        rw [forwardedPacket_renamed htarget heq]
        exact hset
      have happended : lastValue (str "database")
          (p.parameters ++ [⟨str "database", route.targetDatabase⟩]) =
          some route.targetDatabase := by
        simp [lastValue_append, lastValue]
      rw [hforwarded, selectedDatabase, happended]
      simp [htarget, heq]

end Choice

section Forwarding
variable [GoFmt] {Pool : Type} {resolver : Resolver Pool} {clusterDomain : GoString}
variable {routes : List PostgresRoute} {tls : Option ServerTLS} {env : HandleEnv Pool}
variable {raw : Input} {client : Conn} {p : StartupPacket} {database : GoString}
variable {route : Route Pool} {backend : BackendConn Pool}

theorem build_targetDatabase_ne_nil (hdatabase : database ≠ [])
    (hroute : (build resolver clusterDomain routes).table.lookup database = some route) :
    route.targetDatabase ≠ [] := by
  obtain ⟨source, -, hclaims, hresolved⟩ := build_lookup_resolved hroute
  rw [(resolve_names hresolved).2.2]
  exact PostgresRoute.effectiveTargetDatabase_ne_nil (hclaims ▸ hdatabase)

/-- The packet `handle` forwards, and when a PostgreSQL server opens the target of the
route for it. -/
theorem backend_opens_target_iff
    (hdeadline : env.setDeadline = none)
    (hnegotiate : (negotiate tls env raw).2 = .ok (client, p))
    (hdatabase : requestedDatabase p = some database)
    (hroute : (build resolver clusterDomain routes).table.lookup database = some route)
    (hdial : (dialBackend env.network route).conn = .ok backend) :
    Effect.backend backend (env.forward.written (forwardedPacket route database p).encode) ∈
      (handle tls (build resolver clusterDomain routes).table env raw).1 ∧
    (selectedDatabase (forwardedPacket route database p).parameters =
        some route.targetDatabase ↔
      ServerAgrees p.parameters database route.targetDatabase) := by
  obtain ⟨base, -, hon⟩ := negotiateLoop_ok hnegotiate
  have hcancel := hon.not_cancel hdatabase
  have htarget := build_targetDatabase_ne_nil (requestedDatabase_ne_nil hdatabase) hroute
  refine ⟨?_, selectedDatabase_forwarded hdatabase htarget⟩
  obtain ⟨nego, hnego⟩ : ∃ nego, negotiate tls env raw = (nego, .ok (client, p)) :=
    ⟨_, Prod.ext rfl hnegotiate⟩
  simp only [handle, hdeadline, hnego, handleStartup, hcancel, hdatabase, hroute, hdial,
    Bool.false_eq_true, if_false]
  apply List.mem_append_right
  apply List.mem_append_right
  unfold forwardStartup
  dsimp only
  repeat' split
  all_goals exact List.mem_cons_self

end Forwarding

def appTable : Table Unit :=
  (@build Unit plainQuote emptyCluster (str "cluster.local") [appRoute "team" "app" "db"]).table

def appEntry : Route Unit :=
  { source := ⟨str "team", str "app"⟩, database := str "app", targetDatabase := str "app"
    host := str "db", port := 5432, tls := { mode := .disable } }

theorem backend_opens_target_iff_once :
    selectedDatabase (forwardedPacket appEntry (str "app") sampleStartup).parameters =
      some appEntry.targetDatabase :=
  (@backend_opens_target_iff plainQuote Unit emptyCluster (str "cluster.local")
    [appRoute "team" "app" "db"] none sampleEnv sampleClient
    { encrypted := false, input := ⟨[str "Q"], .sentinel .eof⟩ } sampleStartup (str "app") appEntry
    { address := str "db:5432", tls := none, input := ⟨[], .sentinel .eof⟩ }
    (by rfl) (by rfl) (by rfl) (by decide) (by rfl)).2.mpr (Or.inl (by decide))

/-- A packet that names the claimed database first and another one after it. -/
def repeatedStartup : StartupPacket :=
  { code := protocolVersion3
    parameters := [⟨str "user", str "ann"⟩, ⟨str "database", str "app"⟩,
      ⟨str "database", str "secret"⟩] }

theorem repeated_database_opens_another :
    let raw : Input := ⟨[repeatedStartup.encode], .sentinel .eof⟩
    ∃ effects client backend,
      (@negotiate Unit plainQuote none sampleEnv raw).2 = .ok (client, repeatedStartup) ∧
      appTable.lookup (str "app") = some appEntry ∧
      @handle Unit plainQuote none appTable sampleEnv raw =
        (effects, .relay client backend appEntry (str "app")) ∧
      backendBytes effects = repeatedStartup.encode ∧
      appEntry.targetDatabase = str "app" ∧
      selectedDatabase repeatedStartup.parameters = some (str "secret") :=
  ⟨_, _, _, rfl, by decide, rfl, rfl, rfl, by decide⟩

end Proxy
end PgProxy
