import PgProxy.Proxy.BackendStream
import PgProxy.Proxy.CancelSafety
import PgProxy.Proxy.Handling

/-!
# TLS towards backends

A route that asks for TLS keeps its mode and its trust anchors on the way from the spec
through the table and the cancel registry. On both paths, the session's and the
cancellation's, nothing but the SSLRequest goes out in the clear, and the first packet is
written on a connection that went through the whole upgrade.
-/

namespace PgProxy
set_option autoImplicit false

/-! ## From the spec to the table -/

section Resolution
variable {Pool : Type} {resolver : Resolver Pool} {clusterDomain : GoString}
variable {k : PostgresRoute} {spec : BackendTLS} {route : Route Pool}

theorem resolve_tls [GoFmt] (h : resolve resolver clusterDomain k = .ok route) :
    resolveTLS resolver k = .ok route.tls := by
  unfold resolve at h
  split at h
  · simp at h
  · split at h
    · simp at h
    · rename_i htls
      injection h with h
      subst h
      exact htls

/-- The key of the Secret that holds the trust anchors. -/
def SecretKeyReference.bundleKey (ref : SecretKeyReference) : GoString :=
  if ref.key = [] then str "ca.crt" else ref.key

/-- What the spec of a route that asks for TLS makes of its configuration. -/
structure Policed (resolver : Resolver Pool) (ns : GoString) (spec : BackendTLS)
    (tls : TLSConfig Pool) : Prop where
  enabled : tls.enabled = true
  mode : tls.mode = spec.mode
  anchors : spec.mode = .verifyCA ∨ spec.mode = .verifyFull →
    ∀ ref, spec.caSecretRef = some ref →
      ∃ pool, resolver.loadCABundle ns ref.name ref.bundleKey = .ok pool ∧
        tls.rootCAs = some pool

theorem resolveTLS_policed {tls : TLSConfig Pool} (hspec : k.spec.tls = some spec)
    (hmode : spec.mode ≠ .unset ∧ spec.mode ≠ .disable) (h : resolveTLS resolver k = .ok tls) :
    Policed resolver k.metadata.ns spec tls := by
  have henabled : ∀ roots : Option Pool, TLSConfig.enabled
      { mode := spec.mode, rootCAs := roots, serverName := spec.serverName } = true := by
    intro roots
    simp [TLSConfig.enabled, hmode]
  unfold resolveTLS at h
  rw [hspec] at h
  dsimp only at h
  rw [if_neg (by simp [hmode])] at h
  split at h
  · rename_i hverify
    injection h with h
    subst h
    exact ⟨henabled none, rfl, fun h => absurd h hverify⟩
  · split at h
    · rename_i hnone
      injection h with h
      subst h
      exact ⟨henabled none, rfl, fun _ ref href => by simp [hnone] at href⟩
    · rename_i ref href
      split at h
      · simp at h
      · rename_i pool hload
        injection h with h
        subst h
        refine ⟨henabled (some pool), rfl, fun _ ref' href' => ?_⟩
        obtain rfl := Option.some.inj (href.symm.trans href')
        exact ⟨pool, hload, rfl⟩

end Resolution

/-! ## The two paths to a backend -/

namespace Proxy
open Pgwire

variable {Pool : Type} {net : Network Pool} {route : Route Pool}

/-- A connection to the address that was dialled and upgraded under the route's policy. -/
def Secured (net : Network Pool) (address : GoString) (route : Route Pool)
    (conn : BackendConn Pool) : Prop :=
  conn.address = address ∧
    ∃ input, net.dial address = .ok input ∧ Upgraded net input route conn

theorem upgradeBackendTLS_secured {address : GoString} {input : Input} {conn : BackendConn Pool}
    (hdial : net.dial address = .ok input)
    (h : (upgradeBackendTLS net address input route).2 = .ok conn) :
    (upgradeBackendTLS net address input route).1 = sslRequest ∧
      Secured net address route conn := by
  obtain ⟨haddress, hupgraded⟩ := upgradeBackendTLS_ok h
  exact ⟨WriteOutcome.written_of_err_none hupgraded.requested _, haddress, input, hdial, hupgraded⟩

variable (net) in
theorem dialBackend_tls (htls : route.tls.enabled = true) :
    (dialBackend net route).plaintext <+: sslRequest ∧
      ∀ conn, (dialBackend net route).conn = .ok conn →
        (dialBackend net route).plaintext = sslRequest ∧ Secured net route.address route conn := by
  unfold dialBackend
  split
  · exact ⟨List.nil_prefix, by simp⟩
  · rename_i input hdial
    split
    · exact ⟨List.nil_prefix, by simp⟩
    · rw [if_pos htls]
      exact ⟨WriteOutcome.written_initial _ _, fun conn => upgradeBackendTLS_secured hdial⟩

theorem forwardEntry_tls (entry : CancelEntry Pool) (htls : entry.tls.enabled = true)
    (w : WriteOutcome) :
    (forwardEntry net w entry).plaintext <+: sslRequest ∧
      ∀ conn b, (forwardEntry net w entry).sent = some (conn, b) →
        (forwardEntry net w entry).plaintext = sslRequest ∧
        Secured net entry.backendAddr entry.route conn := by
  unfold forwardEntry
  dsimp only
  split
  · exact ⟨List.nil_prefix, by simp⟩
  · rename_i input hdial
    rw [if_pos htls]
    split
    · exact ⟨WriteOutcome.written_initial _ _, by simp⟩
    · rename_i conn hconn
      refine ⟨WriteOutcome.written_initial _ _, fun conn' b hsent => ?_⟩
      simp only [Option.some.injEq, Prod.mk.injEq] at hsent
      obtain ⟨rfl, -⟩ := hsent
      exact upgradeBackendTLS_secured hdial hconn

def Effect.reachesBackend : Effect Pool → Bool
  | .plaintext _ _ | .backend _ _ => true
  | _ => false

/-- What a session under a TLS policy writes to its backend: part of the SSLRequest, or the
whole of it and then, on a secured connection, the startup packet. -/
inductive FailsClosed (net : Network Pool) (route : Route Pool) : List (Effect Pool) → Prop
  | silent : FailsClosed net route []
  | requested {b : Bytes} (hb : b <+: sslRequest) :
      FailsClosed net route [.plaintext route.address b]
  | secured {conn : BackendConn Pool} {b : Bytes} (hconn : Secured net route.address route conn) :
      FailsClosed net route [.plaintext route.address sslRequest, .backend conn b]

theorem dialEffects_reaches (dialled : Dialled Pool) :
    (dialEffects route dialled).filter Effect.reachesBackend =
      if dialled.plaintext ≠ [] then [.plaintext route.address dialled.plaintext] else [] := by
  unfold dialEffects
  split <;> split <;> rfl

section Session
variable [GoFmt] {tls : Option ServerTLS} {table : Table Pool} {env : HandleEnv Pool}
variable {raw : Input} {client : Conn} {startup : StartupPacket} {database : GoString}

theorem negotiate_reaches_none (tls : Option ServerTLS) (env : HandleEnv Pool) (raw : Input) :
    (negotiate tls env raw).1.filter Effect.reachesBackend = [] := by
  rw [List.filter_eq_nil_iff]
  intro effect heffect
  obtain ⟨b, rfl⟩ := negotiateLoop_effects _ _ effect heffect
  simp [Effect.reachesBackend]

theorem StartupMove.fails_closed {effects : List (Effect Pool)} {next : Next Pool}
    (h : StartupMove table env client startup effects next) (htls : route.tls.enabled = true)
    (hdatabase : requestedDatabase startup = some database)
    (hlookup : table.lookup database = some route) :
    FailsClosed env.network route (effects.filter Effect.reachesBackend) ∧
      ∀ client' backend route' label, next = .relay client' backend route' label →
        route' = route ∧ Secured env.network route.address route backend := by
  obtain ⟨hplain, hconn⟩ := dialBackend_tls env.network htls
  have hsame : ∀ {database' route'}, requestedDatabase startup = some database' →
      table.lookup database' = some route' → route' = route := by
    intro database' route' hdatabase' hroute'
    obtain rfl := Option.some.inj (hdatabase'.symm.trans hdatabase)
    exact Option.some.inj (hroute'.symm.trans hlookup)
  cases h with
  | cancel | noRoute => exact ⟨.silent, by simp⟩
  | nameless hnone => simp [hnone] at hdatabase
  | unreachable hdatabase' hroute' hdial =>
    obtain rfl := hsame hdatabase' hroute'
    refine ⟨?_, by simp⟩
    rw [List.filter_append, dialEffects_reaches]
    split
    · exact .requested hplain
    · exact .silent
  | cut hdatabase' hroute' hdial | stalled hdatabase' hroute' hdial =>
    obtain rfl := hsame hdatabase' hroute'
    obtain ⟨hrequest, hsecured⟩ := hconn _ hdial
    rw [List.filter_append, dialEffects_reaches, hrequest, if_pos (by decide)]
    exact ⟨.secured hsecured, by simp⟩
  | proxied hdatabase' hroute' hdial =>
    obtain rfl := hsame hdatabase' hroute'
    obtain ⟨hrequest, hsecured⟩ := hconn _ hdial
    rw [List.filter_append, dialEffects_reaches, hrequest, if_pos (by decide)]
    refine ⟨.secured hsecured, ?_⟩
    intro client' backend route' label hrelay
    obtain ⟨-, rfl, rfl, -⟩ := Next.relay.inj hrelay
    exact ⟨rfl, hsecured⟩

theorem handle_fails_closed (htls : route.tls.enabled = true)
    (hnegotiate : (negotiate tls env raw).2 = .ok (client, startup))
    (hdatabase : requestedDatabase startup = some database)
    (hlookup : table.lookup database = some route) :
    FailsClosed env.network route
        ((handle tls table env raw).1.filter Effect.reachesBackend) ∧
      ∀ client' backend route' label,
        (handle tls table env raw).2 = .relay client' backend route' label →
        route' = route ∧ Secured env.network route.address route backend := by
  have hquiet := negotiate_reaches_none tls env raw
  have hmove := handle_move tls table env raw
  generalize (handle tls table env raw).1 = effects, (handle tls table env raw).2 = next
    at hmove ⊢
  cases hmove with
  | undated => exact ⟨.silent, by simp⟩
  | refused hnego => simp [hnego] at hnegotiate
  | started hnego hstartup =>
    rw [hnego, Except.ok.injEq, Prod.mk.injEq] at hnegotiate
    obtain ⟨rfl, rfl⟩ := hnegotiate
    rw [hnego] at hquiet
    rw [List.filter_append, hquiet, List.nil_append]
    exact hstartup.fails_closed htls hdatabase hlookup

end Session

theorem Relay.step_records [GoFmt] {relay relay' : Relay Pool} {action : RelayAction}
    {cancels cancels' : CancelRegistry Pool} {key : CancelRequest} {entry : CancelEntry Pool}
    (h : relay.step route cancels action = some (relay', cancels'))
    (hkey : cancels'.lookup key = some entry) :
    cancels.lookup key = some entry ∨ ∃ backendKey, entry = sessionEntry route backendKey := by
  cases Relay.step_registryMove h with
  | none => exact Or.inl hkey
  | @issue _ _ key' backendKey =>
    rcases GoMap.lookup_insert_cases hkey with ⟨-, hentry⟩ | hkey
    · exact Or.inr ⟨backendKey, hentry.symm⟩
    · exact Or.inl hkey
  | release => exact Or.inl (Downstream.releaseStep_lookup hkey)

/-- For every route that asks for TLS: a session routed to it writes in the clear at most
the SSLRequest and everything else on a secured connection; the entries its relay records
for cancellation carry its policy; a cancellation that uses such an entry behaves like the
session; and the trust anchors are those of the Secret the spec names, if it verifies the
backend and names one. -/
theorem backend_tls_fails_closed [GoFmt] {resolver : Resolver Pool} {clusterDomain : GoString}
    {k : PostgresRoute} {spec : BackendTLS} (hspec : k.spec.tls = some spec)
    (hmode : spec.mode ≠ .unset ∧ spec.mode ≠ .disable)
    (hroute : resolve resolver clusterDomain k = .ok route) :
    (∀ tls table env raw client startup database,
      (negotiate tls env raw).2 = .ok (client, startup) →
      requestedDatabase startup = some database → table.lookup database = some route →
      FailsClosed env.network route
        ((handle tls table env raw).1.filter Effect.reachesBackend) ∧
      ∀ client' backend route' label,
        (handle tls table env raw).2 = .relay client' backend route' label →
        route' = route ∧ Secured env.network route.address route backend) ∧
    (∀ relay relay' action cancels cancels' key entry,
      Relay.step route relay cancels action = some (relay', cancels') →
      cancels'.lookup key = some entry →
      cancels.lookup key = some entry ∨ ∃ backendKey, entry = sessionEntry route backendKey) ∧
    (∀ net w backendKey,
      (forwardCancel net w (some (sessionEntry route backendKey))).plaintext <+: sslRequest ∧
      ∀ conn b, (forwardCancel net w (some (sessionEntry route backendKey))).sent =
          some (conn, b) →
        (forwardCancel net w (some (sessionEntry route backendKey))).plaintext = sslRequest ∧
        Secured net route.address (sessionEntry route backendKey).route conn) ∧
    route.tls.mode = spec.mode ∧
    (∀ backendKey, (sessionEntry route backendKey).route.tls = route.tls) ∧
    (spec.mode = .verifyCA ∨ spec.mode = .verifyFull → ∀ ref, spec.caSecretRef = some ref →
      ∃ pool, resolver.loadCABundle k.metadata.ns ref.name ref.bundleKey = .ok pool ∧
        route.tls.rootCAs = some pool ∧ (clientTLS route).rootCAs = some pool ∧
        ∀ backendKey, (clientTLS (sessionEntry route backendKey).route).rootCAs = some pool) := by
  have hpoliced := resolveTLS_policed hspec hmode (resolve_tls hroute)
  refine ⟨fun _ _ _ _ _ _ _ => handle_fails_closed hpoliced.enabled,
    fun _ _ _ _ _ _ _ => Relay.step_records, ?_, hpoliced.mode, fun _ => rfl, ?_⟩
  · intro net w backendKey
    exact forwardEntry_tls (sessionEntry route backendKey) hpoliced.enabled w
  · intro hverify ref href
    obtain ⟨pool, hload, hroots⟩ := hpoliced.anchors hverify ref href
    exact ⟨pool, hload, hroots, hroots, fun _ => hroots⟩

def verifiedRoute : PostgresRoute :=
  { metadata := { ns := str "team", name := str "app" }
    spec :=
      { backend := { type := .address, address := some ⟨str "db", 5432⟩ }
        tls := some { mode := .verifyCA, caSecretRef := some ⟨str "ca", []⟩, serverName := [] } } }

/-- Trust anchors are numbers; the Secret holds number 7. -/
def trustingResolver : Resolver Nat where
  resolveServicePort := fun _ _ _ => .ok 5432
  loadCABundle := fun _ _ _ => .ok 7

theorem backend_tls_fails_closed_verified :
    ∃ route, @resolve Nat plainQuote trustingResolver (str "cluster.local") verifiedRoute =
        .ok route ∧
      (clientTLS route).rootCAs = some 7 ∧
      ∀ net w backendKey,
        (forwardCancel net w (some (sessionEntry route backendKey))).plaintext <+: sslRequest := by
  obtain ⟨route, hroute⟩ : ∃ route,
      @resolve Nat plainQuote trustingResolver (str "cluster.local") verifiedRoute = .ok route :=
    ⟨_, rfl⟩
  obtain ⟨-, -, hcancel, -, -, hanchors⟩ :=
    @backend_tls_fails_closed Nat _ plainQuote _ _ _ _ rfl (by decide) hroute
  obtain ⟨pool, hload, -, hroots, -⟩ := hanchors (Or.inl rfl) _ rfl
  obtain rfl := Except.ok.inj hload
  exact ⟨route, hroute, hroots, fun net w backendKey => (hcancel net w backendKey).1⟩

end Proxy
end PgProxy
