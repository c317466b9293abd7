import PgProxy.Proxy.Cancel

/-!
# Connections to backends

Dialling a backend for a session and for a cancellation, and the SSLRequest exchange
both share. The network, `crypto/tls` and `crypto/x509` are the functions of a
`Network`; a handshake turns the raw bytes of the backend into its decrypted stream.
-/

namespace PgProxy
set_option autoImplicit false

namespace Proxy
open Pgwire BigEndian

variable {Pool : Type}

def negotiationAccepted : UInt8 := 83
def negotiationRejected : UInt8 := 78

/-- The client-side `tls.Config`; the minimum version is always TLS 1.2. -/
structure ClientTLS (Pool : Type) where
  serverName : GoString
  rootCAs : Option Pool
  insecureSkipVerify : Bool
  deriving DecidableEq

abbrev Certificate := Bytes

/-- What one attempt to reach a backend meets. -/
structure Network (Pool : Type) where
  dial : GoString → Except GoError Input
  setDeadline : Option GoError := none
  sslRequest : WriteOutcome := .full
  handshake : ClientTLS Pool → Input → Except GoError (Input × List Certificate)
  verify : Certificate → Option Pool → List Certificate → Option GoError

/-- An open backend connection, with the configuration that secured it. -/
structure BackendConn (Pool : Type) where
  address : GoString
  tls : Option (ClientTLS Pool)
  input : Input

/-- The chain is checked against the trust anchors, the host name is not. -/
def verifyChainOnly (net : Network Pool) (peerCertificates : List Certificate)
    (roots : Option Pool) : Option GoError :=
  match peerCertificates with
  | [] => some (errorsNew "backend presented no certificate")
  | leaf :: intermediates =>
    (net.verify leaf roots intermediates).map
      (errorfWrap (str "verifying the backend certificate chain"))

def clientTLS (route : Route Pool) : ClientTLS Pool where
  serverName := if route.tls.serverName = [] then route.host else route.tls.serverName
  rootCAs := route.tls.rootCAs
  insecureSkipVerify := route.tls.mode = .require || route.tls.mode = .verifyCA

def sslRequest : Bytes := putUint32 8 ++ putUint32 sslRequestCode.toUInt32

/-- The bytes written in the clear, and the secured connection. -/
def upgradeBackendTLS (net : Network Pool) (address : GoString) (conn : Input)
    (route : Route Pool) : Bytes × Except GoError (BackendConn Pool) :=
  (net.sslRequest.written sslRequest,
    match net.sslRequest.err with
    | some e => .error (errorfWrap (str "sending SSLRequest to backend") e)
    | none =>
      match readFull 1 conn with
      | (.error e, _) =>
        .error (errorfWrap (str "reading the backend's TLS negotiation reply") e)
      | (.ok reply, conn) =>
        if reply.headD 0 ≠ negotiationAccepted then
          .error (.other (str "backend declined TLS but the route requires tls.mode=" ++
            route.tls.mode.string))
        else
          let cfg := clientTLS route
          match net.handshake cfg conn with
          | .error e => .error (errorfWrap (str "backend TLS handshake") e)
          | .ok (input, peerCertificates) =>
            let rejected := if route.tls.mode = .verifyCA then
              verifyChainOnly net peerCertificates route.tls.rootCAs else none
            match rejected with
            | some e => .error e
            | none => .ok { address, tls := some cfg, input })

/-- The certificates bear out what the mode of the route asks for. Under VerifyCA the chain
of the leaf is verified against the route's trust anchors; under VerifyFull it is the
handshake that verifies chain and host name, and it is not told to skip that. -/
structure Trusted (net : Network Pool) (route : Route Pool)
    (peerCertificates : List Certificate) : Prop where
  chain : route.tls.mode = .verifyCA → ∃ leaf intermediates,
    peerCertificates = leaf :: intermediates ∧
      net.verify leaf route.tls.rootCAs intermediates = none
  handshake : route.tls.mode = .verifyFull → (clientTLS route).insecureSkipVerify = false

/-- The connection went through the whole upgrade: the request was written, the backend
accepted it, the handshake succeeded, and its certificates are trusted. -/
structure Upgraded (net : Network Pool) (input : Input) (route : Route Pool)
    (conn : BackendConn Pool) : Prop where
  requested : net.sslRequest.err = none
  secured : ∃ rest peerCertificates, readFull 1 input = (.ok [negotiationAccepted], rest) ∧
    net.handshake (clientTLS route) rest = .ok (conn.input, peerCertificates) ∧
    Trusted net route peerCertificates
  config : conn.tls = some (clientTLS route)

theorem verifyChainOnly_eq_none {net : Network Pool} {peerCertificates : List Certificate}
    {roots : Option Pool} (h : verifyChainOnly net peerCertificates roots = none) :
    ∃ leaf intermediates, peerCertificates = leaf :: intermediates ∧
      net.verify leaf roots intermediates = none := by
  cases peerCertificates with
  | nil => simp [verifyChainOnly] at h
  | cons leaf intermediates => exact ⟨leaf, intermediates, rfl, Option.map_eq_none_iff.mp h⟩

theorem upgradeBackendTLS_ok {net : Network Pool} {address : GoString} {input : Input}
    {route : Route Pool} {conn : BackendConn Pool}
    (h : (upgradeBackendTLS net address input route).2 = .ok conn) :
    conn.address = address ∧ Upgraded net input route conn := by
  unfold upgradeBackendTLS at h
  dsimp only at h
  split at h
  · simp at h
  · rename_i hrequested
    split at h
    · simp at h
    · rename_i reply rest hread
      split at h
      · simp at h
      · rename_i hreply
        have haccepted : reply = [negotiationAccepted] := by
          obtain ⟨hlen, rfl, -⟩ := readFull_ok_iff.mp hread
          cases hstream : input.stream with
          | nil => simp [hstream] at hlen
          | cons b bs => simpa [hstream] using hreply
        split at h
        · simp at h
        · rename_i stream peerCertificates hshake
          split at h
          · simp at h
          · rename_i hverified
            injection h with h
            subst h
            refine ⟨rfl, hrequested, ⟨rest, peerCertificates, ?_, hshake, ?_, ?_⟩, rfl⟩
            · rw [hread, haccepted]
            · intro hmode
              rw [if_pos hmode] at hverified
              exact verifyChainOnly_eq_none hverified
            · intro hmode
              simp [clientTLS, hmode]

/-- One dial for a session: whether the dial duration was observed, the bytes written
in the clear before TLS, and the connection. -/
structure Dialled (Pool : Type) where
  observed : Bool
  plaintext : Bytes
  conn : Except GoError (BackendConn Pool)

def dialBackend (net : Network Pool) (route : Route Pool) : Dialled Pool :=
  match net.dial route.address with
  | .error e => { observed := false, plaintext := [], conn := .error e }
  | .ok input =>
    match net.setDeadline with
    | some e =>
      { observed := true, plaintext := []
        conn := .error (errorfWrap (str "setting backend handshake deadline") e) }
    | none =>
      if route.tls.enabled then
        let (plaintext, conn) := upgradeBackendTLS net route.address input route
        { observed := true, plaintext, conn }
      else
        { observed := true, plaintext := []
          conn := .ok { address := route.address, tls := none, input } }

/-! ## Forwarding a cancellation -/

def hostOf (address : GoString) : GoString :=
  match splitHostPort address with
  | none => address
  | some (host, _) => host

/-- What forwarding a CancelRequest does: the outcome it counts, the address dialled,
the bytes written in the clear before TLS, and the cancel packet sent with the
connection it was sent on. -/
structure CancelForward (Pool : Type) where
  outcome : GoString
  dialled : Option GoString := none
  plaintext : Bytes := []
  sent : Option (BackendConn Pool × Bytes) := none

def CancelEntry.route (entry : CancelEntry Pool) : Route Pool :=
  { source := ⟨[], []⟩, database := [], targetDatabase := []
    host := hostOf entry.backendAddr, tls := entry.tls }

def forwardEntry (net : Network Pool) (w : WriteOutcome) (entry : CancelEntry Pool) :
    CancelForward Pool :=
  let dialled := some entry.backendAddr
  match net.dial entry.backendAddr with
  | .error _ => { outcome := str "backend_unreachable", dialled }
  | .ok input =>
    let (plaintext, target) :=
      if entry.tls.enabled then upgradeBackendTLS net entry.backendAddr input entry.route
      else ([], .ok { address := entry.backendAddr, tls := none, input })
    match target with
    | .error _ => { outcome := str "tls_failed", dialled, plaintext }
    | .ok conn =>
      let packet := encodeCancelRequest entry.backendKey
      { outcome := match w.err with
          | some _ => str "write_failed"
          | none => str "forwarded"
        dialled
        plaintext
        sent := some (conn, w.written packet) }

/-- `entry` is what the registry answered for the client's key. -/
def forwardCancel (net : Network Pool) (w : WriteOutcome) (entry : Option (CancelEntry Pool)) :
    CancelForward Pool :=
  match entry with
  | none => { outcome := str "unknown_key" }
  | some entry => forwardEntry net w entry

/-- The counter of cancellations takes one for unknown exactly if the registry has no entry
for its key, and for forwarded exactly if its packet went out whole. -/
theorem forwardCancel_outcome (net : Network Pool) (w : WriteOutcome)
    (entry : Option (CancelEntry Pool)) :
    ((forwardCancel net w entry).outcome = str "unknown_key" ↔ entry = none) ∧
    ((forwardCancel net w entry).outcome = str "forwarded" ↔ w.err = none ∧
      ∃ e conn, entry = some e ∧
        (forwardCancel net w entry).sent = some (conn, encodeCancelRequest e.backendKey)) := by
  cases entry with
  | none => simp +decide [forwardCancel]
  | some e =>
    simp only [forwardCancel, forwardEntry]
    split
    · simp +decide
    · split
      · simp +decide
      · cases w with
        | full => simp +decide [WriteOutcome.err, WriteOutcome.written]
        | short n err => simp +decide [WriteOutcome.err]

end Proxy
end PgProxy
