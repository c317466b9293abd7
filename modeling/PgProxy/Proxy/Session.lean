import PgProxy.Proxy.Backend
import PgProxy.Proxy.Relay

/-!
# From the first byte of a client to its relay

`negotiate` walks the handshake before the startup packet, `handle` finds the route,
dials the backend, forwards the packet and hands over to the relay or to the forwarding
of a cancellation. What they do on the way is a list of effects, in order.
-/

namespace PgProxy
set_option autoImplicit false

namespace Proxy
open Pgwire

variable {Pool : Type}

def maxNegotiationRounds : Nat := 4

def outcomeProxied : GoString := str "proxied"
def outcomeNoRoute : GoString := str "no_route"
def outcomeBackendFailed : GoString := str "backend_unreachable"
def outcomeRejected : GoString := str "rejected"
def outcomeHandshake : GoString := str "handshake_failed"

def unrouted : GoString := str "<unrouted>"

def databaseLabel (database : GoString) (routed : Bool) : GoString :=
  if routed then database else unrouted

/-- The client-facing TLS settings; the certificate side is in the handshake. -/
structure ServerTLS where
  required : Bool
  deriving DecidableEq

/-- A client connection: its bytes still unread, decrypted once TLS is up. -/
structure Conn where
  encrypted : Bool
  input : Input

inductive Effect (Pool : Type) where
  /-- bytes that reached the client -/
  | client (b : Bytes)
  /-- an increment of the connections counter -/
  | connection (database outcome : GoString)
  | dialDuration (database : GoString)
  /-- bytes written to the backend before TLS is up -/
  | plaintext (address : GoString) (b : Bytes)
  /-- bytes written on the backend connection the session uses -/
  | backend (conn : BackendConn Pool) (b : Bytes)
  /-- the active connections gauge goes up -/
  | active (database : GoString)

def clientBytes (effects : List (Effect Pool)) : Bytes :=
  effects.flatMap fun
    | .client b => b
    | _ => []

def backendBytes (effects : List (Effect Pool)) : Bytes :=
  effects.flatMap fun
    | .backend _ b => b
    | _ => []

/-- What one connection meets outside the gateway, up to its relay. `reply` gives the
outcome of the answer written with that many rounds left. -/
structure HandleEnv (Pool : Type) where
  setDeadline : Option GoError := none
  reply : Nat → WriteOutcome := fun _ => .full
  handshake : Input → Except GoError Input
  fatal : WriteOutcome := .full
  network : Network Pool
  forward : WriteOutcome := .full
  clearClientDeadline : Option GoError := none
  clearBackendDeadline : Option GoError := none

/-- Report a failure to the client; a failed write is ignored. -/
def writeFatal (w : WriteOutcome) (sqlState message detail : GoString) : Effect Pool :=
  .client (w.written (encodeErrorResponse sqlState message detail))

section Negotiate
variable [GoFmt]

/-- The loop, with the number of rounds it may still make. -/
def negotiateLoop (tls : Option ServerTLS) (env : HandleEnv Pool) :
    Nat → Conn → List (Effect Pool) × Except GoError (Conn × StartupPacket)
  | 0, _ =>
    ([], .error (.other (str "client sent more than " ++ itoa maxNegotiationRounds ++
      str " negotiation packets without a startup message")))
  | rounds + 1, conn =>
    match readStartupPacket conn.input with
    | (.error e, _) =>
      ([], .error (if isBenignClose e then e else errorfWrap (str "reading startup packet") e))
    | (.ok packet, input) =>
      let conn := { conn with input }
      -- the answer to a request of this round, if there is one
      let w := env.reply rounds
      if packet.isSSLRequest then
        -- the client may go on in the clear
        match tls with
        | none =>
          let sent := Effect.client (w.written [negotiationRejected])
          match w.err with
          | some e => ([sent], .error (errorfWrap (str "declining TLS") e))
          | none =>
            let rest := negotiateLoop tls env rounds conn
            (sent :: rest.1, rest.2)
        | some _ =>
          if conn.encrypted then
            ([], .error (errorsNew
              "client sent a second SSLRequest inside an established TLS session"))
          else
            let sent := Effect.client (w.written [negotiationAccepted])
            match w.err with
            | some e => ([sent], .error (errorfWrap (str "accepting TLS") e))
            | none =>
              match env.handshake conn.input with
              | .error e => ([sent], .error (errorfWrap (str "client TLS handshake") e))
              | .ok input =>
                let rest := negotiateLoop tls env rounds { encrypted := true, input }
                (sent :: rest.1, rest.2)
      else if packet.isGSSEncRequest then
        let sent := Effect.client (w.written [negotiationRejected])
        match w.err with
        | some e => ([sent], .error (errorfWrap (str "declining GSSAPI encryption") e))
        | none =>
          let rest := negotiateLoop tls env rounds conn
          (sent :: rest.1, rest.2)
      else if packet.isCancelRequest then ([], .ok (conn, packet))
      else if tls.any ServerTLS.required && !conn.encrypted then
        ([writeFatal env.fatal sqlStateProtocolViolation
          (str "the gateway requires a TLS connection")
          (str "Connect with sslmode=require or stronger.")],
          .error (errorsNew "client declined the required TLS upgrade"))
      else ([], .ok (conn, packet))

def negotiate (tls : Option ServerTLS) (env : HandleEnv Pool) (rawConn : Input) :
    List (Effect Pool) × Except GoError (Conn × StartupPacket) :=
  negotiateLoop tls env maxNegotiationRounds { encrypted := false, input := rawConn }

end Negotiate

inductive Next (Pool : Type) where
  | returned (err : Option GoError)
  | cancel (request : CancelRequest)
  | relay (client : Conn) (backend : BackendConn Pool) (route : Route Pool) (label : GoString)

/-- The name the session is routed by: the database, or the user if there is no
database parameter at all; an empty name is refused. -/
def requestedDatabase (startup : StartupPacket) : Option GoString :=
  let database := match startup.parameter (str "database") with
    | some database => some database
    | none => startup.parameter (str "user")
  database.filter (· ≠ [])

/-- The packet for the backend; the name is rewritten only if the route asks for it. -/
def forwardedPacket (route : Route Pool) (database : GoString) (startup : StartupPacket) :
    StartupPacket :=
  if route.targetDatabase ≠ [] ∧ route.targetDatabase ≠ database then
    startup.setParameter (str "database") route.targetDatabase
  else startup

section Handle
variable [GoFmt]

/-- The part of `handle` from the open backend connection on. -/
def forwardStartup (env : HandleEnv Pool) (client : Conn) (startup : StartupPacket)
    (database : GoString) (route : Route Pool) (backend : BackendConn Pool) :
    List (Effect Pool) × Next Pool :=
  let label := databaseLabel database true
  let sent := Effect.backend backend
    (env.forward.written (forwardedPacket route database startup).encode)
  match env.forward.err with
  | some e =>
    ([sent, .connection label outcomeBackendFailed],
      .returned (some (errorfWrap (str "forwarding startup packet to backend") e)))
  | none =>
    match env.clearClientDeadline with
    | some e =>
      ([sent], .returned (some (errorfWrap (str "clearing handshake deadline") e)))
    | none =>
      match env.clearBackendDeadline with
      | some e => ([sent], .returned (some (errorfWrap (str "clearing backend deadline") e)))
      | none =>
        ([sent, .connection label outcomeProxied, .active label],
          .relay client backend route label)

def dialEffects (route : Route Pool) (dialled : Dialled Pool) : List (Effect Pool) :=
  (if dialled.observed then [.dialDuration route.database] else []) ++
    (if dialled.plaintext ≠ [] then [.plaintext route.address dialled.plaintext] else [])

/-- The part of `handle` after a successful negotiation. -/
def handleStartup (table : Table Pool) (env : HandleEnv Pool) (client : Conn)
    (startup : StartupPacket) : List (Effect Pool) × Next Pool :=
  if startup.isCancelRequest then ([], .cancel startup.cancel)
  else
    match requestedDatabase startup with
    | none =>
      let text := "startup message carried neither a database nor a user parameter"
      ([.connection unrouted outcomeHandshake,
        writeFatal env.fatal sqlStateProtocolViolation (str text) []],
        .returned (some (errorsNew text)))
    | some database =>
      match table.lookup database with
      | none =>
        ([.connection unrouted outcomeNoRoute,
          writeFatal env.fatal sqlStateUndefinedDatabase
            (str "database " ++ quote database ++ str " does not exist")
            (str "No PostgresRoute in this cluster claims that database name.")],
          .returned none)
      | some route =>
        let dialled := dialBackend env.network route
        match dialled.conn with
        | .error _ =>
          (dialEffects route dialled ++
            [.connection (databaseLabel database true) outcomeBackendFailed,
            writeFatal env.fatal sqlStateConnectionFailure
              (str "the gateway could not reach the backend for database " ++ quote database)
              (str "Check the status of the PostgresRoute and of the backend Service.")],
            .returned none)
        | .ok backend =>
          let rest := forwardStartup env client startup database route backend
          (dialEffects route dialled ++ rest.1, rest.2)

/-- `handle` up to its relay, with the routing table current at the lookup. -/
def handle (tls : Option ServerTLS) (table : Table Pool) (env : HandleEnv Pool)
    (rawConn : Input) : List (Effect Pool) × Next Pool :=
  match env.setDeadline with
  | some e => ([], .returned (some (errorfWrap (str "setting handshake deadline") e)))
  | none =>
    match negotiate tls env rawConn with
    | (effects, .error e) =>
      (effects ++ if isBenignClose e then [] else [.connection unrouted outcomeHandshake],
        .returned (some e))
    | (effects, .ok (client, startup)) =>
      let rest := handleStartup table env client startup
      (effects ++ rest.1, rest.2)

end Handle

/-- Whether `serve` logs what `handle` returned. -/
def logsOutcome (err : Option GoError) : Bool := err.any fun e => !isBenignClose e

end Proxy
end PgProxy
