import PgProxy.Proxy.Negotiation

/-!
# What `handle` can do

One case for every way out of `handle`, with everything that was done on the way there.
What holds of all connections is proved by going through these cases.
-/

namespace PgProxy
set_option autoImplicit false

namespace Proxy
open Pgwire

variable {Pool : Type}

theorem mem_dialEffects {route : Route Pool} {dialled : Dialled Pool} {effect : Effect Pool}
    (h : effect ∈ dialEffects route dialled) :
    effect = .dialDuration route.database ∨ ∃ b, effect = .plaintext route.address b := by
  unfold dialEffects at h
  rcases List.mem_append.mp h with hduration | hplain
  · split at hduration
    · exact Or.inl (List.mem_singleton.mp hduration)
    · simp at hduration
  · split at hplain
    · exact Or.inr ⟨_, List.mem_singleton.mp hplain⟩
    · simp at hplain

variable [GoFmt]

/-- The ways out of `handle` after a successful negotiation. -/
inductive StartupMove (table : Table Pool) (env : HandleEnv Pool) (client : Conn)
    (startup : StartupPacket) : List (Effect Pool) → Next Pool → Prop
  | cancel (hcancel : startup.isCancelRequest) :
      StartupMove table env client startup [] (.cancel startup.cancel)
  | nameless {err : Option GoError} (hdatabase : requestedDatabase startup = none) :
      StartupMove table env client startup
        [.connection unrouted outcomeHandshake, writeFatal env.fatal sqlStateProtocolViolation
          (str "startup message carried neither a database nor a user parameter") []]
        (.returned err)
  | noRoute {database : GoString} (hdatabase : requestedDatabase startup = some database)
      (hroute : table.lookup database = none) :
      StartupMove table env client startup
        [.connection unrouted outcomeNoRoute, writeFatal env.fatal sqlStateUndefinedDatabase
          (str "database " ++ quote database ++ str " does not exist")
          (str "No PostgresRoute in this cluster claims that database name.")]
        (.returned none)
  | unreachable {database : GoString} {route : Route Pool} {e : GoError}
      (hdatabase : requestedDatabase startup = some database)
      (hroute : table.lookup database = some route)
      (hdial : (dialBackend env.network route).conn = .error e) :
      StartupMove table env client startup
        (dialEffects route (dialBackend env.network route) ++
          [.connection database outcomeBackendFailed, writeFatal env.fatal
            sqlStateConnectionFailure
            (str "the gateway could not reach the backend for database " ++ quote database)
            (str "Check the status of the PostgresRoute and of the backend Service.")])
        (.returned none)
  /-- The packet did not get through; a partial write has reached the backend. -/
  | cut {database : GoString} {route : Route Pool} {backend : BackendConn Pool}
      {err : Option GoError} (hdatabase : requestedDatabase startup = some database)
      (hroute : table.lookup database = some route)
      (hdial : (dialBackend env.network route).conn = .ok backend) :
      StartupMove table env client startup
        (dialEffects route (dialBackend env.network route) ++
          [.backend backend (env.forward.written (forwardedPacket route database startup).encode),
            .connection database outcomeBackendFailed])
        (.returned err)
  /-- A deadline could not be cleared. -/
  | stalled {database : GoString} {route : Route Pool} {backend : BackendConn Pool}
      {err : Option GoError} (hdatabase : requestedDatabase startup = some database)
      (hroute : table.lookup database = some route)
      (hdial : (dialBackend env.network route).conn = .ok backend) :
      StartupMove table env client startup
        (dialEffects route (dialBackend env.network route) ++
          [.backend backend (env.forward.written (forwardedPacket route database startup).encode)])
        (.returned err)
  | proxied {database : GoString} {route : Route Pool} {backend : BackendConn Pool}
      (hdatabase : requestedDatabase startup = some database)
      (hroute : table.lookup database = some route)
      (hdial : (dialBackend env.network route).conn = .ok backend) :
      StartupMove table env client startup
        (dialEffects route (dialBackend env.network route) ++
          [.backend backend (env.forward.written (forwardedPacket route database startup).encode),
            .connection database outcomeProxied, .active database])
        (.relay client backend route database)

theorem handleStartup_move (table : Table Pool) (env : HandleEnv Pool) (client : Conn)
    (startup : StartupPacket) : StartupMove table env client startup
      (handleStartup table env client startup).1 (handleStartup table env client startup).2 := by
  unfold handleStartup
  split
  · rename_i hcancel
    exact .cancel hcancel
  · cases hdatabase : requestedDatabase startup with
    | none => exact .nameless hdatabase
    | some database =>
      dsimp only
      cases hroute : table.lookup database with
      | none => exact .noRoute hdatabase hroute
      | some route =>
        dsimp only
        cases hdial : (dialBackend env.network route).conn with
        | error e => exact .unreachable hdatabase hroute hdial
        | ok backend =>
          dsimp only
          unfold forwardStartup
          dsimp only
          split
          · exact .cut hdatabase hroute hdial
          · split
            · exact .stalled hdatabase hroute hdial
            · split
              · exact .stalled hdatabase hroute hdial
              · exact .proxied hdatabase hroute hdial

inductive HandleMove (tls : Option ServerTLS) (table : Table Pool) (env : HandleEnv Pool)
    (raw : Input) : List (Effect Pool) → Next Pool → Prop
  | undated {err : Option GoError} : HandleMove tls table env raw [] (.returned err)
  | refused {effects : List (Effect Pool)} {e : GoError}
      (hnego : negotiate tls env raw = (effects, .error e)) :
      HandleMove tls table env raw
        (effects ++ if isBenignClose e then [] else [.connection unrouted outcomeHandshake])
        (.returned (some e))
  | started {effects effects' : List (Effect Pool)} {client : Conn} {startup : StartupPacket}
      {next : Next Pool} (hnego : negotiate tls env raw = (effects, .ok (client, startup)))
      (hmove : StartupMove table env client startup effects' next) :
      HandleMove tls table env raw (effects ++ effects') next

theorem handle_move (tls : Option ServerTLS) (table : Table Pool) (env : HandleEnv Pool)
    (raw : Input) : HandleMove tls table env raw (handle tls table env raw).1
      (handle tls table env raw).2 := by
  unfold handle
  split
  · exact .undated
  · split
    · rename_i effects e hnego
      exact .refused hnego
    · rename_i effects client startup hnego
      exact .started hnego (handleStartup_move table env client startup)

theorem handle_relay_inv {tls : Option ServerTLS} {table : Table Pool} {env : HandleEnv Pool}
    {raw : Input} {client : Conn} {backend : BackendConn Pool} {route : Route Pool}
    {label : GoString} (h : (handle tls table env raw).2 = .relay client backend route label) :
    ∃ startup, (negotiate tls env raw).2 = .ok (client, startup) ∧
      requestedDatabase startup = some label ∧ table.lookup label = some route ∧
      (dialBackend env.network route).conn = .ok backend := by
  have hmove := handle_move tls table env raw
  rw [h] at hmove
  generalize (handle tls table env raw).1 = effects at hmove
  cases hmove with
  | started hnego hstartup =>
    cases hstartup with
    | proxied hdatabase hroute hdial =>
      exact ⟨_, by rw [hnego], hdatabase, hroute, hdial⟩

end Proxy
end PgProxy
