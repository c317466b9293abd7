import PgProxy.Lib.Deadlines
import PgProxy.Proxy.Sessions

/-!
# How long a connection may hold its slot without a session

`handle` puts a deadline on the client before it reads the first byte, and dialling puts one on the
backend before it writes one. The functions below are the calls of `handle` that block, between the
operations on deadlines, in the order in which it makes them; closing a connection is not counted.
Whatever the client and the backend do, the connection is given up or has become a session after
the startup timeout, two dial timeouts and the time for an error response; and a session starts
with no deadline left on it.
-/

namespace PgProxy
set_option autoImplicit false

namespace Proxy
open Pgwire

variable {Pool : Type}

/-! ## The timeouts of a server -/

/-- In nanoseconds. -/
def second : Int := 1000000000

def defaultStartupTimeout : Int := 30 * second
def defaultDialTimeout : Int := 5 * second

/-- The two timeouts of a Config that bound the handshake. -/
structure Timeouts where
  startupTimeout : Int := 0
  dialTimeout : Int := 0

def orDefault (timeout default : Int) : Int := if timeout ≤ 0 then default else timeout

def Timeouts.applyDefaults (t : Timeouts) : Timeouts where
  startupTimeout := orDefault t.startupTimeout defaultStartupTimeout
  dialTimeout := orDefault t.dialTimeout defaultDialTimeout

def Timeouts.startup (t : Timeouts) : Nat := t.applyDefaults.startupTimeout.toNat
def Timeouts.dial (t : Timeouts) : Nat := t.applyDefaults.dialTimeout.toNat

/-- The write deadline of `writeFatal`. -/
def fatalTimeout : Nat := (5 * second).toNat

/-! ## The calls -/

inductive Socket where
  | clientRead
  | clientWrite
  | backend
  deriving DecidableEq

abbrev Op := TimedOp Socket

def fatalOps : List Op := [.set .clientWrite fatalTimeout, .call [.clientWrite]]

def upgradeOps (net : Network Pool) (input : Input) : List Op :=
  .call [.backend] ::
    match net.sslRequest.err with
    | some _ => []
    | none =>
      .call [.backend] ::
        match readFull 1 input with
        | (.error _, _) => []
        | (.ok reply, _) =>
          if reply.headD 0 ≠ negotiationAccepted then [] else [.call [.backend]]

def dialOps (t : Timeouts) (net : Network Pool) (route : Route Pool) : List Op :=
  .within t.dial ::
    match net.dial route.address with
    | .error _ => []
    | .ok input =>
      match net.setDeadline with
      | some _ => []
      | none => .set .backend t.dial :: if route.tls.enabled then upgradeOps net input else []

def forwardOps (env : HandleEnv Pool) : List Op :=
  .call [.backend] ::
    match env.forward.err with
    | some _ => []
    | none =>
      match env.clearClientDeadline with
      | some _ => []
      | none =>
        [.clear .clientRead, .clear .clientWrite] ++
          match env.clearBackendDeadline with
          | some _ => []
          | none => [.clear .backend]

def startupOps (t : Timeouts) (table : Table Pool) (env : HandleEnv Pool)
    (startup : StartupPacket) : List Op :=
  if startup.isCancelRequest then []
  else
    match requestedDatabase startup with
    | none => fatalOps
    | some database =>
      match table.lookup database with
      | none => fatalOps
      | some route =>
        dialOps t env.network route ++
          match (dialBackend env.network route).conn with
          | .error _ => fatalOps
          | .ok _ => forwardOps env

/-- `forwardCancel` ignores that the deadline of the backend cannot be set. -/
def cancelOps (t : Timeouts) (net : Network Pool) (entry : Option (CancelEntry Pool)) : List Op :=
  match entry with
  | none => []
  | some entry =>
    .within t.dial ::
      match net.dial entry.backendAddr with
      | .error _ => []
      | .ok input =>
        (if net.setDeadline.isNone then [.set .backend t.dial] else []) ++
          if entry.tls.enabled then
            upgradeOps net input ++
              match (upgradeBackendTLS net entry.backendAddr input entry.route).2 with
              | .error _ => []
              | .ok _ => [.call [.backend]]
          else [.call [.backend]]

section Ops
variable [GoFmt]

def negotiateOps (tls : Option ServerTLS) (env : HandleEnv Pool) : Nat → Conn → List Op
  | 0, _ => []
  | rounds + 1, conn =>
    .call [.clientRead] ::
      match readStartupPacket conn.input with
      | (.error _, _) => []
      | (.ok packet, input) =>
        let conn := { conn with input }
        let replied := (env.reply rounds).err
        if packet.isSSLRequest then
          match tls with
          | none =>
            .call [.clientWrite] ::
              match replied with
              | some _ => []
              | none => negotiateOps tls env rounds conn
          | some _ =>
            if conn.encrypted then []
            else
              .call [.clientWrite] ::
                match replied with
                | some _ => []
                | none =>
                  -- the TLS handshake reads and writes
                  .call [.clientRead, .clientWrite] ::
                    match env.handshake conn.input with
                    | .error _ => []
                    | .ok input => negotiateOps tls env rounds { encrypted := true, input }
        else if packet.isGSSEncRequest then
          .call [.clientWrite] ::
            match replied with
            | some _ => []
            | none => negotiateOps tls env rounds conn
        else if packet.isCancelRequest then []
        else if tls.any ServerTLS.required && !conn.encrypted then fatalOps
        else []

def handleOps (t : Timeouts) (tls : Option ServerTLS) (table : Table Pool) (env : HandleEnv Pool)
    (rawConn : Input) : List Op :=
  match env.setDeadline with
  | some _ => []
  | none =>
    [.set .clientRead t.startup, .set .clientWrite t.startup] ++
      negotiateOps tls env maxNegotiationRounds { encrypted := false, input := rawConn } ++
      match (negotiate tls env rawConn).2 with
      | .error _ => []
      | .ok (_, startup) => startupOps t table env startup

/-- What a connection does with its slot before it has a session. `net` and `entry` are those of a
cancellation. -/
def slotOps (t : Timeouts) (tls : Option ServerTLS) (table : Table Pool) (env : HandleEnv Pool)
    (net : Network Pool) (entry : Option (CancelEntry Pool)) (rawConn : Input) : List Op :=
  handleOps t tls table env rawConn ++
    match (handle tls table env rawConn).2 with
    | .cancel _ => cancelOps t net entry
    | _ => []

end Ops

/-! ## Every write is one of the calls -/

/-- The call that an effect is the trace of. -/
def Effect.ops : Effect Pool → List Op
  | .client _ => [.call [.clientWrite]]
  | .plaintext _ _ | .backend _ _ => [.call [.backend]]
  | .connection _ _ | .dialDuration _ | .active _ => []

/-- The calls that these effects are the trace of are among these operations, in this order. -/
def TracedBy (ops : List Op) (effects : List (Effect Pool)) : Prop :=
  (effects.flatMap Effect.ops).Sublist ops

/-! ## The calls of a negotiation -/

def ClientCalls (ops : List Op) : Prop :=
  ∀ op ∈ ops, ∃ sockets, op = .call sockets ∧ .backend ∉ sockets

/-- Calls on the client, and an error response only after a failure. -/
def ClientOps (ops : List Op) (failed : Prop) : Prop :=
  ∃ calls, ClientCalls calls ∧ (ops = calls ∨ ops = calls ++ fatalOps ∧ failed)

theorem ClientOps.nil (failed : Prop) : ClientOps [] failed :=
  ⟨[], by simp [ClientCalls], .inl rfl⟩

theorem ClientOps.fatal {failed : Prop} (h : failed) : ClientOps fatalOps failed :=
  ⟨[], by simp [ClientCalls], .inr ⟨rfl, h⟩⟩

theorem ClientOps.call {ops : List Op} {failed : Prop} {sockets : List Socket}
    (hsockets : .backend ∉ sockets) (h : ClientOps ops failed) :
    ClientOps (.call sockets :: ops) failed := by
  obtain ⟨calls, hcalls, hops⟩ := h
  refine ⟨.call sockets :: calls, ?_, ?_⟩
  · intro op hop
    rcases List.mem_cons.mp hop with rfl | hop
    · exact ⟨sockets, rfl, hsockets⟩
    · exact hcalls op hop
  · exact hops.imp (fun h => by rw [h]) fun h => ⟨by rw [h.1]; rfl, h.2⟩

/-- What a negotiation calls, beside what it writes. -/
structure Negotiates (ops : List Op) (effects : List (Effect Pool)) (failed : Prop) : Prop where
  client : ClientOps ops failed
  traced : TracedBy ops effects

section Negotiates
variable {ops : List Op} {effects : List (Effect Pool)} {failed : Prop}

theorem Negotiates.nil (failed : Prop) : Negotiates [] ([] : List (Effect Pool)) failed :=
  ⟨.nil failed, List.Sublist.refl _⟩

theorem Negotiates.fatal (h : failed) (b : Bytes) :
    Negotiates fatalOps [(.client b : Effect Pool)] failed :=
  ⟨.fatal h, List.sublist_cons_self _ _⟩

theorem Negotiates.call {sockets : List Socket} (h : Negotiates ops effects failed)
    (hsockets : .backend ∉ sockets) : Negotiates (.call sockets :: ops) effects failed :=
  ⟨h.client.call hsockets, List.Sublist.cons _ h.traced⟩

theorem Negotiates.wrote (h : Negotiates ops effects failed) (b : Bytes) :
    Negotiates (.call [.clientWrite] :: ops) (.client b :: effects) failed :=
  ⟨h.client.call (by simp), List.Sublist.cons_cons _ h.traced⟩

end Negotiates

/-- One induction over the rounds, for the calls as well as for what they write. -/
theorem negotiateOps_negotiates [GoFmt] (tls : Option ServerTLS) (env : HandleEnv Pool)
    (rounds : Nat) (conn : Conn) :
    Negotiates (negotiateOps tls env rounds conn) (negotiateLoop tls env rounds conn).1
      (∃ e, (negotiateLoop tls env rounds conn).2 = .error e) := by
  induction rounds generalizing conn with
  | zero => exact .nil _
  | succ rounds ih =>
    obtain ⟨result, input, hread⟩ : ∃ result input,
      readStartupPacket conn.input = (result, input) := ⟨_, _, rfl⟩
    simp only [negotiateOps, negotiateLoop, hread]
    refine Negotiates.call ?_ (by simp)
    cases result with
    | error e => exact .nil _
    | ok packet =>
      dsimp only
      split
      · cases tls with
        | none =>
          dsimp only
          cases (env.reply rounds).err with
          | some e => exact (Negotiates.nil _).wrote _
          | none => exact (ih _).wrote _
        | some tls =>
          dsimp only
          split
          · exact .nil _
          · cases (env.reply rounds).err with
            | some e => exact (Negotiates.nil _).wrote _
            | none =>
              cases env.handshake input with
              | error e => exact ((Negotiates.nil _).call (by simp)).wrote _
              | ok input => exact ((ih _).call (by simp)).wrote _
      · split
        · cases (env.reply rounds).err with
          | some e => exact (Negotiates.nil _).wrote _
          | none => exact (ih _).wrote _
        · split
          · exact .nil _
          · split
            · exact .fatal ⟨_, rfl⟩ _
            · exact .nil _

/-! ## The rest of `handle` -/

section Traces
variable {ops ops' : List Op} {effects effects' : List (Effect Pool)}

theorem TracedBy.append (h : TracedBy ops effects) (h' : TracedBy ops' effects') :
    TracedBy (ops ++ ops') (effects ++ effects') := by
  unfold TracedBy
  rw [List.flatMap_append]
  exact List.Sublist.append h h'

theorem dialOps_traced (t : Timeouts) (net : Network Pool) (route : Route Pool) :
    TracedBy (dialOps t net route) (dialEffects route (dialBackend net route)) := by
  have hplain : ∀ dialled : Dialled Pool, (dialEffects route dialled).flatMap Effect.ops =
      if dialled.plaintext ≠ [] then [.call [.backend]] else [] := by
    intro dialled
    unfold dialEffects
    rw [List.flatMap_append]
    split <;> split <;> rfl
  unfold TracedBy dialOps
  rw [hplain, dialBackend]
  refine List.Sublist.cons _ ?_
  cases net.dial route.address with
  | error e => exact List.Sublist.refl _
  | ok input =>
    cases net.setDeadline with
    | some e => exact List.Sublist.refl _
    | none =>
      refine List.Sublist.cons _ ?_
      dsimp only
      split
      · -- the request is the first call of the upgrade
        refine List.Sublist.trans ?_ (List.Sublist.cons_cons _ (List.nil_sublist _))
        split
        · exact List.Sublist.refl _
        · exact List.nil_sublist _
      · exact List.Sublist.refl _

theorem forwardOps_traced (env : HandleEnv Pool) (client : Conn) (startup : StartupPacket)
    (database : GoString) (route : Route Pool) (backend : BackendConn Pool) :
    TracedBy (forwardOps env) (forwardStartup env client startup database route backend).1 := by
  -- the packet is written by the first call, whatever comes of it
  refine List.Sublist.trans ?_ (List.Sublist.cons_cons _ (List.nil_sublist _))
  unfold forwardStartup
  dsimp only
  split
  · exact List.Sublist.refl _
  · split
    · exact List.Sublist.refl _
    · split <;> exact List.Sublist.refl _

variable [GoFmt]

theorem startupOps_traced (t : Timeouts) (table : Table Pool) (env : HandleEnv Pool) (client : Conn)
    (startup : StartupPacket) :
    TracedBy (startupOps t table env startup) (handleStartup table env client startup).1 := by
  unfold startupOps handleStartup
  split
  · exact List.Sublist.refl _
  · cases requestedDatabase startup with
    | none => exact List.sublist_cons_self _ _
    | some database =>
      dsimp only
      cases table.lookup database with
      | none => exact List.sublist_cons_self _ _
      | some route =>
        dsimp only
        cases (dialBackend env.network route).conn with
        | error e =>
          exact (dialOps_traced t env.network route).append (List.sublist_cons_self _ _)
        | ok backend =>
          exact (dialOps_traced t env.network route).append
            (forwardOps_traced env client startup database route backend)

/-- Everything that `handle` writes to the client and to the backend is written by the calls, and
in their order. -/
theorem handleOps_traced (t : Timeouts) (tls : Option ServerTLS) (table : Table Pool)
    (env : HandleEnv Pool) (raw : Input) :
    TracedBy (handleOps t tls table env raw) (handle tls table env raw).1 := by
  unfold handleOps handle
  cases env.setDeadline with
  | some e => exact List.Sublist.refl _
  | none =>
    obtain ⟨effects, result, hnego⟩ : ∃ effects result,
      negotiate tls env raw = (effects, result) := ⟨_, _, rfl⟩
    have htraced := (negotiateOps_negotiates tls env maxNegotiationRounds
      { encrypted := false, input := raw }).traced
    rw [← negotiate, hnego] at htraced
    simp only [hnego, List.append_assoc]
    refine List.Sublist.cons _ (List.Sublist.cons _ ?_)
    cases result with
    | error e =>
      refine htraced.append ?_
      cases isBenignClose e <;> exact List.Sublist.refl _
    | ok result => exact htraced.append (startupOps_traced t table env result.1 result.2)

end Traces

/-! ## The handshake with the client -/

section Client
variable {c d : Clock Socket} {ops : List Op} {failed : Prop}

theorem elapses_fatal (h : Elapses c fatalOps d) :
    d.now ≤ c.now + fatalTimeout := by
  obtain ⟨now, hnow, hrest⟩ := h.set.call (c.expires_set .clientWrite fatalTimeout)
  obtain rfl := hrest.eq_of_nil
  dsimp only at hnow ⊢
  omega

/-- The handshake with the client is over when its deadline has passed, or with the error response
that may follow. -/
theorem elapses_client (hops : ClientOps ops failed) {latest : Nat}
    (hexpires : c.Expires [.clientRead, .clientWrite] latest) (h : Elapses c ops d) :
    (d.now ≤ max c.now latest ∧ d.deadline = c.deadline) ∨
      d.now ≤ max c.now latest + fatalTimeout ∧ failed := by
  obtain ⟨calls, hcalls, hops⟩ := hops
  have hclient : ∀ op ∈ calls, ∃ sockets, op = .call sockets ∧ c.Expires sockets latest := by
    intro op hop
    obtain ⟨sockets, rfl, hsockets⟩ := hcalls op hop
    refine ⟨sockets, rfl, fun socket hsocket => hexpires socket ?_⟩
    cases socket with
    | clientRead | clientWrite => simp
    | backend => exact absurd hsocket hsockets
  rcases hops with rfl | ⟨rfl, hfailed⟩
  · exact .inl (h.calls hclient)
  · obtain ⟨e, hbefore, hfatal⟩ := h.of_append
    obtain ⟨hnow, -⟩ := hbefore.calls hclient
    have hend := elapses_fatal hfatal
    exact .inr ⟨by omega, hfailed⟩

end Client

/-! ## The backend -/

def BackendCalls (ops : List Op) : Prop := ∀ op ∈ ops, op = .call [.backend]

theorem BackendCalls.append {ops ops' : List Op} (h : BackendCalls ops) (h' : BackendCalls ops') :
    BackendCalls (ops ++ ops') := by
  intro op hop
  exact (List.mem_append.mp hop).elim (h op) (h' op)

section Backend
variable {c d : Clock Socket} {ops : List Op} {t : Timeouts} {net : Network Pool}

theorem upgradeOps_backend (net : Network Pool) (input : Input) :
    BackendCalls (upgradeOps net input) := by
  unfold upgradeOps BackendCalls
  cases net.sslRequest.err with
  | some e => simp
  | none =>
    rcases readFull 1 input with ⟨_ | reply, rest⟩
    · simp
    · dsimp only
      split <;> simp

theorem elapses_backend (hops : BackendCalls ops) {latest : Nat}
    (hexpires : c.Expires [.backend] latest) (h : Elapses c ops d) :
    d.now ≤ max c.now latest ∧ d.deadline = c.deadline :=
  h.calls fun op hop => ⟨[.backend], hops op hop, hexpires⟩

theorem elapses_dial {route : Route Pool} (h : Elapses c (dialOps t net route) d) :
    d.now ≤ c.now + 2 * t.dial ∧ ∀ backend, (dialBackend net route).conn = .ok backend →
      d.Expires [.backend] (c.now + 2 * t.dial) := by
  obtain ⟨now, hnow, hrest⟩ := h.within
  unfold dialBackend
  cases hdial : net.dial route.address with
  | error e =>
    rw [hdial] at hrest
    obtain rfl := hrest.eq_of_nil
    exact ⟨by dsimp only; omega, by simp⟩
  | ok input =>
    rw [hdial] at hrest
    cases hset : net.setDeadline with
    | some e =>
      simp only [hset] at hrest
      obtain rfl := hrest.eq_of_nil
      exact ⟨by dsimp only; omega, by simp⟩
    | none =>
      simp only [hset] at hrest
      have hcalls : BackendCalls (if route.tls.enabled then upgradeOps net input else []) := by
        split
        · exact upgradeOps_backend net input
        · simp [BackendCalls]
      obtain ⟨hend, hdeadline⟩ :=
        elapses_backend hcalls (Clock.expires_set _ Socket.backend t.dial) hrest.set
      dsimp only at hend
      refine ⟨by omega, fun backend _ => ?_⟩
      simp only [Clock.Expires, hdeadline, List.mem_singleton, forall_eq, Function.update_self,
        Option.some.injEq, exists_eq_left']
      omega

end Backend

/-! ## The whole handshake -/

section Handshake
variable {c d : Clock Socket} {t : Timeouts} {tls : Option ServerTLS} {table : Table Pool}
variable {env : HandleEnv Pool} {raw : Input}

theorem elapses_forward {latest : Nat} (hexpires : c.Expires [.backend] latest)
    (h : Elapses c (forwardOps env) d) :
    d.now ≤ max c.now latest ∧ (env.forward.err = none → env.clearClientDeadline = none →
      env.clearBackendDeadline = none → ∀ socket, d.deadline socket = none) := by
  obtain ⟨now, hnow, hrest⟩ := h.call hexpires
  cases hforward : env.forward.err with
  | some e =>
    rw [hforward] at hrest
    obtain rfl := hrest.eq_of_nil
    exact ⟨hnow, by simp⟩
  | none =>
    cases hclient : env.clearClientDeadline with
    | some e =>
      simp only [hforward, hclient] at hrest
      obtain rfl := hrest.eq_of_nil
      exact ⟨hnow, by simp⟩
    | none =>
      simp only [hforward, hclient] at hrest
      have hcleared := hrest.clear.clear
      cases hbackend : env.clearBackendDeadline with
      | some e =>
        rw [hbackend] at hcleared
        obtain rfl := hcleared.eq_of_nil
        exact ⟨hnow, by simp⟩
      | none =>
        rw [hbackend] at hcleared
        obtain rfl := hcleared.clear.eq_of_nil
        refine ⟨hnow, fun _ _ _ socket => ?_⟩
        cases socket <;> simp [Function.update]

theorem elapses_startup {startup : StartupPacket}
    (h : Elapses c (startupOps t table env startup) d) :
    d.now ≤ c.now + 2 * t.dial + fatalTimeout := by
  unfold startupOps at h
  split at h
  · obtain rfl := h.eq_of_nil
    omega
  · split at h
    · exact (elapses_fatal h).trans (by omega)
    · split at h
      · exact (elapses_fatal h).trans (by omega)
      · rename_i route _
        obtain ⟨e, hdial, hrest⟩ := h.of_append
        obtain ⟨hdialled, hbackend⟩ := elapses_dial hdial
        cases hconn : (dialBackend env.network route).conn with
        | error err =>
          rw [hconn] at hrest
          exact (elapses_fatal hrest).trans (by omega)
        | ok backend =>
          rw [hconn] at hrest
          obtain ⟨hnow, -⟩ := elapses_forward (hbackend backend hconn) hrest
          omega

theorem elapses_session {startup : StartupPacket} {database : GoString} {route : Route Pool}
    {backend : BackendConn Pool} (henv : env.Faultless) (hcancel : startup.isCancelRequest = false)
    (hdatabase : requestedDatabase startup = some database)
    (hroute : table.lookup database = some route)
    (hconn : (dialBackend env.network route).conn = .ok backend)
    (h : Elapses c (startupOps t table env startup) d) :
    d.now ≤ c.now + 2 * t.dial ∧ ∀ socket, d.deadline socket = none := by
  simp only [startupOps, hcancel, hdatabase, hroute, hconn, Bool.false_eq_true, if_false] at h
  obtain ⟨e, hdial, hrest⟩ := h.of_append
  obtain ⟨hdialled, hbackend⟩ := elapses_dial hdial
  obtain ⟨hnow, hcleared⟩ := elapses_forward (hbackend backend hconn) hrest
  exact ⟨by omega, hcleared (by rw [henv.forward]; rfl) henv.clearClientDeadline
    henv.clearBackendDeadline⟩

theorem elapses_cancel {net : Network Pool} {entry : Option (CancelEntry Pool)}
    (hset : net.setDeadline = none) (h : Elapses c (cancelOps t net entry) d) :
    d.now ≤ c.now + 2 * t.dial := by
  cases entry with
  | none =>
    obtain rfl := h.eq_of_nil
    omega
  | some entry =>
    obtain ⟨now, hnow, hrest⟩ := h.within
    cases hdial : net.dial entry.backendAddr with
    | error e =>
      rw [hdial] at hrest
      obtain rfl := hrest.eq_of_nil
      exact hnow.trans (by omega)
    | ok input =>
      simp only [hdial, hset, Option.isNone_none, if_true] at hrest
      have hcalls : BackendCalls (if entry.tls.enabled then
          upgradeOps net input ++
            match (upgradeBackendTLS net entry.backendAddr input entry.route).2 with
            | .error _ => []
            | .ok _ => [.call [.backend]]
          else [.call [.backend]]) := by
        split
        · refine (upgradeOps_backend net input).append ?_
          split <;> simp [BackendCalls]
        · simp [BackendCalls]
      obtain ⟨hend, -⟩ :=
        elapses_backend hcalls (Clock.expires_set _ Socket.backend t.dial) hrest.set
      dsimp only at hend
      omega

theorem elapses_handle [GoFmt] (hset : env.setDeadline = none)
    (h : Elapses c (handleOps t tls table env raw) d) :
    match (negotiate tls env raw).2 with
    | .error _ => d.now ≤ c.now + t.startup + fatalTimeout
    | .ok (_, startup) => ∃ e, e.now ≤ c.now + t.startup ∧
        Elapses e (startupOps t table env startup) d := by
  simp only [handleOps, hset, List.cons_append, List.nil_append] at h
  obtain ⟨e, hclient, hrest⟩ := h.set.set.of_append
  have hexpires : Clock.Expires ({ c with
      deadline := Function.update
        (Function.update c.deadline .clientRead (some (c.now + t.startup)))
        .clientWrite (some (c.now + t.startup)) } : Clock Socket)
      [.clientRead, .clientWrite] (c.now + t.startup) := by
    simp [Clock.Expires]
  have hnego := elapses_client (negotiateOps_negotiates tls env _ _).client hexpires hclient
  cases hresult : (negotiate tls env raw).2 with
  | error err =>
    rw [hresult] at hrest
    obtain rfl := hrest.eq_of_nil
    dsimp only at hnego ⊢
    omega
  | ok result =>
    rw [hresult] at hrest
    refine ⟨e, ?_, hrest⟩
    rcases hnego with ⟨hnow, -⟩ | ⟨-, err, herror⟩
    · dsimp only at hnow
      omega
    · rw [negotiate, herror] at hresult
      simp at hresult

theorem elapses_handled [GoFmt] (h : Elapses c (handleOps t tls table env raw) d) :
    d.now ≤ c.now + t.startup + 2 * t.dial + fatalTimeout := by
  cases hset : env.setDeadline with
  | some err =>
    rw [handleOps, hset] at h
    obtain rfl := h.eq_of_nil
    omega
  | none =>
    have hnego := elapses_handle hset h
    split at hnego
    · omega
    · obtain ⟨e, he, hstartup⟩ := hnego
      have hend := elapses_startup hstartup
      omega

theorem handle_cancel_inv [GoFmt] {request : CancelRequest}
    (h : (handle tls table env raw).2 = .cancel request) :
    env.setDeadline = none ∧ ∃ client startup, (negotiate tls env raw).2 = .ok (client, startup) ∧
      startup.isCancelRequest := by
  constructor
  · unfold handle at h
    split at h
    · simp at h
    · assumption
  · have hmove := handle_move tls table env raw
    rw [h] at hmove
    generalize (handle tls table env raw).1 = effects at hmove
    cases hmove with
    | started hnego hstartup =>
      cases hstartup with
      | cancel hcancel => exact ⟨_, _, by rw [hnego], hcancel⟩

/-- Whatever the client and the backend do, a connection that is not a session gives its slot back
within the startup timeout, two dial timeouts and the time for an error response; and a connection
that becomes a session does so within the startup timeout and two dial timeouts, with no deadline
left on either side. A cancellation relies on the deadline of its backend connection, an error of
which `forwardCancel` ignores. -/
theorem handshake_pins_no_slot [GoFmt] {net : Network Pool} {entry : Option (CancelEntry Pool)}
    (hset : ∀ request, (handle tls table env raw).2 = .cancel request → net.setDeadline = none)
    (h : Elapses c (slotOps t tls table env net entry raw) d) :
    d.now ≤ c.now + t.startup + 2 * t.dial + fatalTimeout ∧
      ∀ client backend route label,
        (handle tls table env raw).2 = .relay client backend route label →
        d.now ≤ c.now + t.startup + 2 * t.dial ∧ ∀ socket, d.deadline socket = none := by
  obtain ⟨e, hhandle, hrest⟩ := h.of_append
  have hhandled := elapses_handled hhandle
  cases hnext : (handle tls table env raw).2 with
  | returned err =>
    rw [hnext] at hrest
    obtain rfl := hrest.eq_of_nil
    exact ⟨hhandled, by simp⟩
  | cancel request =>
    rw [hnext] at hrest
    obtain ⟨hdeadline, client, startup, hnego, hcancel⟩ := handle_cancel_inv hnext
    have hbefore := elapses_handle hdeadline hhandle
    rw [hnego] at hbefore
    obtain ⟨f, hf, hstartup⟩ := hbefore
    rw [startupOps, if_pos hcancel] at hstartup
    obtain rfl := hstartup.eq_of_nil
    have hend := elapses_cancel (hset request hnext) hrest
    exact ⟨by omega, by simp⟩
  | relay client backend route label =>
    rw [hnext] at hrest
    obtain rfl := hrest.eq_of_nil
    refine ⟨hhandled, fun _ _ _ _ _ => ?_⟩
    have henv := handle_relay_faultless hnext
    obtain ⟨startup, hnego, hdatabase, hroute, hconn⟩ := handle_relay_inv hnext
    obtain ⟨base, -, hon⟩ := negotiateLoop_ok hnego
    have hbefore := elapses_handle henv.setDeadline hhandle
    rw [hnego] at hbefore
    obtain ⟨f, hf, hstartup⟩ := hbefore
    obtain ⟨hend, hcleared⟩ :=
      elapses_session henv (hon.not_cancel hdatabase) hdatabase hroute hconn hstartup
    exact ⟨by omega, hcleared⟩

/-- The bound is reached: a client sends its packet at the last moment, the network takes its time
as well, and with the defaults the session starts after 40 seconds. -/
theorem handshake_pins_no_slot_slow :
    ∃ d, Elapses ⟨0, fun _ => none⟩
        (@slotOps Unit plainQuote {} none sampleTable sampleEnv sampleEnv.network none sampleClient)
        d ∧
      d.now = 40 * second.toNat ∧ ∀ socket, d.deadline socket = none := by
  obtain ⟨d, hrun, hnow⟩ : ∃ d, Elapses ⟨0, fun _ => none⟩
      (@slotOps Unit plainQuote {} none sampleTable sampleEnv sampleEnv.network none sampleClient)
      d ∧ d.now = 40 * second.toNat := by
    refine ⟨_, .cons (.set _ _) <| .cons (.set _ _) <|
      .cons (.untilDeadline List.mem_cons_self rfl (by decide)) <|
      .cons (.within (by decide) (Nat.le_refl _)) <| .cons (.set _ _) <|
      .cons (.untilDeadline List.mem_cons_self rfl (by decide)) <|
      .cons (.clear _) <| .cons (.clear _) <| .cons (.clear _) (.nil _), by decide⟩
  obtain ⟨client, backend, route, label, hrelay⟩ : ∃ client backend route label,
      (@handle Unit plainQuote none sampleTable sampleEnv sampleClient).2 =
        .relay client backend route label := ⟨_, _, _, _, rfl⟩
  have hend := (@handshake_pins_no_slot Unit _ _ _ _ _ _ _ plainQuote _ _ (by simp [hrelay])
    hrun).2 _ _ _ _ hrelay
  exact ⟨d, hrun, hnow, hend.2⟩

end Handshake

end Proxy
end PgProxy
