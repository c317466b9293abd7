import PgProxy.Proxy.Negotiation

/-!
# What the backend receives

The startup packet occupies exactly the bytes it declares, so the connection that
`negotiate` returns goes on with the first byte after it. `handle` writes the packet,
with the database renamed if the route asks for it, and the relay copies the rest.
-/

namespace PgProxy
set_option autoImplicit false

namespace Proxy
open Pgwire

variable {Pool : Type}

/-! ## Up to the relay -/

theorem backendBytes_append (xs ys : List (Effect Pool)) :
    backendBytes (xs ++ ys) = backendBytes xs ++ backendBytes ys := by
  simp [backendBytes]

theorem negotiate_backendBytes [GoFmt] (tls : Option ServerTLS) (env : HandleEnv Pool)
    (raw : Input) : backendBytes (negotiate tls env raw).1 = [] := by
  rw [backendBytes, List.flatMap_eq_nil_iff]
  intro effect heffect
  obtain ⟨b, rfl⟩ := negotiateLoop_effects _ _ effect heffect
  rfl

theorem dialEffects_backendBytes (route : Route Pool) (dialled : Dialled Pool) :
    backendBytes (dialEffects route dialled) = [] := by
  unfold dialEffects
  split <;> split <;> rfl

/-- Nothing the gateway does on this connection up to the relay fails. -/
structure HandleEnv.Faultless (env : HandleEnv Pool) : Prop where
  setDeadline : env.setDeadline = none
  forward : env.forward = .full
  clearClientDeadline : env.clearClientDeadline = none
  clearBackendDeadline : env.clearBackendDeadline = none

theorem requestedDatabase_ne_nil {p : StartupPacket} {database : GoString}
    (h : requestedDatabase p = some database) : database ≠ [] := by
  have := (Option.filter_eq_some_iff.mp h).2
  simpa using this

theorem StartupOn.not_cancel [GoFmt] {base unread : Input} {p : StartupPacket}
    {database : GoString} (h : StartupOn base p unread)
    (hdatabase : requestedDatabase p = some database) : p.isCancelRequest = false := by
  obtain ⟨codes, pkt, -, hpkt, -⟩ := h.layout
  by_contra hcancel
  have hcode : p.code = cancelRequestCode := by
    simpa [StartupPacket.isCancelRequest] using hcancel
  -- the payload of a cancel packet is its key, and there are no parameters
  have hnone := decodeStartupBody_cancel hpkt.decoded hcode
  simp [requestedDatabase, StartupPacket.parameter, hnone] at hdatabase

theorem handle_relay [GoFmt] {tls : Option ServerTLS} {table : Table Pool} {env : HandleEnv Pool}
    {raw : Input} {client : Conn} {p : StartupPacket} {database : GoString} {route : Route Pool}
    {backend : BackendConn Pool} (henv : env.Faultless)
    (hnegotiate : (negotiate tls env raw).2 = .ok (client, p))
    (hcancel : p.isCancelRequest = false) (hdatabase : requestedDatabase p = some database)
    (hroute : table.lookup database = some route)
    (hdial : (dialBackend env.network route).conn = .ok backend) :
    ∃ effects, handle tls table env raw = (effects, .relay client backend route database) ∧
      backendBytes effects = (forwardedPacket route database p).encode := by
  have hquiet : backendBytes (negotiate tls env raw).1 = [] := negotiate_backendBytes _ _ _
  obtain ⟨nego, hnego⟩ : ∃ nego, negotiate tls env raw = (nego, .ok (client, p)) :=
    ⟨_, Prod.ext rfl hnegotiate⟩
  rw [hnego] at hquiet
  simp only [handle, henv.setDeadline, hnego, handleStartup, hcancel, hdatabase, hroute, hdial,
    forwardStartup, henv.forward, henv.clearClientDeadline, henv.clearBackendDeadline,
    WriteOutcome.err, WriteOutcome.written, Bool.false_eq_true, if_false, databaseLabel, if_true]
  refine ⟨_, rfl, ?_⟩
  rw [backendBytes_append, backendBytes_append, hquiet, dialEffects_backendBytes]
  simp [backendBytes]

/-! ## The upstream copy -/

structure Upstream.Through (stream : Bytes) (u : Upstream) : Prop where
  written : u.copied <+: stream
  running : (∀ e, u.result ≠ some (some e)) → stream = u.copied ++ u.client.stream
  finished : u.result = some none → u.client.stream = []

theorem Upstream.Through.step {stream : Bytes} {closed : Bool} {w : WriteOutcome}
    {u v : Upstream} (h : u.Through stream) (hstep : u.step closed w = some v) :
    v.Through stream := by
  unfold Upstream.step at hstep
  split at hstep
  · simp at hstep
  · rename_i hrunning
    have hnone : u.result = none := by simpa using hrunning
    have hstream := h.running (by simp [hnone])
    split at hstep
    · obtain rfl := Option.some.inj hstep
      exact ⟨h.written, fun hne => absurd rfl (hne _), by simp⟩
    · obtain ⟨piece, rest, result, hround⟩ : ∃ piece rest result,
          copyRound u.client w = (piece, rest, result) := ⟨_, _, _, rfl⟩
      simp only [hround, Option.some.injEq] at hstep
      subst hstep
      obtain ⟨hpiece, hall, hend⟩ := copyRound_spec hround
      refine ⟨?_, fun hne => ?_, hend⟩
      · rw [hstream]
        exact (List.prefix_append_right_inj _).mpr hpiece
      · rw [hstream, hall hne, List.append_assoc]

/-- The relay of one session, where each action meets the registry the other sessions
have left. -/
def Relay.stepIn [GoFmt] (route : Route Pool) (s : Relay Pool)
    (action : RelayAction × CancelRegistry Pool) : Option (Relay Pool) :=
  (s.step route action.2 action.1).map Prod.fst

theorem Relay.step_up [GoFmt] {route : Route Pool} {s t : Relay Pool}
    {cancels cancels' : CancelRegistry Pool} {action : RelayAction}
    (h : s.step route cancels action = some (t, cancels')) :
    t.up = s.up ∨ ∃ w, action = .up w ∧ s.up.step s.clientClosed w = some t.up := by
  cases action with
  | up w =>
    simp only [Relay.step, Option.map_eq_some_iff, Prod.mk.injEq] at h
    obtain ⟨up, hup, rfl, -⟩ := h
    exact Or.inr ⟨w, rfl, hup⟩
  | frame w draws =>
    simp only [Relay.step, Option.ite_none_right_eq_some, Option.map_eq_some_iff,
      Prod.mk.injEq] at h
    obtain ⟨-, x, -, rfl, -⟩ := h
    exact Or.inl rfl
  | splice w | release | closeClient | finish =>
    simp only [Relay.step, Option.ite_none_right_eq_some, Option.some.injEq,
      Prod.mk.injEq] at h
    obtain ⟨-, rfl, -⟩ := h
    exact Or.inl rfl

theorem Relay.through_stepIn [GoFmt] {route : Route Pool} {stream : Bytes} {s t : Relay Pool}
    {action : RelayAction × CancelRegistry Pool} (h : s.up.Through stream)
    (hstep : s.stepIn route action = some t) : t.up.Through stream := by
  obtain ⟨x, hx, rfl⟩ := Option.map_eq_some_iff.mp hstep
  rcases Relay.step_up hx with hsame | ⟨w, -, hup⟩
  · exact hsame ▸ h
  · exact h.step hup

theorem Relay.up_finishes [GoFmt] (route : Route Pool) (s : Relay Pool)
    (hopen : s.clientClosed = false) (hrunning : s.up.result = none)
    (heof : s.up.client.fin = .sentinel .eof) :
    ∃ actions t, exec (Relay.stepIn route) s actions = some t ∧ t.up.result = some none := by
  -- The weight counts chunks too, so that reading an empty chunk is progress.
  induction hn : s.up.client.weight using Nat.strongRecOn generalizing s with
  | ind n ih =>
    cases hread : s.up.client.read 32768 with
    | none =>
      have hstep : s.stepIn route (.up .full, ∅) =
          some { s with up := { s.up with result := some none } } := by
        simp [Relay.stepIn, Relay.step, Upstream.step, hrunning, hopen, copyRound, hread, heof]
      exact ⟨[(.up .full, ∅)], _, exec_cons.mpr ⟨_, hstep, rfl⟩, rfl⟩
    | some x =>
      obtain ⟨piece, rest⟩ := x
      have hstep : s.stepIn route (.up .full, ∅) =
          some { s with up := { client := rest, copied := s.up.copied ++ piece } } := by
        simp [Relay.stepIn, Relay.step, Upstream.step, hrunning, hopen, copyRound, hread,
          WriteOutcome.written, WriteOutcome.err]
      have hweight := ChunkReader.weight_read (by decide) hread
      obtain ⟨actions, t, hrun, hdone⟩ := ih _ (hn ▸ hweight)
        { s with up := { client := rest, copied := s.up.copied ++ piece } } hopen rfl
        ((ChunkReader.read_fin hread).trans heof) rfl
      exact ⟨(.up .full, ∅) :: actions, t, exec_cons.mpr ⟨_, hstep, hrun⟩, hdone⟩

theorem forwardedPacket_same {route : Route Pool} {database : GoString} {p : StartupPacket}
    (h : route.targetDatabase = [] ∨ route.targetDatabase = database) :
    forwardedPacket route database p = p := by
  rw [forwardedPacket, if_neg (by tauto)]

theorem forwardedPacket_renamed {route : Route Pool} {database : GoString} {p : StartupPacket}
    (hne : route.targetDatabase ≠ []) (hdb : route.targetDatabase ≠ database) :
    forwardedPacket route database p = p.setParameter (str "database") route.targetDatabase := by
  rw [forwardedPacket, if_pos ⟨hne, hdb⟩]

/-- The bytes written to the backend by `handle` and by the relay after it, in every state
the relay reaches: the packet with at most its database renamed, and then the client's
bytes from the declared end of its packet on. -/
theorem backend_receives_exactly [GoFmt] {tls : Option ServerTLS} {table : Table Pool}
    {env : HandleEnv Pool} {raw : Input} {client : Conn} {p : StartupPacket}
    {database : GoString} {route : Route Pool} {backend : BackendConn Pool}
    (hnegotiate : (negotiate tls env raw).2 = .ok (client, p))
    (hdatabase : requestedDatabase p = some database)
    (hroute : table.lookup database = some route)
    (hdial : (dialBackend env.network route).conn = .ok backend) (henv : env.Faultless) :
    ∃ effects p' base,
      handle tls table env raw = (effects, .relay client backend route database) ∧
      ContinuesOn env { encrypted := false, input := raw } client base ∧
      StartupOn base p client.input ∧
      (route.targetDatabase = [] ∨ route.targetDatabase = database → p' = p) ∧
      (route.targetDatabase ≠ [] → route.targetDatabase ≠ database → p'.code = p.code ∧
        SetsFirst (str "database") route.targetDatabase p.parameters p'.parameters) ∧
      (∀ actions s,
        exec (Relay.stepIn route) (Relay.start client.input backend.input) actions = some s →
        backendBytes effects ++ s.up.copied <+: p'.encode ++ client.input.stream ∧
        (s.up.result = some none →
          backendBytes effects ++ s.up.copied = p'.encode ++ client.input.stream)) ∧
      (client.input.fin = .sentinel .eof → ∃ actions s,
        exec (Relay.stepIn route) (Relay.start client.input backend.input) actions = some s ∧
        s.up.result = some none) := by
  obtain ⟨base, hbase, hon⟩ := negotiateLoop_ok hnegotiate
  obtain ⟨effects, hhandle, hbytes⟩ := handle_relay henv hnegotiate
    (hon.not_cancel hdatabase) hdatabase hroute hdial
  refine ⟨effects, forwardedPacket route database p, base, hhandle, hbase, hon,
    forwardedPacket_same, ?_, ?_, fun heof => Relay.up_finishes route _ rfl rfl heof⟩
  · intro hne hdb
    rw [forwardedPacket_renamed hne hdb]
    exact ⟨rfl, setParameterIn_setsFirst _ _ _⟩
  · intro actions s hrun
    have hstart : (Relay.start client.input backend.input : Relay Pool).up.Through
        client.input.stream :=
      ⟨List.nil_prefix, fun _ => rfl, by simp [Relay.start]⟩
    have hs : s.up.Through client.input.stream :=
      exec_invariant (I := fun s : Relay Pool => s.up.Through client.input.stream)
        Relay.through_stepIn hstart hrun
    rw [hbytes]
    refine ⟨(List.prefix_append_right_inj _).mpr hs.written, fun hdone => ?_⟩
    have hall := hs.running (by simp [hdone])
    rw [hs.finished hdone, List.append_nil] at hall
    rw [hall]

def sampleStartup : StartupPacket :=
  { code := protocolVersion3
    parameters := [⟨str "user", str "ann"⟩, ⟨str "database", str "app"⟩] }

def sampleClient : Input := ⟨[sampleStartup.encode ++ str "Q"], .sentinel .eof⟩

def sampleRoute : Route Unit :=
  { source := ⟨str "team", str "app"⟩, database := str "app", targetDatabase := str "prod"
    host := str "db", port := 5432 }

def sampleTable : Table Unit := Table.new (Finmap.singleton (str "app") sampleRoute)

/-- A network without TLS in which every address answers and says nothing. -/
def sampleEnv : HandleEnv Unit where
  handshake _ := .error (errorsNew "no TLS")
  network :=
    { dial := fun _ => .ok ⟨[], .sentinel .eof⟩
      handshake := fun _ _ => .error (errorsNew "no TLS")
      verify := fun _ _ _ => none }

theorem backend_receives_exactly_renamed :
    ∃ (effects : List (Effect Unit)) (p' : StartupPacket),
      @handle Unit plainQuote none sampleTable sampleEnv sampleClient =
        (effects, .relay { encrypted := false, input := ⟨[str "Q"], .sentinel .eof⟩ }
          { address := str "db:5432", tls := none, input := ⟨[], .sentinel .eof⟩ }
          sampleRoute (str "app")) ∧
      SetsFirst (str "database") (str "prod") sampleStartup.parameters p'.parameters ∧
      ∃ actions s, exec (@Relay.stepIn Unit plainQuote sampleRoute)
          (Relay.start ⟨[str "Q"], .sentinel .eof⟩ ⟨[], .sentinel .eof⟩) actions = some s ∧
        backendBytes effects ++ s.up.copied = p'.encode ++ str "Q" := by
  obtain ⟨effects, p', -, hhandle, -, -, -, hrenamed, hbytes, hends⟩ :=
    @backend_receives_exactly Unit plainQuote none sampleTable sampleEnv sampleClient
      { encrypted := false, input := ⟨[str "Q"], .sentinel .eof⟩ } sampleStartup (str "app")
      sampleRoute { address := str "db:5432", tls := none, input := ⟨[], .sentinel .eof⟩ }
      (by rfl) (by rfl) (by rfl) (by rfl) ⟨rfl, rfl, rfl, rfl⟩
  obtain ⟨actions, s, hrun, hdone⟩ := hends rfl
  exact ⟨effects, p', hhandle, (hrenamed (by decide) (by decide)).2, actions, s, hrun,
    (hbytes actions s hrun).2 hdone⟩

end Proxy
end PgProxy
