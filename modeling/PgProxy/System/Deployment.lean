import PgProxy.Proxy.Deadlines
import PgProxy.Proxy.Gauges
import PgProxy.Settings
import PgProxy.System.Node

/-!
# The process that a configuration starts

`run` creates the controller manager from a configuration that was accepted, and registers the
components of the process with it: the table builder always, the reconcilers if the role runs the
manager, and the gateway if it runs the proxy. What the command line and the environment ask for is
followed from there into the runs of the replica.
-/

namespace PgProxy
set_option autoImplicit false

open Proxy
open Settings (Environment)

variable {Pool : Type}

/-! ## The components -/

/-- The files of the gateway's own certificate. `hasCertificates` is `AppendCertsFromPEM`. -/
structure Files where
  loadX509KeyPair : GoString → GoString → Option GoError := fun _ _ => none
  readFile : GoString → Except GoError Bytes
  hasCertificates : Bytes → Bool

def buildServerTLS (files : Files) (cfg : Settings.ProxyConfig) :
    Except GoError (Option Proxy.ServerTLS) :=
  let serverTLS : Proxy.ServerTLS := { required := cfg.tlsMode = .require }
  if cfg.tlsMode = .disable then .ok none
  else
    match files.loadX509KeyPair cfg.tlsCertFile cfg.tlsKeyFile with
    | some e => .error (errorfWrap (str "loading the client-facing TLS keypair") e)
    | none =>
      if cfg.tlsClientCAFile = [] then .ok (some serverTLS)
      else
        match files.readFile cfg.tlsClientCAFile with
        | .error e => .error (errorfWrap (str "reading the client CA bundle") e)
        | .ok pem =>
          if files.hasCertificates pem then .ok (some serverTLS)
          else .error (.other (str "client CA bundle " ++ cfg.tlsClientCAFile ++
            str " holds no PEM certificates"))

/-- A gateway with its timeouts. -/
structure GatewaySetup where
  config : Proxy.Config
  timeouts : Proxy.Timeouts

/-- `proxy.New`. -/
def GatewaySetup.new (listenAddress : GoString) (tls : Option Proxy.ServerTLS)
    (maxConnections : Int) (timeouts : Proxy.Timeouts) : Except GoError GatewaySetup :=
  if listenAddress = [] then .error (errorsNew "proxy: Config.ListenAddress is required")
  else if maxConnections < 0 then
    .error (.other (str "proxy: MaxConnections must not be negative, got " ++ itoa maxConnections))
  else .ok { config := { tls, maxConnections := maxConnections.toNat }, timeouts }

def newGateway (files : Files) (cfg : Settings.Config) : Except GoError GatewaySetup :=
  match buildServerTLS files cfg.proxy with
  | .error e => .error e
  | .ok serverTLS =>
    GatewaySetup.new cfg.proxy.bindAddress serverTLS cfg.proxy.maxConnections
      { startupTimeout := cfg.proxy.startupTimeout, dialTimeout := cfg.proxy.dialTimeout }

/-- The namespaces the informers are limited to, if they are limited. -/
def cacheOptions (cfg : Settings.Config) : Option (Finset GoString) :=
  if cfg.watch.clusterScoped then none else some cfg.watch.namespaces.toFinset

/-- What the manager is told of the configuration. -/
structure ManagerOptions where
  cache : Option (Finset GoString)
  metricsBindAddress : GoString
  leaderElection : Bool
  leaderElectionID : GoString
  leaderElectionNamespace : GoString
  leaseDuration : Int
  renewDeadline : Int
  retryPeriod : Int
  gracefulShutdownTimeout : Int

def managerOptions (cfg : Settings.Config) : ManagerOptions where
  cache := cacheOptions cfg
  metricsBindAddress := cfg.metricsBindAddress
  leaderElection := cfg.leader.enabled
  leaderElectionID := cfg.leader.id
  leaderElectionNamespace := cfg.leader.ns
  leaseDuration := cfg.leader.leaseDuration
  renewDeadline := cfg.leader.renewDeadline
  retryPeriod := cfg.leader.retryPeriod
  gracefulShutdownTimeout := cfg.proxy.shutdownGracePeriod

/-- What is registered with the manager. -/
inductive Runnable where
  | routeTable
  | postgresRoute
  | serviceDiscovery
  | gateway
  | probes

/-- The controller runtime. `newManager` includes `GetConfigOrDie`, and may refuse the options: if a
leader is to be elected but no namespace is given for the lease, it looks for one itself. -/
structure ControllerRuntime where
  buildScheme : Except GoError Unit := .ok ()
  newManager : ManagerOptions → Except GoError Unit
  add : Runnable → Except GoError Unit := fun _ => .ok ()

section Components
variable (runtime : ControllerRuntime) (files : Files) (cfg : Settings.Config)

def RouteTableBuilder.setupWithManager (b : RouteTableBuilder) :
    Except GoError RouteTableBuilder :=
  if b.clusterDomain = [] then .error (errorsNew "RouteTableBuilder.ClusterDomain is required")
  else (runtime.add .routeTable).map fun _ => b

def newBuilder : Except GoError RouteTableBuilder :=
  (RouteTableBuilder.setupWithManager runtime
    { clusterDomain := cfg.watch.clusterDomain, watchSecrets := cfg.watch.watchSecrets }).mapError
    (errorfWrap (str "setting up the routing table builder"))

def newReconciler : Except GoError Unit :=
  (runtime.add .postgresRoute).mapError (errorfWrap (str "setting up the PostgresRoute controller"))

def newDiscovery : Except GoError ServiceDiscoveryReconciler :=
  let d := cfg.discovery
  Except.mapError (errorfWrap (str "setting up the service discovery controller")) do
    let reconciler ← setupWithManager d.selector d.databaseAnnotation
    runtime.add .serviceDiscovery
    return reconciler

def addGateway : Except GoError GatewaySetup := do
  let gateway ← newGateway files cfg
  (runtime.add .gateway).mapError (errorfWrap (str "registering the gateway"))
  return gateway

/-- A component that is made only under a condition. -/
def optional {α : Type} (wanted : Bool) (component : Except GoError α) :
    Except GoError (Option α) :=
  if wanted then component.map some else .ok none

structure Process where
  manager : ManagerOptions
  builder : RouteTableBuilder
  /-- whether the PostgresRoute reconciler runs -/
  reconciler : Bool
  discovery : Option ServiceDiscoveryReconciler
  gateway : Option GatewaySetup

/-- Up to the call of `mgr.Start`, which runs what has been registered. -/
def run : Except GoError Process := do
  runtime.buildScheme
  (runtime.newManager (managerOptions cfg)).mapError
    (errorfWrap (str "creating the controller manager"))
  let builder ← newBuilder runtime cfg
  let reconciler ← optional cfg.role.runsManager (newReconciler runtime)
  let discovery ← optional (cfg.role.runsManager && cfg.discovery.enabled)
    (newDiscovery runtime cfg)
  let gateway ← optional cfg.role.runsProxy (addGateway runtime files cfg)
  (runtime.add .probes).mapError (errorfWrap (str "registering the probe server"))
  return { manager := managerOptions cfg, builder, reconciler := reconciler.isSome, discovery,
           gateway }

end Components

/-! ## What `run` makes -/

section Except
variable {α β : Type} {x : Except GoError α} {a : α} {b : β}

theorem bind_eq_ok {f : α → Except GoError β} :
    (x >>= f) = .ok b ↔ ∃ a, x = .ok a ∧ f a = .ok b := by
  cases x <;> simp [bind, Except.bind]

theorem mapError_eq_ok {f : GoError → GoError} : x.mapError f = .ok a ↔ x = .ok a := by
  cases x <;> simp [Except.mapError]

theorem map_eq_ok {f : α → β} : x.map f = .ok b ↔ ∃ a, x = .ok a ∧ f a = b := by
  cases x <;> simp [Except.map]

theorem optional_eq_ok {wanted : Bool} {o : Option α} : optional wanted x = .ok o ↔
    o.isSome = wanted ∧ ∀ a, o = some a → x = .ok a := by
  cases wanted with
  | false => cases o <;> simp [optional]
  | true => cases o <;> simp [optional, map_eq_ok]

end Except

section Run
variable {runtime : ControllerRuntime} {files : Files} {cfg : Settings.Config} {p : Process}

theorem newBuilder_eq_ok {b : RouteTableBuilder} : newBuilder runtime cfg = .ok b ↔
    cfg.watch.clusterDomain ≠ [] ∧ runtime.add .routeTable = .ok () ∧
    b = { clusterDomain := cfg.watch.clusterDomain, watchSecrets := cfg.watch.watchSecrets } := by
  rw [newBuilder, mapError_eq_ok, RouteTableBuilder.setupWithManager]
  split
  · simp_all
  · rename_i hdomain
    rw [map_eq_ok]
    exact ⟨fun ⟨(), hadd, hb⟩ => ⟨hdomain, hadd, hb.symm⟩,
      fun ⟨_, hadd, hb⟩ => ⟨(), hadd, hb.symm⟩⟩

theorem addGateway_eq_ok {g : GatewaySetup} : addGateway runtime files cfg = .ok g ↔
    newGateway files cfg = .ok g ∧ runtime.add .gateway = .ok () := by
  simp only [addGateway, mapError_eq_ok, bind_eq_ok, Unique.exists_iff,
    PUnit.default_eq_unit]
  constructor
  · rintro ⟨_, hnew, hadd, ⟨⟩⟩
    exact ⟨hnew, hadd⟩
  · rintro ⟨hnew, hadd⟩
    exact ⟨g, hnew, hadd, rfl⟩

/-- What the components of a process are. -/
structure Started (runtime : ControllerRuntime) (files : Files) (cfg : Settings.Config)
    (p : Process) : Prop where
  manager : p.manager = managerOptions cfg
  builder : p.builder =
    { clusterDomain := cfg.watch.clusterDomain, watchSecrets := cfg.watch.watchSecrets }
  reconciler : p.reconciler = cfg.role.runsManager
  discovers : p.discovery.isSome = (cfg.role.runsManager && cfg.discovery.enabled)
  discovery : ∀ d, p.discovery = some d → newDiscovery runtime cfg = .ok d
  proxies : p.gateway.isSome = cfg.role.runsProxy
  gateway : ∀ g, p.gateway = some g → newGateway files cfg = .ok g

theorem run_eq_ok : run runtime files cfg = .ok p ↔
    runtime.buildScheme = .ok () ∧ runtime.newManager (managerOptions cfg) = .ok () ∧
    ∃ builder, newBuilder runtime cfg = .ok builder ∧
    ∃ reconciler, optional cfg.role.runsManager (newReconciler runtime) = .ok reconciler ∧
    ∃ discovery, optional (cfg.role.runsManager && cfg.discovery.enabled)
      (newDiscovery runtime cfg) = .ok discovery ∧
    ∃ gateway, optional cfg.role.runsProxy (addGateway runtime files cfg) = .ok gateway ∧
    runtime.add .probes = .ok () ∧
    p = { manager := managerOptions cfg, builder, reconciler := reconciler.isSome, discovery,
          gateway } := by
  simp only [run, bind_eq_ok, mapError_eq_ok, Unique.exists_iff, PUnit.default_eq_unit, pure,
    Except.pure, Except.ok.injEq, eq_comm (a := p)]

theorem started_of_run (h : run runtime files cfg = .ok p) : Started runtime files cfg p := by
  obtain ⟨-, -, builder, hbuilder, reconciler, hreconciler, discovery, hdiscovery, gateway,
    hgateway, -, rfl⟩ := run_eq_ok.mp h
  obtain ⟨-, -, rfl⟩ := newBuilder_eq_ok.mp hbuilder
  obtain ⟨hdiscovers, hdiscovery⟩ := optional_eq_ok.mp hdiscovery
  obtain ⟨hproxies, hgateway⟩ := optional_eq_ok.mp hgateway
  exact ⟨rfl, rfl, (optional_eq_ok.mp hreconciler).1, hdiscovers, hdiscovery, hproxies,
    fun g hg => (addGateway_eq_ok.mp (hgateway g hg)).1⟩

theorem tls_of_newGateway {g : GatewaySetup} (h : newGateway files cfg = .ok g) :
    buildServerTLS files cfg.proxy = .ok g.config.tls := by
  unfold newGateway at h
  split at h
  · simp at h
  · rename_i tls htls
    unfold GatewaySetup.new at h
    split at h
    · simp at h
    · split at h
      · simp at h
      · rw [htls, ← Except.ok.inj h]

theorem timeouts_of_newGateway {g : GatewaySetup} (h : newGateway files cfg = .ok g) :
    g.timeouts =
      { startupTimeout := cfg.proxy.startupTimeout, dialTimeout := cfg.proxy.dialTimeout } := by
  unfold newGateway GatewaySetup.new at h
  split at h
  · simp at h
  · split at h
    · simp at h
    · split at h
      · simp at h
      · rw [← Except.ok.inj h]

/-- What a handshake of the process takes is bounded by the flags, where they are positive. -/
theorem handle_within_flags [GoFmt] {g : GatewaySetup} {table : Table Pool} {env : HandleEnv Pool}
    {raw : Input} {c d : Clock Socket} (h : newGateway files cfg = .ok g)
    (hrun : Elapses c (handleOps g.timeouts g.config.tls table env raw) d) :
    d.now ≤ c.now + (orDefault cfg.proxy.startupTimeout defaultStartupTimeout).toNat +
      2 * (orDefault cfg.proxy.dialTimeout defaultDialTimeout).toNat + fatalTimeout := by
  have hbound := elapses_handled hrun
  rw [timeouts_of_newGateway h] at hbound
  exact hbound

theorem required_of_buildServerTLS {proxy : Settings.ProxyConfig} {tls : Option ServerTLS}
    (hmode : proxy.tlsMode = .require) (h : buildServerTLS files proxy = .ok tls) :
    tls.any ServerTLS.required = true := by
  unfold buildServerTLS at h
  rw [hmode, if_neg (by simp)] at h
  split at h
  · simp at h
  · split at h
    · obtain rfl := Except.ok.inj h
      rfl
    · split at h
      · simp at h
      · split at h
        · obtain rfl := Except.ok.inj h
          rfl
        · simp at h

end Run

/-! ## From the command line to the process -/

section Command
variable {explicitlySet : GoString → Bool} {environment : Environment}
variable {parse : GoString → Except GoError Selector} {runtime : ControllerRuntime}
variable {files : Files} {cfg c' : Settings.Config}

variable [GoFmt]

theorem accepted_of_configure (h : (cfg.configure explicitlySet environment parse).2 = .ok c') :
    Settings.Accepted environment parse (cfg.applyEnvironment explicitlySet environment).1 c' :=
  Settings.accepted_of_validate h

end Command

def secureConfig : Settings.Config where
  proxy := { tlsMode := .require, tlsCertFile := str "tls.crt", tlsKeyFile := str "tls.key" }

def keyPairOnly : Files where
  readFile _ := .error (errorsNew "no such file")
  hasCertificates _ := false

def anyService : GoString → Except GoError Selector := fun _ =>
  .ok { select := fun _ => true, empty := false }

/-- Outside a cluster, where the manager finds no namespace for the lease. -/
def outOfCluster : ControllerRuntime where
  newManager options :=
    if options.leaderElection ∧ options.leaderElectionNamespace = [] then
      .error (errorsNew "unable to find leader election namespace")
    else .ok ()

/-- A variable of the old deployment sets the port, and another may tell the namespace. -/
def oldPort (podNamespace : Option GoString) : Environment where
  lookupEnv name :=
    if name = str "POSTGRES_PORT" then some (str "6432")
    else if name = str "POD_NAMESPACE" then podNamespace
    else none

namespace Proxy
variable [GoFmt] {cfg : Config} {tls : Option ServerTLS} {table : Table Pool}
variable {env : HandleEnv Pool} {raw : Input}

theorem encrypted_of_required {client : Conn} {startup : Pgwire.StartupPacket}
    (hrequired : tls.any ServerTLS.required = true)
    (hnego : (negotiate tls env raw).2 = .ok (client, startup))
    (hcancel : startup.isCancelRequest = false) : client.encrypted = true := by
  obtain ⟨xs, last, answer, effects, result, -, hloop, hend⟩ :=
    negotiateLoop_linked tls env maxNegotiationRounds { encrypted := false, input := raw }
  rw [negotiate, hloop] at hnego
  obtain rfl : result = .ok (client, startup) := hnego
  rcases hend with ⟨-, hending⟩ | ⟨-, -, -, e, he⟩
  · rcases hending.ok.2 with hc | henc | hnot
    · simp [hcancel] at hc
    · exact henc
    · simp [hrequired] at hnot
  · simp at he

/-- Something was sent to the backend. -/
def Connection.Contacted (c : Connection Pool) : Prop :=
  ∃ effect ∈ c.effects, ∃ address, effect.contacts = some address

theorem contacted_of_relay {client : Conn} {backend : BackendConn Pool} {route : Route Pool}
    {label : GoString} (h : (handle tls table env raw).2 = .relay client backend route label) :
    ∃ effect ∈ (handle tls table env raw).1, ∃ address, effect.contacts = some address := by
  have hmove := handle_move tls table env raw
  rw [h] at hmove
  generalize (handle tls table env raw).1 = effects at hmove
  cases hmove with
  | started hnego hstartup =>
    cases hstartup with
    | proxied hdatabase hroute hdial =>
      exact ⟨.backend backend _, List.mem_append_right _ (List.mem_append_right _
        List.mem_cons_self), _, rfl⟩

theorem contacted_of_move {sh sh' : Shared Pool} {c c' : Connection Pool} {a : ConnAction Pool}
    {events : List (CancelEvent Pool)} (hc : c.stage.isRelaying = true → c.Contacted)
    (hmove : ConnMove cfg sh c a c' sh' events) (hrelaying : c'.stage.isRelaying = true) :
    c'.Contacted := by
  cases hmove with
  | admitted | rejected | lookedUp | forwarded | slotReleased | untracked =>
    simp [Stage.isRelaying] at hrelaying
  | @handled env table hstage =>
    cases hnext : (handle cfg.tls table env c.input).2 with
    | returned err => simp [hnext, Next.stage, Stage.isRelaying] at hrelaying
    | cancel request => simp [hnext, Next.stage, Stage.isRelaying] at hrelaying
    | relay client backend route label =>
      obtain ⟨effect, heffect, hcontacts⟩ := contacted_of_relay hnext
      exact ⟨effect, List.mem_append_right _ heffect, hcontacts⟩
  | @relayed action route relay relay' cancels hstage hrelay =>
    unfold Connection.afterRelay at hrelaying ⊢
    split
    · exact hc (by rw [hstage]; rfl)
    · rename_i hresult
      simp [hresult, Stage.isRelaying] at hrelaying

/-- Every session has. -/
def Server.SessionsContacted (s : Server Pool) : Prop :=
  ∀ (i : Nat) (c : Connection Pool), s.conns[i]? = some c → c.stage.isRelaying = true → c.Contacted

theorem Server.SessionsContacted.step {s t : Server Pool} {action : ServerAction Pool}
    (h : s.SessionsContacted) (hstep : s.step cfg action = some t) : t.SessionsContacted := by
  intro j d hd
  rcases Server.step_cases hstep with ⟨client, rfl, rfl⟩ |
    ⟨i, a, c, c', shared, events, rfl, hc, hmove, rfl⟩
  · rcases conn_of_accept hd with hold | ⟨-, rfl⟩
    · exact h j d hold
    · simp [Stage.isRelaying]
  · rcases conn_of_set hd with ⟨rfl, rfl⟩ | ⟨-, hold⟩
    · exact contacted_of_move (h _ c hc) hmove
    · exact h j d hold

/-- A step of the gateway is one of its server, or leaves the server alone. -/
theorem Gateway.server_step {s t : Gateway Pool} {action : GatewayAction Pool}
    (h : s.step cfg action = some t) :
    t.server = s.server ∨ ∃ a, s.server.step cfg a = some t.server := by
  cases action with
  | accept client =>
    rw [← Option.some.inj h]
    exact .inr ⟨.accept client, rfl⟩
  | track i =>
    rcases Gateway.step_cases h with ⟨_, haction, -⟩ | ⟨_, _, -, -, -, -, rfl⟩ |
      ⟨_, _, _, _, _, haction, -⟩
    · simp at haction
    · exact .inl rfl
    · simp at haction
  | conn i a =>
    obtain ⟨-, hmap⟩ := Option.ite_none_right_eq_some.mp h
    obtain ⟨server, hserver, rfl⟩ := Option.map_eq_some_iff.mp hmap
    exact .inr ⟨_, hserver⟩

end Proxy

namespace Node
variable [GoFmt] {b : RouteTableBuilder} {cfg : Config} {cache : Contents} {n n' : Node Pool}

theorem server_step {action : NodeAction Pool} (h : n.step b cfg action = some n') :
    n'.gateway.server = n.gateway.server ∨
      ∃ a, n.gateway.server.step cfg a = some n'.gateway.server := by
  cases step_move h with
  | changed | table => exact .inl rfl
  | gateway hother hstep => exact Gateway.server_step hstep
  | handled hstep => exact Gateway.server_step hstep

theorem contacted_of_run {actions : List (NodeAction Pool)}
    (hrun : exec (step b cfg) (start b cache) actions = some n) :
    n.gateway.server.SessionsContacted := by
  refine exec_invariant (I := fun n : Node Pool => n.gateway.server.SessionsContacted)
    (fun hs hstep => ?_) (fun i c hc => by simp [start] at hc) hrun
  rcases server_step hstep with hsame | ⟨a, ha⟩
  · rw [hsame]
    exact hs
  · exact hs.step ha

end Node

section Required
variable [GoFmt] {explicitlySet : GoString → Bool} {environment : Environment}
variable {parse : GoString → Except GoError Selector} {runtime : ControllerRuntime}
variable {files : Files} {cfg c' : Settings.Config} {p : Process} {g : GatewaySetup}
variable {cache : Contents} {actions : List (NodeAction Pool)} {n : Node Pool}

/-- Connection `i` was heard over TLS when it asked for its database. -/
def HeardOverTLS (tls : Option ServerTLS) (actions : List (NodeAction Pool)) (i : Nat)
    (raw : Input) : Prop :=
  ∃ before env after client startup, actions = before ++ .handle i env :: after ∧
    (negotiate tls env raw).2 = .ok (client, startup) ∧
    (requestedDatabase startup).isSome ∧ client.encrypted = true

theorem heardOverTLS_of_ledTo {b : RouteTableBuilder} {config : Config} {i : Nat} {raw : Input}
    {address : GoString} (hrequired : config.tls.any ServerTLS.required = true)
    (h : LedTo config.tls (Node.Handled b config cache actions) i raw address) :
    HeardOverTLS config.tls actions i raw := by
  obtain ⟨env, table, database, route, ⟨before, after, m, hsplit, -, -⟩, hasks, -⟩ := h
  obtain ⟨client, startup, hnego, hdatabase⟩ := hasks.requested
  obtain ⟨base, -, hon⟩ := negotiateLoop_ok hnego
  exact ⟨before, env, after, client, startup, hsplit, hnego, by rw [hdatabase]; rfl,
    encrypted_of_required hrequired hnego (hon.not_cancel hdatabase)⟩

/-- If TLS is required on the command line, then whatever the environment holds and in every run of
the process, a client that has a session, or for whose session anything was sent to a backend, was
heard over TLS when it asked for its database. A CancelRequest may come in the clear, but what is
sent for it goes to the backend of another connection, which was heard over TLS and is the last to
have issued the key. -/
theorem required_tls_covers_every_session
    (h : (cfg.configure explicitlySet environment parse).2 = .ok c')
    (hmode : cfg.proxy.tlsMode = .require) (hstart : run runtime files c' = .ok p)
    (hg : p.gateway = some g)
    (hrun : exec (Node.step p.builder g.config) (Node.start p.builder cache) actions = some n) :
    (∀ (i : Nat) (c : Connection Pool), n.gateway.server.conns[i]? = some c →
      c.stage.isRelaying = true ∨ c.Contacted → HeardOverTLS g.config.tls actions i c.input) ∧
    (∀ i event, (i, event) ∈ n.gateway.server.journal →
      ∀ address, event.contacts = some address →
        ∃ j key entry c, j ≠ i ∧ Cancels n.gateway.server.journal i j key entry ∧
          address = entry.backendAddr ∧ n.gateway.server.conns[j]? = some c ∧
          HeardOverTLS g.config.tls actions j c.input) := by
  have htls := tls_of_newGateway ((started_of_run hstart).gateway g hg)
  have hproxy : c'.proxy.tlsMode = .require := by
    rw [(accepted_of_configure h).settled]
    exact hmode
  have hrequired := required_of_buildServerTLS hproxy htls
  have hconfined := (Node.Sound.of_run hrun).confined
  refine ⟨?_, ?_⟩
  · intro i c hc hserved
    obtain ⟨effect, heffect, address, haddress⟩ : c.Contacted :=
      hserved.elim (Node.contacted_of_run hrun i c hc) id
    exact heardOverTLS_of_ledTo hrequired
      ((hconfined.conns i c hc).effects effect heffect address haddress)
  · intro i event hevent address haddress
    obtain ⟨j, key, entry, c, hother, hcancels, hentry, hc, hled⟩ :=
      hconfined.cancels hevent haddress
    exact ⟨j, key, entry, c, hother, hcancels, hentry, hc, heardOverTLS_of_ledTo hrequired hled⟩

end Required

def tlsClient : Input := ⟨[sslRequest], .sentinel .eof⟩

def tlsEnv : HandleEnv Unit := { sampleEnv with handshake := fun _ => .ok sampleClient }

def secureRun : List (NodeAction Unit) :=
  Node.sampleRun.take 6 ++
    [.gateway (.accept tlsClient), .gateway (.track 0), .gateway (.conn 0 (.acquireSlot .full)),
      .handle 0 tlsEnv]

theorem required_tls_covers_every_session_secure :
    ∃ c' p g n c, (@Settings.Config.configure plainQuote (fun _ => false)
        (oldPort (some (str "team"))) anyService secureConfig).2 = .ok c' ∧
      run outOfCluster keyPairOnly c' = .ok p ∧ p.gateway = some g ∧
      exec (@Node.step Unit plainQuote p.builder g.config) (Node.start p.builder {}) secureRun =
        some n ∧
      n.gateway.server.conns[0]? = some c ∧ c.stage.isRelaying = true ∧
      @HeardOverTLS Unit plainQuote g.config.tls secureRun 0 c.input := by
  obtain ⟨c', p, g, n, c, h, hp, hg, hrun, hc, hstage⟩ : ∃ c' p g n c,
      (@Settings.Config.configure plainQuote (fun _ => false) (oldPort (some (str "team")))
        anyService secureConfig).2 = .ok c' ∧
      run outOfCluster keyPairOnly c' = .ok p ∧ p.gateway = some g ∧
      exec (@Node.step Unit plainQuote p.builder g.config) (Node.start p.builder {}) secureRun =
        some n ∧
      n.gateway.server.conns[0]? = some c ∧ c.stage.isRelaying = true :=
    ⟨_, _, _, _, _, rfl, rfl, rfl, rfl, rfl, rfl⟩
  obtain ⟨hsessions, -⟩ := @required_tls_covers_every_session Unit plainQuote _ _ _ _ _ _ _ _ _ _ _
    _ h rfl hp hg hrun
  exact ⟨c', p, g, n, c, h, hp, hg, hrun, hc, hstage, hsessions 0 c hc (.inl hstage)⟩

end PgProxy
