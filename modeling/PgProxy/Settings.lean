import PgProxy.Controller.Discovery
import PgProxy.Lib.Slices

/-!
# The configuration of a process

The flags have been parsed into a `Config`. The environment of the deployment that came before the
operator changes what no flag has set; `validate` then rejects contradictory settings and settles
the rest.
-/

namespace PgProxy
set_option autoImplicit false

namespace Settings

/-! ## Texts -/

/-- The characters of `unicode.IsSpace`, encoded. -/
def spaces : List GoString :=
  [[9], [10], [11], [12], [13], [32], [0xC2, 0x85], [0xC2, 0xA0], [0xE1, 0x9A, 0x80],
    [0xE2, 0x80, 0xA8], [0xE2, 0x80, 0xA9], [0xE2, 0x80, 0xAF], [0xE2, 0x81, 0x9F],
    [0xE3, 0x80, 0x80]] ++
    (List.range 11).map fun i => [0xE2, 0x80, 0x80 + UInt8.ofNat i]

/-- Takes characters off the front of the text, `fuel` at most. -/
def trimFront (chars : List GoString) : Nat → GoString → GoString
  | 0, s => s
  | fuel + 1, s =>
    match chars.find? (·.isPrefixOf s) with
    | none => s
    | some c => trimFront chars fuel (s.drop c.length)

/-- `strings.TrimSpace`. -/
def trimSpace (s : GoString) : GoString :=
  let s := trimFront spaces s.length s
  (trimFront (spaces.map List.reverse) s.length s.reverse).reverse

/-- `strconv.Atoi` on a platform of 64 bits, without the texts of its errors. -/
def atoi (s : GoString) : Option Int :=
  let negative := s.head? = some 45
  let digits := if negative ∨ s.head? = some 43 then s.drop 1 else s
  let magnitude := digits.foldl (fun (n : Nat) d => n * 10 + (d.toNat - 48)) 0
  if digits = [] ∨ digits.any (fun d => d < 48 || 57 < d) then none
  else if negative then if magnitude ≤ 2 ^ 63 then some (-magnitude) else none
  else if magnitude < 2 ^ 63 then some magnitude else none

/-! ## The settings -/

inductive Role where
  | all
  | manager
  | proxy
  | other (name : GoString)
  deriving DecidableEq

def Role.runsProxy (r : Role) : Bool := r = .all || r = .proxy

def Role.runsManager (r : Role) : Bool := r = .all || r = .manager

inductive TLSMode where
  | disable
  | allow
  | require
  | other (name : GoString)
  deriving DecidableEq

def TLSMode.string : TLSMode → GoString
  | .disable => str "disable"
  | .allow => str "allow"
  | .require => str "require"
  | .other name => name

inductive LogLevel where
  | debug
  | info
  | warn
  | error
  | other (name : GoString)
  deriving DecidableEq

inductive LogFormat where
  | json
  | text
  | other (name : GoString)
  deriving DecidableEq

/-- The defaults of this and the following structures are those of `Default`. -/
structure ProxyConfig where
  bindAddress : GoString := str ":5432"
  maxConnections : Int := 0
  /-- in nanoseconds, as all durations -/
  startupTimeout : Int := 30000000000
  dialTimeout : Int := 5000000000
  shutdownGracePeriod : Int := 30000000000
  tlsMode : TLSMode := .disable
  tlsCertFile : GoString := []
  tlsKeyFile : GoString := []
  tlsClientCAFile : GoString := []

structure WatchConfig where
  namespaces : List GoString := []
  clusterDomain : GoString := str "cluster.local"
  watchSecrets : Bool := false

def WatchConfig.clusterScoped (w : WatchConfig) : Bool := w.namespaces.length = 0

structure DiscoveryConfig where
  enabled : Bool := true
  labelSelector : GoString := str "app.kubernetes.io/name=postgresql"
  databaseAnnotation : GoString := str "pgproxy.io/database-name"
  selector : Option Selector := none

structure LeaderConfig where
  enabled : Bool := true
  id : GoString := str "pg-k8s-proxy.pgproxy.io"
  ns : GoString := []
  leaseDuration : Int := 15000000000
  renewDeadline : Int := 10000000000
  retryPeriod : Int := 2000000000

structure Config where
  role : Role := .all
  proxy : ProxyConfig := {}
  watch : WatchConfig := {}
  discovery : DiscoveryConfig := {}
  leader : LeaderConfig := {}
  healthBindAddress : GoString := str ":8080"
  metricsBindAddress : GoString := str ":9090"
  logLevel : LogLevel := .info
  logFormat : LogFormat := .json

/-! ## The environment -/

/-- `tokenNamespace` is the namespace in the service account token, if it can be read. -/
structure Environment where
  lookupEnv : GoString → Option GoString := fun _ => none
  tokenNamespace : Option GoString := none

def currentNamespace (env : Environment) : GoString :=
  match (env.tokenNamespace.map trimSpace).filter (· ≠ []) with
  | some ns => ns
  | none => (env.lookupEnv (str "POD_NAMESPACE")).getD []

section Apply
variable (explicitlySet : GoString → Bool) (environment : Environment)

/-- The variable that stands in for a flag, unless the flag is set or the variable is empty. -/
def legacy (env flag : GoString) : Option GoString :=
  if explicitlySet flag then none else (environment.lookupEnv env).filter (· ≠ [])

variable [GoFmt]

def setPort (env flag target : GoString) : GoString × List GoString :=
  match legacy explicitlySet environment env flag with
  | none => (target, [])
  | some raw =>
    match atoi raw with
    | none =>
      (target, [str "ignoring " ++ env ++ str "=" ++ quote raw ++ str ": not a port number"])
    | some _ => (joinHostPort [] raw, [env ++ str " is deprecated, use --" ++ flag])

/-- The configuration, and the warnings. -/
def Config.applyEnvironment (c : Config) : Config × List GoString :=
  let port := setPort explicitlySet environment (str "POSTGRES_PORT") (str "proxy-bind-address")
    c.proxy.bindAddress
  let health := setPort explicitlySet environment (str "HEALTH_PORT") (str "health-bind-address")
    c.healthBindAddress
  let selector := legacy explicitlySet environment (str "LABEL_SELECTOR")
    (str "service-discovery-selector")
  let namespaces := legacy explicitlySet environment (str "KUBERNETES_NAMESPACE")
    (str "watch-namespaces")
  ({ c with
      proxy := { c.proxy with bindAddress := port.1 }
      healthBindAddress := health.1
      discovery := { c.discovery with labelSelector := selector.getD c.discovery.labelSelector }
      watch := { c.watch with
        namespaces := (namespaces.map (List.splitOn 44)).getD c.watch.namespaces } },
    port.2 ++ health.2 ++
      (if selector.isSome then
        [str "LABEL_SELECTOR is deprecated, use --service-discovery-selector"] else []) ++
      (if namespaces.isSome then
        [str "KUBERNETES_NAMESPACE is deprecated, use --watch-namespaces"] else []) ++
      (if (environment.lookupEnv (str "POLL_INTERVAL")).isSome then
        [str "POLL_INTERVAL is ignored: the gateway now watches the API server instead of " ++
          str "polling it"] else []))

end Apply

/-! ## Validation -/

section Validate
variable [GoFmt] (environment : Environment) (parse : GoString → Except GoError Selector)

def Role.check : Role → Except GoError Unit
  | .all | .manager | .proxy => .ok ()
  | .other name => .error (.other (str "--role must be all, manager, or proxy, got " ++ quote name))

def ProxyConfig.checkTLS (p : ProxyConfig) : Except GoError Unit :=
  match p.tlsMode with
  | .disable => .ok ()
  | .allow | .require =>
    if p.tlsCertFile = [] ∨ p.tlsKeyFile = [] then
      .error (.other (str "--proxy-tls-mode=" ++ p.tlsMode.string ++
        str " needs both --proxy-tls-cert-file and --proxy-tls-key-file"))
    else .ok ()
  | .other name =>
    .error (.other (str "--proxy-tls-mode must be disable, allow, or require, got " ++ quote name))

def LogLevel.check : LogLevel → Except GoError Unit
  | .debug | .info | .warn | .error => .ok ()
  | .other name =>
    .error (.other (str "--log-level must be debug, info, warn, or error, got " ++ quote name))

def LogFormat.check : LogFormat → Except GoError Unit
  | .json | .text => .ok ()
  | .other name => .error (.other (str "--log-format must be json or text, got " ++ quote name))

/-- Discovery writes routes, which only a manager may do. -/
def DiscoveryConfig.settle (role : Role) (d : DiscoveryConfig) : Except GoError DiscoveryConfig :=
  if d.enabled then
    if role.runsManager then
      match parse d.labelSelector with
      | .error e =>
        .error (errorfWrap (str "--service-discovery-selector " ++ quote d.labelSelector) e)
      | .ok selector =>
        if selector.empty then
          .error (.other (str "--service-discovery-selector must not be empty when service " ++
            str "discovery is enabled; an empty selector would adopt every Service in scope"))
        else .ok { d with selector := some selector }
    else .ok { d with enabled := false }
  else .ok d

def LeaderConfig.settle (role : Role) (l : LeaderConfig) : LeaderConfig :=
  { l with
    enabled := l.enabled && role.runsManager
    ns := if l.ns = [] then currentNamespace environment else l.ns }

/-- The loop filters the namespaces in their own array. -/
def WatchConfig.settle (w : WatchConfig) : WatchConfig :=
  let trimmed ns := some (trimSpace ns) |>.filter (· ≠ [])
  { w with namespaces := filterInPlace trimmed w.namespaces.length 0 0 w.namespaces }

def Config.validate (c : Config) : Except GoError Config := do
  c.role.check
  c.proxy.checkTLS
  if c.proxy.maxConnections < 0 then
    throw (.other (str "--proxy-max-connections must not be negative, got " ++
      itoa c.proxy.maxConnections))
  if c.watch.clusterDomain = [] then
    throw (errorsNew "--cluster-domain must not be empty")
  let discovery ← c.discovery.settle parse c.role
  let leader := c.leader.settle environment c.role
  c.logLevel.check
  c.logFormat.check
  return { c with discovery, leader, watch := c.watch.settle }

end Validate

/-- What the command does before it runs anything. -/
def Config.configure [GoFmt] (explicitlySet : GoString → Bool) (environment : Environment)
    (parse : GoString → Except GoError Selector) (c : Config) :
    List GoString × Except GoError Config :=
  let applied := c.applyEnvironment explicitlySet environment
  (applied.2, applied.1.validate environment parse)

/-! ## What is accepted -/

theorem mem_settle_namespaces {w : WatchConfig} {ns : GoString} :
    ns ∈ w.settle.namespaces ↔ ns ≠ [] ∧ ∃ raw ∈ w.namespaces, trimSpace raw = ns := by
  simp only [WatchConfig.settle, filterInPlace_eq_filterMap, List.mem_filterMap,
    Option.filter_eq_some_iff, Option.some.injEq, decide_eq_true_eq]
  constructor
  · rintro ⟨raw, hraw, htrim, hne⟩
    exact ⟨hne, raw, hraw, htrim⟩
  · rintro ⟨hne, raw, hraw, htrim⟩
    exact ⟨raw, hraw, htrim, hne⟩

section Accepted
variable {environment : Environment} {parse : GoString → Except GoError Selector} {c c' : Config}

/-- Discovery as it is settled: only a manager runs it, with a selector that selects. -/
inductive Discovers (parse : GoString → Except GoError Selector) (role : Role)
    (d : DiscoveryConfig) : DiscoveryConfig → Prop
  | enabled {selector : Selector} (hon : d.enabled) (hrole : role.runsManager)
      (hparse : parse d.labelSelector = .ok selector) (hselects : selector.empty = false) :
      Discovers parse role d { d with selector := some selector }
  | demoted (hrole : role.runsManager = false) : Discovers parse role d { d with enabled := false }
  | disabled (hoff : d.enabled = false) : Discovers parse role d d

theorem Discovers.wanted {role : Role} {d d' : DiscoveryConfig} (h : Discovers parse role d d') :
    (role.runsManager && d'.enabled) = (role.runsManager && d.enabled) := by
  cases h with
  | enabled | disabled => rfl
  | demoted hrole => simp [hrole]

theorem discovers_of_settle [GoFmt] {role : Role} {d d' : DiscoveryConfig}
    (h : d.settle parse role = .ok d') : Discovers parse role d d' := by
  unfold DiscoveryConfig.settle at h
  split at h
  · rename_i hon
    split at h
    · rename_i hrole
      split at h
      · simp at h
      · rename_i selector hparse
        split at h
        · simp at h
        · rename_i hselects
          obtain rfl := Except.ok.inj h
          exact .enabled hon hrole hparse (by simpa using hselects)
    · rename_i hrole
      obtain rfl := Except.ok.inj h
      exact .demoted (by simpa using hrole)
  · rename_i hoff
    obtain rfl := Except.ok.inj h
    exact .disabled (by simpa using hoff)

/-- What `validate` accepts, and what it makes of it. -/
structure Accepted (environment : Environment) (parse : GoString → Except GoError Selector)
    (c c' : Config) : Prop where
  connections : 0 ≤ c.proxy.maxConnections
  domain : c.watch.clusterDomain ≠ []
  discovers : Discovers parse c.role c.discovery c'.discovery
  settled : c' = { c with
    discovery := c'.discovery
    leader := c.leader.settle environment c.role
    watch := c.watch.settle }

theorem accepted_of_validate [GoFmt] (h : c.validate environment parse = .ok c') :
    Accepted environment parse c c' := by
  unfold Config.validate at h
  simp only [bind, Except.bind, pure, Except.pure, throw, throwThe, MonadExceptOf.throw] at h
  split at h
  · simp at h
  · split at h
    · simp at h
    · split at h
      · simp at h
      · rename_i hconnections
        split at h
        · simp at h
        · rename_i hdomain
          split at h
          · simp at h
          · rename_i discovery hdiscovery
            split at h
            · simp at h
            · split at h
              · simp at h
              · obtain rfl := Except.ok.inj h
                exact ⟨by omega, hdomain, discovers_of_settle hdiscovery, rfl⟩

end Accepted

end Settings
end PgProxy
