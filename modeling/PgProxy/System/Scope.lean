import PgProxy.Controller.TransientFailures
import PgProxy.System.Deployment

/-!
# What a process limited to some namespaces can reach

The informers of such a process see the objects of these namespaces only, and the resolver reads
Services from the cache. So everything the gateway sends goes to the backend of a route that was in
the cache, and so in one of the namespaces that were named on the command line or in the
environment: to the host that the route spells out, or to a Service that was in the cache as well.
-/

namespace PgProxy
set_option autoImplicit false

open Proxy
open Settings (Environment)

variable {Pool : Type}

/-! ## The table -/

theorem mem_of_buildStep [GoFmt] {resolver : Resolver Pool} {clusterDomain : GoString}
    {st : BuildState Pool} {r : PostgresRoute} {database : GoString} {route : Route Pool}
    (h : (buildStep resolver clusterDomain st r).table.lookup database = some route) :
    st.table.lookup database = some route ∨ resolve resolver clusterDomain r = .ok route := by
  unfold buildStep at h
  dsimp only at h
  split at h
  · exact .inl h
  · split at h
    · exact .inl h
    · rename_i resolved hresolved
      rcases GoMap.lookup_insert_cases h with ⟨-, rfl⟩ | hold
      · exact .inr hresolved
      · exact .inl hold

namespace RouteTable

/-- `R` holds of the routes still to be resolved, and `P` of every entry of a table. -/
structure Holds (R : PostgresRoute → Prop) (P : Route Pool → Prop) (s : RouteTable Pool) :
    Prop where
  building : ∀ routes rest st, s.phase = .building routes rest st →
    (∀ r ∈ rest, R r) ∧ ∀ database route, st.table.lookup database = some route → P route
  offered : ∀ database route, s.store.table.lookup database = some route → P route

variable {R : PostgresRoute → Prop} {P : Route Pool → Prop} {s t : RouteTable Pool}

theorem Holds.start (b : RouteTableBuilder) : (start b : RouteTable Pool).Holds R P where
  building _ _ _ h := by simp [RouteTable.start] at h
  offered database route h := by simp [RouteTable.start, Table.new, Table.lookup] at h

theorem Holds.mono {R' : PostgresRoute → Prop} {P' : Route Pool → Prop} (h : s.Holds R P)
    (hR : ∀ r, R r → R' r) (hP : ∀ route, P route → P' route) : s.Holds R' P' where
  building routes rest st hphase := by
    obtain ⟨hrest, hentries⟩ := h.building routes rest st hphase
    exact ⟨fun r hr => hR r (hrest r hr),
      fun database route hroute => hP route (hentries database route hroute)⟩
  offered database route hroute := hP route (h.offered database route hroute)

theorem Holds.step [GoFmt] {b : RouteTableBuilder} {cache : Store PostgresRoute.key}
    {a : TableAction Pool} (h : s.Holds R P)
    (hlist : ∀ routes, cache.Lists routes → ∀ r ∈ routes, R r)
    (hresolve : ∀ resolver r route, a = .resolve resolver → R r →
      resolve resolver b.clusterDomain r = .ok route → P route)
    (hmove : Move b cache s a t) : t.Holds R P := by
  cases hmove with
  | @registered _ _ rest _ =>
    refine ⟨fun _ _ _ hb => ?_, h.offered⟩
    cases rest <;> simp [BuilderPhase.watchRest] at hb
  | listFailed | notified | rebuilt | ticked => exact ⟨fun _ _ _ hb => by simp at hb, h.offered⟩
  | scheduled | received | fired => exact ⟨h.building, h.offered⟩
  | @listed routes hphase hlists =>
    refine ⟨fun routes' rest st hb => ?_, h.offered⟩
    cases hb
    refine ⟨fun r hr => hlist routes hlists r ((sliceStable_perm less routes).subset hr), ?_⟩
    intro database route hroute
    simp at hroute
  | @resolved resolver routes rest r st hphase =>
    obtain ⟨hrest, hentries⟩ := h.building _ _ _ hphase
    refine ⟨fun routes' rest' st' hb => ?_, h.offered⟩
    cases hb
    refine ⟨fun r' hr' => hrest r' (List.mem_cons_of_mem _ hr'), fun database route hroute => ?_⟩
    rcases mem_of_buildStep hroute with hold | hresolved
    · exact hentries database route hold
    · exact hresolve resolver r route rfl (hrest r List.mem_cons_self) hresolved
  | @published changed routes st hphase =>
    obtain ⟨-, hentries⟩ := h.building _ _ _ hphase
    exact ⟨fun _ _ _ hb => by simp at hb, hentries⟩

end RouteTable

/-! ## The cache -/

def CacheChange.ns : CacheChange → GoString
  | .route c => c.target.ns
  | .service c => c.target.ns
  | .secret c => c.target.ns

structure Contents.Within (S : GoString → Prop) (c : Contents) : Prop where
  routes : ∀ k r, c.routes.get k = some r → S k.ns
  services : ∀ k svc, c.services.get k = some svc → S k.ns

theorem within_apply {α : Type} {key : α → NamespacedName} {S : GoString → Prop} {s : Store key}
    {c : Change key} (h : ∀ k a, s.get k = some a → S k.ns) (hc : S c.target.ns) :
    ∀ k a, (s.apply c).get k = some a → S k.ns := by
  intro k a ha
  by_cases hk : k = c.target
  · exact hk ▸ hc
  · rw [Store.get_apply_ne s hk] at ha
    exact h k a ha

theorem Contents.Within.apply {S : GoString → Prop} {contents : Contents} {c : CacheChange}
    (h : contents.Within S) (hc : S c.ns) : (contents.apply c).Within S := by
  cases c with
  | route c => exact ⟨within_apply h.routes hc, h.services⟩
  | service c => exact ⟨h.routes, within_apply h.services hc⟩
  | secret c => exact ⟨h.routes, h.services⟩

/-- A port is found only for a Service that is there. -/
theorem Contents.service_of_resolver [GoFmt] {deps : ResolverDeps Pool} {caBundles : Bool}
    {c : Contents} {ns name : GoString} {port : IntOrString} {n : Int32}
    (h : (c.resolver deps caBundles).resolveServicePort ns name port = .ok n) :
    ∃ svc, c.services.get ⟨ns, name⟩ = some svc := by
  cases hget : c.services.get ⟨ns, name⟩ with
  | some svc => exact ⟨svc, rfl⟩
  | none =>
    have hread : (c.reader deps).getService ⟨ns, name⟩ =
        .error (.api .notFound (deps.notFoundText ⟨ns, name⟩)) := by
      simp [Contents.reader, getStored, hget]
    simp only [Contents.resolver, ClientResolver.resolver, ClientResolver.resolveServicePort,
      hread] at h
    split at h <;> simp at h

/-! ## Where a route leads -/

/-- The host is the one that the route spells out, or the name of the Service it refers to. -/
def PostgresRoute.LeadsTo (V : NamespacedName → Prop) (clusterDomain : GoString)
    (w : PostgresRoute) (host : GoString) : Prop :=
  match w.spec.backend.type with
  | .service => ∃ backend ns, w.spec.backend.service = some backend ∧
      ns = (if backend.ns = [] then w.metadata.ns else backend.ns) ∧ V ⟨ns, backend.name⟩ ∧
      host = backend.name ++ str "." ++ ns ++ str ".svc." ++ clusterDomain
  | .address => ∃ backend, w.spec.backend.address = some backend ∧ host = backend.host
  | .other _ => False

/-- The entry is what a route with `R` resolved to, and leads to its own host or to a Service with
`V`. -/
def Route.From [GoFmt] (R : PostgresRoute → Prop) (V : NamespacedName → Prop)
    (clusterDomain : GoString) (route : Route Pool) : Prop :=
  ∃ w, R w ∧ (∃ resolver : Resolver Pool, resolve resolver clusterDomain w = .ok route) ∧
    w.LeadsTo V clusterDomain route.host

theorem PostgresRoute.LeadsTo.mono {V V' : NamespacedName → Prop} {clusterDomain host : GoString}
    {w : PostgresRoute} (h : w.LeadsTo V clusterDomain host) (hV : ∀ key, V key → V' key) :
    w.LeadsTo V' clusterDomain host := by
  cases htype : w.spec.backend.type with
  | service =>
    simp only [LeadsTo, htype] at h ⊢
    obtain ⟨backend, ns, hbackend, hns, hservice, hhost⟩ := h
    exact ⟨backend, ns, hbackend, hns, hV _ hservice, hhost⟩
  | address =>
    simp only [LeadsTo, htype] at h ⊢
    exact h
  | other raw => simp [LeadsTo, htype] at h

theorem Route.From.mono [GoFmt] {R R' : PostgresRoute → Prop} {V V' : NamespacedName → Prop}
    {clusterDomain : GoString} {route : Route Pool} (h : route.From R V clusterDomain)
    (hR : ∀ w, R w → R' w) (hV : ∀ key, V key → V' key) : route.From R' V' clusterDomain := by
  obtain ⟨w, hw, hresolved, hleads⟩ := h
  exact ⟨w, hR w hw, hresolved, hleads.mono hV⟩

theorem leadsTo_of_resolveBackend [GoFmt] {V : NamespacedName → Prop} {resolver : Resolver Pool}
    {clusterDomain host : GoString} {w : PostgresRoute} {port : Int32}
    (hreads : ∀ ns name port n, resolver.resolveServicePort ns name port = .ok n → V ⟨ns, name⟩)
    (h : resolveBackend resolver clusterDomain w = .ok (host, port)) :
    w.LeadsTo V clusterDomain host := by
  cases htype : w.spec.backend.type with
  | service =>
    simp only [resolveBackend, htype] at h
    simp only [PostgresRoute.LeadsTo, htype]
    split at h
    · simp at h
    · rename_i backend hservice
      split at h
      · simp at h
      · rename_i n hport
        obtain ⟨rfl, -⟩ := Prod.mk.inj (Except.ok.inj h)
        exact ⟨backend, _, hservice, rfl, hreads _ _ _ _ hport, rfl⟩
  | address =>
    simp only [resolveBackend, htype] at h
    simp only [PostgresRoute.LeadsTo, htype]
    split at h
    · simp at h
    · rename_i backend haddress
      obtain ⟨rfl, -⟩ := Prod.mk.inj (Except.ok.inj h)
      exact ⟨backend, haddress, rfl⟩
  | other raw => simp [resolveBackend, htype] at h

theorem leadsTo_of_resolve [GoFmt] {V : NamespacedName → Prop} {resolver : Resolver Pool}
    {clusterDomain : GoString} {w : PostgresRoute} {route : Route Pool}
    (hreads : ∀ ns name port n, resolver.resolveServicePort ns name port = .ok n → V ⟨ns, name⟩)
    (h : resolve resolver clusterDomain w = .ok route) :
    w.LeadsTo V clusterDomain route.host := by
  unfold resolve at h
  split at h
  · simp at h
  · rename_i host port hbackend
    split at h
    · simp at h
    · obtain rfl := Except.ok.inj h
      exact leadsTo_of_resolveBackend hreads hbackend

/-! ## Runs -/

def Covers (options : Option (Finset GoString)) (ns : GoString) : Prop :=
  ∀ namespaces, options = some namespaces → ns ∈ namespaces

namespace Node
variable [GoFmt] (b : RouteTableBuilder) (cfg : Config) (cache : Contents) (S : GoString → Prop)

/-- The route was in the cache at some time, and is in one of these namespaces. -/
def HeldRoute (past : List (NodeAction Pool)) (w : PostgresRoute) : Prop :=
  Once (step b cfg) (start b cache) (fun m : Node Pool => m.watch.cache.routes.get w.key = some w)
    past ∧ S w.key.ns

def HeldService (past : List (NodeAction Pool)) (key : NamespacedName) : Prop :=
  Once (step b cfg) (start b cache)
    (fun m : Node Pool => ∃ svc, m.watch.cache.services.get key = some svc) past ∧ S key.ns

/-- The client of connection `i` was led to this address, by an entry that comes from such routes
and Services. -/
def LedWithin (past : List (NodeAction Pool)) (i : Nat) (raw : Input) (address : GoString) : Prop :=
  ∃ env table database route, Handled b cfg cache past i env table ∧
    AsksFor cfg.tls env table raw database route ∧ address = route.address ∧
    route.From (HeldRoute b cfg cache S past) (HeldService b cfg cache S past) b.clusterDomain

/-- The cache changes in these namespaces only. A resolver may fail, but what it finds is in the
cache. -/
def Watches (deps : ResolverDeps Pool) (n : Node Pool) : NodeAction Pool → Prop
  | .watch (.change c) => S c.ns
  | .watch (.table (.resolve resolver)) => ∀ ns name port p,
      resolver.resolveServicePort ns name port = .ok p →
      (n.watch.cache.resolver deps b.watchSecrets).resolveServicePort ns name port = .ok p
  | _ => True

structure Scoped (past : List (NodeAction Pool)) (n : Node Pool) : Prop where
  reached : exec (step b cfg) (start b cache) past = some n
  within : n.watch.cache.Within S
  table : n.watch.table.Holds (HeldRoute b cfg cache S past)
    (Route.From (HeldRoute b cfg cache S past) (HeldService b cfg cache S past) b.clusterDomain)

variable {b cfg cache S} {past : List (NodeAction Pool)} {deps : ResolverDeps Pool}
variable {n n' : Node Pool}

theorem HeldRoute.later {w : PostgresRoute} (h : HeldRoute b cfg cache S past w)
    (actions : List (NodeAction Pool)) : HeldRoute b cfg cache S (past ++ actions) w :=
  ⟨h.1.later actions, h.2⟩

theorem HeldService.later {key : NamespacedName} (h : HeldService b cfg cache S past key)
    (actions : List (NodeAction Pool)) : HeldService b cfg cache S (past ++ actions) key :=
  ⟨h.1.later actions, h.2⟩

theorem Scoped.step {action : NodeAction Pool} (h : Scoped b cfg cache S past n)
    (hwatches : Watches b S deps n action) (hstep : n.step b cfg action = some n') :
    Scoped b cfg cache S (past ++ [action]) n' := by
  have hreached : exec (Node.step b cfg) (Node.start b cache) (past ++ [action]) = some n' :=
    exec_trans h.reached (exec_single hstep)
  have htable := h.table.mono (fun w hw => hw.later [action]) fun route hroute =>
    hroute.mono (fun w hw => hw.later [action]) fun key hkey => hkey.later [action]
  cases step_move hstep with
  | changed => exact ⟨hreached, h.within.apply hwatches, htable.building, htable.offered⟩
  | table hmove =>
    refine ⟨hreached, h.within, htable.step ?_ ?_ hmove⟩
    · intro routes hlists r hr
      have hget := (hlists.mem r).mp hr
      exact HeldRoute.later ⟨.now h.reached hget, h.within.routes _ r hget⟩ _
    · rintro resolver r route rfl hr hresolved
      refine ⟨r, hr, ⟨resolver, hresolved⟩, leadsTo_of_resolve ?_ hresolved⟩
      intro ns name port p hport
      obtain ⟨svc, hsvc⟩ := Contents.service_of_resolver (hwatches ns name port p hport)
      exact HeldService.later ⟨.now h.reached ⟨svc, hsvc⟩, h.within.services _ svc hsvc⟩ _
  | gateway | handled => exact ⟨hreached, h.within, htable⟩

theorem scoped_of_run {actions : List (NodeAction Pool)} (hcache : cache.Within S)
    (hwatches : Always (Node.step b cfg) (Watches b S deps) (Node.start b cache) actions)
    (hrun : exec (Node.step b cfg) (Node.start b cache) actions = some n) :
    Scoped b cfg cache S actions n := by
  have hs : Scoped b cfg cache S [] (Node.start b cache : Node Pool) :=
    ⟨rfl, hcache, RouteTable.Holds.start b⟩
  exact exec_history_always Scoped.step hs hwatches hrun

theorem ledWithin_of_ledTo {actions : List (NodeAction Pool)} {i : Nat} {raw : Input}
    {address : GoString} (hcache : cache.Within S)
    (hwatches : Always (Node.step b cfg) (Watches b S deps) (Node.start b cache) actions)
    (h : LedTo cfg.tls (Handled b cfg cache actions) i raw address) :
    LedWithin b cfg cache S actions i raw address := by
  obtain ⟨env, table, database, route, hhandled, hasks, haddress⟩ := h
  refine ⟨env, table, database, route, hhandled, hasks, haddress, ?_⟩
  -- the table that was handed out holds such routes only
  obtain ⟨before, after, m, rfl, hm, rfl⟩ := hhandled
  have hscoped := scoped_of_run hcache (always_of_append hwatches) hm
  exact (hscoped.table.offered database route hasks.routed).mono (fun w hw => hw.later _)
    fun key hkey => hkey.later _

end Node

/-! ## What was named -/

/-- The operator has named this namespace: with the flag or, if the flag is not set, in the variable
of the old deployment. -/
def Named (explicitlySet : GoString → Bool) (environment : Environment) (cfg : Settings.Config)
    (ns : GoString) : Prop :=
  ns ≠ [] ∧ ∃ raw ∈ ((Settings.legacy explicitlySet environment (str "KUBERNETES_NAMESPACE")
      (str "watch-namespaces")).map (List.splitOn 44)).getD cfg.watch.namespaces,
    Settings.trimSpace raw = ns

section Confined
variable [GoFmt] {explicitlySet : GoString → Bool} {environment : Environment}
variable {parse : GoString → Except GoError Selector} {runtime : ControllerRuntime}
variable {files : Files} {cfg c' : Settings.Config} {p : Process} {config : Config}
variable {cache : Contents} {actions : List (NodeAction Pool)}
variable {n : Node Pool} {deps : ResolverDeps Pool} {ns : GoString}

theorem mem_namespaces_iff (h : (cfg.configure explicitlySet environment parse).2 = .ok c') :
    ns ∈ c'.watch.namespaces ↔ Named explicitlySet environment cfg ns := by
  rw [(accepted_of_configure h).settled]
  exact Settings.mem_settle_namespaces

theorem covers_iff (h : (cfg.configure explicitlySet environment parse).2 = .ok c')
    (hnamed : ∃ ns, Named explicitlySet environment cfg ns) :
    Covers (cacheOptions c') ns ↔ Named explicitlySet environment cfg ns := by
  obtain ⟨ns', hns'⟩ := hnamed
  have hlimited : c'.watch.clusterScoped = false := by
    have hmem := (mem_namespaces_iff h).mpr hns'
    cases hall : c'.watch.namespaces with
    | nil => simp [hall] at hmem
    | cons => simp [Settings.WatchConfig.clusterScoped, hall]
  simp [Covers, cacheOptions, hlimited, mem_namespaces_iff h]

/-- If namespaces are named, then in every run whose cache is filled as the options of the process
say, whatever is sent to a backend for a session goes where its client was led by an entry of the
table. This entry is what a route resolved to that was in the cache at some time of the run, in a
named namespace, and leads to the host that the route spells out, or to the Service it refers to,
which was in the cache at some time and is in a named namespace as well. A cancellation goes where
the client of another connection was led in this way, the last to have issued the key. -/
theorem watch_scope_confines_the_gateway
    (h : (cfg.configure explicitlySet environment parse).2 = .ok c')
    (hnamed : ∃ ns, Named explicitlySet environment cfg ns)
    (hstart : run runtime files c' = .ok p) (hcache : cache.Within (Covers p.manager.cache))
    (hwatches : Always (Node.step p.builder config)
      (Node.Watches p.builder (Covers p.manager.cache) deps) (Node.start p.builder cache) actions)
    (hrun : exec (Node.step p.builder config) (Node.start p.builder cache) actions = some n) :
    p.builder.clusterDomain = cfg.watch.clusterDomain ∧
    (∀ (i : Nat) (c : Connection Pool), n.gateway.server.conns[i]? = some c →
      ∀ effect ∈ c.effects, ∀ address, effect.contacts = some address →
        Node.LedWithin p.builder config cache (Named explicitlySet environment cfg) actions i
          c.input address) ∧
    (∀ i event, (i, event) ∈ n.gateway.server.journal →
      ∀ address, event.contacts = some address →
        ∃ j key entry c, j ≠ i ∧ Cancels n.gateway.server.journal i j key entry ∧
          address = entry.backendAddr ∧ n.gateway.server.conns[j]? = some c ∧
          Node.LedWithin p.builder config cache (Named explicitlySet environment cfg) actions j
            c.input address) := by
  have hstarted := started_of_run hstart
  have hscope : Covers p.manager.cache = Named explicitlySet environment cfg := by
    funext ns
    rw [hstarted.manager]
    exact propext (covers_iff h hnamed)
  rw [hscope] at hcache hwatches
  have hconfined := (Node.Sound.of_run hrun).confined
  refine ⟨?_, ?_, ?_⟩
  · rw [hstarted.builder, (accepted_of_configure h).settled]
    rfl
  · intro i c hc effect heffect address haddress
    exact Node.ledWithin_of_ledTo hcache hwatches
      ((hconfined.conns i c hc).effects effect heffect address haddress)
  · intro i event hevent address haddress
    obtain ⟨j, key, entry, c, hother, hcancels, hentry, hc, hled⟩ :=
      hconfined.cancels hevent haddress
    exact ⟨j, key, entry, c, hother, hcancels, hentry, hc,
      Node.ledWithin_of_ledTo hcache hwatches hled⟩

end Confined

def oldNamespaces : Environment where
  lookupEnv name := if name = str "KUBERNETES_NAMESPACE" then some (str " team ,,other") else none
  tokenNamespace := some (str "team")

theorem watch_scope_confines_the_gateway_team :
    ∃ c' p n c conn b, (@Settings.Config.configure plainQuote (fun _ => false) oldNamespaces
        anyService {}).2 = .ok c' ∧
      run outOfCluster keyPairOnly c' = .ok p ∧
      exec (@Node.step Unit plainQuote p.builder {}) (Node.start p.builder {}) Node.sampleRun =
        some n ∧
      n.gateway.server.conns[0]? = some c ∧ .backend conn b ∈ c.effects ∧
      @Node.LedWithin Unit plainQuote p.builder {} {} (Named (fun _ => false) oldNamespaces {})
        Node.sampleRun 0 c.input conn.address := by
  obtain ⟨c', p, h, hp, hbuilder, hoptions⟩ : ∃ c' p,
      (@Settings.Config.configure plainQuote (fun _ => false) oldNamespaces anyService {}).2 =
        .ok c' ∧ run outOfCluster keyPairOnly c' = .ok p ∧ p.builder = sampleBuilder ∧
      p.manager.cache = some [str "team", str "other"].toFinset := ⟨_, _, rfl, rfl, rfl, rfl⟩
  obtain ⟨n, c, conn, b, hrun, hc, hsent⟩ : ∃ n c conn b,
      exec (@Node.step Unit plainQuote p.builder {}) (Node.start p.builder {}) Node.sampleRun =
        some n ∧
      n.gateway.server.conns[0]? = some c ∧ c.effects[1]? = some (.backend conn b) := by
    rw [hbuilder]
    exact ⟨_, _, _, _, rfl, rfl, rfl⟩
  have hnamed : Named (fun _ => false) oldNamespaces {} (str "team") := by
    refine ⟨by decide, str " team ", ?_, by decide⟩
    decide
  have hwatches : Always (@Node.step Unit plainQuote p.builder {})
      (@Node.Watches Unit plainQuote p.builder (Covers p.manager.cache) RouteWatch.sampleDeps)
      (Node.start p.builder {}) Node.sampleRun := by
    rw [hbuilder, hoptions]
    refine always_cons rfl ?_ (always_cons rfl trivial (always_cons rfl trivial (always_cons rfl
      trivial (always_cons rfl ?_ (always_of_forall (by simp [Node.Watches]) _)))))
    · intro namespaces hnamespaces
      obtain rfl := Option.some.inj hnamespaces
      decide
    · intro ns name port q hq
      simp [emptyCluster] at hq
  have hmem := List.mem_of_getElem? hsent
  obtain ⟨-, hsessions, -⟩ := @watch_scope_confines_the_gateway Unit plainQuote _ _ _ _ _ _ _ _ _ _
    _ _ RouteWatch.sampleDeps h ⟨_, hnamed⟩ hp ⟨by simp, by simp⟩ hwatches hrun
  exact ⟨c', p, n, c, conn, b, h, hp, hrun, hc, hmem, hsessions 0 c hc _ hmem conn.address rfl⟩

end PgProxy
