import PgProxy.Controller.RouteTable
import PgProxy.Lib.Runs
import PgProxy.Registry.ClientResolver

/-!
# No change is lost

The cache and the loop that follows it, in any interleaving. As long as a change has not
been listed, a handler call, the token, the timer or an attempt about to list is left to
account for it; and there is a bound on the steps the loop can make before it lists.
-/

namespace PgProxy
set_option autoImplicit false

variable {Pool : Type}

inductive CacheChange where
  | route (c : Change PostgresRoute.key)
  | service (c : Change Service.key)
  | secret (c : Change Secret.key)

def CacheChange.kind : CacheChange → ObjectKind
  | .route _ => .postgresRoute
  | .service _ => .service
  | .secret _ => .secret

def Contents.apply (contents : Contents) : CacheChange → Contents
  | .route c => { contents with routes := contents.routes.apply c }
  | .service c => { contents with services := contents.services.apply c }
  | .secret c => { contents with secrets := contents.secrets.apply c }

/-- The cache of a replica and the builder on it. -/
structure RouteWatch (Pool : Type) where
  cache : Contents := {}
  table : RouteTable Pool

inductive WatchAction (Pool : Type) where
  | change (c : CacheChange)
  | table (action : TableAction Pool)

namespace RouteWatch

def start (b : RouteTableBuilder) (cache : Contents) : RouteWatch Pool :=
  { cache, table := RouteTable.start b }

/-- Kinds that are not watched do not change the cache. -/
def step [GoFmt] (b : RouteTableBuilder) (s : RouteWatch Pool) :
    WatchAction Pool → Option (RouteWatch Pool)
  | .change c =>
    if c.kind ∈ b.watched then
      some { cache := s.cache.apply c, table := s.table.cacheChanged c.kind }
    else none
  | .table action =>
    (s.table.step b s.cache.routes action).map fun table => { s with table }

end RouteWatch

/-! ## The invariant of the loop -/

namespace RouteTable

def BeforeListing (s : RouteTable Pool) : Prop :=
  s.phase = .listing ∨ ∃ rest, s.phase = .watching rest

structure Alert (s : RouteTable Pool) : Prop where
  watching : s.phase ≠ .watching []
  consistent : s.wake.Consistent
  unlisted : s.unlisted = true → s.wake.Awake ∨ s.BeforeListing

theorem alert_start (b : RouteTableBuilder) : (start b : RouteTable Pool).Alert :=
  ⟨by simp [start, RouteTableBuilder.watched], Debounce.Consistent.start,
    fun _ => Or.inr (Or.inr ⟨_, rfl⟩)⟩

theorem Alert.cacheChanged {s : RouteTable Pool} (h : s.Alert) (kind : ObjectKind) :
    (s.cacheChanged kind).Alert := by
  refine ⟨h.watching, h.consistent, fun _ => ?_⟩
  by_cases hregistered : s.phase.registered kind = true
  · refine Or.inl (Debounce.awake_request _ ?_)
    rw [if_pos hregistered]
    exact Nat.one_pos
  · refine Or.inr (Or.inr ?_)
    cases hphase : s.phase with
    | watching rest => exact ⟨rest, hphase⟩
    | listing | building | notifying | selecting =>
      simp [hphase, BuilderPhase.registered] at hregistered

theorem Alert.step [GoFmt] {b : RouteTableBuilder} {cache : Store PostgresRoute.key}
    {s t : RouteTable Pool} {a : TableAction Pool} (h : s.Alert)
    (hstep : s.step b cache a = some t) : t.Alert := by
  -- a step that leaves the phases before listing alone keeps what accounted for the change
  have hkept : ∀ {t' : RouteTable Pool}, (s.wake.Awake → t'.wake.Awake) →
      (¬ s.BeforeListing) → t'.unlisted = s.unlisted →
      t'.unlisted = true → t'.wake.Awake ∨ t'.BeforeListing := by
    intro t' hawake hphase hsame hun
    rcases h.unlisted (hsame ▸ hun) with hw | hw
    · exact Or.inl (hawake hw)
    · exact absurd hw hphase
  cases step_move hstep with
  | @registered existing kind rest hphase =>
    cases rest with
    | nil => exact ⟨by simp [BuilderPhase.watchRest], h.consistent, fun _ => Or.inr (Or.inl rfl)⟩
    | cons k rest =>
      exact ⟨by simp [BuilderPhase.watchRest], h.consistent, fun _ => Or.inr (Or.inr ⟨_, rfl⟩)⟩
  | listed hphase | listFailed hphase => exact ⟨by simp, h.consistent, by simp⟩
  | resolved hphase | published hphase | notified hphase | rebuilt hphase =>
    exact ⟨by simp, h.consistent, hkept id (by simp [BeforeListing, hphase]) rfl⟩
  | scheduled hwake =>
    exact ⟨h.watching, h.consistent.schedule hwake,
      fun _ => Or.inl (Debounce.awake_schedule hwake)⟩
  | received hphase hwake =>
    exact ⟨h.watching, h.consistent.receive hwake,
      fun _ => Or.inl (Debounce.awake_receive h.consistent hwake)⟩
  | fired hwake =>
    exact ⟨h.watching, h.consistent.fire hwake, fun _ => Or.inl (Debounce.awake_fire hwake)⟩
  | ticked hphase hwake =>
    exact ⟨by simp, Debounce.Consistent.tick hwake, fun _ => Or.inr (Or.inl rfl)⟩

/-! ## Progress -/

def attempts : TableAction Pool → Bool
  | .list _ | .listFails => true
  | _ => false

/-- The calls a registration adds for the objects already there. -/
def replayed : TableAction Pool → Nat
  | .register existing => existing
  | _ => 0

/-- How many steps a build can still make in a phase. -/
def phaseWeight : BuilderPhase Pool → Nat
  | .watching rest => rest.length
  | .listing | .selecting => 0
  | .building _ rest st => 2 * rest.length + st.decisions.keys.card + 2
  | .notifying changed => changed.length + 1

def weight (s : RouteTable Pool) : Nat := s.wake.weight + phaseWeight s.phase

theorem card_decisions_buildStep [GoFmt] (resolver : Resolver Pool) (clusterDomain : GoString)
    (st : BuildState Pool) (route : PostgresRoute) :
    (buildStep resolver clusterDomain st route).decisions.keys.card ≤
      st.decisions.keys.card + 1 := by
  have hinsert : ∀ d : Decision,
      (st.decisions.insert route.key d).keys.card ≤ st.decisions.keys.card + 1 := by
    intro d
    have hkeys : (st.decisions.insert route.key d).keys ⊆ insert route.key st.decisions.keys := by
      intro key hkey
      rw [Finmap.mem_keys, Finmap.mem_insert] at hkey
      rw [Finset.mem_insert, Finmap.mem_keys]
      exact hkey
    exact (Finset.card_le_card hkeys).trans (Finset.card_insert_le _ _)
  unfold buildStep
  dsimp only
  split
  · exact hinsert _
  · split <;> exact hinsert _

theorem length_changed_le {b : RouteTableBuilder} {changed : List NamespacedName}
    {previous current : Snapshot Pool} (hnodup : changed.Nodup)
    (hchanged : changed.toFinset =
      if b.statusEvents.isSome then changedKeys previous current else ∅) :
    changed.length ≤ current.decisions.keys.card := by
  rw [← List.toFinset_card_of_nodup hnodup, hchanged]
  split
  · exact Finset.card_le_card (Finset.filter_subset _ _)
  · exact Nat.zero_le _

theorem weight_step [GoFmt] {b : RouteTableBuilder} {cache : Store PostgresRoute.key}
    {s t : RouteTable Pool} {a : TableAction Pool} (h : s.Alert) (hquiet : attempts a = false)
    (hstep : s.step b cache a = some t) : t.weight + 1 ≤ s.weight + 4 * replayed a := by
  cases step_move hstep with
  | @registered existing kind rest hphase =>
    have hrest : phaseWeight (.watchRest rest : BuilderPhase Pool) ≤ rest.length := by
      cases rest <;> simp [BuilderPhase.watchRest, phaseWeight]
    have hbefore : phaseWeight s.phase = rest.length + 1 := by rw [hphase]; rfl
    simp only [weight, hbefore, Debounce.weight_request, replayed]
    omega
  | listed | listFailed => simp [attempts] at hquiet
  | @resolved resolver routes rest route st hphase =>
    have hcard := card_decisions_buildStep resolver b.clusterDomain st route
    simp only [weight, hphase, phaseWeight, List.length_cons, replayed]
    omega
  | published hphase hnodup hchanged =>
    have hlength := length_changed_le hnodup hchanged
    simp only [snapshot] at hlength
    simp only [weight, hphase, phaseWeight, replayed, List.length_nil]
    omega
  | notified hphase =>
    simp only [weight, hphase, phaseWeight, List.length_cons, replayed]
    omega
  | rebuilt hphase =>
    simp only [weight, hphase, phaseWeight, replayed, List.length_nil]
    omega
  | scheduled hwake =>
    have := Debounce.weight_schedule hwake
    simp only [weight, replayed]
    omega
  | received hphase hwake =>
    have := Debounce.weight_receive hwake h.consistent
    simp only [weight, replayed]
    omega
  | fired hwake =>
    have := Debounce.weight_fire hwake
    simp only [weight, replayed]
    omega
  | ticked hphase hwake =>
    have := Debounce.weight_tick hwake
    simp only [weight, hphase, phaseWeight, replayed]
    omega

theorem weight_cacheChanged (table : RouteTable Pool) (kind : ObjectKind) :
    (table.cacheChanged kind).weight ≤ table.weight + 4 := by
  simp only [weight, cacheChanged, Debounce.weight_request]
  split <;> omega

def silentResolver : Resolver Pool where
  resolveServicePort := fun _ _ _ => .error (.sentinel .canceled)
  loadCABundle := fun _ _ _ => .error (.sentinel .canceled)

theorem Alert.progress [GoFmt] {s : RouteTable Pool} (h : s.Alert) (b : RouteTableBuilder)
    (cache : Store PostgresRoute.key) (hun : s.unlisted = true) :
    ∃ a, (s.step b cache a).isSome := by
  cases hphase : s.phase with
  | watching rest =>
    cases rest with
    | nil => exact absurd hphase h.watching
    | cons kind rest => exact ⟨.register 0, by simp [RouteTable.step, hphase]⟩
  | listing => exact ⟨.listFails, by simp [RouteTable.step, hphase]⟩
  | building routes rest st =>
    cases rest with
    | nil =>
      refine ⟨.publish (if b.statusEvents.isSome then changedKeys s.store (snapshot st)
        else ∅).toList, ?_⟩
      simp only [RouteTable.step, hphase]
      rw [if_pos ⟨Finset.nodup_toList _, Finset.toList_toFinset _⟩]
      rfl
    | cons route rest => exact ⟨.resolve silentResolver, by simp [RouteTable.step, hphase]⟩
  | notifying changed =>
    cases changed with
    | nil => exact ⟨.rebuilt, by simp [RouteTable.step, hphase]⟩
    | cons key rest => exact ⟨.notify, by simp [RouteTable.step, hphase]⟩
  | selecting =>
    have hawake : s.wake.Awake := by
      rcases h.unlisted hun with hawake | hlisting | ⟨rest, hwatching⟩
      · exact hawake
      · simp [hphase] at hlisting
      · simp [hphase] at hwatching
    rcases hawake.progress with hsome | hsome | hsome | hsome
    · exact ⟨.schedule, by simpa [RouteTable.step] using hsome⟩
    · exact ⟨.receive, by simpa [RouteTable.step, hphase] using hsome⟩
    · exact ⟨.fire, by simpa [RouteTable.step] using hsome⟩
    · exact ⟨.tick, by simpa [RouteTable.step, hphase] using hsome⟩

end RouteTable

/-! ## Runs -/

namespace RouteWatch

/-- The steps of the handlers, the timer and the loop, against what the cache adds. -/
def ownSteps : List (WatchAction Pool) → Nat
  | [] => 0
  | .change _ :: rest => ownSteps rest
  | .table _ :: rest => ownSteps rest + 1

def calls : List (WatchAction Pool) → Nat
  | [] => 0
  | .change _ :: rest => calls rest + 1
  | .table action :: rest => calls rest + RouteTable.replayed action

def NoAttempt (actions : List (WatchAction Pool)) : Prop :=
  ∀ action, .table action ∈ actions → RouteTable.attempts action = false

section Runs
variable [GoFmt] {b : RouteTableBuilder} {s t : RouteWatch Pool}

theorem alert_step {a : WatchAction Pool} (h : s.table.Alert) (hstep : s.step b a = some t) :
    t.table.Alert := by
  cases a with
  | change c =>
    obtain ⟨-, ⟨⟩⟩ := Option.ite_none_right_eq_some.mp hstep
    exact h.cacheChanged c.kind
  | table action =>
    obtain ⟨table, htable, rfl⟩ := Option.map_eq_some_iff.mp hstep
    exact h.step htable

theorem ownSteps_le {actions : List (WatchAction Pool)} (h : s.table.Alert)
    (hquiet : NoAttempt actions) (hrun : exec (step b) s actions = some t) :
    ownSteps actions ≤ s.table.weight + 4 * calls actions := by
  induction actions generalizing s with
  | nil => exact Nat.zero_le _
  | cons a rest ih =>
    obtain ⟨u, hu, hrest⟩ := exec_cons.mp hrun
    have hquiet' : NoAttempt rest := fun action haction =>
      hquiet action (List.mem_cons_of_mem _ haction)
    have hbound := ih (alert_step h hu) hquiet' hrest
    cases a with
    | change c =>
      obtain ⟨-, ⟨⟩⟩ := Option.ite_none_right_eq_some.mp hu
      have := RouteTable.weight_cacheChanged s.table c.kind
      simp only [ownSteps, calls] at hbound ⊢
      omega
    | table action =>
      obtain ⟨table, htable, rfl⟩ := Option.map_eq_some_iff.mp hu
      have := RouteTable.weight_step h (hquiet action List.mem_cons_self) htable
      simp only [ownSteps, calls] at hbound ⊢
      omega

/-- In every run: a change that no attempt has listed yet is accounted for by a handler
call, the token, the timer, its tick or an attempt that has not listed yet; the flag is
set exactly while the timer is armed or its tick undelivered; a step is left to make, and
only boundedly many of them are made before an attempt to list. -/
theorem no_change_is_lost {cache : Contents} {actions : List (WatchAction Pool)}
    (hrun : exec (step b) (start b cache) actions = some s) :
    (s.table.unlisted = true →
      0 < s.table.wake.inflight ∨ s.table.wake.trigger = true ∨
      (s.table.wake.pending = true ∧ s.table.wake.timer = .armed) ∨
      (s.table.wake.pending = true ∧ s.table.wake.timer = .fired) ∨
      s.table.phase = .listing ∨ ∃ rest, s.table.phase = .watching rest) ∧
    (s.table.wake.pending = true ↔
      s.table.wake.timer = .armed ∨ s.table.wake.timer = .fired) ∧
    (s.table.unlisted = true → ∃ action, (s.step b (.table action)).isSome) ∧
    (∀ later t, exec (step b) s later = some t → NoAttempt later →
      ownSteps later ≤ s.table.weight + 4 * calls later) := by
  have h : s.table.Alert := exec_invariant (I := fun s : RouteWatch Pool => s.table.Alert)
    alert_step (RouteTable.alert_start b) hrun
  have htimer : s.table.wake.timer ≠ .idle ↔
      s.table.wake.timer = .armed ∨ s.table.wake.timer = .fired := by
    cases s.table.wake.timer <;> simp
  refine ⟨fun hun => ?_, h.consistent.trans htimer, fun hun => ?_,
    fun later t hlater hquiet => ownSteps_le h hquiet hlater⟩
  · rcases h.unlisted hun with (hinflight | htrigger | hne) | hbefore
    · exact Or.inl hinflight
    · exact Or.inr (Or.inl htrigger)
    · have hpending := h.consistent.mpr hne
      rcases htimer.mp hne with harmed | hfired
      · exact Or.inr (Or.inr (Or.inl ⟨hpending, harmed⟩))
      · exact Or.inr (Or.inr (Or.inr (Or.inl ⟨hpending, hfired⟩)))
    · exact Or.inr (Or.inr (Or.inr (Or.inr hbefore)))
  · obtain ⟨action, haction⟩ := h.progress b s.cache.routes hun
    exact ⟨action, by simpa [step] using haction⟩

end Runs

/-- The initial build over an empty cache, and a route that appears afterwards, up to the
armed timer. -/
def changeRun : List (WatchAction Unit) :=
  [.table (.register 0), .table (.register 0), .table (.list []), .table (.publish []),
    .table .rebuilt,
    .change (.route (.put { metadata := { ns := str "team", name := str "app" } })),
    .table .schedule, .table .receive]

theorem no_change_is_lost_armed :
    ∃ s, exec (@step Unit plainQuote sampleBuilder) (start sampleBuilder {}) changeRun = some s ∧
      s.table.unlisted = true ∧ s.table.wake.timer = .armed ∧ s.table.wake.pending = true := by
  obtain ⟨s, hrun, hun, htimer⟩ : ∃ s,
      exec (@step Unit plainQuote sampleBuilder) (start sampleBuilder {}) changeRun = some s ∧
      s.table.unlisted = true ∧ s.table.wake.timer = .armed := ⟨_, rfl, rfl, rfl⟩
  obtain ⟨-, hpending, -, -⟩ := @no_change_is_lost Unit plainQuote _ _ _ _ hrun
  exact ⟨s, hrun, hun, htimer, hpending.mpr (Or.inl htimer)⟩

/-- Once the timer has fired, and again once its tick is received, nothing but the tick or
the attempt about to list accounts for the change. -/
theorem change_outlives_the_timer :
    (∃ s, exec (@step Unit plainQuote sampleBuilder) (start sampleBuilder {})
        (changeRun ++ [.table .fire]) = some s ∧
      s.table.unlisted = true ∧ s.table.wake.inflight = 0 ∧ s.table.wake.trigger = false ∧
      s.table.wake.pending = true ∧ s.table.wake.timer ≠ .armed) ∧
    (∃ s, exec (@step Unit plainQuote sampleBuilder) (start sampleBuilder {})
        (changeRun ++ [.table .fire, .table .tick]) = some s ∧
      s.table.unlisted = true ∧ s.table.wake.inflight = 0 ∧ s.table.wake.trigger = false ∧
      s.table.wake.pending = false) :=
  ⟨⟨_, rfl, rfl, rfl, rfl, rfl, by decide⟩, ⟨_, rfl, rfl, rfl, rfl, rfl⟩⟩

end RouteWatch
end PgProxy
