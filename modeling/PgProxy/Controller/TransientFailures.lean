import PgProxy.Controller.Wakeup
import PgProxy.Registry.Agreement

/-!
# Failures of a rebuild

As long as the cache can be listed and the resolver answers from it, the published
snapshot is the one of the current cache, or a rebuild is on its way. A failure breaks
this: the loop logs it and waits for the next change, so an old table, or one from which a
route fell out, stays until then.
-/

namespace PgProxy
set_option autoImplicit false

namespace RouteWatch

variable {Pool : Type}

section Healthy
variable [GoFmt] (deps : ResolverDeps Pool) (b : RouteTableBuilder)

def rebuilt (cache : Contents) (routes : List PostgresRoute) : Snapshot Pool :=
  build (cache.resolver deps b.watchSecrets) b.clusterDomain routes

/-- Lists succeed, and a build over an unchanged cache is answered from it. -/
def Healthy (s : RouteWatch Pool) : WatchAction Pool → Prop
  | .table .listFails => False
  | .table (.resolve resolver) =>
    s.table.unlisted = false → resolver = s.cache.resolver deps b.watchSecrets
  | _ => True

def UpToDate (s : RouteWatch Pool) : Prop :=
  ∃ routes, s.cache.routes.Lists routes ∧ s.table.store = rebuilt deps b s.cache routes

/-- What holds of a phase if the cache has not changed since it was listed. -/
def PhaseCurrent (s : RouteWatch Pool) : BuilderPhase Pool → Prop
  | .watching _ => False
  | .building routes rest st =>
    s.cache.routes.Lists routes ∧ ∃ done, sliceStable less routes = done ++ rest ∧
      st = done.foldl (buildStep (s.cache.resolver deps b.watchSecrets) b.clusterDomain) {}
  | .listing | .notifying _ | .selecting => UpToDate deps b s

def Current (s : RouteWatch Pool) : Prop :=
  s.table.unlisted = false → PhaseCurrent deps b s s.table.phase

variable {deps b} {s t : RouteWatch Pool}

theorem Current.step {a : WatchAction Pool} (h : Current deps b s) (ha : Healthy deps b s a)
    (hstep : s.step b a = some t) : Current deps b t := by
  cases a with
  | change c =>
    obtain ⟨-, ⟨⟩⟩ := Option.ite_none_right_eq_some.mp hstep
    intro hun
    simp [RouteTable.cacheChanged] at hun
  | table action =>
    obtain ⟨table, htable, rfl⟩ := Option.map_eq_some_iff.mp hstep
    intro hun
    cases RouteTable.step_move htable with
    | registered hphase =>
      have := h hun
      rw [hphase] at this
      exact this.elim
    | listed hphase hlists => exact ⟨hlists, [], rfl, rfl⟩
    | listFailed => exact ha.elim
    | @resolved resolver routes rest route st hphase =>
      have hcurrent := h hun
      rw [hphase] at hcurrent
      obtain ⟨hlists, done, hsorted, rfl⟩ := hcurrent
      obtain rfl := ha hun
      exact ⟨hlists, done ++ [route], by simp [hsorted], by simp⟩
    | @published changed routes st hphase =>
      have hcurrent := h hun
      rw [hphase] at hcurrent
      obtain ⟨hlists, done, hsorted, rfl⟩ := hcurrent
      rw [List.append_nil] at hsorted
      refine ⟨routes, hlists, ?_⟩
      rw [rebuilt, build, hsorted]
      rfl
    | notified hphase | rebuilt hphase | ticked hphase =>
      have hcurrent := h hun
      rw [hphase] at hcurrent
      exact hcurrent
    | scheduled | received | fired => exact h hun

theorem rebuilt_eq_of_lists {cache : Contents} {routes routes' : List PostgresRoute}
    (h : cache.routes.Lists routes) (h' : cache.routes.Lists routes') :
    rebuilt deps b cache routes = rebuilt deps b cache routes' := by
  have hsorted := sorted_eq_of_perm h.nodup (h.perm h')
  simp only [rebuilt, build, hsorted]

/-- In every run in which lists succeed and the resolver answers from the cache: if the
published snapshot is not what `Build` returns over the cache, in whatever order it is
listed, then a handler call is in flight, the token is in the channel, the timer runs or
has fired, or a build is under way. -/
theorem healthy_rebuilds_catch_up {cache : Contents} {actions : List (WatchAction Pool)}
    (hrun : exec (step b) (start b cache) actions = some s)
    (hhealthy : Always (step b) (Healthy deps b) (start b cache) actions)
    {routes : List PostgresRoute} (hlists : s.cache.routes.Lists routes)
    (hdiffers : s.table.store ≠ rebuilt deps b s.cache routes) :
    0 < s.table.wake.inflight ∨ s.table.wake.trigger = true ∨ s.table.wake.timer ≠ .idle ∨
    (∃ rest, s.table.phase = .watching rest) ∨ s.table.phase = .listing ∨
    ∃ listed rest st, s.table.phase = .building listed rest st := by
  have halert : s.table.Alert := exec_invariant (I := fun s : RouteWatch Pool => s.table.Alert)
    alert_step (RouteTable.alert_start b) hrun
  have hcurrent : Current deps b s := by
    refine exec_always Current.step ?_ hhealthy hrun
    intro hun
    simp [start, RouteTable.start] at hun
  cases hun : s.table.unlisted with
  | true =>
    rcases halert.unlisted hun with (hw | hw | hw) | hlisting | hwatching
    · exact Or.inl hw
    · exact Or.inr (Or.inl hw)
    · exact Or.inr (Or.inr (Or.inl hw))
    · exact Or.inr (Or.inr (Or.inr (Or.inr (Or.inl hlisting))))
    · exact Or.inr (Or.inr (Or.inr (Or.inl hwatching)))
  | false =>
    have hphase := hcurrent hun
    have hsettled : ¬ UpToDate deps b s := by
      rintro ⟨routes', hlists', hstore⟩
      exact hdiffers (hstore.trans (rebuilt_eq_of_lists hlists' hlists))
    cases hcase : s.table.phase with
    | building listed rest st =>
      exact Or.inr (Or.inr (Or.inr (Or.inr (Or.inr ⟨listed, rest, st, rfl⟩))))
    | watching rest => exact Or.inr (Or.inr (Or.inr (Or.inl ⟨rest, rfl⟩)))
    | listing | notifying | selecting =>
      rw [hcase] at hphase
      exact absurd hphase hsettled

end Healthy

def sampleDeps : ResolverDeps Unit where
  appendCertsFromPEM := fun _ => none
  notFoundText := fun _ => []

def freshRoute : PostgresRoute := { metadata := { ns := str "team", name := str "app" } }

theorem healthy_rebuilds_catch_up_armed :
    ∃ s, exec (@step Unit plainQuote sampleBuilder) (start sampleBuilder {}) changeRun = some s ∧
      s.table.store ≠ @rebuilt Unit plainQuote sampleDeps sampleBuilder s.cache [freshRoute] ∧
      (0 < s.table.wake.inflight ∨ s.table.wake.trigger = true ∨ s.table.wake.timer ≠ .idle ∨
        (∃ rest, s.table.phase = .watching rest) ∨ s.table.phase = .listing ∨
        ∃ listed rest st, s.table.phase = .building listed rest st) := by
  have hhealthy : Always (@step Unit plainQuote sampleBuilder)
      (@Healthy Unit plainQuote sampleDeps sampleBuilder) (start sampleBuilder {}) changeRun := by
    refine always_of_forall ?_ _
    simp [changeRun, Healthy]
  obtain ⟨s, hrun, hlists, hdiffers⟩ : ∃ s,
      exec (@step Unit plainQuote sampleBuilder) (start sampleBuilder {}) changeRun = some s ∧
      s.cache.routes.Lists [freshRoute] ∧
      s.table.store ≠ @rebuilt Unit plainQuote sampleDeps sampleBuilder s.cache [freshRoute] := by
    refine ⟨_, rfl, by decide, fun h => ?_⟩
    have hdecision := congrArg (Snapshot.decision · freshRoute.key) h
    revert hdecision
    decide
  exact ⟨s, hrun, hdiffers,
    @healthy_rebuilds_catch_up Unit plainQuote _ _ _ _ _ hrun hhealthy _ hlists hdiffers⟩

def timedOutResolver : Resolver Unit :=
  let expired := GoError.other (str "context deadline exceeded")
  let client : Reader := ⟨fun _ => .error expired, fun _ => .error expired⟩
  @ClientResolver.resolver Unit plainQuote { client, caBundles := false, deps := sampleDeps }

def databaseService : Service where
  metadata := { ns := str "team", name := str "db" }
  ports := [⟨str "postgresql", 5432⟩]

def servedRoute : PostgresRoute where
  metadata := { ns := str "team", name := str "app" }
  spec := { backend := { type := .service, service := some ⟨str "db", [], .int 5432⟩ } }

/-- A Service and a route to it appear; the rebuild lists the route, but the resolver does
not answer. -/
def timeoutRun : List (WatchAction Unit) :=
  [.table (.register 0), .table (.register 0), .table (.list []), .table (.publish []),
    .table .rebuilt,
    .change (.service (.put databaseService)),
    .change (.route (.put servedRoute)),
    .table .schedule, .table .schedule, .table .receive, .table .fire, .table .tick,
    .table (.list [servedRoute]), .table (.resolve timedOutResolver),
    .table (.publish [servedRoute.key]), .table .notify, .table .rebuilt]

/-- After a failed list, and after a resolution that timed out, the snapshot differs from
that of the cache, and nothing is left that would lead to another rebuild. -/
theorem failed_rebuild_is_not_retried :
    (∃ s, exec (@step Unit plainQuote sampleBuilder) (start sampleBuilder {})
        (changeRun ++ [.table .fire, .table .tick, .table .listFails]) = some s ∧
      s.cache.routes.Lists [freshRoute] ∧
      s.table.store.decision freshRoute.key ≠
        (@rebuilt Unit plainQuote sampleDeps sampleBuilder s.cache [freshRoute]).decision
          freshRoute.key ∧
      s.table.wake = {} ∧ s.table.phase = .selecting) ∧
    (∃ s, exec (@step Unit plainQuote sampleBuilder) (start sampleBuilder {}) timeoutRun = some s ∧
      s.cache.routes.Lists [servedRoute] ∧
      s.table.store.table.lookup (str "app") ≠
        (@rebuilt Unit plainQuote sampleDeps sampleBuilder s.cache [servedRoute]).table.lookup
          (str "app") ∧
      s.table.wake = {} ∧ s.table.phase = .selecting) :=
  ⟨⟨_, rfl, by decide, by decide, rfl, rfl⟩, ⟨_, rfl, by decide, by decide, rfl, rfl⟩⟩

end RouteWatch
end PgProxy
