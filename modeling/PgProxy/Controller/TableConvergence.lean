import PgProxy.Controller.TransientFailures

/-!
# The table catches up with the cache

Once the cache stops changing, the calls, the token and the timer that are left lead to at most
so many rebuilds, and each of them takes at most so many steps. When there is nothing left to
do, the snapshot in force is that of the cache.
-/

namespace PgProxy
set_option autoImplicit false

variable {Pool : Type}

namespace RouteTable

/-- The steps of one rebuild over a cache of `n` routes, with the tick that starts it. -/
def roundCost (n : Nat) : Nat := 2 * n + 4

def phaseCost (n : Nat) : BuilderPhase Pool → Nat
  | .watching rest => rest.length + (2 * n + 3)
  | .listing => 2 * n + 3
  | .building _ rest st => 2 * rest.length + st.decisions.keys.card + 2
  | .notifying changed => changed.length + 1
  | .selecting => 0

/-- Each step of the debounced calls may start one more rebuild. -/
def rank (n : Nat) (s : RouteTable Pool) : Nat :=
  s.wake.weight * roundCost n + phaseCost n s.phase

theorem phaseCost_watchRest (n : Nat) (rest : List ObjectKind) :
    phaseCost n (.watchRest rest : BuilderPhase Pool) ≤ rest.length + (2 * n + 3) := by
  cases rest with
  | nil => simp [BuilderPhase.watchRest, phaseCost]
  | cons kind rest => exact Nat.le_refl _

section Rank
variable {s t : RouteTable Pool} {n : Nat} (k : Nat)

theorem rank_of_wake (hwake : t.wake = s.wake)
    (hphase : phaseCost n t.phase + 1 ≤ phaseCost n s.phase) : t.rank n + 1 ≤ s.rank n + k := by
  rw [rank, rank, hwake]
  omega

theorem rank_of_weight (hwake : t.wake.weight < s.wake.weight)
    (hphase : phaseCost n t.phase + 1 ≤ phaseCost n s.phase + roundCost n) :
    t.rank n + 1 ≤ s.rank n + k := by
  have hmul : (t.wake.weight + 1) * roundCost n ≤ s.wake.weight * roundCost n :=
    Nat.mul_le_mul_right _ hwake
  rw [Nat.add_mul, Nat.one_mul] at hmul
  rw [rank, rank]
  omega

end Rank

section Steps
variable [GoFmt] {b : RouteTableBuilder} {cache : Store PostgresRoute.key}
variable {s t : RouteTable Pool} {a : TableAction Pool}

theorem rank_step (h : s.Alert) (hmove : Move b cache s a t) :
    t.rank cache.entries.keys.card + 1 ≤
      s.rank cache.entries.keys.card + 4 * replayed a * roundCost cache.entries.keys.card := by
  have hround : ∀ n, 1 ≤ roundCost n := fun n => by rw [roundCost]; omega
  cases hmove with
  | @registered existing kind rest hphase =>
    have hrest : phaseCost cache.entries.keys.card (.watchRest rest : BuilderPhase Pool) ≤
        rest.length + (2 * cache.entries.keys.card + 3) := phaseCost_watchRest _ rest
    have hbefore : phaseCost cache.entries.keys.card s.phase =
        rest.length + 1 + (2 * cache.entries.keys.card + 3) := by
      rw [hphase]
      rfl
    simp only [rank, hbefore, Debounce.weight_request, replayed, Nat.add_mul]
    omega
  | @listed routes hphase hlists =>
    refine rank_of_wake _ rfl ?_
    have hlength := (sliceStable_perm less routes).length_eq
    rw [hlists.length] at hlength
    simp only [hphase, phaseCost, hlength]
    simp
  | listFailed hphase =>
    refine rank_of_wake _ rfl ?_
    simp only [hphase, phaseCost]
    omega
  | @resolved resolver routes rest route st hphase =>
    refine rank_of_wake _ rfl ?_
    have hcard := card_decisions_buildStep resolver b.clusterDomain st route
    simp only [hphase, phaseCost, List.length_cons]
    omega
  | published hphase hnodup hchanged =>
    refine rank_of_wake _ rfl ?_
    have hlength := length_changed_le hnodup hchanged
    simp only [snapshot] at hlength
    simp only [hphase, phaseCost, List.length_nil]
    omega
  | notified hphase | rebuilt hphase =>
    refine rank_of_wake _ rfl ?_
    simp [hphase, phaseCost]
  | scheduled hwake =>
    exact rank_of_weight _ (Debounce.weight_schedule hwake) (Nat.add_le_add_left (hround _) _)
  | received hphase hwake =>
    exact rank_of_weight _ (Debounce.weight_receive hwake h.consistent)
      (Nat.add_le_add_left (hround _) _)
  | fired hwake =>
    exact rank_of_weight _ (Debounce.weight_fire hwake) (Nat.add_le_add_left (hround _) _)
  | ticked hphase hwake =>
    refine rank_of_weight _ (Debounce.weight_tick hwake) ?_
    simp only [hphase, phaseCost, roundCost]
    omega

end Steps

end RouteTable

namespace RouteWatch

structure AtRest (s : RouteWatch Pool) : Prop where
  phase : s.table.phase = .selecting
  asleep : ¬ s.table.wake.Awake

section Runs
variable [GoFmt] {deps : ResolverDeps Pool} {b : RouteTableBuilder} {s t : RouteWatch Pool}

theorem table_steps_le {later : List (TableAction Pool)} (h : s.table.Alert)
    (hrun : exec (step b) s (later.map .table) = some t) :
    t.cache = s.cache ∧ later.length ≤ s.table.rank s.cache.routes.entries.keys.card +
      4 * calls (later.map .table) * RouteTable.roundCost s.cache.routes.entries.keys.card := by
  induction later generalizing s with
  | nil =>
    obtain rfl := Option.some.inj hrun
    exact ⟨rfl, Nat.zero_le _⟩
  | cons a later ih =>
    obtain ⟨u, hu, hrest⟩ := exec_cons.mp hrun
    obtain ⟨hcache, hbound⟩ := ih (alert_step h hu) hrest
    obtain ⟨table, htable, rfl⟩ := Option.map_eq_some_iff.mp hu
    have hrank := RouteTable.rank_step h (RouteTable.step_move htable)
    refine ⟨hcache, ?_⟩
    simp only [List.map_cons, List.length_cons, calls, Nat.mul_add, Nat.add_mul] at hbound ⊢
    omega

theorem atRest_of_stuck (h : s.table.Alert)
    (hstuck : ∀ a, Healthy deps b s (.table a) → s.step b (.table a) = none) : s.AtRest := by
  have hnone : ∀ a, Healthy deps b s (.table a) → s.table.step b s.cache.routes a = none := by
    intro a ha
    simpa [step] using hstuck a ha
  have hselecting : s.table.phase = .selecting := by
    cases hphase : s.table.phase with
    | selecting => rfl
    | watching rest =>
      cases rest with
      | nil => exact absurd hphase h.watching
      | cons kind rest =>
        have hregister := hnone (.register 0) trivial
        simp [RouteTable.step, hphase] at hregister
    | listing =>
      obtain ⟨routes, hlists⟩ := s.cache.routes.exists_lists
      have hlist := hnone (.list routes) trivial
      simp [RouteTable.step, hphase, hlists] at hlist
    | building routes rest st =>
      cases rest with
      | nil =>
        have hpublish := hnone (.publish (if b.statusEvents.isSome then
          changedKeys s.table.store (RouteTable.snapshot st) else ∅).toList) trivial
        simp only [RouteTable.step, hphase] at hpublish
        rw [if_pos ⟨Finset.nodup_toList _, Finset.toList_toFinset _⟩] at hpublish
        simp at hpublish
      | cons route rest =>
        have hresolve := hnone (.resolve (s.cache.resolver deps b.watchSecrets)) fun _ => rfl
        simp [RouteTable.step, hphase] at hresolve
    | notifying changed =>
      cases changed with
      | nil =>
        have hrebuilt := hnone .rebuilt trivial
        simp [RouteTable.step, hphase] at hrebuilt
      | cons key rest =>
        have hnotify := hnone .notify trivial
        simp [RouteTable.step, hphase] at hnotify
  refine ⟨hselecting, fun hawake => ?_⟩
  have hschedule := hnone .schedule trivial
  have hreceive := hnone .receive trivial
  have hfire := hnone .fire trivial
  have htick := hnone .tick trivial
  simp only [RouteTable.step, hselecting, Option.map_eq_none_iff] at hschedule hreceive hfire htick
  rcases hawake.progress with hsome | hsome | hsome | hsome
  · simp [hschedule] at hsome
  · simp [hreceive] at hsome
  · simp [hfire] at hsome
  · simp [htick] at hsome

theorem AtRest.upToDate (h : s.AtRest) (halert : s.table.Alert) (hcurrent : Current deps b s) :
    UpToDate deps b s := by
  have hlisted : s.table.unlisted = false := by
    cases hun : s.table.unlisted with
    | false => rfl
    | true =>
      rcases halert.unlisted hun with hawake | hlisting | ⟨rest, hwatching⟩
      · exact absurd hawake h.asleep
      · simp [h.phase] at hlisting
      · simp [h.phase] at hwatching
  have hphase := hcurrent hlisted
  rw [h.phase] at hphase
  exact hphase

theorem current_of_run {cache : Contents} {actions : List (WatchAction Pool)}
    (hrun : exec (step b) (start b cache) actions = some s)
    (hhealthy : Always (step b) (Healthy deps b) (start b cache) actions) :
    s.table.Alert ∧ Current deps b s := by
  refine ⟨exec_invariant (I := fun s : RouteWatch Pool => s.table.Alert) alert_step
    (RouteTable.alert_start b) hrun, exec_always Current.step ?_ hhealthy hrun⟩
  intro hun
  simp [start, RouteTable.start] at hun

/-- From every state that a healthy run has led to, once the cache stops changing: the builder
makes boundedly many steps, in whatever order its handlers, its timer and its loop run, and when
it can make no more the snapshot in force is what `Build` returns over the cache, in whatever
order it is listed. -/
theorem routing_table_converges {cache : Contents} {actions : List (WatchAction Pool)}
    {later : List (TableAction Pool)} (hrun : exec (step b) (start b cache) actions = some s)
    (hlater : exec (step b) s (later.map .table) = some t)
    (hhealthy : Always (step b) (Healthy deps b) (start b cache) (actions ++ later.map .table)) :
    later.length ≤ s.table.rank s.cache.routes.entries.keys.card +
      4 * calls (later.map .table) * RouteTable.roundCost s.cache.routes.entries.keys.card ∧
    ((∀ a, Healthy deps b t (.table a) → t.step b (.table a) = none) →
      t.AtRest ∧ ∀ routes, s.cache.routes.Lists routes →
        t.table.store = rebuilt deps b s.cache routes) := by
  have hwhole := exec_trans hrun hlater
  obtain ⟨halert, hcurrent⟩ := current_of_run hwhole hhealthy
  have hstart : s.table.Alert := exec_invariant (I := fun s : RouteWatch Pool => s.table.Alert)
    alert_step (RouteTable.alert_start b) hrun
  obtain ⟨hcache, hbound⟩ := table_steps_le hstart hlater
  refine ⟨hbound, fun hstuck => ?_⟩
  have hrest := atRest_of_stuck halert hstuck
  refine ⟨hrest, fun routes hlists => ?_⟩
  obtain ⟨routes', hlists', hstore⟩ := hrest.upToDate halert hcurrent
  rw [hcache] at hlists' hstore
  exact hstore.trans (rebuilt_eq_of_lists hlists' hlists)

end Runs

/-- What follows `changeRun`: the timer fires, and the route is listed, resolved and
published. -/
def settlingRun : List (TableAction Unit) :=
  [.fire, .tick, .list [freshRoute],
    .resolve (@Contents.resolver Unit plainQuote sampleDeps false
      { routes := (∅ : Store PostgresRoute.key).apply (.put freshRoute) }),
    .publish [freshRoute.key], .notify, .rebuilt]

theorem routing_table_converges_fresh :
    ∃ s t, exec (@step Unit plainQuote sampleBuilder) (start sampleBuilder {}) changeRun = some s ∧
      exec (@step Unit plainQuote sampleBuilder) s (settlingRun.map .table) = some t ∧
      s.table.store.decision freshRoute.key = none ∧ t.AtRest ∧
      t.table.store = @rebuilt Unit plainQuote sampleDeps sampleBuilder s.cache [freshRoute] := by
  obtain ⟨s, t, hrun, hlater, hnone, hlists, hstuck⟩ : ∃ s t,
      exec (@step Unit plainQuote sampleBuilder) (start sampleBuilder {}) changeRun = some s ∧
      exec (@step Unit plainQuote sampleBuilder) s (settlingRun.map .table) = some t ∧
      s.table.store.decision freshRoute.key = none ∧ s.cache.routes.Lists [freshRoute] ∧
      ∀ a, @step Unit plainQuote sampleBuilder t (.table a) = none :=
    ⟨_, _, rfl, rfl, by decide, by decide, fun a => by cases a <;> rfl⟩
  have hhealthy : Always (@step Unit plainQuote sampleBuilder)
      (@Healthy Unit plainQuote sampleDeps sampleBuilder) (start sampleBuilder {})
      (changeRun ++ settlingRun.map .table) := by
    refine always_append (always_of_forall (by simp [changeRun, Healthy]) _) ?_
    intro u hu
    obtain rfl := Option.some.inj hu
    exact always_cons rfl trivial (always_cons rfl trivial (always_cons rfl trivial
      (always_cons rfl (fun _ => rfl) (always_cons rfl trivial (always_cons rfl trivial
        (always_cons rfl trivial trivial))))))
  obtain ⟨-, hsettled⟩ :=
    @routing_table_converges Unit plainQuote sampleDeps _ _ _ _ _ _ hrun hlater hhealthy
  obtain ⟨hrest, hstore⟩ := hsettled fun a _ => hstuck a
  exact ⟨s, t, hrun, hlater, hnone, hrest, hstore _ hlists⟩

end RouteWatch
end PgProxy
