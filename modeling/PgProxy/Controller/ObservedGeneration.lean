import PgProxy.Controller.Publications
import PgProxy.Controller.Replica
import PgProxy.Controller.StatusReport

/-!
# What observedGeneration promises

A Reconcile stamps the decision it finds in the snapshot with the generation of the route
it read. The two come from one version of the route only if the snapshot was built from
that version or a later one, which the debounced builder does not guarantee. Where it
holds, and nobody writes the status between the read and the patch, the status of every
route comes from a decision on its specification at the observed generation or later.
-/

namespace PgProxy
set_option autoImplicit false

variable {Pool : Type}

/-- The publication lists this object, at this generation or a later one. -/
def Publication.Lists (p : Publication Pool) (key : NamespacedName) (uid : GoString)
    (generation : Int) (built : PostgresRoute) : Prop :=
  built ∈ p.routes ∧ built.key = key ∧ built.metadata.uid = uid ∧
    generation ≤ built.metadata.generation

instance (p : Publication Pool) (key : NamespacedName) (uid : GoString) (generation : Int)
    (built : PostgresRoute) : Decidable (p.Lists key uid generation built) :=
  inferInstanceAs (Decidable (_ ∧ _ ∧ _ ∧ _))

section Honest
variable [GoFmt]

/-- The status was never written, or it reports a decision that was made for the
object's specification at the observed generation or a later one. -/
def Honest (clusterDomain : GoString) (published : List (Publication Pool))
    (route : PostgresRoute) : Prop :=
  route.status = {} ∨ ∃ p ∈ published, ∃ built,
    p.Lists route.key route.metadata.uid route.status.observedGeneration built ∧
    ∃ d, p.snapshot.decision route.key = some d ∧ Decides Pool clusterDomain built d ∧
      Reports route.status route.status.observedGeneration d

theorem Honest.mono {clusterDomain : GoString} {published published' : List (Publication Pool)}
    {route : PostgresRoute} (h : Honest clusterDomain published route)
    (hsub : published ⊆ published') : Honest clusterDomain published' route := by
  rcases h with h | ⟨p, hp, hrest⟩
  · exact Or.inl h
  · exact Or.inr ⟨p, hsub hp, hrest⟩

theorem Honest.same {clusterDomain : GoString} {published : List (Publication Pool)}
    {old new : PostgresRoute} (h : Honest clusterDomain published old)
    (hsame : old.SameStatus new) : Honest clusterDomain published new := by
  unfold Honest
  rw [hsame.key, hsame.uid, hsame.status]
  exact h

end Honest

theorem RouteTable.Move.published_subset [GoFmt] {b : RouteTableBuilder}
    {cache : Store PostgresRoute.key} {s t : RouteTable Pool} {a : TableAction Pool}
    (h : RouteTable.Move b cache s a t) : s.published ⊆ t.published := by
  cases h with
  | published => exact List.subset_append_left _ _
  | _ => exact List.Subset.refl _

namespace Replica

section Fresh
variable [GoFmt] {b : RouteTableBuilder} {setter : ConditionSetter} {client : StatusClient}

/-- The snapshot in force was built from the version of the route read, or a later one. -/
def FreshLoad (table : RouteTable Pool) (key : NamespacedName) : StatusPhase Pool → Prop
  | .read route _ => (table.store.decision key).isSome →
    ∃ p ∈ table.published.getLast?, ∃ built ∈ p.routes,
      p.Lists key route.metadata.uid route.metadata.generation built
  | .started | .loaded _ _ => True

/-- The stored object is the one that was read, with the status that was read. -/
def FreshPatch (routes : Routes) (key : NamespacedName) : StatusPhase Pool → Prop
  | .loaded route _ => ∀ current ∈ routes.get key,
    current.metadata.uid = route.metadata.uid ∧ current.status = route.status
  | .started | .read _ _ => True

/-- A Reconcile loads a snapshot that was built from the version of the route it read, or
from a later one, and patches the object it read with the status it read. -/
def Fresh (s : Replica Pool) : ReplicaAction Pool → Prop
  | .writeStatus _ _ => False
  | .load => ∀ work ∈ s.work, FreshLoad s.table work.1 work.2
  | .patch _ => ∀ work ∈ s.work, FreshPatch s.routes.store work.1 work.2
  | _ => True

instance (table : RouteTable Pool) (key : NamespacedName) :
    (phase : StatusPhase Pool) → Decidable (FreshLoad table key phase)
  | .read _ _ => inferInstanceAs (Decidable (_ → _))
  | .started | .loaded _ _ => isTrue trivial

instance (routes : Routes) (key : NamespacedName) :
    (phase : StatusPhase Pool) → Decidable (FreshPatch routes key phase)
  | .loaded route _ => inferInstanceAs (Decidable (∀ current ∈ routes.get key,
      current.metadata.uid = route.metadata.uid ∧ current.status = route.status))
  | .started | .read _ _ => isTrue trivial

instance (s : Replica Pool) : (a : ReplicaAction Pool) → Decidable (s.Fresh a)
  | .writeStatus _ _ => isFalse id
  | .load => inferInstanceAs (Decidable (∀ work ∈ s.work, FreshLoad s.table work.1 work.2))
  | .patch _ =>
    inferInstanceAs (Decidable (∀ work ∈ s.work, FreshPatch s.routes.store work.1 work.2))
  | .createRoute _ | .editRoute _ _ | .terminateRoute _ _ | .deleteRoute _ | .sync | .notice _
  | .table _ | .elect _ | .routeEvent | .statusEvent | .take _ | .get _ => isTrue trivial

def Grounded (s : Replica Pool) (key : NamespacedName) : StatusPhase Pool → Prop
  | .started => True
  | .read route _ => route.key = key
  | .loaded route snapshot => route.key = key ∧
    ∃ p ∈ s.table.published, p.snapshot = snapshot ∧
      ∃ built, p.Lists key route.metadata.uid route.metadata.generation built

variable (b) in
structure Sourced (s : Replica Pool) : Prop where
  documented : s.table.Documented b.clusterDomain
  stored : ∀ key route, s.routes.store.get key = some route →
    Honest b.clusterDomain s.table.published route
  work : ∀ key phase, s.work = some (key, phase) → s.Grounded key phase

theorem sourced_start : (start b : Replica Pool).Sourced b where
  documented := RouteTable.documented_start b
  stored key route h := by simp [start] at h
  work key phase h := by simp [start] at h

variable {s t : Replica Pool}

omit [GoFmt] in
theorem Grounded.mono {key : NamespacedName} {phase : StatusPhase Pool}
    (h : s.Grounded key phase) (hsub : s.table.published ⊆ t.table.published) :
    t.Grounded key phase := by
  cases phase with
  | started => trivial
  | read route live => exact h
  | loaded route snapshot =>
    obtain ⟨hkey, p, hp, hrest⟩ := h
    exact ⟨hkey, p, hsub hp, hrest⟩

theorem Sourced.write {c : Change PostgresRoute.key} (h : s.Sourced b)
    (hc : ∀ route, c.result = some route → Honest b.clusterDomain s.table.published route) :
    (s.write c).Sourced b := by
  refine ⟨h.documented, fun key route hroute => ?_, h.work⟩
  by_cases hk : key = c.target
  · subst hk
    exact hc route ((s.routes.store.get_apply_self c).symm.trans hroute)
  · exact h.stored key route ((s.routes.store.get_apply_ne hk).symm.trans hroute)

theorem Sourced.put {route : PostgresRoute} (h : s.Sourced b)
    (hroute : Honest b.clusterDomain s.table.published route) : (s.put route).Sourced b := by
  refine h.write fun stored hstored => ?_
  obtain rfl := Option.some.inj hstored
  exact hroute.same ⟨rfl, rfl, rfl⟩

theorem Sourced.finish {key : NamespacedName} (h : s.Sourced b) (o : StatusReconcile) :
    (s.finish key o).Sourced b :=
  ⟨h.documented, h.stored, fun _ _ hwork => by simp [Replica.finish] at hwork⟩

theorem Sourced.step {a : ReplicaAction Pool} (h : s.Sourced b) (hfresh : s.Fresh a)
    (hstep : step b setter client s a = some t) : t.Sourced b := by
  cases step_move hstep with
  | @created route =>
    have hput : (s.put route.created).Sourced b := h.put (Or.inl rfl)
    exact ⟨hput.documented, hput.stored, hput.work⟩
  | changed hold hsame => exact h.put ((h.stored _ _ hold).same hsame)
  | removed => exact h.write fun route hroute => by simp [Change.result] at hroute
  | statusWritten => exact hfresh.elim
  | synced hsync =>
    obtain ⟨-, -, hstore, -⟩ := Watched.sync_eq_some hsync
    refine ⟨h.documented.cacheChanged _, fun key route hroute => ?_, h.work⟩
    exact h.stored key route (hstore ▸ hroute)
  | noticed => exact ⟨h.documented.cacheChanged _, h.stored, h.work⟩
  | table htable =>
    have hmove := RouteTable.step_move htable
    have hsub := hmove.published_subset
    exact ⟨h.documented.step hmove, fun key route hroute => (h.stored key route hroute).mono hsub,
      fun key phase hwork => (h.work key phase hwork).mono hsub⟩
  | elected => exact ⟨h.documented, h.stored, h.work⟩
  | routeEvent hnext =>
    obtain ⟨-, hstore, -⟩ := Watched.next_eq_some hnext
    exact ⟨h.documented, fun key route hroute => h.stored key route (hstore ▸ hroute), h.work⟩
  | statusEvent =>
    exact ⟨⟨h.documented.building, h.documented.inForce, h.documented.sound⟩, h.stored, h.work⟩
  | taken =>
    refine ⟨h.documented, h.stored, fun key phase hwork => ?_⟩
    cases hwork
    trivial
  | skipped | unknown | upToDate => exact h.finish _
  | read _ hget =>
    refine ⟨h.documented, h.stored, fun key phase hwork => ?_⟩
    cases hwork
    exact Store.key_of_get hget
  | @loaded key route live d hwork hd =>
    have hload : FreshLoad s.table key (.read route live) := hfresh _ hwork
    obtain ⟨p, hp, built, -, hbuilt⟩ := hload (by rw [hd]; rfl)
    refine ⟨h.documented, h.stored, fun key' phase hwork' => ?_⟩
    cases hwork'
    exact ⟨h.work _ _ hwork, p, List.mem_of_getLast? hp, h.documented.inForce p hp, built, hbuilt⟩
  | @patched key route snapshot d reply change err o hwork hd _ hpatch =>
    refine Sourced.finish ?_ o
    obtain ⟨rfl, p, hp, rfl, built, hbuilt⟩ := h.work _ _ hwork
    rcases client.patch_cases hpatch with ⟨-, rfl, -⟩ | ⟨-, -, rfl, -⟩ |
      ⟨current, hcurrent, -, ⟨-, rfl⟩ | rfl⟩
    · exact h
    · exact h
    · exact h
    · -- the object had the status read, so the patch leaves exactly the derived one
      have hpatches : FreshPatch s.routes.store route.key (.loaded route p.snapshot) :=
        hfresh _ hwork
      obtain ⟨huid, hstatus⟩ := hpatches current hcurrent
      have hreports := reports_desired setter route d
      have hkey : current.key = route.key := Store.key_of_get hcurrent
      obtain ⟨hmem, hbuiltKey, hbuiltUid, hgeneration⟩ := hbuilt
      obtain ⟨d', hd', hdecides⟩ := h.documented.sound p hp built hmem
      obtain rfl : d = d' := Option.some.inj (hd.symm.trans (hbuiltKey ▸ hd'))
      refine h.put (Or.inr ⟨p, hp, built, ?_⟩)
      rw [hstatus, client.merge_base, hreports.observedGeneration]
      exact ⟨⟨hmem, hbuiltKey.trans hkey.symm, hbuiltUid.trans huid.symm, hgeneration⟩, d,
        hkey ▸ hd, hdecides, hreports⟩

/-- In every run of fresh reconciles, the status of a stored route was never written, or
it reports, with the observed generation, a decision that a published build made for that
object's specification at this generation or a later one. -/
theorem fresh_status_is_honest {actions : List (ReplicaAction Pool)}
    (hrun : exec (step b setter client) (start b) actions = some s)
    (hfresh : Always (step b setter client) Fresh (start b) actions)
    {key : NamespacedName} {route : PostgresRoute}
    (hroute : s.routes.store.get key = some route) :
    route.status = {} ∨
    ∃ p ∈ s.table.published, ∃ built ∈ p.routes,
      built.key = key ∧ built.metadata.uid = route.metadata.uid ∧
      route.status.observedGeneration ≤ built.metadata.generation ∧
      ∃ d, p.snapshot.decision key = some d ∧ Decides Pool b.clusterDomain built d ∧
        Reports route.status route.status.observedGeneration d := by
  have hsourced : s.Sourced b := exec_always Sourced.step sourced_start hfresh hrun
  have hkey : route.key = key := Store.key_of_get hroute
  subst hkey
  rcases hsourced.stored _ route hroute with hnever | ⟨p, hp, built, ⟨hmem, hrest⟩, hd⟩
  · exact Or.inl hnever
  · exact Or.inr ⟨p, hp, built, hmem, hrest.1, hrest.2.1, hrest.2.2, hd⟩

end Fresh

/-! ## Two runs -/

def ordersRoute : PostgresRoute where
  metadata := { ns := str "team", name := str "app", uid := str "1" }
  spec := { database := str "orders" }

def firstReport : List (ReplicaAction Unit) :=
  let stored := commit.stamped 1 ordersRoute.created
  [.table (.register 0), .table (.register 0), .table (.list []), .table (.publish []),
    .table .rebuilt, .elect [],
    .createRoute ordersRoute, .sync,
    .table .schedule, .table .receive, .table .fire, .table .tick, .table (.list [stored]),
    .table (.resolve emptyCluster), .table (.publish [stored.key]), .table .notify,
    .table .rebuilt,
    .routeEvent, .take stored.key, .get none, .load, .patch .done]

theorem fresh_status_is_honest_firstReport :
    ∃ s, exec (@step Unit plainQuote sampleBuilder frozenSetter sampleClient)
        (start sampleBuilder) firstReport = some s ∧
      ∃ route, s.routes.store.get ordersRoute.key = some route ∧
        route.status.observedGeneration = 1 ∧
        ∃ p ∈ s.table.published, ∃ built ∈ p.routes,
          built.key = ordersRoute.key ∧ built.metadata.uid = route.metadata.uid ∧
          route.status.observedGeneration ≤ built.metadata.generation ∧
          ∃ d, p.snapshot.decision ordersRoute.key = some d ∧
            @Decides Unit plainQuote sampleBuilder.clusterDomain built d ∧
            @Reports plainQuote route.status route.status.observedGeneration d := by
  have hfresh : Always (@step Unit plainQuote sampleBuilder frozenSetter sampleClient) Fresh
      (start sampleBuilder) firstReport := by decide +kernel
  obtain ⟨s, hrun, route, hroute, hgeneration⟩ : ∃ s,
      exec (@step Unit plainQuote sampleBuilder frozenSetter sampleClient)
        (start sampleBuilder) firstReport = some s ∧
      ∃ route, s.routes.store.get ordersRoute.key = some route ∧
        route.status.observedGeneration = 1 := ⟨_, rfl, _, rfl, rfl⟩
  refine ⟨s, hrun, route, hroute, hgeneration, ?_⟩
  rcases @fresh_status_is_honest Unit plainQuote _ _ _ _ _ hrun hfresh _ _ hroute with
    hnever | hhonest
  · rw [hnever] at hgeneration
    exact absurd hgeneration (by decide)
  · exact hhonest

/-- The route is edited, and reconciled before the debounced rebuild. -/
def editedReport : List (ReplicaAction Unit) :=
  firstReport ++
    [.sync, .routeEvent, .editRoute ordersRoute.key { database := str "billing" }, .sync,
      .routeEvent, .take ordersRoute.key, .get none, .load, .patch .done]

/-- The status shows generation 2 with the database name of generation 1, and no build
has seen generation 2. -/
theorem observedGeneration_runs_ahead :
    ∃ s, exec (@step Unit plainQuote sampleBuilder frozenSetter sampleClient)
        (start sampleBuilder) editedReport = some s ∧
      ∃ route, s.routes.store.get ordersRoute.key = some route ∧
        route.metadata.generation = 2 ∧ route.effectiveDatabase = str "billing" ∧
        route.status.observedGeneration = 2 ∧ route.status.database = str "orders" ∧
        ∀ p ∈ s.table.published, ∀ built ∈ p.routes, built.metadata.generation = 1 :=
  ⟨_, rfl, _, rfl, rfl, rfl, rfl, rfl, by decide⟩

end Replica
end PgProxy
