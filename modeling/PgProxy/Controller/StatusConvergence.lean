import PgProxy.Controller.Publications
import PgProxy.Controller.Replica
import PgProxy.Controller.StatusReport
import PgProxy.Controller.Wakeup

/-!
# Status convergence

Once an elected replica has nothing left to do, every route's status reports its decision
in the published snapshot. For every route that has a decision the invariant says that a
Reconcile is due, or under way with the current object, or that the status reports the
decision. It rests on the notifications of the builder: a send into a full channel drops
one, and with it the update.
-/

namespace PgProxy
set_option autoImplicit false

variable {Pool : Type}

namespace RouteTable

/-- A notification for the route is in the channel, or is still to be sent. -/
def Announces (s : RouteTable Pool) (key : NamespacedName) : Prop :=
  key ∈ s.events ∨ ∃ rest, s.phase = .notifying rest ∧ key ∈ rest

theorem Announces.of_phase {s t : RouteTable Pool} {key : NamespacedName} (h : s.Announces key)
    (hphase : ∀ rest, s.phase ≠ .notifying rest) (hevents : t.events = s.events) :
    t.Announces key := by
  rcases h with h | ⟨rest, hrest, -⟩
  · exact Or.inl (hevents ▸ h)
  · exact absurd hrest (hphase rest)

theorem Announces.step [GoFmt] {b : RouteTableBuilder} {cache : Store PostgresRoute.key}
    {s t : RouteTable Pool} {a : TableAction Pool} {key : NamespacedName} (h : s.Announces key)
    (hmove : Move b cache s a t) (hroom : a = .notify → s.events.length < b.statusEvents.getD 0) :
    t.Announces key := by
  cases hmove with
  | registered hphase | listed hphase | listFailed hphase | resolved hphase | published hphase
  | received hphase | ticked hphase => exact h.of_phase (by simp [hphase]) rfl
  | scheduled | fired => exact h
  | @notified key' rest hphase =>
    have hevents : notify b s.events key' = s.events ++ [key'] := if_pos (hroom rfl)
    rcases h with h | ⟨rest', hrest', hmem⟩
    · exact Or.inl (by simp [hevents, h])
    · obtain rfl : rest' = key' :: rest := by simpa [hphase] using hrest'.symm
      rcases List.mem_cons.mp hmem with rfl | hmem
      · exact Or.inl (by simp [hevents])
      · exact Or.inr ⟨rest, rfl, hmem⟩
  | rebuilt hphase =>
    rcases h with h | ⟨rest, hrest, hmem⟩
    · exact Or.inl h
    · obtain rfl : rest = [] := by simpa [hphase] using hrest.symm
      simp at hmem

end RouteTable

namespace Replica

/-- Nothing is left to do: no rebuild is pending or under way, every event has been
delivered, and the work queue is empty. -/
structure Quiescent (s : Replica Pool) : Prop where
  rebuild : s.table.phase = .selecting
  wake : s.table.wake.inflight = 0 ∧ s.table.wake.trigger = false ∧ s.table.wake.timer = .idle
  channel : s.table.events = []
  routes : s.routes.watch = [] ∧ s.routes.events = []
  queue : s.queue = []
  work : s.work = none

/-- A Reconcile of the route is on its way. -/
inductive Due (s : Replica Pool) (key : NamespacedName) : Prop
  | queued (h : key ∈ s.queue)
  | announced (h : s.table.Announces key)
  | pending (h : s.routes.Pending (fun _ => False) fun r => r.key = key)
  | started (h : s.work = some (key, .started))

theorem Due.transfer {s t : Replica Pool} {key : NamespacedName} (h : s.Due key)
    (hqueue : key ∈ s.queue → key ∈ t.queue)
    (htable : s.table.Announces key → t.table.Announces key)
    (hroutes : s.routes.Pending (fun _ => False) (fun r => r.key = key) →
      t.routes.Pending (fun _ => False) fun r => r.key = key)
    (hwork : s.work = some (key, .started) → t.work = some (key, .started)) : t.Due key := by
  cases h with
  | queued h => exact .queued (hqueue h)
  | announced h => exact .announced (htable h)
  | pending h => exact .pending (hroutes h)
  | started h => exact .started (hwork h)

theorem mem_routeRequests {event : Event PostgresRoute} {key : NamespacedName}
    (h : event.Concerns (fun _ => False) fun r => r.key = key) : key ∈ routeRequests event := by
  cases event with
  | create route => exact List.mem_singleton.mpr (Eq.symm h)
  | update old new => exact List.mem_singleton.mpr (Eq.symm (h.resolve_left id))
  | delete route => exact h.elim

theorem Quiescent.not_due {s : Replica Pool} (h : s.Quiescent) (key : NamespacedName) :
    ¬ s.Due key := by
  rintro (hqueue | (hevents | ⟨rest, hrest, -⟩) | (⟨e, he, -⟩ | ⟨c, hc, -⟩) | hwork)
  · simp [h.queue] at hqueue
  · simp [h.channel] at hevents
  · simp [h.rebuild] at hrest
  · simp [h.routes.2] at he
  · simp [h.routes.1] at hc
  · simp [h.work] at hwork

section Convergence
variable [GoFmt] {b : RouteTableBuilder} {setter : ConditionSetter} {client : StatusClient}

/-- A Reconcile is under way that has read this object, and has loaded a decision that
reads like this one if it has loaded any. -/
def InHand (s : Replica Pool) (key : NamespacedName) (route : PostgresRoute) (d : Decision) :
    Prop :=
  (∃ live, s.work = some (key, .read route live)) ∨
    ∃ snapshot d', s.work = some (key, .loaded route snapshot) ∧
      snapshot.decision key = some d' ∧ d'.report = d.report

def Covered (s : Replica Pool) (key : NamespacedName) : Prop :=
  ∀ route d, s.routes.store.get key = some route → route.metadata.beingDeleted = false →
    s.table.store.decision key = some d →
    s.Due key ∨ s.InHand key route d ∨ Reports route.status route.metadata.generation d

/-- At the end of a build, resolution errors of one route with one text have one reason. -/
def Legible (store : Snapshot Pool) : BuilderPhase Pool → Prop
  | .building _ [] st => ∀ key ∈ store.decisions.keys, ∀ before ∈ store.decision key,
    ∀ now ∈ (RouteTable.snapshot st).decision key,
      errorMessage before.resolveErr = errorMessage now.resolveErr →
      before.resolveErr.map resolveFailureReason = now.resolveErr.map resolveFailureReason
  | _ => True

variable (b) in
/-- Lists succeed, and once the replica is elected no notification meets a full channel
and resolution errors with one text have one reason. -/
def Smooth (s : Replica Pool) : ReplicaAction Pool → Prop
  | .table .listFails => False
  | .table .notify => s.elected = true → s.table.events.length < b.statusEvents.getD 0
  | .table (.publish _) => s.elected = true → Legible s.table.store s.table.phase
  | _ => True

instance (store : Snapshot Pool) : (phase : BuilderPhase Pool) → Decidable (Legible store phase)
  | .building _ [] st => inferInstanceAs (Decidable (∀ key ∈ store.decisions.keys,
      ∀ before ∈ store.decision key, ∀ now ∈ (RouteTable.snapshot st).decision key,
        errorMessage before.resolveErr = errorMessage now.resolveErr →
        before.resolveErr.map resolveFailureReason = now.resolveErr.map resolveFailureReason))
  | .building _ (_ :: _) _ | .watching _ | .listing | .notifying _ | .selecting => isTrue trivial

instance (s : Replica Pool) : (a : ReplicaAction Pool) → Decidable (Smooth b s a)
  | .table .listFails => isFalse id
  | .table .notify => inferInstanceAs (Decidable (_ → _))
  | .table (.publish _) =>
    inferInstanceAs (Decidable (s.elected = true → Legible s.table.store s.table.phase))
  | .table (.register _) | .table (.list _) | .table (.resolve _) | .table .rebuilt
  | .table .schedule | .table .receive | .table .fire | .table .tick | .createRoute _
  | .editRoute _ _ | .terminateRoute _ _ | .deleteRoute _ | .writeStatus _ _ | .sync | .notice _
  | .elect _ | .routeEvent | .statusEvent | .take _ | .get _ | .load | .patch _ => isTrue trivial

variable {s t : Replica Pool} {key : NamespacedName}

theorem Covered.of_due (h : s.Due key) : s.Covered key := fun _ _ _ _ _ => Or.inl h

theorem Covered.frame (h : s.Covered key)
    (hstore : t.routes.store.get key = s.routes.store.get key)
    (htable : t.table.store = s.table.store) (hdue : s.Due key → t.Due key)
    (hhand : ∀ route d, s.InHand key route d → t.Due key ∨ t.InHand key route d) :
    t.Covered key := by
  intro route d hroute hlive hd
  rcases h route d (hstore ▸ hroute) hlive (htable ▸ hd) with hcase | hcase | hcase
  · exact Or.inl (hdue hcase)
  · exact (hhand route d hcase).imp_right Or.inl
  · exact Or.inr (Or.inr hcase)

theorem Covered.write (h : s.Covered key) (c : Change PostgresRoute.key) :
    (s.write c).Covered key := by
  by_cases hk : key = c.target
  · subst hk
    intro route d hroute _ _
    have hresult : c.result = some route := (s.routes.store.get_apply_self c).symm.trans hroute
    exact Or.inl (.pending (Watched.pending_write_new hresult (Change.key_of_result hresult)))
  · refine h.frame (s.routes.store.get_apply_ne hk) rfl ?_ fun _ _ hhand => Or.inr hhand
    exact fun hdue => hdue.transfer id id (fun hpending => hpending.write c) id

theorem covered_elected {routes : List PostgresRoute} (h : s.routes.cache.Lists routes) :
    Covered { s with
      elected := true
      routes := s.routes.discard
      queue := routes.map PostgresRoute.key } key := by
  intro route d hroute _ _
  have hkey : route.key = key := Store.key_of_get hroute
  by_cases hcached : s.routes.cache.get key = some route
  · have hmem : route ∈ routes := (h.mem route).mpr (hkey ▸ hcached)
    exact Or.inl (.queued (hkey ▸ List.mem_map_of_mem hmem))
  · exact Or.inl (.pending (Watched.pending_of_uncached hroute hcached hkey))

theorem Covered.worker (h : s.Covered key) (hroutes : t.routes = s.routes)
    (htable : t.table = s.table) (hqueue : key ∈ s.queue → key ∈ t.queue)
    (hwork : ∀ phase, s.work ≠ some (key, phase)) : t.Covered key := by
  refine h.frame (by rw [hroutes]) (by rw [htable]) ?_ ?_
  · intro hdue
    refine hdue.transfer hqueue ?_ ?_ fun hcase => absurd hcase (hwork _)
    · rw [htable]
      exact id
    · rw [hroutes]
      exact id
  · rintro route d (⟨live, hcase⟩ | ⟨snapshot, d', hcase, -⟩)
    · exact absurd hcase (hwork _)
    · exact absurd hcase (hwork _)

omit [GoFmt] in
theorem Due.finish (h : s.Due key) (hwork : s.work ≠ some (key, .started))
    (key' : NamespacedName) (o : StatusReconcile) : (s.finish key' o).Due key := by
  refine h.transfer (fun hmem => ?_) id id fun hcase => absurd hcase hwork
  simp only [Replica.finish]
  split
  · exact List.mem_insert_of_mem hmem
  · exact hmem

omit [GoFmt] in
theorem due_of_retries (s : Replica Pool) (key : NamespacedName) {o : StatusReconcile}
    (h : o.retries = true) : (s.finish key o).Due key := by
  refine .queued ?_
  simp only [Replica.finish, if_pos h]
  exact List.mem_insert_self

theorem Covered.finish (h : s.Covered key) {o : StatusReconcile} {key' : NamespacedName}
    (hwork : s.work ≠ some (key, .started))
    (hhand : ∀ route d, s.routes.store.get key = some route →
      s.table.store.decision key = some d → s.InHand key route d →
      (s.finish key' o).Due key ∨ Reports route.status route.metadata.generation d) :
    (s.finish key' o).Covered key := by
  intro route d hroute hlive hd
  rcases h route d hroute hlive hd with hcase | hcase | hcase
  · exact Or.inl (hcase.finish hwork key' o)
  · exact (hhand route d hroute hd hcase).imp_right Or.inr
  · exact Or.inr (Or.inr hcase)

theorem Covered.finish_other (h : s.Covered key) {key' : NamespacedName}
    {phase : StatusPhase Pool} (hwork : s.work = some (key', phase)) (hne : key ≠ key')
    (o : StatusReconcile) : (s.finish key' o).Covered key := by
  refine h.worker rfl rfl (fun hmem => ?_) (by simp [hwork, Ne.symm hne])
  simp only [Replica.finish]
  split
  · exact List.mem_insert_of_mem hmem
  · exact hmem

/-- The patch is the one of the decision loaded, and it goes to the object read if that is
still there; what it changes is reported by an event, and what it fails to do is retried. -/
theorem Covered.patched (h : s.Covered key) {route : PostgresRoute} {snapshot : Snapshot Pool}
    {d : Decision} {reply : Reply} {change : Option (Change PostgresRoute.key)}
    {err : Option GoError} {o : StatusReconcile}
    (hwork : s.work = some (key, .loaded route snapshot)) (hd : snapshot.decision key = some d)
    (hconflict : s.routes.store.get key = some route → reply.err.any GoError.isConflict = false)
    (hpatch : client.patch (s.version + 1) s.routes.store reply route
      (desiredStatus setter route d) = (change, err))
    (ho : ∀ e, err = some e → e.isConflict = false → o.retries = true) :
    ((s.writeAny change).finish key o).Covered key := by
  -- the object in hand is the one that was read
  have hread : ∀ {current d'}, s.InHand key current d' →
      current = route ∧ d.report = d'.report := by
    rintro current d' (⟨live, hcase⟩ | ⟨snapshot', d'', hcase, hd'', hreport⟩)
    · rw [hwork] at hcase
      cases hcase
    · rw [hwork] at hcase
      cases hcase
      obtain rfl := Option.some.inj (hd.symm.trans hd'')
      exact ⟨rfl, hreport⟩
  have hstarted : s.work ≠ some (key, .started) := by simp [hwork]
  rcases client.patch_cases hpatch with ⟨-, rfl, e, he, hne⟩ | ⟨f, rfl, rfl, rfl⟩ |
    ⟨current, hcurrent, rfl, ⟨hsame, rfl⟩ | rfl⟩
  · exact .of_due (due_of_retries _ key (ho e he hne))
  · refine Covered.finish h hstarted fun current d' hcurrent _ hhand => Or.inl ?_
    obtain ⟨rfl, -⟩ := hread hhand
    exact due_of_retries _ key (ho f.err rfl (by simpa [Reply.err] using hconflict hcurrent))
  · refine Covered.finish h hstarted fun object d' hobject _ hhand => ?_
    obtain ⟨rfl, hreport⟩ := hread hhand
    cases herr : reply.err with
    | some e =>
      exact Or.inl (due_of_retries _ key (ho e herr (by simpa [herr] using hconflict hobject)))
    | none =>
      obtain rfl : key = object.key := (Store.key_of_get hobject).symm
      obtain rfl := Option.some.inj (hobject.symm.trans hcurrent)
      rw [client.merge_base] at hsame
      refine Or.inr (Reports.of_report ?_ hreport)
      exact hsame ▸ reports_desired setter object d
  · refine Covered.finish (Covered.write h _) hstarted fun object d' hobject _ hhand => Or.inl ?_
    obtain ⟨rfl, -⟩ := hread hhand
    obtain rfl : key = object.key := (Store.key_of_get hobject).symm
    refine Due.finish (s := s.write _) (.pending ?_) hstarted _ o
    have hkey : current.key = object.key := Store.key_of_get hcurrent
    exact Watched.pending_write_new rfl hkey

theorem Covered.table (h : s.Covered key) (helected : s.elected = true)
    (hchannel : b.statusEvents.isSome = true) {action : TableAction Pool}
    {table : RouteTable Pool} (hsmooth : Smooth b s (.table action))
    (hmove : RouteTable.Move b s.routes.cache s.table action table) :
    Covered { s with table } key := by
  have hdue : s.Due key → Due { s with table } key := by
    intro hdue
    refine hdue.transfer id (fun hannounces => hannounces.step hmove ?_) id id
    rintro rfl
    exact hsmooth helected
  cases hmove with
  | @published changed routes st hphase _ hchanged =>
    intro route d hroute hlive hd
    rw [if_pos hchannel] at hchanged
    by_cases hnotifies : notifies s.table.store (RouteTable.snapshot st) key = true
    · have hmem : key ∈ changed := by
        rwa [← List.mem_toFinset, hchanged, mem_changedKeys]
      exact Or.inl (.announced (Or.inr ⟨changed, rfl, hmem⟩))
    · -- the decision reads like the one before
      cases hbefore : s.table.store.decision key with
      | none => exact absurd (by simp [notifies, show _ = some d from hd, hbefore]) hnotifies
      | some before =>
        have hunchanged : decisionChanged before d = false := by
          simpa [notifies, show _ = some d from hd, hbefore] using hnotifies
        have hreport : before.report = d.report := by
          refine report_eq_of_unchanged hunchanged ?_
          have hlegible := hsmooth helected
          rw [hphase] at hlegible
          have hkey : key ∈ s.table.store.decisions.keys :=
            Finmap.mem_keys.mpr (Finmap.mem_iff.mpr ⟨before, hbefore⟩)
          refine hlegible key hkey before hbefore d hd ?_
          simp only [decisionChanged, Bool.or_eq_false_iff, decide_eq_false_iff_not,
            not_not] at hunchanged
          exact hunchanged.2
        rcases h route before hroute hlive hbefore with hcase | hcase | hcase
        · exact Or.inl (hdue hcase)
        · refine Or.inr (Or.inl ?_)
          rcases hcase with hread | ⟨snapshot, d', hloaded, hd', hsame⟩
          · exact Or.inl hread
          · exact Or.inr ⟨snapshot, d', hloaded, hd', hsame.trans hreport⟩
        · exact Or.inr (Or.inr (hcase.of_report hreport))
  | _ => exact h.frame rfl rfl hdue fun _ _ hhand => Or.inr hhand

theorem Covered.step {a : ReplicaAction Pool} (h : s.Covered key) (helected : s.elected = true)
    (hchannel : b.statusEvents.isSome = true) (hsmooth : Smooth b s a)
    (hstep : step b setter client s a = some t) : t.Covered key := by
  cases step_move hstep with
  | @created route =>
    have hput : (s.put route.created).Covered key := Covered.write h _
    exact hput.frame rfl rfl (fun hdue => hdue.transfer id id id id) fun _ _ hhand => Or.inr hhand
  | changed | removed | statusWritten => exact Covered.write h _
  | synced hsync =>
    obtain ⟨-, -, hstore, -⟩ := Watched.sync_eq_some hsync
    refine h.frame (by rw [hstore]) rfl ?_ fun _ _ hhand => Or.inr hhand
    exact fun hdue => hdue.transfer id id (fun hpending => hpending.sync hsync) id
  | noticed =>
    exact h.frame rfl rfl (fun hdue => hdue.transfer id id id id) fun _ _ hhand => Or.inr hhand
  | table htable => exact h.table helected hchannel hsmooth (RouteTable.step_move htable)
  | elected hlists => exact covered_elected hlists
  | routeEvent hnext =>
    obtain ⟨-, hstore, -⟩ := Watched.next_eq_some hnext
    refine h.frame (by rw [hstore]) rfl ?_ fun _ _ hhand => Or.inr hhand
    rintro (hcase | hcase | hcase | hcase)
    · exact .queued (List.mem_union_iff.mpr (Or.inr hcase))
    · exact .announced hcase
    · rcases hcase.next hnext with hevent | hrest
      · exact .queued (List.mem_union_iff.mpr (Or.inl (mem_routeRequests hevent)))
      · exact .pending hrest
    · exact .started hcase
  | statusEvent hevents =>
    refine h.frame rfl rfl ?_ fun _ _ hhand => Or.inr hhand
    rintro (hcase | (hcase | hcase) | hcase | hcase)
    · exact .queued (List.mem_insert_of_mem hcase)
    · rcases List.mem_cons.mp (hevents ▸ hcase) with rfl | hrest
      · exact .queued List.mem_insert_self
      · exact .announced (Or.inl hrest)
    · exact .announced (Or.inr hcase)
    · exact .pending hcase
    · exact .started hcase
  | @taken key' hwork =>
    by_cases hk : key = key'
    · subst hk
      exact .of_due (.started rfl)
    · refine h.worker rfl rfl (fun hmem => ?_) (by simp [hwork])
      exact (List.mem_erase_of_ne hk).mpr hmem
  | @skipped _ key' o hwork ho =>
    by_cases hk : key = key'
    · subst hk
      rcases ho with ho | hcache
      · exact .of_due (due_of_retries s key ho)
      · intro route d hroute hlive _
        refine Or.inl (.pending ?_)
        have huncached := fun hget => Bool.eq_false_iff.mp hlive (hcache route hget)
        exact Watched.pending_of_uncached hroute huncached (Store.key_of_get hroute)
    · exact h.finish_other hwork hk o
  | @read _ key' cached hwork hget live =>
    by_cases hk : key = key'
    · subst hk
      intro route d hroute _ _
      by_cases hsame : cached = route
      · subst hsame
        exact Or.inr (Or.inl (Or.inl ⟨live, rfl⟩))
      · refine Or.inl (.pending ?_)
        refine Watched.pending_of_uncached hroute ?_ (Store.key_of_get hroute)
        exact fun hcached => hsame (Option.some.inj (hget.symm.trans hcached))
    · exact h.worker rfl rfl id (by simp [hwork, Ne.symm hk])
  | @unknown key' _ _ o hwork ho =>
    by_cases hk : key = key'
    · subst hk
      exact .of_due (due_of_retries s key ho)
    · exact h.finish_other hwork hk o
  | @upToDate key' route live d hwork hd heq =>
    by_cases hk : key = key'
    · subst hk
      refine h.finish (by simp [hwork]) fun object d' _ hd' hhand => Or.inr ?_
      rcases hhand with ⟨live', hcase⟩ | ⟨snapshot, d'', hcase, -⟩
      · rw [hwork] at hcase
        cases hcase
        obtain rfl := Option.some.inj (hd.symm.trans hd')
        exact (reports_desired setter route d).of_equalStatus heq
      · rw [hwork] at hcase
        cases hcase
    · exact h.finish_other hwork hk _
  | @loaded key' route live d hwork hd =>
    by_cases hk : key = key'
    · subst hk
      intro object d' hobject hlive hd'
      rcases h object d' hobject hlive hd' with
        hcase | (⟨live', hcase⟩ | ⟨snapshot, d'', hcase, -⟩) | hcase
      · exact Or.inl (hcase.transfer id id id fun hstarted => by simp [hwork] at hstarted)
      · rw [hwork] at hcase
        cases hcase
        exact Or.inr (Or.inl (Or.inr ⟨_, d', rfl, hd', rfl⟩))
      · simp [hwork] at hcase
      · exact Or.inr (Or.inr hcase)
    · exact h.worker rfl rfl id (by simp [hwork, Ne.symm hk])
  | @patched key' _ _ _ _ change _ o hwork hd hconflict hpatch ho =>
    by_cases hk : key = key'
    · subst hk
      exact h.patched hwork hd hconflict hpatch ho
    · cases change with
      | none => exact h.finish_other hwork hk o
      | some c => exact Covered.finish_other (Covered.write h c) hwork hk o

theorem covered_step {a : ReplicaAction Pool} (hchannel : b.statusEvents.isSome = true)
    (h : s.elected = true → ∀ key, s.Covered key) (hsmooth : Smooth b s a)
    (hstep : step b setter client s a = some t) : t.elected = true → ∀ key, t.Covered key := by
  intro helected key
  cases hbefore : s.elected with
  | true => exact (h hbefore key).step hbefore hchannel hsmooth hstep
  | false =>
    have hsame : t.elected = s.elected → t.Covered key := by
      intro heq
      simp [heq, hbefore] at helected
    cases step_move hstep with
    | elected hlists => exact covered_elected hlists
    | @patched _ _ _ _ _ change => cases change <;> exact hsame rfl
    | _ => exact hsame rfl

variable (b) in
structure Built (s : Replica Pool) : Prop where
  alert : s.table.Alert
  tracks : s.table.Tracks s.routes.cache
  documented : s.table.Documented b.clusterDomain

theorem built_start : (start b : Replica Pool).Built b where
  alert := RouteTable.alert_start b
  tracks h := by simp [start, RouteTable.start] at h
  documented := RouteTable.documented_start b

theorem Built.frame (h : s.Built b) (htable : t.table = s.table)
    (hcache : t.routes.cache = s.routes.cache) : t.Built b := by
  refine ⟨htable ▸ h.alert, ?_, htable ▸ h.documented⟩
  rw [htable, hcache]
  exact h.tracks

theorem Built.step {a : ReplicaAction Pool} (h : s.Built b) (hsmooth : Smooth b s a)
    (hstep : step b setter client s a = some t) : t.Built b := by
  cases step_move hstep with
  | synced | noticed =>
    exact ⟨h.alert.cacheChanged _, RouteTable.tracks_cacheChanged _ _ _,
      h.documented.cacheChanged _⟩
  | @table action table htable =>
    have hmove := RouteTable.step_move htable
    have hlist : action ≠ .listFails := by
      rintro rfl
      exact hsmooth
    exact ⟨h.alert.step htable, h.tracks.step hmove hlist, h.documented.step hmove⟩
  | routeEvent hnext => exact h.frame rfl (Watched.next_eq_some hnext).2.2.2
  | statusEvent =>
    exact ⟨⟨h.alert.watching, h.alert.consistent, h.alert.unlisted⟩, h.tracks,
      ⟨h.documented.building, h.documented.inForce, h.documented.sound⟩⟩
  | @patched _ _ _ _ _ change => cases change <;> exact h.frame rfl rfl
  | _ => exact h.frame rfl rfl

theorem Built.decision (h : s.Built b) (hquiet : s.Quiescent) {route : PostgresRoute}
    (hroute : s.routes.store.get key = some route) :
    ∃ d, s.table.store.decision key = some d := by
  have hlisted : s.table.unlisted = false := by
    by_contra hun
    obtain ⟨hinflight, htrigger, htimer⟩ := hquiet.wake
    rcases h.alert.unlisted (by simpa using hun) with (hw | hw | hw) | hw | ⟨rest, hw⟩
    · omega
    · simp [htrigger] at hw
    · exact hw htimer
    · simp [hquiet.rebuild] at hw
    · simp [hquiet.rebuild] at hw
  have htracks := h.tracks hlisted
  simp only [hquiet.rebuild] at htracks
  obtain ⟨p, hp, hstore, hlists⟩ := htracks
  have hsynced : s.routes.cache = s.routes.store := by
    rw [← s.routes.follows, hquiet.routes.1]
    rfl
  have hkey : route.key = key := Store.key_of_get hroute
  subst hkey
  have hmem : route ∈ p.routes := (hlists.mem route).mpr (hsynced ▸ hroute)
  obtain ⟨d, hd, -⟩ := h.documented.sound p hp route hmem
  exact ⟨d, hstore ▸ hd⟩

/-- In every run in which lists succeed, and in which no notification of the elected
replica meets a full channel: when the replica has nothing left to do, every route that is
not being deleted has a decision in the published snapshot, and its status reports it. -/
theorem statuses_converge {actions : List (ReplicaAction Pool)}
    (hchannel : b.statusEvents.isSome = true)
    (hrun : exec (step b setter client) (start b) actions = some s)
    (hsmooth : Always (step b setter client) (Smooth b) (start b) actions)
    (helected : s.elected = true) (hquiet : s.Quiescent) {route : PostgresRoute}
    (hroute : s.routes.store.get key = some route)
    (hlive : route.metadata.beingDeleted = false) :
    ∃ d, s.table.store.decision key = some d ∧
      Reports route.status route.metadata.generation d := by
  have hbuilt : s.Built b := exec_always Built.step built_start hsmooth hrun
  have hcovered : s.elected = true → ∀ key, s.Covered key := by
    refine exec_always (covered_step hchannel) (fun h => ?_) hsmooth hrun
    simp [start] at h
  obtain ⟨d, hd⟩ := hbuilt.decision hquiet hroute
  refine ⟨d, hd, ?_⟩
  rcases hcovered helected key route d hroute hlive hd with
    hdue | (⟨live, hwork⟩ | ⟨_, _, hwork, -⟩) | hreports
  · exact absurd hdue (hquiet.not_due key)
  · simp [hquiet.work] at hwork
  · simp [hquiet.work] at hwork
  · exact hreports

end Convergence

/-! ## A run that converges -/

def clientRoute (name : String) : PostgresRoute where
  metadata := { ns := str "team", name := str name, uid := str name }
  spec := { backend := { type := .service, service := some ⟨str "db", [], .int 5432⟩ } }

/-- The debounced rebuild after a change, up to its publication. -/
def rebuild (routes : List PostgresRoute) (resolver : Resolver Unit)
    (changed : List NamespacedName) : List (ReplicaAction Unit) :=
  [.table .schedule, .table .receive, .table .fire, .table .tick, .table (.list routes)] ++
    routes.map (fun _ => .table (.resolve resolver)) ++
    [.table (.publish changed)] ++ changed.map (fun _ => .table .notify) ++ [.table .rebuilt]

def startup : List (ReplicaAction Unit) :=
  [.table (.register 0), .table (.register 0), .table (.list []), .table (.publish []),
    .table .rebuilt]

def storedRoute (version : Nat) (name : String) : PostgresRoute :=
  commit.stamped version (clientRoute name).created

def reportedRoute (version : Nat) (name : String) : PostgresRoute :=
  commit.stamped (version + 1)
    { storedRoute version name with
      status := @desiredStatus plainQuote frozenSetter (storedRoute version name)
        (@wonDecision Unit plainQuote healthyCluster sampleBuilder.clusterDomain
          (storedRoute version name)) }

def reconcile (key : NamespacedName) : List (ReplicaAction Unit) := [.take key, .get none, .load]

def convergingRun : List (ReplicaAction Unit) :=
  let key := (clientRoute "app").key
  startup ++ [.elect [], .createRoute (clientRoute "app"), .sync, .routeEvent] ++
    rebuild [storedRoute 1 "app"] healthyCluster [key] ++ [.statusEvent] ++
    reconcile key ++ [.patch .done, .sync, .routeEvent] ++
    rebuild [reportedRoute 1 "app"] healthyCluster [] ++ reconcile key

theorem statuses_converge_convergingRun :
    ∃ s, exec (@step Unit plainQuote sampleBuilder frozenSetter sampleClient)
        (start sampleBuilder) convergingRun = some s ∧
      ∃ route, s.routes.store.get (clientRoute "app").key = some route ∧
      ∃ d, s.table.store.decision (clientRoute "app").key = some d ∧
        @Reports plainQuote route.status route.metadata.generation d := by
  have hsmooth : Always (@step Unit plainQuote sampleBuilder frozenSetter sampleClient)
      (Smooth sampleBuilder) (start sampleBuilder) convergingRun := by
    decide +kernel
  obtain ⟨s, hrun, helected, hquiet, route, hroute, hlive⟩ : ∃ s,
      exec (@step Unit plainQuote sampleBuilder frozenSetter sampleClient)
        (start sampleBuilder) convergingRun = some s ∧
      s.elected = true ∧ s.Quiescent ∧
      ∃ route, s.routes.store.get (clientRoute "app").key = some route ∧
        route.metadata.beingDeleted = false :=
    ⟨_, rfl, rfl, ⟨rfl, ⟨rfl, rfl, rfl⟩, rfl, ⟨rfl, rfl⟩, rfl, rfl⟩, _, rfl, rfl⟩
  exact ⟨s, hrun, route, hroute,
    @statuses_converge Unit plainQuote _ _ _ _ _ _ rfl hrun hsmooth helected hquiet _ hroute hlive⟩

/-! ## A run that does not

Nobody receives from the channel of a replica that is not elected, so it fills up, here by
a Service that comes and goes. Right after the election it is still full. -/

theorem exec_statusEvents [GoFmt] (b : RouteTableBuilder) (setter : ConditionSetter)
    (client : StatusClient) (key : NamespacedName) (n : Nat) (s : Replica Pool)
    (helected : s.elected = true) (hevents : s.table.events = List.replicate (n + 1) key) :
    exec (step b setter client) s (List.replicate (n + 1) .statusEvent) =
      some { s with table := { s.table with events := [] }, queue := s.queue.insert key } := by
  induction n generalizing s with
  | zero => simp [exec, step, hevents, helected]
  | succ n ih =>
    rw [List.replicate_succ] at hevents ⊢
    have hfirst : step b setter client s .statusEvent = some { s with
        table := { s.table with events := List.replicate (n + 1) key }
        queue := s.queue.insert key } := by
      simp only [step, hevents, if_pos helected]
    refine exec_cons.mpr ⟨_, hfirst, (ih _ (by exact helected) (by rfl)).trans ?_⟩
    simp

section Overflow

/-- Runs of a replica with a channel for 1024 events. -/
abbrev run (s : Replica Unit) (actions : List (ReplicaAction Unit)) : Option (Replica Unit) :=
  exec (@step Unit plainQuote sampleBuilder frozenSetter sampleClient) s actions

def noisy : NamespacedName := (clientRoute "noisy").key
def quiet : NamespacedName := (clientRoute "quiet").key

def toggle (resolver : Resolver Unit) : List (ReplicaAction Unit) :=
  .notice .service :: rebuild [storedRoute 1 "noisy"] resolver [noisy]

def firstEvents : List (ReplicaAction Unit) :=
  startup ++ [.createRoute (clientRoute "noisy"), .sync] ++
    rebuild [storedRoute 1 "noisy"] emptyCluster [noisy] ++ toggle healthyCluster

/-- The replica between two rebuilds, with the noisy route resolved. -/
def standby (events : List NamespacedName) (published : List (Publication Unit)) :
    Replica Unit where
  routes :=
    let fresh : Replica Unit := start sampleBuilder
    ((fresh.put (storedRoute 1 "noisy")).routes.sync).getD fresh.routes
  uids := [str "noisy"]
  version := 1
  table :=
    { phase := .selecting
      store := RouteTable.snapshot (@buildStep Unit plainQuote healthyCluster
        sampleBuilder.clusterDomain {} (storedRoute 1 "noisy"))
      events
      unlisted := false
      published }

theorem run_firstEvents : ∃ published, run (start sampleBuilder) firstEvents =
    some (standby [noisy, noisy] published) := ⟨_, rfl⟩

def toggles : List (ReplicaAction Unit) := toggle emptyCluster ++ toggle healthyCluster

theorem run_toggles {events : List NamespacedName} (published : List (Publication Unit))
    (h : events.length + 2 ≤ 1024) :
    ∃ published', run (standby events published) toggles =
      some (standby (events ++ [noisy, noisy]) published') := by
  have hroom : ∀ {l : List NamespacedName}, l.length < 1024 →
      RouteTable.notify sampleBuilder l noisy = l ++ [noisy] := fun hl => if_pos hl
  have hevents : events ++ [noisy, noisy] = RouteTable.notify sampleBuilder
      (RouteTable.notify sampleBuilder events noisy) noisy := by
    have hfirst := hroom (by omega : events.length < 1024)
    rw [hfirst, hroom (by rw [List.length_append, List.length_singleton]; omega),
      List.append_assoc]
    rfl
  rw [hevents]
  exact ⟨_, rfl⟩

theorem run_fill (n : Nat) {events : List NamespacedName} (published : List (Publication Unit))
    (h : events.length + 2 * n ≤ 1024) :
    ∃ published', run (standby events published) (List.replicate n toggles).flatten =
      some (standby (events ++ List.replicate (2 * n) noisy) published') := by
  induction n generalizing events published with
  | zero => exact ⟨published, by simp [run, exec]⟩
  | succ n ih =>
    obtain ⟨published₁, h₁⟩ := run_toggles published (by omega : events.length + 2 ≤ 1024)
    have hlength : (events ++ [noisy, noisy]).length + 2 * n ≤ 1024 := by
      rw [List.length_append]
      simp only [List.length_cons, List.length_nil]
      omega
    obtain ⟨published₂, h₂⟩ := ih published₁ hlength
    rw [List.append_assoc] at h₂
    exact ⟨published₂, exec_trans h₁ h₂⟩

/-- The noisy route is deleted and another one created, which no notification announces;
the replica is elected and reports it; then its Service goes away. -/
def takeover : List (ReplicaAction Unit) :=
  [.deleteRoute noisy, .createRoute (clientRoute "quiet"), .sync, .sync, .table .schedule] ++
    rebuild [storedRoute 3 "quiet"] healthyCluster [quiet] ++
    [.elect [storedRoute 3 "quiet"]] ++ reconcile quiet ++ [.patch .done, .sync, .routeEvent] ++
    reconcile quiet ++ [.notice .service, .table .schedule] ++
    rebuild [reportedRoute 3 "quiet"] emptyCluster [quiet]

/-- All is done but for the events in the channel, and the status of the quiet route shows
an endpoint that its decision does not have. -/
structure LeftBehind (s : Replica Unit) : Prop where
  elected : s.elected = true
  done : Quiescent { s with table := { s.table with events := [] } }
  gone : s.routes.cache.get noisy = none
  stale : ∃ route d, s.routes.store.get quiet = some route ∧
    route.metadata.deletionTimestamp = none ∧ s.table.store.decision quiet = some d ∧
    route.status.endpoint ≠ if d.accepted then d.endpoint else []

theorem run_takeover {events : List NamespacedName} (published : List (Publication Unit))
    (h : events.length = 1024) :
    ∃ t, run (standby events published) takeover = some t ∧ t.table.events = events ∧
      t.LeftBehind := by
  have hfull : RouteTable.notify sampleBuilder events quiet = events :=
    if_neg (by simp [h, sampleBuilder])
  obtain ⟨t, ht, hevents, hleft⟩ : ∃ t, run (standby events published) takeover = some t ∧
      t.table.events = RouteTable.notify sampleBuilder
        (RouteTable.notify sampleBuilder events quiet) quiet ∧ t.LeftBehind :=
    ⟨_, rfl, rfl, rfl, ⟨rfl, ⟨rfl, rfl, rfl⟩, rfl, ⟨rfl, rfl⟩, rfl, rfl⟩, rfl,
      reportedRoute 3 "quiet", @wonDecision Unit plainQuote emptyCluster
        sampleBuilder.clusterDomain (reportedRoute 3 "quiet"), rfl, rfl, rfl, by decide⟩
  refine ⟨t, ht, ?_, hleft⟩
  rw [hevents, hfull, hfull]

theorem LeftBehind.receive {s : Replica Unit} (h : s.LeftBehind)
    (hevents : s.table.events = List.replicate 1024 noisy) :
    run s (List.replicate 1024 .statusEvent ++ [.take noisy, .get none]) =
      some { s with table := { s.table with events := [] } } := by
  refine exec_trans (@exec_statusEvents Unit plainQuote _ _ _ noisy 1023 s h.elected hevents) ?_
  have hqueue : s.queue = [] := h.done.queue
  have hwork : s.work = none := h.done.work
  simp [exec, step, hqueue, hwork, h.gone, StatusClient.get, getStored, finish, reconcileStatus,
    StatusReconcile.retries, GoError.isNotFound, GoError.apiReason]

def overflowRun : List (ReplicaAction Unit) :=
  firstEvents ++ (List.replicate 511 toggles).flatten ++ takeover ++
    (List.replicate 1024 .statusEvent ++ [.take noisy, .get none])

/-- The notification of the quiet route meets a full channel. The channel then holds events
of another route only, and once they are received there is nothing left to do. -/
theorem dropped_notification_is_lost :
    ∃ s, exec (@step Unit plainQuote sampleBuilder frozenSetter sampleClient)
        (start sampleBuilder) overflowRun = some s ∧
      s.elected = true ∧ s.Quiescent ∧
      ∃ route d, s.routes.store.get quiet = some route ∧
        route.metadata.deletionTimestamp = none ∧ s.table.store.decision quiet = some d ∧
        ¬ @Reports plainQuote route.status route.metadata.generation d := by
  obtain ⟨published₀, h₀⟩ := run_firstEvents
  have hroom : [noisy, noisy].length + 2 * 511 ≤ 1024 := by decide
  obtain ⟨published₁, h₁⟩ := run_fill 511 published₀ hroom
  have hevents : [noisy, noisy] ++ List.replicate (2 * 511) noisy = List.replicate 1024 noisy := rfl
  rw [hevents] at h₁
  obtain ⟨t, ht, htevents, hleft⟩ := run_takeover published₁ (List.length_replicate)
  refine ⟨_, exec_trans (exec_trans (exec_trans h₀ h₁) ht) (hleft.receive htevents),
    hleft.elected, hleft.done, ?_⟩
  obtain ⟨route, d, hroute, hlive, hd, hstale⟩ := hleft.stale
  refine ⟨route, d, hroute, hlive, hd, fun hreports => hstale ?_⟩
  exact @Reports.endpoint plainQuote _ _ _ hreports

end Overflow

end Replica
end PgProxy
