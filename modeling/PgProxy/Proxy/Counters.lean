import PgProxy.Proxy.ByteAccounting
import PgProxy.Proxy.Gauges

/-!
# The counters

`serve` and `handle` count a connection at their exits, and the two loops of a relay feed the
byte counter when they end. The uses of one connection are picked out of a run, and what they
add up to is compared with what happened to the connection.
-/

namespace PgProxy
set_option autoImplicit false

namespace Proxy
open Pgwire

variable {Pool : Type}

def usesOf (i : Nat) (uses : List (Nat × MetricUse)) : List MetricUse :=
  uses.filterMap fun (j, use) => if j = i then some use else none

theorem usesOf_append (i j : Nat) (uses : List (Nat × MetricUse)) (new : List MetricUse) :
    usesOf i (uses ++ new.map (j, ·)) = usesOf i uses ++ if j = i then new else [] := by
  rw [usesOf, List.filterMap_append, ← usesOf, List.filterMap_map]
  refine congrArg _ ?_
  split
  · rename_i hij
    simp [hij]
  · rename_i hij
    simp [hij]

def HasAccount (P : Connection Pool → List MetricUse → Prop) (m : Metered Pool) (i : Nat) : Prop :=
  ∃ c, m.server.conns[i]? = some c ∧ P c (usesOf i m.uses)

/-- A connection that has not been accepted has used nothing. -/
def Account (P : Connection Pool → List MetricUse → Prop) (m : Metered Pool) (i : Nat) : Prop :=
  HasAccount P m i ∨ m.server.conns.length ≤ i ∧ usesOf i m.uses = []

section Accounts
variable {P : Connection Pool → List MetricUse → Prop} {m m' : Metered Pool} {i : Nat}

theorem Account.start (P : Connection Pool → List MetricUse → Prop) (i : Nat) :
    Account P ({} : Metered Pool) i :=
  Or.inr ⟨Nat.zero_le i, rfl⟩

theorem Account.of_conn {c : Connection Pool} (h : Account P m i)
    (hc : m.server.conns[i]? = some c) : P c (usesOf i m.uses) := by
  rcases h with ⟨c', hc', haccount⟩ | ⟨hi, -⟩
  · obtain rfl : c' = c := by rwa [hc, Option.some.injEq, eq_comm] at hc'
    exact haccount
  · have hlt := (List.getElem?_eq_some_iff.mp hc).1
    omega

section Steps
variable [GoFmt] {cfg : Config} {action : ServerAction Pool}

theorem HasAccount.step
    (hmoves : ∀ {c c' sh sh' a events uses}, P c uses → ConnMove cfg sh c a c' sh' events →
      ∀ label, P c' (uses ++ c.uses cfg sh label a))
    (h : HasAccount P m i) (hstep : m.step cfg action = some m') : HasAccount P m' i := by
  obtain ⟨c, hc, haccount⟩ := h
  have hi := (List.getElem?_eq_some_iff.mp hc).1
  rcases Metered.step_cases hstep with ⟨client, rfl, rfl⟩ |
    ⟨j, a, d, d', shared, events, rfl, hd, hmove, rfl⟩
  · exact ⟨c, by rw [List.getElem?_append_left hi]; exact hc, haccount⟩
  · rw [HasAccount, usesOf_append]
    by_cases hij : j = i
    · subst hij
      obtain rfl : d = c := by rwa [hc, Option.some.injEq, eq_comm] at hd
      rw [if_pos rfl, List.getElem?_set_self hi]
      exact ⟨d', rfl, hmoves haccount hmove (m.labels j)⟩
    · rw [if_neg hij, List.append_nil, List.getElem?_set_ne hij]
      exact ⟨c, hc, haccount⟩

theorem Account.step (hnew : ∀ client, P { input := client } [])
    (hmoves : ∀ {c c' sh sh' a events uses}, P c uses → ConnMove cfg sh c a c' sh' events →
      ∀ label, P c' (uses ++ c.uses cfg sh label a))
    (h : Account P m i) (hstep : m.step cfg action = some m') : Account P m' i := by
  rcases h with haccount | ⟨hi, hnone⟩
  · exact Or.inl (haccount.step hmoves hstep)
  · rcases Metered.step_cases hstep with ⟨client, rfl, rfl⟩ |
      ⟨j, a, c, c', shared, events, rfl, hc, hmove, rfl⟩
    · rcases Nat.eq_or_lt_of_le hi with rfl | hlt
      · exact Or.inl ⟨_, List.getElem?_concat_length, by rw [hnone]; exact hnew client⟩
      · exact Or.inr ⟨by rw [List.length_append]; exact hlt, hnone⟩
    · have hj := (List.getElem?_eq_some_iff.mp hc).1
      refine Or.inr ⟨by rw [List.length_set]; exact hi, ?_⟩
      rw [usesOf_append, if_neg (by omega), List.append_nil]
      exact hnone

end Steps

end Accounts

/-! ## Outcomes -/

def Effect.counted : Effect Pool → Option (GoString × GoString)
  | .connection database outcome => some (database, outcome)
  | _ => none

def MetricUse.counted : MetricUse → Option (GoString × GoString)
  | .connectionsTotal database outcome => some (database, outcome)
  | _ => none

/-- What a connection was counted as. -/
def counts (uses : List MetricUse) : List (GoString × GoString) :=
  uses.filterMap MetricUse.counted

/-- What a connection that gets to `handle` is to be counted as: nothing if it hangs up, asks
for a cancellation, or if a deadline cannot be set. -/
def outcomeOf [GoFmt] (tls : Option ServerTLS) (table : Table Pool) (env : HandleEnv Pool)
    (raw : Input) : Option (GoString × GoString) :=
  if env.setDeadline.isSome then none
  else
    match (negotiate tls env raw).2 with
    | .error e => if isBenignClose e then none else some (unrouted, outcomeHandshake)
    | .ok (_, startup) =>
      if startup.isCancelRequest then none
      else
        match requestedDatabase startup with
        | none => some (unrouted, outcomeHandshake)
        | some database =>
          match table.lookup database with
          | none => some (unrouted, outcomeNoRoute)
          | some route =>
            if (dialBackend env.network route).conn.toOption.isNone ∨ env.forward.err.isSome then
              some (database, outcomeBackendFailed)
            else if env.clearClientDeadline.isSome ∨ env.clearBackendDeadline.isSome then none
            else some (database, outcomeProxied)

theorem negotiate_counted [GoFmt] (tls : Option ServerTLS) (env : HandleEnv Pool) (raw : Input) :
    (negotiate tls env raw).1.filterMap Effect.counted = [] := by
  rw [List.filterMap_eq_nil_iff]
  intro effect heffect
  obtain ⟨b, rfl⟩ := negotiateLoop_effects _ _ effect heffect
  rfl

theorem dialEffects_counted (route : Route Pool) (dialled : Dialled Pool) :
    (dialEffects route dialled).filterMap Effect.counted = [] := by
  rw [List.filterMap_eq_nil_iff]
  intro effect heffect
  rcases mem_dialEffects heffect with rfl | ⟨b, rfl⟩ <;> rfl

theorem handle_counted [GoFmt] (tls : Option ServerTLS) (table : Table Pool)
    (env : HandleEnv Pool) (raw : Input) :
    (handle tls table env raw).1.filterMap Effect.counted =
      (outcomeOf tls table env raw).toList := by
  have hquiet := negotiate_counted tls env raw
  unfold handle outcomeOf
  cases hdeadline : env.setDeadline with
  | some e => rfl
  | none =>
    simp only [Option.isSome_none, Bool.false_eq_true, if_false]
    obtain ⟨effects, result, hnego⟩ : ∃ effects result, negotiate tls env raw = (effects, result) :=
      ⟨_, _, rfl⟩
    rw [hnego] at hquiet
    cases result with
    | error e =>
      simp only [hnego, List.filterMap_append, hquiet, List.nil_append]
      split <;> rfl
    | ok x =>
      obtain ⟨client, startup⟩ := x
      simp only [hnego, List.filterMap_append, hquiet, List.nil_append, handleStartup]
      split
      · rfl
      · cases requestedDatabase startup with
        | none => rfl
        | some database =>
          dsimp only
          cases table.lookup database with
          | none => rfl
          | some route =>
            dsimp only
            cases hdial : (dialBackend env.network route).conn with
            | error e =>
              simp only [List.filterMap_append, dialEffects_counted, List.nil_append]
              rfl
            | ok backend =>
              simp only [List.filterMap_append, dialEffects_counted, List.nil_append,
                forwardStartup]
              cases env.forward.err with
              | some e => rfl
              | none =>
                cases env.clearClientDeadline with
                | some e => rfl
                | none => cases env.clearBackendDeadline <;> rfl

theorem counts_metricUses (effects : List (Effect Pool)) :
    counts (metricUses effects) = effects.filterMap Effect.counted := by
  rw [counts, metricUses, List.filterMap_filterMap]
  apply List.filterMap_congr
  intro effect _
  cases effect <;> rfl

theorem Relay.uses_counts [GoFmt] (r r' : Relay Pool) (label : GoString) (action : RelayAction) :
    counts (r.uses label r' action) = [] := by
  by_cases hfinish : action = .finish
  · subst hfinish
    rfl
  · rw [counts, List.filterMap_eq_nil_iff]
    intro use huse
    obtain ⟨d, direction, n, rfl⟩ := Relay.uses_bytes hfinish label use huse
    rfl

/-- What has been counted is what the effects of the connection say. -/
def CountedAsSeen (c : Connection Pool) (uses : List MetricUse) : Prop :=
  counts uses = c.effects.filterMap Effect.counted

section Counts
variable [GoFmt] {cfg : Config} {sh sh' : Shared Pool} {c c' : Connection Pool}
variable {a : ConnAction Pool} {events : List (CancelEvent Pool)} {uses : List MetricUse}

theorem CountedAsSeen.move (h : CountedAsSeen c uses) (hmove : ConnMove cfg sh c a c' sh' events)
    (label : GoString) : CountedAsSeen c' (uses ++ c.uses cfg sh label a) := by
  rw [CountedAsSeen, counts, List.filterMap_append, ← counts, h]
  cases hmove with
  | admitted hstage hslot => simp [Connection.uses, hslot]
  | rejected hstage hslot =>
    simp only [Connection.uses, hslot, List.filterMap_append]
    exact congrArg _ (counts_metricUses _)
  | handled hstage =>
    simp only [Connection.uses, List.filterMap_append]
    exact congrArg _ (counts_metricUses _)
  | @relayed action route relay relay' cancels hstage hrelay =>
    have hquiet := relay.uses_counts relay' label action
    rw [counts] at hquiet
    simp only [Connection.uses, hstage, hrelay, hquiet, List.append_nil, Connection.afterRelay]
    cases relay'.result <;> simp [Effect.counted]
  | lookedUp | forwarded | slotReleased | untracked => exact List.append_nil _

end Counts

theorem Metered.run_server [GoFmt] {cfg : Config} {m : Metered Pool}
    {actions : List (ServerAction Pool)} (hrun : exec (Metered.step cfg) {} actions = some m) :
    exec (Server.step cfg) {} actions = some m.server := by
  have herase := exec_erase (Metered.step_server cfg) ({} : Metered Pool) actions
  rwa [hrun, Option.map_some, eq_comm] at herase

/-- In every run, every connection is counted at most once: as rejected when there is no slot
for it, and otherwise as `handle` decides from the table it was given. -/
theorem connections_are_counted_once [GoFmt] {cfg : Config} {m : Metered Pool}
    {actions : List (ServerAction Pool)} (hrun : exec (Metered.step cfg) {} actions = some m)
    {i : Nat} {c : Connection Pool} (hc : m.server.conns[i]? = some c) :
    (handlings i actions = [] ∧ c.stage.Waiting ∧ counts (usesOf i m.uses) = []) ∨
    (handlings i actions = [] ∧ (c.stage = .leaving ∨ c.stage = .closed) ∧
      counts (usesOf i m.uses) = [(unrouted, outcomeRejected)]) ∨
    ∃ env table, handlings i actions = [(env, table)] ∧
      counts (usesOf i m.uses) = (outcomeOf cfg.tls table env c.input).toList := by
  have haccount : Account CountedAsSeen m i :=
    exec_invariant (Account.step (fun _ => rfl) fun h hmove => h.move hmove)
      (Account.start _ i) hrun
  have hcounts : counts (usesOf i m.uses) = c.effects.filterMap Effect.counted :=
    haccount.of_conn hc
  rw [hcounts]
  have hserver : exec (Server.step cfg) {} actions = some m.server :=
    Metered.run_server hrun
  cases (Server.stories hserver).story hc with
  | waiting hpast hrelay hkeys heffects hstage =>
    exact Or.inl ⟨hpast, hstage, by rw [heffects]; rfl⟩
  | rejected hpast hkeys heffects hstage =>
    exact Or.inr (Or.inl ⟨hpast, hstage, by rw [heffects]; rfl⟩)
  | @returned env table err hpast hkeys hhandle hstage =>
    refine Or.inr (Or.inr ⟨env, table, hpast, ?_⟩)
    rw [← handle_counted, hhandle]
  | @cancelled env table request hpast hkeys hhandle hstage =>
    refine Or.inr (Or.inr ⟨env, table, hpast, ?_⟩)
    rw [← handle_counted, hhandle]
  | @session env table client backend route label run relay hpast hhandle =>
    refine Or.inr (Or.inr ⟨env, table, hpast, ?_⟩)
    rw [← handle_counted, hhandle]
  | @ended env table effects client backend route label run relay err hpast hhandle hactions hrun
      hkeys hresult heffects =>
    refine Or.inr (Or.inr ⟨env, table, hpast, ?_⟩)
    rw [← handle_counted, hhandle, heffects, List.filterMap_append]
    exact List.append_nil _

theorem connections_are_counted_once_proxied :
    ∃ m c, exec (@Metered.step Unit plainQuote {}) {} sessionsRun = some m ∧
      m.server.conns[1]? = some c ∧ ∃ env table, handlings 1 sessionsRun = [(env, table)] ∧
        counts (usesOf 1 m.uses) = (@outcomeOf Unit plainQuote none table env c.input).toList := by
  obtain ⟨m, c, hrun, hc⟩ : ∃ m c,
      exec (@Metered.step Unit plainQuote {}) {} sessionsRun = some m ∧
      m.server.conns[1]? = some c := ⟨_, _, rfl, rfl⟩
  refine ⟨m, c, hrun, hc, ?_⟩
  rcases @connections_are_counted_once Unit plainQuote _ _ _ hrun _ _ hc with
    ⟨hnone, -⟩ | ⟨hnone, -⟩ | hcounted
  · simp [sessionsRun, handlings, openSession, closeSession, readFrame] at hnone
  · simp [sessionsRun, handlings, openSession, closeSession, readFrame] at hnone
  · exact hcounted

/-! ## Bytes -/

theorem fedBytes_append (direction : GoString) (uses uses' : List MetricUse) :
    fedBytes direction (uses ++ uses') = fedBytes direction uses + fedBytes direction uses' := by
  induction uses with
  | nil => simp [fedBytes]
  | cons use uses ih =>
    cases use with
    | bytesTotal database d n => simp only [List.cons_append, fedBytes, ih, Nat.add_assoc]
    | _ => exact ih

theorem fedBytes_metricUses (direction : GoString) (effects : List (Effect Pool)) :
    fedBytes direction (metricUses effects) = 0 := by
  induction effects with
  | nil => rfl
  | cons effect effects ih =>
    cases effect <;> exact ih

/-- The counter is where the relay says it is, and a relay that has not begun has fed it
nothing. -/
def FedAsRelayed (c : Connection Pool) (uses : List MetricUse) : Prop :=
  match c.stage with
  | .tracked | .admitted =>
    fedBytes directionToBackend uses = 0 ∧ fedBytes directionToClient uses = 0
  | .relaying _ relay =>
    fedBytes directionToBackend uses = relay.up.bytesTotal ∧
      fedBytes directionToClient uses = relay.down.bytesTotal
  | _ => True

structure Relay.Spent (r : Relay Pool) : Prop where
  up : r.up.result.isSome
  down : r.down.phase = .exiting ∨ r.down.phase = .returned

/-- Both loops have ended, or the whole session has. -/
def Stage.Spent : Stage Pool → Prop
  | .relaying _ relay => relay.Spent
  | .handled _ | .leaving | .closed => True
  | _ => False

/-- The counter stands at these sums, and nothing is left to feed it. -/
structure FedInAll (toBackend toClient : Nat) (c : Connection Pool) (uses : List MetricUse) :
    Prop where
  toBackend : fedBytes directionToBackend uses = toBackend
  toClient : fedBytes directionToClient uses = toClient
  spent : c.stage.Spent

section Bytes
variable [GoFmt] {cfg : Config} {sh sh' : Shared Pool} {c c' : Connection Pool}
variable {a : ConnAction Pool} {events : List (CancelEvent Pool)} {uses : List MetricUse}
variable {route : Route Pool} {r r' : Relay Pool} {cancels cancels' : CancelRegistry Pool}
variable {action : RelayAction}

omit [GoFmt] in
theorem Counted.le_sent {stream : Bytes} {writes : Nat → WriteOutcome} {round : Nat}
    {d : Downstream Pool} (h : Counted stream writes round d) :
    d.bytesTotal ≤ d.toClient.length := by
  cases hphase : d.phase with
  | framing =>
    have hnone := (h.framing hphase).uncounted
    omega
  | splicing =>
    have hframed := h.splicing hphase
    omega
  | exiting | returned =>
    have hended := h.ended (by simp [hphase])
    omega

theorem Relay.Spent.step (h : r.Spent)
    (hstep : r.step route cancels action = some (r', cancels')) :
    r'.Spent ∧ r'.up = r.up ∧ r'.down.bytesTotal = r.down.bytesTotal := by
  have hframing : r.down.phase ≠ .framing := by rcases h.down with hp | hp <;> simp [hp]
  have hsplicing : r.down.phase ≠ .splicing := by rcases h.down with hp | hp <;> simp [hp]
  cases action with
  | up w => simp [Relay.step, Upstream.step, h.up] at hstep
  | frame w draws => simp [Relay.step, hframing] at hstep
  | splice w => simp [Relay.step, hsplicing] at hstep
  | release =>
    simp only [Relay.step, Option.ite_none_right_eq_some, Option.some.injEq,
      Prod.mk.injEq] at hstep
    obtain ⟨-, rfl, -⟩ := hstep
    exact ⟨⟨h.up, Or.inr rfl⟩, rfl, rfl⟩
  | closeClient | finish =>
    simp only [Relay.step, Option.ite_none_right_eq_some, Option.some.injEq,
      Prod.mk.injEq] at hstep
    obtain ⟨-, rfl, -⟩ := hstep
    exact ⟨⟨h.up, h.down⟩, rfl, rfl⟩

theorem FedAsRelayed.move (h : FedAsRelayed c uses) (hmove : ConnMove cfg sh c a c' sh' events)
    (label : GoString) : FedAsRelayed c' (uses ++ c.uses cfg sh label a) := by
  cases hmove with
  | admitted hstage hslot =>
    simp only [FedAsRelayed, hstage] at h
    simpa only [FedAsRelayed, Connection.uses, hslot, List.append_nil] using h
  | rejected | forwarded | lookedUp | slotReleased | untracked => trivial
  | @handled env table hstage =>
    simp only [FedAsRelayed, hstage] at h
    simp only [FedAsRelayed, Connection.uses, fedBytes_append, fedBytes_metricUses, Nat.add_zero]
    cases (handle cfg.tls table env c.input).2 with
    | returned err => trivial
    | cancel request => trivial
    | relay client backend route label =>
      exact h
  | @relayed action route relay relay' cancels hstage hrelay =>
    simp only [FedAsRelayed, hstage] at h
    obtain ⟨hup, hdown⟩ := h
    obtain ⟨hfedUp, hfedDown⟩ := Relay.uses_fed hrelay label
    simp only [Connection.uses, hstage, hrelay, Connection.afterRelay]
    cases relay'.result with
    | some err => trivial
    | none =>
      refine ⟨?_, ?_⟩
      · rw [fedBytes_append, hup, hfedUp]
      · rw [fedBytes_append, hdown, hfedDown]

theorem FedInAll.move {toBackend toClient : Nat} (h : FedInAll toBackend toClient c uses)
    (hmove : ConnMove cfg sh c a c' sh' events) (label : GoString) :
    FedInAll toBackend toClient c' (uses ++ c.uses cfg sh label a) := by
  have hspent := h.spent
  cases hmove with
  | admitted hstage | rejected hstage | handled hstage | forwarded hstage | lookedUp hstage =>
    rw [hstage] at hspent
    exact hspent.elim
  | slotReleased hstage | untracked hstage =>
    rw [Connection.uses, List.append_nil]
    exact ⟨h.toBackend, h.toClient, trivial⟩
  | @relayed action route relay relay' cancels hstage hrelay =>
    rw [hstage] at hspent
    obtain ⟨hspent', hup, hdown⟩ := Relay.Spent.step hspent hrelay
    obtain ⟨hfedUp, hfedDown⟩ := Relay.uses_fed hrelay label
    rw [hup] at hfedUp
    rw [hdown] at hfedDown
    simp only [Connection.uses, hstage, hrelay]
    refine ⟨?_, ?_, ?_⟩
    · rw [fedBytes_append, h.toBackend]
      omega
    · rw [fedBytes_append, h.toClient]
      omega
    · simp only [Connection.afterRelay]
      cases relay'.result with
      | some err => trivial
      | none => exact hspent'

end Bytes

/-! ## The count of one relay -/

/-- The outcomes of the writes of the framed loop, in order. -/
def framedWrites (actions : List RelayAction) : List WriteOutcome :=
  actions.filterMap fun
    | .frame w _ => some w
    | _ => none

/-- The outcome of the write in each round of the framed loop. -/
def writesOf (actions : List RelayAction) (round : Nat) : WriteOutcome :=
  (framedWrites actions).getD round .full

/-- The count of a relay agrees with every continuation of the writes made so far. -/
def CountedSoFar (stream : Bytes) (past : List (RelayAction × CancelRegistry Pool))
    (r : Relay Pool) : Prop :=
  ∀ writes, (∀ i w, (framedWrites (past.map Prod.fst))[i]? = some w → writes i = w) →
    Counted stream writes (framedWrites (past.map Prod.fst)).length r.down

section Run
variable [GoFmt] {stream : Bytes} {route : Route Pool} {r r' : Relay Pool}
variable {past : List (RelayAction × CancelRegistry Pool)}

omit [GoFmt] in
theorem framedWrites_snoc (past : List (RelayAction × CancelRegistry Pool))
    (a : RelayAction × CancelRegistry Pool) : framedWrites ((past ++ [a]).map Prod.fst) =
      framedWrites (past.map Prod.fst) ++ framedWrites [a.1] := by
  rw [List.map_append, framedWrites, List.filterMap_append]
  rfl

theorem CountedSoFar.step {a : RelayAction × CancelRegistry Pool}
    (h : CountedSoFar stream past r) (hstep : r.stepIn route a = some r') :
    CountedSoFar stream (past ++ [a]) r' := by
  intro writes hagree
  obtain ⟨action, cancels⟩ := a
  rw [framedWrites_snoc] at hagree ⊢
  have hcounted := h writes fun i w hi => hagree i w (by
    rwa [List.getElem?_append_left (List.getElem?_eq_some_iff.mp hi).1])
  obtain ⟨⟨relay, cancels'⟩, hrelay, rfl⟩ := Option.map_eq_some_iff.mp hstep
  dsimp only at hrelay
  cases action with
  | up w =>
    simp only [Relay.step, Option.map_eq_some_iff, Prod.mk.injEq] at hrelay
    obtain ⟨up, -, rfl, -⟩ := hrelay
    simpa [framedWrites] using hcounted
  | frame w draws =>
    simp only [Relay.step, Option.ite_none_right_eq_some, Option.map_eq_some_iff,
      Prod.mk.injEq] at hrelay
    obtain ⟨hphase, ⟨down, cancels₁, draws₁⟩, hround, rfl, -⟩ := hrelay
    obtain rfl := hagree _ w (List.getElem?_concat_length)
    rw [List.length_append]
    exact hcounted.frame hphase hround
  | splice w =>
    simp only [Relay.step, Option.ite_none_right_eq_some, Option.some.injEq,
      Prod.mk.injEq] at hrelay
    obtain ⟨hphase, rfl, -⟩ := hrelay
    simpa [framedWrites] using hcounted.splice hphase
  | release =>
    simp only [Relay.step, Option.ite_none_right_eq_some, Option.some.injEq,
      Prod.mk.injEq] at hrelay
    obtain ⟨hphase, rfl, -⟩ := hrelay
    simpa [framedWrites] using hcounted.release hphase cancels
  | closeClient | finish =>
    simp only [Relay.step, Option.ite_none_right_eq_some, Option.some.injEq,
      Prod.mk.injEq] at hrelay
    obtain ⟨-, rfl, -⟩ := hrelay
    simpa [framedWrites] using hcounted

theorem Relay.counted {client backend : Input} {relay : Relay Pool}
    (hrun : exec (Relay.stepIn route) (Relay.start client backend) past = some relay) :
    ∃ rounds, Counted backend.stream (writesOf (past.map Prod.fst)) rounds relay.down := by
  have hstart : CountedSoFar backend.stream [] (Relay.start client backend : Relay Pool) :=
    fun writes _ => Counted.start backend writes
  have hcounted := exec_history CountedSoFar.step hstart hrun
  refine ⟨_, hcounted _ fun i w hi => ?_⟩
  rw [List.nil_append] at hi
  simp [writesOf, hi]

end Run

theorem Metered.relaying_counted [GoFmt] {cfg : Config} {m : Metered Pool}
    {actions : List (ServerAction Pool)} (hrun : exec (Metered.step cfg) {} actions = some m)
    {i : Nat} {c : Connection Pool} (hc : m.server.conns[i]? = some c) {route : Route Pool}
    {relay : Relay Pool} (hstage : c.stage = .relaying route relay) :
    ∃ env table client backend label, handlings i actions = [(env, table)] ∧
      (handle cfg.tls table env c.input).2 = .relay client backend route label ∧
      ∃ rounds, Counted backend.input.stream (writesOf (relayings i actions)) rounds
        relay.down := by
  cases (Server.stories (Metered.run_server hrun)).story hc with
  | session hpast hhandle hactions hexec _ hstage' =>
    obtain ⟨rfl, rfl⟩ := Stage.relaying.inj (hstage.symm.trans hstage')
    exact ⟨_, _, _, _, _, hpast, congrArg Prod.snd hhandle, hactions ▸ Relay.counted hexec⟩
  | waiting _ _ _ _ hwaiting => rcases hwaiting with h | h <;> simp [hstage] at h
  | rejected _ _ _ hleft => rcases hleft with h | h <;> simp [hstage] at h
  | returned _ _ _ hafter => rcases hafter with h | h | h <;> simp [hstage] at h
  | cancelled _ _ _ hafter =>
    rcases hafter with h | ⟨entry, h⟩ | h | h | h <;> simp [hstage] at h
  | ended _ _ _ _ _ _ _ hafter => rcases hafter with h | h | h <;> simp [hstage] at h

/-- In every run, the byte counter never runs ahead of what a session has carried. Once both of
its loops have ended, the bytes counted for it are those that reached the backend and those that
reached the client, and nothing that happens later changes that. Only a session that comes to a
BackendKeyData message which cannot be decoded has none of the latter counted. -/
theorem byte_counters_settle [GoFmt] {cfg : Config} {m m' : Metered Pool}
    {actions more : List (ServerAction Pool)} (hrun : exec (Metered.step cfg) {} actions = some m)
    {i : Nat} {c : Connection Pool} (hc : m.server.conns[i]? = some c) {route : Route Pool}
    {relay : Relay Pool} (hstage : c.stage = .relaying route relay) :
    fedBytes directionToBackend (usesOf i m.uses) ≤ relay.up.copied.length ∧
    fedBytes directionToClient (usesOf i m.uses) ≤ relay.down.toClient.length ∧
    ∃ env table client backend label, handlings i actions = [(env, table)] ∧
      (handle cfg.tls table env c.input).2 = .relay client backend route label ∧
      (relay.Spent → exec (Metered.step cfg) m more = some m' →
        fedBytes directionToBackend (usesOf i m'.uses) = relay.up.copied.length ∧
        (RejectsKey (writesOf (relayings i actions)) 0 backend.input.stream →
          fedBytes directionToClient (usesOf i m'.uses) = 0) ∧
        (¬ RejectsKey (writesOf (relayings i actions)) 0 backend.input.stream →
          fedBytes directionToClient (usesOf i m'.uses) = relay.down.toClient.length)) := by
  have haccount : Account FedAsRelayed m i :=
    exec_invariant (Account.step (fun _ => ⟨rfl, rfl⟩) fun h hmove => h.move hmove)
      (Account.start _ i) hrun
  have hfed := haccount.of_conn hc
  simp only [FedAsRelayed, hstage] at hfed
  obtain ⟨hup, hdown⟩ := hfed
  -- the session is a run of its own relay, whose writes decide about the key
  obtain ⟨env, table, client, backend, label, hhandled, hnext, rounds, hcounted⟩ :=
    Metered.relaying_counted hrun hc hstage
  refine ⟨?_, ?_, env, table, client, backend, label, hhandled, hnext, ?_⟩
  · rw [hup, Upstream.bytesTotal]
    split <;> omega
  · rw [hdown]
    exact hcounted.le_sent
  · intro hspent hlater
    have hsettled : HasAccount (FedInAll relay.up.bytesTotal relay.down.bytesTotal) m i :=
      ⟨c, hc, hup, hdown, by rw [hstage]; exact hspent⟩
    obtain ⟨c', -, hlast⟩ := exec_invariant (HasAccount.step fun h hmove => h.move hmove)
      hsettled hlater
    rw [hlast.toBackend, hlast.toClient, Upstream.bytesTotal, if_pos hspent.up]
    refine ⟨rfl, fun hkey => ?_, fun hkey => ?_⟩
    · rcases hcounted.ended hspent.down with ⟨hnot, -⟩ | ⟨-, hnone, -⟩
      · exact absurd hkey hnot
      · exact hnone
    · rcases hcounted.ended hspent.down with ⟨-, hall⟩ | ⟨hrejects, -⟩
      · exact hall
      · exact absurd hrejects hkey

/-- The client sends one byte, and takes four of the backend's key. -/
def shortSession : List (ServerAction Unit) :=
  openSession 0 (encodeBackendKeyData (sampleKey 7)) ++
    [.conn 0 (.relay (.frame (.short 4 (.sentinel .netClosed)) [sampleDraw 1])),
      .conn 0 (.relay (.up .full)), .conn 0 (.relay (.up .full))]

def shortSessionEnd : List (ServerAction Unit) :=
  [.conn 0 (.relay .release), .conn 0 (.relay .closeClient), .conn 0 (.relay .finish),
    .conn 0 .releaseSlot, .conn 0 .untrack]

theorem byte_counters_settle_short :
    ∃ m m', exec (@Metered.step Unit plainQuote {}) {} shortSession = some m ∧
      exec (@Metered.step Unit plainQuote {}) m shortSessionEnd = some m' ∧
      fedBytes directionToBackend (usesOf 0 m'.uses) = 1 ∧
      fedBytes directionToClient (usesOf 0 m'.uses) = 4 ∧
      ∃ backend : BackendConn Unit,
        ¬ RejectsKey (writesOf (relayings 0 shortSession)) 0 backend.input.stream := by
  obtain ⟨m, m', c, route, relay, hrun, hlater, hc, hstage, hup, hdown, hcopied, hfed⟩ :
      ∃ m m' c route relay,
      exec (@Metered.step Unit plainQuote {}) {} shortSession = some m ∧
      exec (@Metered.step Unit plainQuote {}) m shortSessionEnd = some m' ∧
      m.server.conns[0]? = some c ∧ c.stage = .relaying route relay ∧
      relay.up.result.isSome ∧ relay.down.phase = .exiting ∧ relay.up.copied.length = 1 ∧
      fedBytes directionToClient (usesOf 0 m'.uses) = 4 :=
    ⟨_, _, _, _, _, rfl, rfl, rfl, rfl, rfl, rfl, rfl, rfl⟩
  obtain ⟨-, -, env, table, client, backend, label, -, -, hsettled⟩ :=
    @byte_counters_settle Unit plainQuote _ _ m' _ shortSessionEnd hrun _ _ hc _ _ hstage
  obtain ⟨hback, hkey, -⟩ := hsettled ⟨hup, Or.inl hdown⟩ hlater
  refine ⟨m, m', hrun, hlater, hback.trans hcopied, hfed, backend, fun hrejects => ?_⟩
  rw [hkey hrejects] at hfed
  exact absurd hfed (by decide)

end Proxy
end PgProxy
