import PgProxy.Lib.Tally
import PgProxy.Proxy.Progress
import PgProxy.Proxy.Sessions

/-!
# The gauge of active connections

The gauge of active connections goes up when `handle` puts a session through and down in its
deferred function, which observes the duration of the session as well. Over a whole run they
agree with the sessions themselves.
-/

namespace PgProxy
set_option autoImplicit false

namespace Proxy
open Pgwire

variable {Pool : Type}

def MetricUse.activeDelta (database : GoString) : MetricUse → Int
  | .activeConnections d delta => if d = database then delta else 0
  | _ => 0

/-- The gauge of active connections after these uses. -/
def activeGauge (database : GoString) : List MetricUse → Int
  | [] => 0
  | use :: uses => use.activeDelta database + activeGauge database uses

theorem activeGauge_append (database : GoString) (uses uses' : List MetricUse) :
    activeGauge database (uses ++ uses') =
      activeGauge database uses + activeGauge database uses' := by
  induction uses with
  | nil => simp [activeGauge]
  | cons use uses ih => rw [List.cons_append, activeGauge, activeGauge, ih, Int.add_assoc]

def Stage.isRelaying : Stage Pool → Bool
  | .relaying _ _ => true
  | _ => false

/-- One for a session on this database, zero for anything else. -/
def Connection.session (database label : GoString) (c : Connection Pool) : Nat :=
  if c.stage.isRelaying ∧ label = database then 1 else 0

def Metered.sessions (m : Metered Pool) (database : GoString) : Nat :=
  tally (fun i => m.server.conns[i]?.elim 0 (Connection.session database (m.labels i)))
    m.server.conns.length

def Next.session (database : GoString) : Next Pool → Nat
  | .relay _ _ _ label => if label = database then 1 else 0
  | _ => 0

/-- The uses put so many sessions on this database through, and end as many as there are
durations in them. -/
structure Gauged (database : GoString) (uses : List MetricUse) (before after : Nat) : Prop where
  gauge : activeGauge database uses + before = after
  proxied : uses.count (.connectionsTotal database outcomeProxied) + before =
    after + uses.count (.sessionDuration database)

theorem Gauged.refl (database : GoString) (n : Nat) : Gauged database [] n n :=
  ⟨by simp [activeGauge], by simp⟩

theorem Gauged.of_bytes {database : GoString} {uses : List MetricUse}
    (h : ∀ use ∈ uses, ∃ d direction n, use = .bytesTotal d direction n) (n : Nat) :
    Gauged database uses n n := by
  induction uses with
  | nil => exact Gauged.refl database n
  | cons use uses ih =>
    obtain ⟨d, direction, k, rfl⟩ := h use List.mem_cons_self
    have hrest := ih fun use huse => h use (List.mem_cons_of_mem _ huse)
    exact ⟨by simpa [activeGauge, MetricUse.activeDelta] using hrest.gauge,
      by simpa using hrest.proxied⟩

theorem Gauged.failed {outcome : GoString} (h : outcome ≠ outcomeProxied)
    (database label : GoString) : Gauged database [.connectionsTotal label outcome] 0 0 :=
  ⟨by simp [activeGauge, MetricUse.activeDelta], by simp [h]⟩

theorem Gauged.proxiedSession (database label : GoString) :
    Gauged database [.connectionsTotal label outcomeProxied, .activeConnections label 1] 0
      (if label = database then 1 else 0) := by
  by_cases hlabel : label = database
  · subst hlabel
    exact ⟨by simp [activeGauge, MetricUse.activeDelta], by simp⟩
  · exact ⟨by simp [activeGauge, MetricUse.activeDelta, hlabel], by simp [hlabel]⟩

theorem Gauged.ended (database label : GoString) :
    Gauged database [.activeConnections label (-1), .sessionDuration label]
      (if label = database then 1 else 0) 0 := by
  by_cases hlabel : label = database
  · subst hlabel
    exact ⟨by simp [activeGauge, MetricUse.activeDelta], by simp⟩
  · exact ⟨by simp [activeGauge, MetricUse.activeDelta, hlabel], by simp [hlabel]⟩

theorem metricUses_append (xs ys : List (Effect Pool)) :
    metricUses (xs ++ ys) = metricUses xs ++ metricUses ys := List.filterMap_append

theorem negotiate_metricUses [GoFmt] (tls : Option ServerTLS) (env : HandleEnv Pool) (raw : Input) :
    metricUses (negotiate tls env raw).1 = [] := by
  rw [metricUses, List.filterMap_eq_nil_iff]
  intro effect heffect
  obtain ⟨b, rfl⟩ := negotiateLoop_effects _ _ effect heffect
  rfl

theorem dialEffects_metricUses (route : Route Pool) (dialled : Dialled Pool) :
    metricUses (dialEffects route dialled) =
      if dialled.observed then [.backendDialDuration route.database] else [] := by
  unfold dialEffects
  split <;> split <;> simp [metricUses, Effect.metricUse]

section Handle
variable [GoFmt] {tls : Option ServerTLS} {table : Table Pool} {env : HandleEnv Pool}

theorem StartupMove.gauged {client : Conn} {startup : StartupPacket}
    {effects : List (Effect Pool)} {next : Next Pool}
    (h : StartupMove table env client startup effects next) (database : GoString) :
    Gauged database (metricUses effects) 0 (next.session database) := by
  have hdial : ∀ (route : Route Pool) dialled (uses : List MetricUse) after,
      Gauged database uses 0 after →
      Gauged database (metricUses (dialEffects route dialled) ++ uses) 0 after := by
    intro route dialled uses after h
    rw [dialEffects_metricUses]
    split
    · refine ⟨?_, ?_⟩
      · simpa [activeGauge, MetricUse.activeDelta] using h.gauge
      · simpa using h.proxied
    · exact h
  cases h with
  | cancel => exact Gauged.refl database 0
  | nameless => exact .failed (by decide : outcomeHandshake ≠ outcomeProxied) database unrouted
  | noRoute => exact .failed (by decide : outcomeNoRoute ≠ outcomeProxied) database unrouted
  | @unreachable label =>
    rw [metricUses_append]
    apply hdial
    exact .failed (by decide : outcomeBackendFailed ≠ outcomeProxied) database label
  | @cut label =>
    rw [metricUses_append]
    apply hdial
    exact .failed (by decide : outcomeBackendFailed ≠ outcomeProxied) database label
  | stalled =>
    rw [metricUses_append]
    apply hdial
    exact Gauged.refl database 0
  | @proxied label =>
    rw [metricUses_append]
    apply hdial
    exact .proxiedSession database label

theorem handle_gauged (raw : Input) (database : GoString) :
    Gauged database (metricUses (handle tls table env raw).1) 0
      ((handle tls table env raw).2.session database) := by
  have hquiet := negotiate_metricUses tls env raw
  have hmove := handle_move tls table env raw
  generalize (handle tls table env raw).1 = effects, (handle tls table env raw).2 = next at hmove ⊢
  cases hmove with
  | undated => exact Gauged.refl database 0
  | refused hnego =>
    rw [hnego] at hquiet
    rw [metricUses_append, hquiet, List.nil_append]
    split
    · exact Gauged.refl database 0
    · exact .failed (by decide : outcomeHandshake ≠ outcomeProxied) database unrouted
  | started hnego hstartup =>
    rw [hnego] at hquiet
    rw [metricUses_append, hquiet, List.nil_append]
    exact hstartup.gauged database

end Handle

section Moves
variable [GoFmt] {cfg : Config} {sh sh' : Shared Pool} {c c' : Connection Pool}
variable {a : ConnAction Pool} {events : List (CancelEvent Pool)}

theorem Relay.step_result {route : Route Pool} {r r' : Relay Pool} {action : RelayAction}
    {cancels cancels' : CancelRegistry Pool} (hrunning : r.result = none)
    (h : r.step route cancels action = some (r', cancels')) :
    r'.result.isSome = true ↔ action = .finish := by
  cases action with
  | up w =>
    simp only [Relay.step, Option.map_eq_some_iff, Prod.mk.injEq] at h
    obtain ⟨up, -, rfl, -⟩ := h
    simp [hrunning]
  | frame w draws =>
    simp only [Relay.step, Option.ite_none_right_eq_some, Option.map_eq_some_iff,
      Prod.mk.injEq] at h
    obtain ⟨-, x, -, rfl, -⟩ := h
    simp [hrunning]
  | splice w | release | closeClient =>
    simp only [Relay.step, Option.ite_none_right_eq_some, Option.some.injEq,
      Prod.mk.injEq] at h
    obtain ⟨-, rfl, -⟩ := h
    simp [hrunning]
  | finish =>
    simp only [Relay.step, Option.ite_none_right_eq_some, Option.some.injEq,
      Prod.mk.injEq] at h
    obtain ⟨-, rfl, -⟩ := h
    simp

theorem Relay.uses_bytes {r r' : Relay Pool} {action : RelayAction} (hfinish : action ≠ .finish)
    (label : GoString) :
    ∀ use ∈ r.uses label r' action, ∃ d direction n, use = .bytesTotal d direction n := by
  intro use huse
  cases action with
  | up w =>
    unfold Relay.uses at huse
    dsimp only at huse
    split at huse
    · exact ⟨_, _, _, List.mem_singleton.mp huse⟩
    · simp at huse
  | frame w draws =>
    simp only [Relay.uses, Downstream.frameUses] at huse
    split at huse
    · exact ⟨_, _, _, List.mem_singleton.mp huse⟩
    · split at huse
      · simp at huse
      · split at huse
        · simp at huse
        · exact ⟨_, _, _, List.mem_singleton.mp huse⟩
  | splice w =>
    unfold Relay.uses at huse
    dsimp only at huse
    split at huse
    · exact ⟨_, _, _, List.mem_singleton.mp huse⟩
    · simp at huse
  | release | closeClient => simp [Relay.uses] at huse
  | finish => exact absurd rfl hfinish

omit [GoFmt] in
theorem Connection.session_of_idle (h : c.stage.isRelaying = false) (database label : GoString) :
    c.session database label = 0 := by
  simp [Connection.session, h]

theorem ConnMove.gauged (h : ConnMove cfg sh c a c' sh' events)
    (hrunning : ∀ {route relay}, c.stage = .relaying route relay → relay.Running)
    (database label : GoString) :
    Gauged database (c.uses cfg sh label a) (c.session database label)
      (c'.session database (c.labelAfter cfg label a)) := by
  cases h with
  | admitted hstage hslot =>
    rw [Connection.session_of_idle (by rw [hstage]; rfl), Connection.session_of_idle rfl,
      Connection.uses, hslot]
    exact Gauged.refl database 0
  | rejected hstage hslot =>
    rw [Connection.session_of_idle (by rw [hstage]; rfl), Connection.session_of_idle rfl,
      Connection.uses, hslot]
    exact .failed (by decide : outcomeRejected ≠ outcomeProxied) database unrouted
  | @handled env table hstage =>
    rw [Connection.session_of_idle (by rw [hstage]; rfl)]
    have hafter : Connection.session database (c.labelAfter cfg label (.handle env table))
        { c with
          stage := (handle cfg.tls table env c.input).2.stage
          effects := c.effects ++ (handle cfg.tls table env c.input).1 } =
        (handle cfg.tls table env c.input).2.session database := by
      cases hnext : (handle cfg.tls table env c.input).2 <;>
        simp [Connection.session, Connection.labelAfter, hnext, Next.stage, Stage.isRelaying,
          Next.session]
    rw [hafter]
    exact handle_gauged c.input database
  | @relayed action route relay relay' cancels hstage hrelay =>
    have hresult := Relay.step_result (hrunning hstage).running hrelay
    have hbefore : c.session database label = if label = database then 1 else 0 := by
      simp [Connection.session, hstage, Stage.isRelaying]
    simp only [Connection.uses, hstage, hrelay, hbefore, Connection.labelAfter]
    by_cases hfinish : action = .finish
    · subst hfinish
      obtain ⟨err, herr⟩ := Option.isSome_iff_exists.mp (hresult.mpr rfl)
      simp only [Connection.afterRelay, herr]
      rw [Connection.session_of_idle rfl]
      exact .ended database label
    · have hnone : relay'.result = none := by simpa [hfinish] using hresult
      simp only [Connection.afterRelay, hnone, Connection.session, Stage.isRelaying, true_and]
      exact .of_bytes (Relay.uses_bytes hfinish label) _
  | lookedUp hstage | forwarded hstage | slotReleased hstage | untracked hstage =>
    rw [Connection.session_of_idle (by rw [hstage]; rfl), Connection.session_of_idle rfl]
    exact Gauged.refl database 0

end Moves

/-- The metrics agree with the sessions of the server. -/
structure Balanced (m : Metered Pool) : Prop where
  relays : EveryRelay (fun _ relay => relay.Running) m.server
  gauged : ∀ database, Gauged database (m.uses.map Prod.snd) 0 (m.sessions database)

theorem Balanced.start : Balanced ({} : Metered Pool) :=
  ⟨fun hc => by simp at hc, fun database => Gauged.refl database 0⟩

theorem Gauged.append {database : GoString} {uses uses' : List MetricUse} {n k l : Nat}
    (h : Gauged database uses n k) (h' : Gauged database uses' k l) :
    Gauged database (uses ++ uses') n l := by
  have hgauge := h.gauge
  have hgauge' := h'.gauge
  have hproxied := h.proxied
  have hproxied' := h'.proxied
  refine ⟨?_, ?_⟩
  · rw [activeGauge_append]
    omega
  · rw [List.count_append, List.count_append]
    omega

theorem Gauged.frame {database : GoString} {uses : List MetricUse} {n k n' k' : Nat}
    (h : Gauged database uses n k) (hsum : k' + n = n' + k) : Gauged database uses n' k' := by
  have hgauge := h.gauge
  have hproxied := h.proxied
  exact ⟨by omega, by omega⟩

theorem Metered.sessions_accept (m : Metered Pool) (client : Input) (database : GoString) :
    Metered.sessions { m with server := { m.server with
      conns := m.server.conns ++ [{ input := client }] } } database = m.sessions database := by
  simp only [Metered.sessions, List.length_append, List.length_singleton, tally]
  have hnew : (m.server.conns ++ [{ input := client }])[m.server.conns.length]?.elim 0
      (Connection.session database (m.labels m.server.conns.length)) = 0 := by
    rw [List.getElem?_concat_length, Option.elim_some, Connection.session_of_idle rfl]
  rw [hnew, Nat.add_zero]
  apply tally_congr
  intro i hi
  rw [List.getElem?_append_left hi]

section Runs
variable [GoFmt] {cfg : Config} {m m' : Metered Pool}

theorem Balanced.step {action : ServerAction Pool} (h : Balanced m)
    (hstep : m.step cfg action = some m') : Balanced m' := by
  have hserver : m.server.step cfg action = some m'.server := by
    rw [← Metered.step_server, hstep, Option.map_some]
  refine ⟨EveryRelay.step (fun _ => Relay.Running.start) Relay.Running.step h.relays hserver, ?_⟩
  intro database
  have hbefore := h.gauged database
  rcases Metered.step_cases hstep with ⟨client, rfl, rfl⟩ |
    ⟨i, a, c, c', shared, events, rfl, hc, hmove, rfl⟩
  · rw [Metered.sessions_accept]
    exact hbefore
  · rw [List.map_append, List.map_map]
    apply hbefore.append
    have huses : (c.uses cfg m.server.shared (m.labels i) a).map (Prod.snd ∘ (i, ·)) =
        c.uses cfg m.server.shared (m.labels i) a := List.map_id _
    rw [huses]
    apply (hmove.gauged (h.relays hc) database (m.labels i)).frame
    -- the sum changes by the summand of the connection that acted
    have hi := (List.getElem?_eq_some_iff.mp hc).1
    have hreplace := tally_replace
      (f := fun j => m.server.conns[j]?.elim 0 (Connection.session database (m.labels j)))
      (g := fun j => (m.server.conns.set i c')[j]?.elim 0 (Connection.session database
        (Function.update m.labels i (c.labelAfter cfg (m.labels i) a) j)))
      hi fun j _ hj => by rw [List.getElem?_set_ne (Ne.symm hj), Function.update_of_ne hj]
    simpa [Metered.sessions, hc, List.getElem?_set_self hi] using hreplace

variable {actions : List (ServerAction Pool)}

/-- In every run of the metered gateway and for every database: the gauge of active connections
is the number of sessions that are being relayed for it, and the counter of connections put
through is that number and the number of session durations observed. -/
theorem active_gauge_counts_sessions (hrun : exec (Metered.step cfg) {} actions = some m)
    (database : GoString) :
    activeGauge database (m.uses.map Prod.snd) = m.sessions database ∧
    (m.uses.map Prod.snd).count (.connectionsTotal database outcomeProxied) =
      m.sessions database + (m.uses.map Prod.snd).count (.sessionDuration database) := by
  have h : Balanced m := exec_invariant Balanced.step Balanced.start hrun
  exact ⟨by simpa using (h.gauged database).gauge, by simpa using (h.gauged database).proxied⟩

end Runs

/-- One session is over, and another one is being relayed. -/
def sessionsRun : List (ServerAction Unit) :=
  openSession 0 [] ++ [readFrame 0 []] ++ closeSession 0 ++ openSession 1 []

theorem active_gauge_counts_sessions_two :
    ∃ m, exec (@Metered.step Unit plainQuote {}) {} sessionsRun = some m ∧
      activeGauge (str "app") (m.uses.map Prod.snd) = 1 ∧
      (m.uses.map Prod.snd).count (.connectionsTotal (str "app") outcomeProxied) =
        1 + (m.uses.map Prod.snd).count (.sessionDuration (str "app")) := by
  obtain ⟨m, hrun, hsessions⟩ : ∃ m,
      exec (@Metered.step Unit plainQuote {}) {} sessionsRun = some m ∧
      m.sessions (str "app") = 1 := ⟨_, rfl, rfl⟩
  obtain ⟨hgauge, hproxied⟩ :=
    @active_gauge_counts_sessions Unit plainQuote _ _ _ hrun (str "app")
  rw [hsessions] at hgauge hproxied
  exact ⟨m, hrun, hgauge, hproxied⟩

end Proxy
end PgProxy
