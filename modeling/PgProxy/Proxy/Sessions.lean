import PgProxy.Proxy.BackendStream
import PgProxy.Proxy.ClientStream
import PgProxy.Proxy.KeySecrecy
import PgProxy.Proxy.MetricLabels

/-!
# Every session is a run of its own relay

The connections of the gateway share the slots and the registry, and their actions
interleave. What became of one of them is still told by its own part of the run: it waits, or
it was turned away, or `handle` saw it once, and if that put it through then the rest is a
run of one relay, which meets the registry as the others have left it. So bytes never pass
from one session to another, whatever writes fail and wherever sessions end.
-/

namespace PgProxy
set_option autoImplicit false

namespace Proxy
open Pgwire

variable {Pool : Type}

/-! ## The story of a connection -/

/-- What the relay of connection `i` did. -/
def relayings (i : Nat) (actions : List (ServerAction Pool)) : List RelayAction :=
  actions.filterMap fun
    | .conn j (.relay action) => if j = i then some action else none
    | _ => none

/-- The keys issued for connection `i`, in order. -/
def keysOf (i : Nat) (journal : List (Nat × CancelEvent Pool)) :
    List (CancelRequest × CancelEntry Pool) :=
  journal.filterMap fun
    | (j, .issued key entry) => if j = i then some (key, entry) else none
    | _ => none

def Stage.After (err : Option GoError) (stage : Stage Pool) : Prop :=
  stage = .handled err ∨ stage = .leaving ∨ stage = .closed

/-- What became of connection `i`, for which `keys` were issued. -/
inductive Story [GoFmt] (cfg : Config) (past : List (ServerAction Pool)) (i : Nat)
    (keys : List (CancelRequest × CancelEntry Pool)) (c : Connection Pool) : Prop
  | waiting (hpast : handlings i past = []) (hrelay : relayings i past = []) (hkeys : keys = [])
      (heffects : c.effects = []) (hstage : c.stage.Waiting)
  /-- no slot was free -/
  | rejected {fatal : WriteOutcome} (hpast : handlings i past = []) (hkeys : keys = [])
      (heffects : c.effects = rejection cfg fatal) (hstage : c.stage = .leaving ∨ c.stage = .closed)
  | returned {env : HandleEnv Pool} {table : Table Pool} {err : Option GoError}
      (hpast : handlings i past = [(env, table)]) (hkeys : keys = [])
      (hhandle : handle cfg.tls table env c.input = (c.effects, .returned err))
      (hstage : c.stage.After err)
  | cancelled {env : HandleEnv Pool} {table : Table Pool} {request : CancelRequest}
      (hpast : handlings i past = [(env, table)]) (hkeys : keys = [])
      (hhandle : handle cfg.tls table env c.input = (c.effects, .cancel request))
      (hstage : c.stage = .looking request ∨ (∃ entry, c.stage = .forwarding request entry) ∨
        c.stage.After none)
  | session {env : HandleEnv Pool} {table : Table Pool} {client : Conn}
      {backend : BackendConn Pool} {route : Route Pool} {label : GoString}
      {run : List (RelayAction × CancelRegistry Pool)} {relay : Relay Pool}
      (hpast : handlings i past = [(env, table)])
      (hhandle : handle cfg.tls table env c.input = (c.effects, .relay client backend route label))
      (hactions : run.map Prod.fst = relayings i past)
      (hrun : exec (Relay.stepIn route) (Relay.start client.input backend.input) run = some relay)
      (hkeys : keys = relay.down.minted) (hstage : c.stage = .relaying route relay)
  | ended {env : HandleEnv Pool} {table : Table Pool} {effects : List (Effect Pool)}
      {client : Conn} {backend : BackendConn Pool} {route : Route Pool} {label : GoString}
      {run : List (RelayAction × CancelRegistry Pool)} {relay : Relay Pool} {err : Option GoError}
      (hpast : handlings i past = [(env, table)])
      (hhandle : handle cfg.tls table env c.input = (effects, .relay client backend route label))
      (hactions : run.map Prod.fst = relayings i past)
      (hrun : exec (Relay.stepIn route) (Relay.start client.input backend.input) run = some relay)
      (hkeys : keys = relay.down.minted) (hresult : relay.result = some err)
      (heffects : c.effects = effects ++ [.client relay.down.toClient])
      (hstage : c.stage.After err)

theorem relayings_append (i : Nat) (past : List (ServerAction Pool)) (action : ServerAction Pool) :
    relayings i (past ++ [action]) = relayings i past ++ relayings i [action] :=
  List.filterMap_append

theorem relayings_other {i j : Nat} (h : j ≠ i) (a : ConnAction Pool) :
    relayings i [.conn j a] = [] := by
  cases a <;> simp [relayings, h]

theorem keysOf_append (i j : Nat) (journal : List (Nat × CancelEvent Pool))
    (events : List (CancelEvent Pool)) : keysOf i (journal ++ events.map (j, ·)) =
      keysOf i journal ++ if j = i then keysOf i (events.map (i, ·)) else [] := by
  rw [keysOf, List.filterMap_append]
  refine congrArg _ ?_
  split
  · rename_i hij
    rw [hij, keysOf]
  · rename_i hij
    rw [List.filterMap_map, List.filterMap_eq_nil_iff]
    intro event _
    cases event <;> simp [hij]

theorem keysOf_relayEvents (i : Nat) (before after : Downstream Pool) :
    keysOf i ((relayEvents before after).map (i, ·)) = after.minted.drop before.minted.length := by
  have hissued : ∀ minted : List (CancelRequest × CancelEntry Pool),
      keysOf i ((minted.map fun x => CancelEvent.issued x.1 x.2).map (i, ·)) = minted := by
    intro minted
    simp [keysOf, Function.comp_def]
  have hreleased : ∀ keys : List CancelRequest,
      keysOf i ((keys.map (CancelEvent.released : CancelRequest → CancelEvent Pool)).map (i, ·)) =
        [] := by
    intro keys
    simp [keysOf]
  rw [relayEvents, List.map_append, keysOf, List.filterMap_append, ← keysOf, ← keysOf, hissued]
  split
  · rw [hreleased, List.append_nil]
  · exact List.append_nil _

theorem keysOf_forward (i : Nat) (key : CancelRequest) (f : CancelForward Pool) :
    keysOf i ((f.events key).map (i, ·)) = [] := by
  simp [keysOf, CancelForward.events]

section Moves
variable [GoFmt] {cfg : Config} {past : List (ServerAction Pool)} {i : Nat}
variable {keys : List (CancelRequest × CancelEntry Pool)}

theorem Story.mono {c : Connection Pool} {action : ServerAction Pool}
    (h : Story cfg past i keys c) (hother : handlings i [action] = [])
    (hidle : relayings i [action] = []) : Story cfg (past ++ [action]) i keys c := by
  have hsame : handlings i (past ++ [action]) = handlings i past := by
    rw [handlings_append, hother, List.append_nil]
  have hsame' : relayings i (past ++ [action]) = relayings i past := by
    rw [relayings_append, hidle, List.append_nil]
  cases h with
  | waiting hpast hrelay hkeys heffects hstage =>
    exact .waiting (hsame.trans hpast) (hsame'.trans hrelay) hkeys heffects hstage
  | rejected hpast hkeys heffects hstage =>
    exact .rejected (hsame.trans hpast) hkeys heffects hstage
  | returned hpast hkeys hhandle hstage =>
    exact .returned (hsame.trans hpast) hkeys hhandle hstage
  | cancelled hpast hkeys hhandle hstage =>
    exact .cancelled (hsame.trans hpast) hkeys hhandle hstage
  | session hpast hhandle hactions hrun hkeys hstage =>
    exact .session (hsame.trans hpast) hhandle (hactions.trans hsame'.symm) hrun hkeys hstage
  | ended hpast hhandle hactions hrun hkeys hresult heffects hstage =>
    exact .ended (hsame.trans hpast) hhandle (hactions.trans hsame'.symm) hrun hkeys hresult
      heffects hstage

variable {sh sh' : Shared Pool} {c c' : Connection Pool} {a : ConnAction Pool}
variable {events : List (CancelEvent Pool)}

theorem Story.of_waiting (h : Story cfg past i keys c) (hstage : c.stage.Waiting) :
    handlings i past = [] ∧ relayings i past = [] ∧ keys = [] ∧ c.effects = [] := by
  have hnot : ∀ {err}, ¬ c.stage.After err := by
    rcases hstage with hstage | hstage <;> simp [Stage.After, hstage]
  cases h with
  | waiting hpast hrelay hkeys heffects => exact ⟨hpast, hrelay, hkeys, heffects⟩
  | rejected _ _ _ hover => exact absurd (Or.inr hover) (@hnot none)
  | returned _ _ _ hover | ended _ _ _ _ _ _ _ hover => exact absurd hover hnot
  | cancelled _ _ _ hcancel =>
    rcases hcancel with hlooking | ⟨entry, hforwarding⟩ | hover
    · rcases hstage with hstage | hstage <;> simp [hstage] at hlooking
    · rcases hstage with hstage | hstage <;> simp [hstage] at hforwarding
    · exact absurd hover hnot
  | session _ _ _ _ _ hrelaying => rcases hstage with hstage | hstage <;> simp [hstage] at hrelaying

theorem Story.of_cancel {request : CancelRequest} (h : Story cfg past i keys c)
    (hstage : c.stage = .looking request ∨ ∃ entry, c.stage = .forwarding request entry) :
    ∃ env table, handlings i past = [(env, table)] ∧ keys = [] ∧
      handle cfg.tls table env c.input = (c.effects, .cancel request) := by
  have hnot : ∀ {err}, ¬ c.stage.After err := by
    rcases hstage with hstage | ⟨entry, hstage⟩ <;> simp [Stage.After, hstage]
  cases h with
  | waiting _ _ _ _ hwaiting =>
    rcases hstage with hstage | ⟨entry, hstage⟩ <;> simp [Stage.Waiting, hstage] at hwaiting
  | rejected _ _ _ hover => exact absurd (Or.inr hover) (@hnot none)
  | returned _ _ _ hover | ended _ _ _ _ _ _ _ hover => exact absurd hover hnot
  | @cancelled env table request' hpast hkeys hhandle hcancel =>
    obtain rfl : request = request' := by
      rcases hcancel with hlooking | ⟨entry', hforwarding⟩ | hover
      · rcases hstage with hstage | ⟨entry, hstage⟩ <;> simp_all
      · rcases hstage with hstage | ⟨entry, hstage⟩ <;> simp_all
      · exact absurd hover hnot
    exact ⟨env, table, hpast, hkeys, hhandle⟩
  | session _ _ _ _ _ hrelaying =>
    rcases hstage with hstage | ⟨entry, hstage⟩ <;> simp [hstage] at hrelaying

theorem Story.after {stage : Stage Pool} (h : Story cfg past i keys c)
    (hstage : (∃ err, c.stage = .handled err) ∨ c.stage = .leaving)
    (hafter : stage = .leaving ∨ stage = .closed) : Story cfg past i keys { c with stage } := by
  have hnext : ∀ {err}, stage.After err := Or.inr hafter
  cases h with
  | waiting _ _ _ _ hwaiting =>
    rcases hstage with ⟨err, hstage⟩ | hstage <;> simp [Stage.Waiting, hstage] at hwaiting
  | rejected hpast hkeys heffects => exact .rejected hpast hkeys heffects hafter
  | returned hpast hkeys hhandle => exact .returned hpast hkeys hhandle hnext
  | cancelled hpast hkeys hhandle => exact .cancelled hpast hkeys hhandle (Or.inr (Or.inr hnext))
  | session _ _ _ _ _ hrelaying =>
    rcases hstage with ⟨err, hstage⟩ | hstage <;> simp [hrelaying] at hstage
  | ended hpast hhandle hactions hrun hkeys hresult heffects =>
    exact .ended hpast hhandle hactions hrun hkeys hresult heffects hnext

theorem Story.handled {env : HandleEnv Pool} {table : Table Pool}
    (hpast : handlings i past = [(env, table)]) (hrelay : relayings i past = [])
    (hkeys : keys = []) (heffects : c.effects = []) :
    Story cfg past i keys { c with
      stage := (handle cfg.tls table env c.input).2.stage
      effects := c.effects ++ (handle cfg.tls table env c.input).1 } := by
  rw [heffects, List.nil_append]
  cases hnext : (handle cfg.tls table env c.input).2 with
  | returned err => exact .returned hpast hkeys (Prod.ext rfl hnext) (Or.inl rfl)
  | cancel request => exact .cancelled hpast hkeys (Prod.ext rfl hnext) (Or.inl rfl)
  | relay client backend route label =>
    have hactions : ([] : List (RelayAction × CancelRegistry Pool)).map Prod.fst =
        relayings i past := hrelay.symm
    exact .session hpast (Prod.ext rfl hnext) hactions rfl hkeys rfl

theorem Relay.step_minted {route : Route Pool} {r r' : Relay Pool} {action : RelayAction}
    {cancels cancels' : CancelRegistry Pool}
    (h : r.step route cancels action = some (r', cancels')) :
    r'.down.minted = r.down.minted ++ r'.down.minted.drop r.down.minted.length := by
  cases Relay.step_registryMove h with
  | none _ hminted | release _ hminted => simp [hminted]
  | issue _ _ _ _ hminted => simp [hminted]

theorem Story.relayed {route : Route Pool} {relay relay' : Relay Pool} {action : RelayAction}
    {cancels cancels' : CancelRegistry Pool} (h : Story cfg past i keys c)
    (hstage : c.stage = .relaying route relay)
    (hrelay : relay.step route cancels action = some (relay', cancels')) :
    Story cfg (past ++ [.conn i (.relay action)]) i
      (keys ++ relay'.down.minted.drop relay.down.minted.length) (c.afterRelay route relay') := by
  have hnot : ∀ {err}, ¬ c.stage.After err := by simp [Stage.After, hstage]
  cases h with
  | waiting _ _ _ _ hwaiting => simp [Stage.Waiting, hstage] at hwaiting
  | rejected _ _ _ hover => exact absurd (Or.inr hover) (@hnot none)
  | returned _ _ _ hover | ended _ _ _ _ _ _ _ hover => exact absurd hover hnot
  | cancelled _ _ _ hcancel => simp [hstage, Stage.After] at hcancel
  | @session env table client backend route' label run relay₀ hpast hhandle hactions hrun hkeys
      hrelaying =>
    obtain ⟨rfl, rfl⟩ := Stage.relaying.inj (hstage.symm.trans hrelaying)
    have hpast' : handlings i (past ++ [.conn i (.relay action)]) = [(env, table)] := by
      rw [handlings_append, hpast]
      rfl
    have hactions' : (run ++ [(action, cancels)]).map Prod.fst =
        relayings i (past ++ [.conn i (.relay action)]) := by
      rw [relayings_append, List.map_append, hactions]
      simp [relayings]
    have hstep : relay.stepIn route (action, cancels) = some relay' := by
      rw [Relay.stepIn, hrelay, Option.map_some]
    have hrun' := exec_trans hrun (exec_single hstep)
    have hkeys' : keys ++ relay'.down.minted.drop relay.down.minted.length =
        relay'.down.minted := by
      rw [hkeys, ← Relay.step_minted hrelay]
    unfold Connection.afterRelay
    split
    · exact .session hpast' hhandle hactions' hrun' hkeys' rfl
    · rename_i err hresult
      exact .ended hpast' hhandle hactions' hrun' hkeys' hresult rfl (Or.inl rfl)

theorem Story.step (h : Story cfg past i keys c) (hmove : ConnMove cfg sh c a c' sh' events) :
    Story cfg (past ++ [.conn i a]) i (keys ++ keysOf i (events.map (i, ·))) c' := by
  -- only `handle` and the relay have more to say
  have hquiet : handlings i [.conn i a] = [] → relayings i [.conn i a] = [] →
      keysOf i (events.map (i, ·)) = [] →
      Story cfg (past ++ [.conn i a]) i (keys ++ keysOf i (events.map (i, ·))) c := by
    intro hother hidle hnone
    rw [hnone, List.append_nil]
    exact h.mono hother hidle
  cases hmove with
  | admitted hstage =>
    obtain ⟨hpast, hrelay, hkeys, heffects⟩ := (hquiet rfl rfl rfl).of_waiting (Or.inl hstage)
    exact .waiting hpast hrelay hkeys heffects (Or.inr rfl)
  | rejected hstage =>
    obtain ⟨hpast, -, hkeys, heffects⟩ := (hquiet rfl rfl rfl).of_waiting (Or.inl hstage)
    exact .rejected hpast hkeys (by rw [heffects, List.nil_append]) (Or.inl rfl)
  | handled hstage =>
    obtain ⟨hpast, hrelay, hkeys, heffects⟩ := h.of_waiting (Or.inr hstage)
    refine Story.handled ?_ ?_ (by simp [hkeys, keysOf]) heffects
    · rw [handlings_append, hpast]
      simp [handlings]
    · rw [relayings_append, hrelay]
      rfl
  | lookedUp hstage =>
    obtain ⟨env, table, hpast, hkeys, hhandle⟩ := (hquiet rfl rfl rfl).of_cancel (Or.inl hstage)
    exact .cancelled hpast hkeys hhandle (Or.inr (Or.inl ⟨_, rfl⟩))
  | forwarded hstage =>
    obtain ⟨env, table, hpast, hkeys, hhandle⟩ :=
      (hquiet rfl rfl (keysOf_forward _ _ _)).of_cancel (Or.inr ⟨_, hstage⟩)
    exact .cancelled hpast hkeys hhandle (Or.inr (Or.inr (Or.inl rfl)))
  | relayed hstage hrelay =>
    rw [keysOf_relayEvents]
    exact h.relayed hstage hrelay
  | slotReleased hstage => exact (hquiet rfl rfl rfl).after (Or.inl ⟨_, hstage⟩) (Or.inl rfl)
  | untracked hstage => exact (hquiet rfl rfl rfl).after (Or.inr hstage) (Or.inr rfl)

end Moves

structure Stories [GoFmt] (cfg : Config) (past : List (ServerAction Pool)) (s : Server Pool) :
    Prop where
  fresh : ∀ {i : Nat}, s.conns.length ≤ i →
    handlings i past = [] ∧ relayings i past = [] ∧ keysOf i s.journal = []
  story : ∀ {i : Nat} {c : Connection Pool}, s.conns[i]? = some c →
    Story cfg past i (keysOf i s.journal) c

section Runs
variable [GoFmt] {cfg : Config} {past : List (ServerAction Pool)} {s t : Server Pool}

theorem Stories.start (cfg : Config) : Stories cfg [] ({} : Server Pool) :=
  ⟨fun _ => ⟨rfl, rfl, rfl⟩, by simp⟩

theorem Stories.accept (h : Stories cfg past s) (client : Input) :
    Stories cfg (past ++ [.accept client])
      { s with conns := s.conns ++ [{ input := client }] } := by
  have hfresh : ∀ i, s.conns.length ≤ i → handlings i (past ++ [.accept client]) = [] ∧
      relayings i (past ++ [.accept client]) = [] ∧ keysOf i s.journal = [] := by
    intro i hi
    obtain ⟨hpast, hrelay, hkeys⟩ := h.fresh hi
    rw [handlings_append, relayings_append, hpast, hrelay]
    exact ⟨rfl, rfl, hkeys⟩
  constructor
  · intro i hi
    exact hfresh i (Nat.le_trans (by simp) hi)
  · intro i d hd
    rcases conn_of_accept hd with hold | ⟨rfl, rfl⟩
    · exact (h.story hold).mono rfl rfl
    · obtain ⟨hpast, hrelay, hkeys⟩ := hfresh _ (Nat.le_refl _)
      exact .waiting hpast hrelay hkeys rfl (Or.inl rfl)

theorem Stories.step {action : ServerAction Pool} (h : Stories cfg past s)
    (hstep : s.step cfg action = some t) : Stories cfg (past ++ [action]) t := by
  rcases Server.step_cases hstep with ⟨client, rfl, rfl⟩ |
    ⟨i, a, c, c', shared, events, rfl, hc, hmove, rfl⟩
  · exact h.accept client
  · have hlt := (List.getElem?_eq_some_iff.mp hc).1
    have hkeys : ∀ {j}, j ≠ i →
        keysOf j (s.journal ++ events.map (i, ·)) = keysOf j s.journal := by
      intro j hj
      rw [keysOf_append, if_neg (Ne.symm hj), List.append_nil]
    constructor
    · intro j hj
      rw [List.length_set] at hj
      have hji : j ≠ i := by omega
      rw [handlings_append, relayings_append, handlings_other (Ne.symm hji),
        relayings_other (Ne.symm hji), hkeys hji, List.append_nil, List.append_nil]
      exact h.fresh hj
    · intro j d hd
      rcases conn_of_set hd with ⟨rfl, rfl⟩ | ⟨hj, hold⟩
      · rw [keysOf_append, if_pos rfl]
        exact (h.story hc).step hmove
      · rw [hkeys hj]
        exact (h.story hold).mono (handlings_other (Ne.symm hj) a) (relayings_other (Ne.symm hj) a)

theorem Server.stories {actions : List (ServerAction Pool)}
    (hrun : exec (Server.step cfg) {} actions = some s) : Stories cfg actions s :=
  exec_history Stories.step (Stories.start cfg) hrun

end Runs

/-! ## To the client -/

/-- The frames of a backend, the keys issued for those among them that carry one, and what the
client gets instead: each frame as it is, and each key in the place of the backend's. -/
inductive Substituted (route : Route Pool) :
    List Message → List (CancelRequest × CancelEntry Pool) → Bytes → Prop
  | nil : Substituted route [] [] []
  | key {frames : List Message} {minted : List (CancelRequest × CancelEntry Pool)} {out : Bytes}
      {m : Message} {backendKey issued : CancelRequest} (h : Substituted route frames minted out)
      (hlegal : m.Legal) (htype : m.type = msgBackendKeyData)
      (hkey : decodeBackendKeyData m.body = .ok backendKey) :
      Substituted route (frames ++ [m]) (minted ++ [(issued, sessionEntry route backendKey)])
        (out ++ encodeBackendKeyData issued)
  | message {frames : List Message} {minted : List (CancelRequest × CancelEntry Pool)}
      {out : Bytes} {m : Message} (h : Substituted route frames minted out) (hlegal : m.Legal)
      (htype : m.type ≠ msgBackendKeyData) :
      Substituted route (frames ++ [m]) minted (out ++ m.encode)

/-- How far a call has come through the backend's stream, by the phase it is in; writes may
have failed. -/
structure Downstream.Through (route : Route Pool) (stream : Bytes) (d : Downstream Pool)
    (frames : List Message) (tail out : Bytes) : Prop where
  split : stream = frames.flatMap Message.encode ++ tail
  substituted : Substituted route frames d.minted out
  framing : d.phase = .framing →
    NotReady frames ∧ d.toClient = out ∧ d.reader.r.stream = tail
  splicing : d.phase = .splicing → EndsReady frames ∧
    ∃ sent, d.toClient = out ++ sent ∧ tail = sent ++ d.reader.r.stream
  sent : d.toClient <+: out ∨ EndsReady frames ∧ ∃ sent, sent <+: tail ∧ d.toClient = out ++ sent

section Down
variable {route : Route Pool} {stream : Bytes} {d : Downstream Pool} {frames : List Message}
variable {tail out : Bytes}

theorem Downstream.Through.start (route : Route Pool) (backend : Input) :
    Downstream.Through route backend.stream { reader := newMessageReader backend } []
      backend.stream [] :=
  ⟨rfl, .nil, fun _ => ⟨by simp [NotReady], rfl, rfl⟩, by simp, Or.inl (List.prefix_refl _)⟩

theorem Downstream.Through.passOn {m : Message} {rest buf piece : Bytes} {w : WriteOutcome}
    {issued : Option CancelRequest} {minted : List (CancelRequest × CancelEntry Pool)}
    (h : d.Through route stream frames tail out) (hphase : d.phase = .framing)
    (hframe : firstFrame d.reader.r.stream = some (m, rest))
    (hsubst : Substituted route (frames ++ [m]) minted (out ++ piece)) :
    Downstream.Through route stream
      ({ d with
          reader := ⟨afterMessage d.reader.r m.body.length, buf⟩
          issued
          minted }.deliver m.type piece w)
      (frames ++ [m]) rest (out ++ piece) := by
  obtain ⟨hnot, hclient, hreader⟩ := h.framing hphase
  have htail : tail = m.encode ++ rest := hreader ▸ (firstFrame_some hframe).1
  have hrest : (afterMessage d.reader.r m.body.length).stream = rest := afterMessage_stream hframe
  have hwritten : w.written piece <+: piece := by
    cases w with
    | full => exact List.prefix_refl _
    | short n e => exact List.take_prefix n piece
  have hfull : w.err = none → w.written piece = piece := by
    cases w with
    | full => exact fun _ => rfl
    | short n e => simp [WriteOutcome.err]
  refine ⟨?_, by simpa using hsubst, ?_, ?_, Or.inl ?_⟩
  · rw [h.split, htail]
    simp
  · intro hp
    rw [Downstream.deliver_phase] at hp
    split at hp
    · simp at hp
    · rename_i herr
      have hnone : w.err = none := by simpa using herr
      split at hp
      · simp at hp
      · rename_i hready
        refine ⟨?_, by simp [hclient, hfull hnone], by simpa using hrest⟩
        intro f hf
        rcases List.mem_append.mp hf with hf | hf
        · exact hnot f hf
        · exact List.mem_singleton.mp hf ▸ hready
  · intro hp
    rw [Downstream.deliver_phase] at hp
    split at hp
    · simp at hp
    · rename_i herr
      have hnone : w.err = none := by simpa using herr
      split at hp
      · rename_i hready
        exact ⟨⟨frames, m, rfl, hnot, hready⟩, [], by simp [hclient, hfull hnone],
          by simpa using hrest.symm⟩
      · simp [hphase] at hp
  · rw [Downstream.deliver_toClient, hclient]
    exact (List.prefix_append_right_inj _).mpr hwritten

theorem Downstream.Through.stop {d' : Downstream Pool} (h : d.Through route stream frames tail out)
    (hexit : d'.phase = .exiting ∨ d'.phase = .returned) (hminted : d'.minted = d.minted)
    (hclient : d'.toClient = d.toClient) : d'.Through route stream frames tail out := by
  refine ⟨h.split, hminted ▸ h.substituted, ?_, ?_, hclient ▸ h.sent⟩
  · intro hp
    rcases hexit with hexit | hexit <;> simp [hexit] at hp
  · intro hp
    rcases hexit with hexit | hexit <;> simp [hexit] at hp

theorem Downstream.Through.splice {w : WriteOutcome} (h : d.Through route stream frames tail out)
    (hphase : d.phase = .splicing) : (d.spliceStep w).Through route stream frames tail out := by
  obtain ⟨hready, sent, hclient, htail⟩ := h.splicing hphase
  obtain ⟨piece, rest, result, hround⟩ : ∃ piece rest result,
      copyRound d.reader.r w = (piece, rest, result) := ⟨_, _, _, rfl⟩
  obtain ⟨hpiece, hall, -⟩ := copyRound_spec hround
  have hsent : sent ++ piece <+: tail := by
    rw [htail]
    exact (List.prefix_append_right_inj _).mpr hpiece
  simp only [Downstream.spliceStep, hround]
  cases result with
  | none =>
    refine ⟨h.split, h.substituted, by simp [hphase], fun _ => ⟨hready, sent ++ piece, ?_, ?_⟩,
      Or.inr ⟨hready, sent ++ piece, hsent, ?_⟩⟩
    · rw [hclient, List.append_assoc]
    · rw [htail, hall (by simp), List.append_assoc]
    · rw [hclient, List.append_assoc]
  | some err =>
    refine ⟨h.split, h.substituted, by simp [Downstream.exit], by simp [Downstream.exit],
      Or.inr ⟨hready, sent ++ piece, hsent, ?_⟩⟩
    simp [Downstream.exit, Downstream.countCopied, hclient]

end Down

def Relay.Through (route : Route Pool) (client backend : Bytes) (r : Relay Pool) : Prop :=
  r.up.Through client ∧ ∃ frames tail out, r.down.Through route backend frames tail out

theorem Relay.Through.start (route : Route Pool) (client backend : Input) :
    (Relay.start client backend : Relay Pool).Through route client.stream backend.stream :=
  ⟨⟨List.nil_prefix, fun _ => rfl, by simp [Relay.start]⟩, _, _, _,
    Downstream.Through.start route backend⟩

section Relays
variable [GoFmt] {route : Route Pool} {client backend : Bytes} {r r' : Relay Pool}

theorem Relay.Through.frame {d' : Downstream Pool} {w : WriteOutcome} {draws draws' : List Draw}
    {cancels cancels' : CancelRegistry Pool} {d : Downstream Pool} {frames : List Message}
    {tail out : Bytes} (h : d.Through route backend frames tail out) (hphase : d.phase = .framing)
    (hstep : d.frameStep route w draws cancels = some (d', cancels', draws')) :
    ∃ frames tail out, d'.Through route backend frames tail out := by
  cases Downstream.frameStep_round hstep with
  | stopped => exact ⟨_, _, _, h.stop (Or.inl rfl) rfl rfl⟩
  | undecodable => exact ⟨_, _, _, h.stop (Or.inl rfl) rfl rfl⟩
  | key hframe htype _ hkey =>
    exact ⟨_, _, _, h.passOn hphase hframe
      (.key h.substituted (firstFrame_some hframe).2 htype hkey)⟩
  | message hframe htype =>
    exact ⟨_, _, _, h.passOn hphase hframe
      (.message h.substituted (firstFrame_some hframe).2 htype)⟩

theorem Relay.Through.stepIn {action : RelayAction × CancelRegistry Pool}
    (h : r.Through route client backend) (hstep : r.stepIn route action = some r') :
    r'.Through route client backend := by
  refine ⟨Relay.through_stepIn h.1 hstep, ?_⟩
  obtain ⟨-, frames, tail, out, h⟩ := h
  obtain ⟨⟨r₁, cancels₁⟩, hrelay, rfl⟩ := Option.map_eq_some_iff.mp hstep
  obtain ⟨action, cancels⟩ := action
  cases action with
  | up w =>
    simp only [Relay.step, Option.map_eq_some_iff, Prod.mk.injEq] at hrelay
    obtain ⟨up, -, rfl, -⟩ := hrelay
    exact ⟨frames, tail, out, h⟩
  | frame w draws =>
    simp only [Relay.step, Option.ite_none_right_eq_some, Option.map_eq_some_iff,
      Prod.mk.injEq] at hrelay
    obtain ⟨hphase, ⟨down, cancels₂, draws₂⟩, hframe, rfl, -⟩ := hrelay
    exact Relay.Through.frame h hphase hframe
  | splice w =>
    simp only [Relay.step, Option.ite_none_right_eq_some, Option.some.injEq,
      Prod.mk.injEq] at hrelay
    obtain ⟨hphase, rfl, -⟩ := hrelay
    exact ⟨frames, tail, out, h.splice hphase⟩
  | release =>
    simp only [Relay.step, Option.ite_none_right_eq_some, Option.some.injEq,
      Prod.mk.injEq] at hrelay
    obtain ⟨-, rfl, -⟩ := hrelay
    exact ⟨frames, tail, out, h.stop (Or.inr rfl) rfl rfl⟩
  | closeClient | finish =>
    simp only [Relay.step, Option.ite_none_right_eq_some, Option.some.injEq,
      Prod.mk.injEq] at hrelay
    obtain ⟨-, rfl, -⟩ := hrelay
    exact ⟨frames, tail, out, h⟩

end Relays

/-! ## Whole runs -/

section Main
variable [GoFmt] {tls : Option ServerTLS} {table : Table Pool} {env : HandleEnv Pool} {raw : Input}
variable {client : Conn} {backend : BackendConn Pool} {route : Route Pool} {label : GoString}

theorem handle_relay_faultless
    (h : (handle tls table env raw).2 = .relay client backend route label) : env.Faultless := by
  unfold handle at h
  split at h
  · simp at h
  · rename_i hdeadline
    split at h
    · simp at h
    · unfold handleStartup at h
      dsimp only at h
      split at h
      · simp at h
      · split at h
        · simp at h
        · split at h
          · simp at h
          · split at h
            · simp at h
            · unfold forwardStartup at h
              dsimp only at h
              split at h
              · simp at h
              · rename_i hforward
                split at h
                · simp at h
                · rename_i hclient
                  split at h
                  · simp at h
                  · rename_i hbackend
                    refine ⟨hdeadline, ?_, hclient, hbackend⟩
                    cases hw : env.forward with
                    | full => rfl
                    | short n e => simp [hw, WriteOutcome.err] at hforward

theorem handle_relay_bytes (h : (handle tls table env raw).2 = .relay client backend route label) :
    ∃ startup, (negotiate tls env raw).2 = .ok (client, startup) ∧
      backendBytes (handle tls table env raw).1 =
        (forwardedPacket route label startup).encode ∧
      clientBytes (handle tls table env raw).1 = clientBytes (negotiate tls env raw).1 := by
  obtain ⟨startup, hnego, hdatabase, hroute, hdial⟩ := handle_relay_inv h
  obtain ⟨base, -, hon⟩ := negotiateLoop_ok hnego
  obtain ⟨effects, hhandle, hbytes⟩ := handle_relay (handle_relay_faultless h) hnego
    (hon.not_cancel hdatabase) hdatabase hroute hdial
  refine ⟨startup, hnego, by rw [hhandle, hbytes], ?_⟩
  have hmove := handle_move tls table env raw
  rw [h] at hmove
  generalize (handle tls table env raw).1 = effects at hmove
  cases hmove with
  | started hstarted hstartup =>
    rw [hstarted]
    cases hstartup with
    | proxied =>
      rw [clientBytes_append, clientBytes_append, dialEffects_clientBytes]
      exact List.append_nil _

end Main

theorem Connection.received_of_after {c : Connection Pool} {err : Option GoError}
    (h : c.stage.After err) : c.received = clientBytes c.effects := by
  rcases h with h | h | h <;> simp [Connection.received, h]

/-- What a session carries. The backend gets a prefix of what the client sends. The client gets
a prefix of the backend's frames with `keys` in the place of the backend's keys, and of the
rest of its stream after ReadyForQuery. -/
inductive Carried (route : Route Pool) (keys : List (CancelRequest × CancelEntry Pool))
    (fromClient toBackend fromBackend toClient : Bytes) : Prop
  | intro {frames : List Message} {tail out : Bytes} (hup : toBackend <+: fromClient)
      (hsplit : fromBackend = frames.flatMap Message.encode ++ tail)
      (hsubst : Substituted route frames keys out)
      (hdown : toClient <+: out ∨
        EndsReady frames ∧ ∃ more, more <+: tail ∧ toClient = out ++ more)

theorem Relay.carried [GoFmt] {tls : Option ServerTLS} {table : Table Pool} {env : HandleEnv Pool}
    {raw : Input} {effects : List (Effect Pool)} {client : Conn} {backend : BackendConn Pool}
    {route : Route Pool} {label : GoString} {relay : Relay Pool}
    {run : List (RelayAction × CancelRegistry Pool)}
    (hhandle : handle tls table env raw = (effects, .relay client backend route label))
    (hrun : exec (Relay.stepIn route) (Relay.start client.input backend.input) run = some relay) :
    ∃ startup, (negotiate tls env raw).2 = .ok (client, startup) ∧
      clientBytes effects = clientBytes (negotiate tls env raw).1 ∧
      Carried route relay.down.minted
        ((forwardedPacket route label startup).encode ++ client.input.stream)
        (backendBytes effects ++ relay.up.copied) backend.input.stream relay.down.toClient := by
  obtain ⟨startup, hnego, hbackend, hclient⟩ := handle_relay_bytes (congrArg Prod.snd hhandle)
  rw [hhandle] at hbackend hclient
  obtain ⟨hup, frames, tail, out, hdown⟩ :
      relay.Through route client.input.stream backend.input.stream :=
    exec_invariant Relay.Through.stepIn (Relay.Through.start route _ _) hrun
  refine ⟨startup, hnego, hclient, .intro ?_ hdown.split hdown.substituted hdown.sent⟩
  rw [hbackend]
  exact (List.prefix_append_right_inj _).mpr hup.written

/-- A client that `handle` has put through, by the run of its relay. It has got the answers of
the negotiation and then what the relay wrote. -/
theorem Connection.carried [GoFmt] {tls : Option ServerTLS} {table : Table Pool}
    {env : HandleEnv Pool} {c : Connection Pool} {effects : List (Effect Pool)} {client : Conn}
    {backend : BackendConn Pool} {route : Route Pool} {label : GoString} {relay : Relay Pool}
    {run : List (RelayAction × CancelRegistry Pool)} {actions : List RelayAction}
    {keys : List (CancelRequest × CancelEntry Pool)}
    (hhandle : handle tls table env c.input = (effects, .relay client backend route label))
    (hactions : run.map Prod.fst = actions)
    (hrun : exec (Relay.stepIn route) (Relay.start client.input backend.input) run = some relay)
    (hkeys : keys = relay.down.minted)
    (hreceived : c.received = clientBytes effects ++ relay.down.toClient)
    {client' : Conn} {backend' : BackendConn Pool} {route' : Route Pool} {label' : GoString}
    (hnext : (handle tls table env c.input).2 = .relay client' backend' route' label') :
    ∃ startup run relay sent,
      (negotiate tls env c.input).2 = .ok (client', startup) ∧
      run.map Prod.fst = actions ∧
      exec (Relay.stepIn route') (Relay.start client'.input backend'.input) run = some relay ∧
      c.received = clientBytes (negotiate tls env c.input).1 ++ sent ∧
      Carried route' keys
        ((forwardedPacket route' label' startup).encode ++ client'.input.stream)
        (backendBytes (handle tls table env c.input).1 ++ relay.up.copied)
        backend'.input.stream sent := by
  rw [hhandle] at hnext
  obtain ⟨rfl, rfl, rfl, rfl⟩ := Next.relay.inj hnext
  obtain ⟨startup, hnego, hclient, hcarried⟩ := Relay.carried hhandle hrun
  refine ⟨startup, run, relay, relay.down.toClient, hnego, hactions, hrun, ?_, ?_⟩
  · rw [hreceived, hclient]
  · rwa [hkeys, hhandle]

/-- In every run of the gateway, for every connection, whatever the others do and whichever
writes fail. A connection that has not been through `handle` got nothing, or was turned away.
`handle` sees a connection once. If it does not put the client through, the client gets what
`handle` wrote and no key is issued for it. If it does, the rest is a run of one relay with
the actions of this connection, and the streams it carries are the forwarded packet with the
rest of this client's stream, and the stream of the backend that was dialled for it, with the
keys that were issued for this very connection; before them the client gets the answers of
the negotiation. -/
theorem sessions_carry_their_own_streams [GoFmt] {cfg : Config}
    {actions : List (ServerAction Pool)} {s : Server Pool} {i : Nat} {c : Connection Pool}
    (hrun : exec (Server.step cfg) {} actions = some s) (hc : s.conns[i]? = some c) :
    (handlings i actions = [] ∧ keysOf i s.journal = [] ∧
      (c.received = [] ∨
        ∃ fatal, c.received = clientBytes (rejection cfg fatal : List (Effect Pool)))) ∨
    ∃ env table, handlings i actions = [(env, table)] ∧
      ((∀ client backend route label,
          (handle cfg.tls table env c.input).2 ≠ .relay client backend route label) →
        keysOf i s.journal = [] ∧
          c.received = clientBytes (handle cfg.tls table env c.input).1) ∧
      ∀ client backend route label,
        (handle cfg.tls table env c.input).2 = .relay client backend route label →
        ∃ startup run relay sent,
          (negotiate cfg.tls env c.input).2 = .ok (client, startup) ∧
          run.map Prod.fst = relayings i actions ∧
          exec (Relay.stepIn route) (Relay.start client.input backend.input) run = some relay ∧
          c.received = clientBytes (negotiate cfg.tls env c.input).1 ++ sent ∧
          Carried route (keysOf i s.journal)
            ((forwardedPacket route label startup).encode ++ client.input.stream)
            (backendBytes (handle cfg.tls table env c.input).1 ++ relay.up.copied)
            backend.input.stream sent := by
  cases (Server.stories hrun).story hc with
  | waiting hpast _ hkeys heffects hstage =>
    refine Or.inl ⟨hpast, hkeys, Or.inl ?_⟩
    rcases hstage with hstage | hstage <;> simp [Connection.received, heffects, hstage, clientBytes]
  | @rejected fatal hpast hkeys heffects hstage =>
    have hreceived := Connection.received_of_after (Or.inr hstage : c.stage.After none)
    exact Or.inl ⟨hpast, hkeys, Or.inr ⟨fatal, by rw [hreceived, heffects]⟩⟩
  | @returned env table err hpast hkeys hhandle hstage =>
    refine Or.inr ⟨env, table, hpast, fun _ => ⟨hkeys, ?_⟩, by simp [hhandle]⟩
    rw [hhandle, Connection.received_of_after hstage]
  | @cancelled env table request hpast hkeys hhandle hstage =>
    refine Or.inr ⟨env, table, hpast, fun _ => ⟨hkeys, ?_⟩, by simp [hhandle]⟩
    rw [hhandle]
    rcases hstage with hstage | ⟨entry, hstage⟩ | hstage
    · simp [Connection.received, hstage]
    · simp [Connection.received, hstage]
    · exact Connection.received_of_after hstage
  | @session env table client backend route label run relay hpast hhandle hactions hexec hkeys
      hstage =>
    refine Or.inr ⟨env, table, hpast, fun hnot => absurd (by rw [hhandle]) (hnot _ _ _ _), ?_⟩
    refine fun _ _ _ _ => Connection.carried hhandle hactions hexec hkeys ?_
    simp only [Connection.received, hstage]
  | @ended env table effects client backend route label run relay err hpast hhandle hactions hexec
      hkeys hresult heffects hstage =>
    refine Or.inr ⟨env, table, hpast, fun hnot => absurd (by rw [hhandle]) (hnot _ _ _ _), ?_⟩
    refine fun _ _ _ _ => Connection.carried hhandle hactions hexec hkeys ?_
    rw [Connection.received_of_after hstage, heffects, clientBytes_append]
    simp [clientBytes]

/-- Two sessions of which the first has read a key from its backend, and its client hung up in
the middle of the message. -/
def twoSessions : List (ServerAction Unit) :=
  openSession 0 (encodeBackendKeyData (sampleKey 7)) ++ openSession 1 (str "Z") ++
    [.conn 0 (.relay (.frame (.short 4 (.sentinel .netClosed)) [sampleDraw 1])),
      .conn 1 (.relay (.up .full))] ++ closeSession 0

theorem sessions_carry_their_own_streams_short :
    ∃ s c, exec (@Server.step Unit plainQuote {}) {} twoSessions = some s ∧
      s.conns[0]? = some c ∧ c.received = (encodeBackendKeyData (sampleKey 1)).take 4 ∧
      keysOf 0 s.journal = [(sampleKey 1, sessionEntry sampleRoute (sampleKey 7))] ∧
      ∃ env table, handlings 0 twoSessions = [(env, table)] := by
  obtain ⟨s, c, hrun, hc, hreceived, hkeys⟩ : ∃ s c,
      exec (@Server.step Unit plainQuote {}) {} twoSessions = some s ∧ s.conns[0]? = some c ∧
      c.received = (encodeBackendKeyData (sampleKey 1)).take 4 ∧
      keysOf 0 s.journal = [(sampleKey 1, sessionEntry sampleRoute (sampleKey 7))] :=
    ⟨_, _, rfl, rfl, rfl, rfl⟩
  refine ⟨s, c, hrun, hc, hreceived, hkeys, ?_⟩
  rcases @sessions_carry_their_own_streams Unit plainQuote _ _ _ _ _ hrun hc with
    ⟨-, hnone, -⟩ | ⟨env, table, hhandled, -⟩
  · simp [hkeys] at hnone
  · exact ⟨env, table, hhandled⟩

end Proxy
end PgProxy
