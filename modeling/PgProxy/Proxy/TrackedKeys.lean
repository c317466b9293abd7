import PgProxy.Lib.Tally
import PgProxy.Proxy.Progress
import PgProxy.Proxy.Sessions

/-!
# The keys that are tracked

`relayFromBackend` gives one key back when it returns, the last one it was issued. So a
session holds all its keys while the call runs and all but the last one ever after, and these
are the keys of the registry: `TrackedCancelKeys` counts a session that is over once for every
key its backend sent before the last, and nothing removes such a key again.
-/

namespace PgProxy
set_option autoImplicit false

namespace Proxy
open Pgwire

variable {Pool : Type}

def CancelRegistry.len (r : CancelRegistry Pool) : Nat := r.keys.card

def Server.trackedCancelKeys (s : Server Pool) : Nat := s.shared.cancels.len

def Connection.relaysBack (c : Connection Pool) : Bool :=
  match c.stage with
  | .relaying _ relay => relay.down.phase ≠ .returned
  | _ => false

def Server.runs (s : Server Pool) (i : Nat) : Bool := s.conns[i]?.any Connection.relaysBack

/-- The keys that connection `i` was issued and has not given back. -/
def Server.held (s : Server Pool) (i : Nat) : List (CancelRequest × CancelEntry Pool) :=
  if s.runs i then keysOf i s.journal else (keysOf i s.journal).dropLast

/-! ## What a step does to the keys -/

/-- What an action of the gateway can do to the keys that are held. -/
inductive HeldStep (s t : Server Pool) : Prop
  | same (hcancels : t.shared.cancels = s.shared.cancels) (hheld : ∀ j, t.held j = s.held j)
  | taken {i : Nat} {key : CancelRequest} {entry : CancelEntry Pool}
      (hi : i < s.conns.length) (hruns : s.runs i = true)
      (hfree : s.shared.cancels.lookup key = none)
      (hcancels : t.shared.cancels = s.shared.cancels.insert key entry)
      (hheld : t.held i = s.held i ++ [(key, entry)]) (hother : ∀ j ≠ i, t.held j = s.held j)
  | given {i : Nat} {key : CancelRequest} {entry : CancelEntry Pool}
      (hi : i < s.conns.length) (hruns : s.runs i = true)
      (hcancels : t.shared.cancels = s.shared.cancels.erase key)
      (hheld : s.held i = t.held i ++ [(key, entry)]) (hother : ∀ j ≠ i, t.held j = s.held j)

/-- A relay that has not returned, and the key it will release. -/
structure Relay.Keyed (r : Relay Pool) : Prop where
  running : r.Running
  issued : r.down.issued = r.down.minted.getLast?.map Prod.fst

theorem Relay.Keyed.start (client backend : Input) :
    (Relay.start client backend : Relay Pool).Keyed :=
  ⟨Relay.Running.start client backend, rfl⟩

section Steps
variable [GoFmt] {cfg : Config}

theorem Relay.Keyed.step {route : Route Pool} {r r' : Relay Pool} {action : RelayAction}
    {cancels cancels' : CancelRegistry Pool} (h : r.Keyed)
    (hstep : r.step route cancels action = some (r', cancels')) (hrunning : r'.result = none) :
    r'.Keyed := by
  refine ⟨h.running.step hstep hrunning, ?_⟩
  cases Relay.step_registryMove hstep with
  | none hissued hminted | release hissued hminted => rw [hissued, hminted, h.issued]
  | issue _ _ _ hissued hminted => simp [hissued, hminted]

theorem Relay.step_stays_returned {route : Route Pool} {r r' : Relay Pool} {action : RelayAction}
    {cancels cancels' : CancelRegistry Pool}
    (hstep : r.step route cancels action = some (r', cancels'))
    (hreturned : r.down.phase = .returned) : r'.down.phase = .returned := by
  cases Relay.step_registryMove hstep with
  | none _ _ hiff => exact hiff.mpr hreturned
  | issue _ _ _ _ _ hrunning => exact absurd hreturned hrunning
  | release _ _ _ hafter => exact hafter

theorem Connection.relaysBack_afterRelay {route : Route Pool} {relay relay' : Relay Pool}
    {action : RelayAction} {cancels cancels' : CancelRegistry Pool} (h : relay.Running)
    (hstep : relay.step route cancels action = some (relay', cancels')) (c : Connection Pool) :
    (c.afterRelay route relay').relaysBack = decide (relay'.down.phase ≠ .returned) := by
  unfold Connection.afterRelay
  split
  · rfl
  · rename_i err hresult
    have hreturned := (h.step_returned hstep).2 (by simp [hresult])
    simp [Connection.relaysBack, hreturned]

variable {sh sh' : Shared Pool} {c c' : Connection Pool} {a : ConnAction Pool}
variable {events : List (CancelEvent Pool)}

theorem ConnMove.keysOf_events (h : ConnMove cfg sh c a c' sh' events)
    (hstage : ∀ route relay, c.stage ≠ .relaying route relay) (i : Nat) :
    keysOf i (events.map (i, ·)) = [] := by
  cases h with
  | relayed hrelaying => exact absurd hrelaying (hstage _ _)
  | forwarded => exact keysOf_forward _ _ _
  | admitted | rejected | handled | lookedUp | slotReleased | untracked => rfl

theorem ConnMove.relaysBack (h : ConnMove cfg sh c a c' sh' events)
    (hstage : ∀ route relay, c.stage ≠ .relaying route relay) :
    c'.relaysBack = false ∨ c.stage.Waiting := by
  cases h with
  | relayed hrelaying => exact absurd hrelaying (hstage _ _)
  | handled hadmitted => exact Or.inr (Or.inr hadmitted)
  | admitted | rejected | lookedUp | forwarded | slotReleased | untracked => exact Or.inl rfl

theorem Story.keys_eq_minted {past : List (ServerAction Pool)} {i : Nat}
    {keys : List (CancelRequest × CancelEntry Pool)} {route : Route Pool} {relay : Relay Pool}
    (h : Story cfg past i keys c) (hstage : c.stage = .relaying route relay) :
    keys = relay.down.minted := by
  have hnot : ∀ {err}, ¬ c.stage.After err := by simp [Stage.After, hstage]
  cases h with
  | waiting _ _ _ _ hwaiting => simp [Stage.Waiting, hstage] at hwaiting
  | rejected _ _ _ hover => exact absurd (Or.inr hover) (@hnot none)
  | returned _ _ _ hover | ended _ _ _ _ _ _ _ hover => exact absurd hover hnot
  | cancelled _ _ _ hcancel => simp [hstage, Stage.After] at hcancel
  | session _ _ _ _ hkeys hrelaying =>
    obtain ⟨rfl, rfl⟩ := Stage.relaying.inj (hstage.symm.trans hrelaying)
    exact hkeys

end Steps

theorem Server.runs_accept (s : Server Pool) (client : Input) (j : Nat) :
    Server.runs { s with conns := s.conns ++ [{ input := client }] } j = s.runs j := by
  simp only [Server.runs]
  by_cases hj : j < s.conns.length
  · rw [List.getElem?_append_left hj]
  · rw [List.getElem?_append_right (Nat.le_of_not_lt hj),
      List.getElem?_eq_none (Nat.le_of_not_lt hj)]
    cases j - s.conns.length <;> rfl

theorem Server.runs_set {s : Server Pool} {i : Nat} (hi : i < s.conns.length)
    (shared : Shared Pool) (c' : Connection Pool) (journal : List (Nat × CancelEvent Pool))
    (j : Nat) : Server.runs { shared, conns := s.conns.set i c', journal } j =
      if j = i then c'.relaysBack else s.runs j := by
  simp only [Server.runs]
  split
  · rename_i hij
    rw [hij, List.getElem?_set_self hi, Option.any_some]
  · rename_i hij
    rw [List.getElem?_set_ne (Ne.symm hij)]

theorem Server.held_set {s : Server Pool} {i : Nat} (hi : i < s.conns.length)
    (shared : Shared Pool) (c' : Connection Pool) (events : List (CancelEvent Pool)) (j : Nat) :
    Server.held
      { shared, conns := s.conns.set i c', journal := s.journal ++ events.map (i, ·) } j =
      if j = i then
        let keys := keysOf i s.journal ++ keysOf i (events.map (i, ·))
        if c'.relaysBack then keys else keys.dropLast
      else s.held j := by
  rw [Server.held, Server.runs_set hi, keysOf_append]
  by_cases hj : j = i
  · subst hj
    simp
  · rw [if_neg hj, if_neg hj, if_neg (Ne.symm hj), List.append_nil, Server.held]

section Held
variable [GoFmt] {cfg : Config} {past : List (ServerAction Pool)} {s t : Server Pool}

theorem HeldStep.relayed {i : Nat} {c : Connection Pool} {route : Route Pool}
    {relay relay' : Relay Pool} {action : RelayAction} {cancels' : CancelRegistry Pool}
    (hc : s.conns[i]? = some c) (hstage : c.stage = .relaying route relay)
    (hkeys : keysOf i s.journal = relay.down.minted) (hkeyed : relay.Keyed)
    (hrelay : relay.step route s.shared.cancels action = some (relay', cancels')) :
    HeldStep s
      { shared := { s.shared with cancels := cancels' }
        conns := s.conns.set i (c.afterRelay route relay')
        journal := s.journal ++ (relayEvents relay.down relay'.down).map (i, ·) } := by
  have hi := (List.getElem?_eq_some_iff.mp hc).1
  have hruns : s.runs i = decide (relay.down.phase ≠ .returned) := by
    rw [Server.runs, hc, Option.any_some, Connection.relaysBack, hstage]
  have hbefore : s.held i =
      if relay.down.phase ≠ .returned then relay.down.minted else relay.down.minted.dropLast := by
    simp [Server.held, hruns, hkeys]
  have hafter : Server.held
      { shared := { s.shared with cancels := cancels' }
        conns := s.conns.set i (c.afterRelay route relay')
        journal := s.journal ++ (relayEvents relay.down relay'.down).map (i, ·) } i =
      if relay'.down.phase ≠ .returned then relay'.down.minted
      else relay'.down.minted.dropLast := by
    rw [Server.held_set hi, if_pos rfl, keysOf_relayEvents, hkeys,
      Connection.relaysBack_afterRelay hkeyed.running hrelay, ← Relay.step_minted hrelay]
    simp only [decide_eq_true_eq]
  have hother : ∀ j ≠ i, Server.held
      { shared := { s.shared with cancels := cancels' }
        conns := s.conns.set i (c.afterRelay route relay')
        journal := s.journal ++ (relayEvents relay.down relay'.down).map (i, ·) } j = s.held j := by
    intro j hj
    rw [Server.held_set hi, if_neg hj]
  cases Relay.step_registryMove hrelay with
  | none _ hminted hreturned =>
    refine .same rfl fun j => ?_
    by_cases hj : j = i
    · subst hj
      rw [hafter, hbefore, hminted]
      simp only [ne_eq, hreturned]
    · exact hother j hj
  | issue _ _ hfree _ hminted hrunning hrunning' =>
    refine .taken hi (by simpa [hruns] using hrunning) hfree rfl ?_ hother
    rw [hafter, hbefore, if_pos hrunning, if_pos hrunning', hminted]
  | release _ hminted hexiting hreturned =>
    rw [if_pos (by simp [hexiting])] at hbefore
    rw [if_neg (by simp [hreturned]), hminted] at hafter
    cases hlast : relay.down.minted.getLast? with
    | none =>
      -- a session without a key has nothing to release
      have hnil := List.getLast?_eq_none_iff.mp hlast
      refine .same ?_ fun j => ?_
      · simp [Downstream.releaseStep, hkeyed.issued, hlast]
      · by_cases hj : j = i
        · subst hj
          rw [hafter, hbefore, hnil, List.dropLast_nil]
        · exact hother j hj
    | some x =>
      obtain ⟨key, entry⟩ := x
      refine @HeldStep.given _ _ _ i key entry hi (by simp [hruns, hexiting]) ?_ ?_ hother
      · simp [Downstream.releaseStep, hkeyed.issued, hlast, CancelRegistry.release]
      · rw [hafter, hbefore, List.dropLast_append_getLast? _ hlast]

theorem HeldStep.of_step {action : ServerAction Pool} (hstories : Stories cfg past s)
    (hkeyed : EveryRelay (fun _ relay => relay.Keyed) s) (hstep : s.step cfg action = some t) :
    HeldStep s t := by
  rcases Server.step_cases hstep with ⟨client, rfl, rfl⟩ |
    ⟨i, a, c, c', shared, events, rfl, hc, hmove, rfl⟩
  · refine .same rfl fun j => ?_
    rw [Server.held, Server.held, Server.runs_accept]
  · have hstory := hstories.story hc
    by_cases hrelaying : ∃ route relay, c.stage = .relaying route relay
    · obtain ⟨route, relay, hstage⟩ := hrelaying
      cases hmove with
      | relayed hstage' hrelay =>
        exact HeldStep.relayed hc hstage' (hstory.keys_eq_minted hstage') (hkeyed hc hstage')
          hrelay
      | admitted h | rejected h | handled h | lookedUp h | forwarded h | slotReleased h
      | untracked h => simp [h] at hstage
    · have hstage : ∀ route relay, c.stage ≠ .relaying route relay :=
        fun route relay h => hrelaying ⟨route, relay, h⟩
      have hi := (List.getElem?_eq_some_iff.mp hc).1
      have hcancels : shared.cancels = s.shared.cancels := by
        rcases hmove.registry with ⟨route, relay, -, -, -, h, -⟩ | ⟨h, -⟩
        · exact absurd h (hstage _ _)
        · exact h
      refine .same hcancels fun j => ?_
      rw [Server.held_set hi, hmove.keysOf_events hstage, List.append_nil]
      split
      · rename_i hj
        subst hj
        have hruns : s.runs j = false := by
          rw [Server.runs, hc, Option.any_some, Connection.relaysBack]
          split
          · rename_i h
            exact absurd h (hstage _ _)
          · rfl
        rw [Server.held, hruns]
        rcases hmove.relaysBack hstage with hafter | hwaiting
        · rw [hafter]
        · obtain ⟨-, -, hkeys, -⟩ := hstory.of_waiting hwaiting
          simp [hkeys]
      · rfl

end Held

/-! ## Whole runs -/

section Len
variable {r : CancelRegistry Pool} {key : CancelRequest} {entry : CancelEntry Pool}

theorem CancelRegistry.len_insert (hfree : r.lookup key = none) :
    CancelRegistry.len (r.insert key entry) = r.len + 1 := by
  have hkeys : (r.insert key entry).keys = insert key r.keys := by
    ext k
    rw [Finmap.mem_keys, Finmap.mem_insert, Finset.mem_insert, Finmap.mem_keys]
  rw [CancelRegistry.len, hkeys, Finset.card_insert_of_notMem, CancelRegistry.len]
  rw [Finmap.mem_keys]
  exact Finmap.lookup_eq_none.mp hfree

theorem CancelRegistry.len_erase (h : r.lookup key = some entry) :
    CancelRegistry.len (r.erase key) + 1 = r.len := by
  rw [CancelRegistry.len, Finmap.keys_erase]
  apply Finset.card_erase_add_one
  rw [Finmap.mem_keys, Finmap.mem_iff]
  exact ⟨entry, h⟩

end Len

/-- The registry holds what the connections hold, each key once. -/
structure KeysTracked (s : Server Pool) : Prop where
  owned : Owned s.shared.cancels fun x : Nat × Nat => (s.held x.1)[x.2]?
  count : s.trackedCancelKeys = tally (fun i => (s.held i).length) s.conns.length

theorem KeysTracked.start : KeysTracked ({} : Server Pool) :=
  ⟨Owned.empty, rfl⟩

section Tracked
variable {s t : Server Pool}

theorem KeysTracked.heldStep (h : KeysTracked s) (hstep : HeldStep s t)
    (hlength : t.conns.length = s.conns.length ∨ t.conns.length = s.conns.length + 1)
    (hfresh : s.held s.conns.length = []) : KeysTracked t := by
  -- a connection that was just accepted adds nothing to the sum
  have hlast : t.held s.conns.length = [] := by
    cases hstep with
    | same _ hheld => rw [hheld, hfresh]
    | taken hi _ _ _ _ hother | given hi _ _ _ hother => rw [hother _ (Nat.ne_of_gt hi), hfresh]
  have hsum : tally (fun i => (t.held i).length) t.conns.length =
      tally (fun i => (t.held i).length) s.conns.length := by
    rcases hlength with hlength | hlength
    · rw [hlength]
    · rw [hlength, tally, hlast, List.length_nil, Nat.add_zero]
  have hreplace : ∀ {i}, i < s.conns.length → (∀ j ≠ i, t.held j = s.held j) →
      tally (fun j => (t.held j).length) s.conns.length + (s.held i).length =
        tally (fun j => (s.held j).length) s.conns.length + (t.held i).length := by
    intro i hi hother
    apply tally_replace (f := fun j => (s.held j).length) (g := fun j => (t.held j).length) hi
    intro j _ hj
    rw [hother j hj]
  have hcount : s.shared.cancels.len = tally (fun i => (s.held i).length) s.conns.length := h.count
  cases hstep with
  | same hcancels hheld =>
    have hsame : t.held = s.held := funext hheld
    refine ⟨?_, ?_⟩
    · rw [hcancels, hsame]
      exact h.owned
    · rw [hsum, Server.trackedCancelKeys, hcancels, hsame]
      exact hcount
  | @taken i key entry hi _ hfree hcancels hheld hother =>
    refine ⟨?_, ?_⟩
    · rw [hcancels]
      exact h.owned.push hheld hother hfree
    · have hsplit := hreplace hi hother
      rw [hheld, List.length_append, List.length_singleton] at hsplit
      rw [hsum, Server.trackedCancelKeys, hcancels, CancelRegistry.len_insert hfree]
      omega
  | @given i key entry hi _ hcancels hheld hother =>
    have hlookup : s.shared.cancels.lookup key = some entry :=
      (h.owned.entries key entry).mpr ⟨(i, (t.held i).length), by simp [hheld]⟩
    refine ⟨?_, ?_⟩
    · rw [hcancels]
      exact h.owned.pop hheld hother
    · have hsplit := hreplace hi hother
      rw [hheld, List.length_append, List.length_singleton] at hsplit
      have hlen := CancelRegistry.len_erase hlookup
      rw [hsum, Server.trackedCancelKeys, hcancels]
      omega

end Tracked

/-- The connection is through with `relayFromBackend`, or was never put through. -/
def Server.settled (s : Server Pool) (i : Nat) : Prop :=
  ∃ c, s.conns[i]? = some c ∧ c.relaysBack = false ∧ ¬ c.stage.Waiting

theorem HeldStep.of_settled {s t : Server Pool} {i : Nat} (h : HeldStep s t)
    (hsettled : s.settled i) : t.held i = s.held i := by
  obtain ⟨c, hc, hback, -⟩ := hsettled
  have hruns : s.runs i = false := by rw [Server.runs, hc, Option.any_some, hback]
  cases h with
  | same _ hheld => exact hheld i
  | @taken j _ _ _ hrunning _ _ _ hother | @given j _ _ _ hrunning _ _ hother =>
    apply hother
    rintro rfl
    simp [hruns] at hrunning

section Runs
variable [GoFmt] {cfg : Config} {s t : Server Pool} {i : Nat}

theorem Server.settled_step {action : ServerAction Pool}
    (hkeyed : EveryRelay (fun _ relay => relay.Keyed) s) (h : s.settled i)
    (hstep : s.step cfg action = some t) : t.settled i := by
  obtain ⟨c, hc, hback, hwaiting⟩ := h
  rcases Server.step_cases hstep with ⟨client, rfl, rfl⟩ |
    ⟨j, a, d, d', shared, events, rfl, hd, hmove, rfl⟩
  · have hi := (List.getElem?_eq_some_iff.mp hc).1
    exact ⟨c, by rw [List.getElem?_append_left hi, hc], hback, hwaiting⟩
  · by_cases hij : i = j
    · subst hij
      obtain rfl := Option.some.inj (hc.symm.trans hd)
      have hi := (List.getElem?_eq_some_iff.mp hc).1
      refine ⟨d', List.getElem?_set_self hi, ?_, ?_⟩
      · rcases hmove.registry with ⟨route, relay, relay', act, -, hstage, hrelay, rfl, -⟩ |
          ⟨-, hstage, -⟩
        · have hreturned : relay.down.phase = .returned := by
            simpa [Connection.relaysBack, hstage] using hback
          rw [Connection.relaysBack_afterRelay (hkeyed hc hstage).running hrelay]
          simp [Relay.step_stays_returned hrelay hreturned]
        · exact (hmove.relaysBack hstage).resolve_right hwaiting
      · rcases hmove.handling i with ⟨-, hbefore⟩ | ⟨hwait, -⟩
        · exact fun h => hwaiting (hbefore h)
        · exact absurd hwait hwaiting
    · exact ⟨c, by rw [List.getElem?_set_ne (Ne.symm hij), hc], hback, hwaiting⟩

structure Tracking (cfg : Config) (past : List (ServerAction Pool)) (s : Server Pool) : Prop where
  stories : Stories cfg past s
  keyed : EveryRelay (fun _ relay => relay.Keyed) s
  tracked : KeysTracked s

theorem Tracking.start (cfg : Config) : Tracking cfg [] ({} : Server Pool) :=
  ⟨Stories.start cfg, fun hc => by simp at hc, KeysTracked.start⟩

theorem Tracking.step {past : List (ServerAction Pool)} {action : ServerAction Pool}
    (h : Tracking cfg past s) (hstep : s.step cfg action = some t) :
    Tracking cfg (past ++ [action]) t := by
  refine ⟨h.stories.step hstep,
    EveryRelay.step (fun _ => Relay.Keyed.start) Relay.Keyed.step h.keyed hstep, ?_⟩
  apply h.tracked.heldStep (HeldStep.of_step h.stories h.keyed hstep)
  · rcases Server.step_cases hstep with ⟨client, -, rfl⟩ | ⟨i, a, c, c', _, _, -, -, -, rfl⟩
    · exact Or.inr (by simp)
    · exact Or.inl (by simp)
  · obtain ⟨-, -, hkeys⟩ := h.stories.fresh (Nat.le_refl _)
    simp [Server.held, hkeys]

theorem Tracking.settled_holds {past later : List (ServerAction Pool)}
    (h : Tracking cfg past s) (hsettled : s.settled i)
    (hlater : exec (Server.step cfg) s later = some t) :
    t.held i = s.held i ∧ KeysTracked t := by
  have hkept : Tracking cfg (past ++ later) t ∧ t.settled i ∧ t.held i = s.held i := by
    refine exec_history (I := fun past u => Tracking cfg past u ∧ u.settled i ∧
      u.held i = s.held i) ?_ ⟨h, hsettled, rfl⟩ hlater
    intro past u action v hu hstep
    obtain ⟨htracking, hset, hheld⟩ := hu
    have hmove := HeldStep.of_step htracking.stories htracking.keyed hstep
    exact ⟨htracking.step hstep, Server.settled_step htracking.keyed hset hstep,
      (hmove.of_settled hset).trans hheld⟩
  exact ⟨hkept.2.2, hkept.1.tracked⟩

/-- In every run of the gateway, whatever keys the backends send: the registry holds exactly
the keys that connections hold, all keys of a session while its `relayFromBackend` runs and
all but the last one afterwards; `TrackedCancelKeys` is the number of these; and what a
session still holds when the call has returned stays in the registry in every continuation
of the run. -/
theorem tracked_keys_are_the_keys_held {actions : List (ServerAction Pool)}
    (hrun : exec (Server.step cfg) {} actions = some s) :
    (∀ key entry, s.shared.cancels.lookup key = some entry ↔ ∃ i, (key, entry) ∈ s.held i) ∧
    s.trackedCancelKeys = tally (fun i => (s.held i).length) s.conns.length ∧
    ∀ i later t, s.settled i → exec (Server.step cfg) s later = some t →
      ∀ key entry, (key, entry) ∈ s.held i → t.shared.cancels.lookup key = some entry := by
  have h : Tracking cfg actions s := exec_history Tracking.step (Tracking.start cfg) hrun
  have hentries : ∀ {u : Server Pool}, KeysTracked u → ∀ key entry,
      u.shared.cancels.lookup key = some entry ↔ ∃ i, (key, entry) ∈ u.held i := by
    intro u hu key entry
    rw [hu.owned.entries]
    constructor
    · rintro ⟨⟨i, n⟩, hn⟩
      exact ⟨i, List.mem_of_getElem? hn⟩
    · rintro ⟨i, hmem⟩
      obtain ⟨n, hn⟩ := List.getElem?_of_mem hmem
      exact ⟨(i, n), hn⟩
  refine ⟨hentries h.tracked, h.tracked.count, ?_⟩
  intro i later t hsettled hlater key entry hmem
  obtain ⟨hheld, htracked⟩ := h.settled_holds hsettled hlater
  exact (hentries htracked key entry).mpr ⟨i, hheld ▸ hmem⟩

end Runs

/-- A session whose backend sends two keys, to its end. -/
def twoKeysRun : List (ServerAction Unit) :=
  openSession 0 (encodeBackendKeyData (sampleKey 7) ++ encodeBackendKeyData (sampleKey 8)) ++
    [readFrame 0 [sampleDraw 1], readFrame 0 [sampleDraw 2], readFrame 0 []] ++ closeSession 0

theorem tracked_keys_are_the_keys_held_two :
    ∃ s, exec (@Server.step Unit plainQuote {}) {} twoKeysRun = some s ∧
      s.trackedCancelKeys = 1 ∧
      ∀ later t, exec (@Server.step Unit plainQuote {}) s later = some t →
        t.shared.cancels.lookup (sampleKey 1) =
          some (sessionEntry sampleRoute (sampleKey 7)) := by
  obtain ⟨s, hrun, hcount, hheld, hsettled⟩ : ∃ s,
      exec (@Server.step Unit plainQuote {}) {} twoKeysRun = some s ∧
      s.trackedCancelKeys = 1 ∧
      s.held 0 = [(sampleKey 1, sessionEntry sampleRoute (sampleKey 7))] ∧ s.settled 0 :=
    ⟨_, rfl, rfl, rfl, _, rfl, rfl, by simp [Stage.Waiting]⟩
  obtain ⟨-, -, hforever⟩ := @tracked_keys_are_the_keys_held Unit plainQuote _ _ _ hrun
  refine ⟨s, hrun, hcount, fun later t hlater => ?_⟩
  exact hforever 0 later t hsettled hlater _ _ (by simp [hheld])

end Proxy
end PgProxy
