import PgProxy.Proxy.CancelSafety

/-!
# Admission

The slots channel and the set of active connections around `serve`. A connection is
tracked first, asks for a slot, and is untracked last; a connection that got a slot gives
it back however `handle` ended. A cancel request is a connection like any other: it
reaches a backend exactly if it was admitted.
-/

namespace PgProxy
set_option autoImplicit false

namespace Proxy
open Pgwire

variable {Pool : Type}

inductive SlotEvent where
  | acquired
  | rejected
  | released
  deriving DecidableEq

/-- `log` is an auxiliary record of what every connection got from the slots channel. -/
structure Gateway (Pool : Type) where
  server : Server Pool := {}
  activeConn : Finset Nat := ∅
  log : List (Nat × SlotEvent) := []

inductive GatewayAction (Pool : Type) where
  | accept (client : Input)
  | track (i : Nat)
  | conn (i : Nat) (action : ConnAction Pool)

def slotEvent (cfg : Config) (slots : Nat) : ConnAction Pool → Option SlotEvent
  | .acquireSlot _ => some (if (acquireSlot cfg slots).isSome then .acquired else .rejected)
  | .releaseSlot => some .released
  | _ => none

def ConnAction.untracks : ConnAction Pool → Bool
  | .untrack => true
  | _ => false

/-- A goroutine acts once it has tracked its connection. -/
def Gateway.step [GoFmt] (cfg : Config) (s : Gateway Pool) :
    GatewayAction Pool → Option (Gateway Pool)
  | .accept client => (s.server.step cfg (.accept client)).map fun server => { s with server }
  | .track i =>
    match s.server.conns[i]? with
    | some { stage := .tracked, .. } =>
      if i ∈ s.activeConn then none else some { s with activeConn := insert i s.activeConn }
    | _ => none
  | .conn i action =>
    if i ∈ s.activeConn then
      (s.server.step cfg (.conn i action)).map fun server =>
        { server
          activeConn := if action.untracks then s.activeConn.erase i else s.activeConn
          log := s.log ++ (slotEvent cfg s.server.shared.slots action).toList.map (i, ·) }
    else none

/-- What one connection got from the slots channel, in order. -/
def slotEvents (i : Nat) (log : List (Nat × SlotEvent)) : List SlotEvent :=
  (log.filter fun x => x.1 = i).map Prod.snd

/-- The connections between a successful `acquireSlot` and their `releaseSlot`. -/
def Gateway.holders (s : Gateway Pool) : Finset Nat :=
  (Finset.range s.server.conns.length).filter fun i =>
    .acquired ∈ slotEvents i s.log ∧ .released ∉ slotEvents i s.log

theorem slotEvents_append (i j : Nat) (log : List (Nat × SlotEvent)) (events : List SlotEvent) :
    slotEvents i (log ++ events.map (j, ·)) =
      slotEvents i log ++ if j = i then events else [] := by
  simp only [slotEvents, List.filter_append, List.map_append, List.filter_map, List.map_map,
    Function.comp_def]
  by_cases hij : j = i <;> simp [hij]

theorem mem_slotEvents {i : Nat} {log : List (Nat × SlotEvent)} {event : SlotEvent} :
    event ∈ slotEvents i log ↔ (i, event) ∈ log := by
  simp [slotEvents]

/-- The slot events of a connection, by where it is in `serve`. -/
def Stage.SlotHistory : Stage Pool → List SlotEvent → Prop
  | .tracked, events => events = []
  | .admitted, events | .looking _, events | .forwarding _ _, events | .relaying _ _, events
  | .handled _, events => events = [.acquired]
  | .leaving, events | .closed, events => events = [.rejected] ∨ events = [.acquired, .released]

theorem Next.stage_slotHistory (next : Next Pool) : next.stage.SlotHistory [.acquired] := by
  cases next <;> rfl

theorem acquireSlot_limited {cfg : Config} (hmax : 0 < cfg.maxConnections) {slots slots' : Nat}
    (h : acquireSlot cfg slots = some slots') :
    slots < cfg.maxConnections ∧ slots' = slots + 1 := by
  unfold acquireSlot at h
  rw [if_neg (by omega)] at h
  split at h
  · exact ⟨by assumption, (Option.some.inj h).symm⟩
  · simp at h

theorem releaseSlot_limited {cfg : Config} (hmax : 0 < cfg.maxConnections) {slots slots' : Nat}
    (h : releaseSlot cfg slots = some slots') : slots = slots' + 1 := by
  unfold releaseSlot at h
  rw [if_neg (by omega)] at h
  split at h
  · have := Option.some.inj h
    omega
  · simp at h

section Moves
variable [GoFmt] {cfg : Config} {sh sh' : Shared Pool} {c c' : Connection Pool}
variable {a : ConnAction Pool} {events : List (CancelEvent Pool)} {past : List SlotEvent}

theorem ConnMove.slotHistory (h : ConnMove cfg sh c a c' sh' events)
    (hpast : c.stage.SlotHistory past) :
    c'.stage.SlotHistory (past ++ (slotEvent cfg sh.slots a).toList) := by
  cases h with
  | admitted hstage hslot =>
    rw [hstage] at hpast
    obtain rfl : past = [] := hpast
    simp [slotEvent, hslot, Stage.SlotHistory]
  | rejected hstage hslot =>
    rw [hstage] at hpast
    obtain rfl : past = [] := hpast
    simp [slotEvent, hslot, Stage.SlotHistory]
  | handled hstage =>
    rw [hstage] at hpast
    obtain rfl : past = [.acquired] := hpast
    exact Next.stage_slotHistory _
  | lookedUp hstage | forwarded hstage =>
    rw [hstage] at hpast
    obtain rfl : past = [.acquired] := hpast
    rfl
  | relayed hstage hrelay =>
    rw [hstage] at hpast
    obtain rfl : past = [.acquired] := hpast
    unfold Connection.afterRelay
    split <;> rfl
  | slotReleased hstage hslot =>
    rw [hstage] at hpast
    obtain rfl : past = [.acquired] := hpast
    exact Or.inr rfl
  | untracked hstage =>
    rw [hstage] at hpast
    simp only [slotEvent, Option.toList_none, List.append_nil]
    exact hpast

theorem ConnMove.occupancy (h : ConnMove cfg sh c a c' sh' events)
    (hmax : 0 < cfg.maxConnections) (hpast : c.stage.SlotHistory past) :
    (slotEvent cfg sh.slots a = some .acquired ∧ past = [] ∧
      sh.slots < cfg.maxConnections ∧ sh'.slots = sh.slots + 1) ∨
    (slotEvent cfg sh.slots a = some .released ∧ past = [.acquired] ∧
      sh.slots = sh'.slots + 1) ∨
    (slotEvent cfg sh.slots a ≠ some .acquired ∧ slotEvent cfg sh.slots a ≠ some .released ∧
      sh'.slots = sh.slots) := by
  cases h with
  | admitted hstage hslot =>
    rw [hstage] at hpast
    exact Or.inl ⟨by simp [slotEvent, hslot], hpast, acquireSlot_limited hmax hslot⟩
  | slotReleased hstage hslot =>
    rw [hstage] at hpast
    exact Or.inr (Or.inl ⟨rfl, hpast, releaseSlot_limited hmax hslot⟩)
  | rejected hstage hslot => exact Or.inr (Or.inr (by simp [slotEvent, hslot]))
  | handled | lookedUp | forwarded | relayed | untracked =>
    exact Or.inr (Or.inr (by simp [slotEvent]))

theorem ConnMove.closes_iff (h : ConnMove cfg sh c a c' sh' events) :
    c.stage ≠ .closed ∧ (c'.stage = .closed ↔ a.untracks) ∧ c'.stage ≠ .tracked := by
  cases h with
  | handled hstage =>
    refine ⟨by simp [hstage], ?_, ?_⟩ <;>
      cases (handle cfg.tls _ _ c.input).2 <;> simp [Next.stage, ConnAction.untracks]
  | relayed hstage hrelay =>
    refine ⟨by simp [hstage], ?_, ?_⟩ <;> unfold Connection.afterRelay <;> split <;>
      simp [ConnAction.untracks]
  | admitted hstage | rejected hstage | lookedUp hstage | forwarded hstage
  | slotReleased hstage | untracked hstage => simp [hstage, ConnAction.untracks]

end Moves

structure ConnStep [GoFmt] (cfg : Config) (s t : Gateway Pool) (i : Nat) (a : ConnAction Pool)
    (c c' : Connection Pool) (events : List (CancelEvent Pool)) : Prop where
  conn : s.server.conns[i]? = some c
  active : i ∈ s.activeConn
  move : ConnMove cfg s.server.shared c a c' t.server.shared events
  conns : t.server.conns = s.server.conns.set i c'
  journal : t.server.journal = s.server.journal ++ events.map (i, ·)
  activeConn : t.activeConn = if a.untracks then s.activeConn.erase i else s.activeConn
  log : t.log = s.log ++ (slotEvent cfg s.server.shared.slots a).toList.map (i, ·)

theorem Gateway.step_cases [GoFmt] {cfg : Config} {s t : Gateway Pool}
    {action : GatewayAction Pool} (h : s.step cfg action = some t) :
    (∃ client, action = .accept client ∧ t = { s with server := { s.server with
      conns := s.server.conns ++ [{ input := client }] } }) ∨
    (∃ i c, action = .track i ∧ s.server.conns[i]? = some c ∧ c.stage = .tracked ∧
      i ∉ s.activeConn ∧ t = { s with activeConn := insert i s.activeConn }) ∨
    (∃ i a c c' events, action = .conn i a ∧ ConnStep cfg s t i a c c' events) := by
  cases action with
  | accept client => exact Or.inl ⟨client, rfl, (Option.some.inj h).symm⟩
  | track i =>
    unfold Gateway.step at h
    dsimp only at h
    split at h
    · rename_i input effects hc
      split at h
      · simp at h
      · rename_i hi
        exact Or.inr (Or.inl ⟨i, _, rfl, hc, rfl, hi, (Option.some.inj h).symm⟩)
    · simp at h
  | conn i a =>
    unfold Gateway.step at h
    dsimp only at h
    split at h
    · rename_i hi
      obtain ⟨server, hserver, rfl⟩ := Option.map_eq_some_iff.mp h
      rcases Server.step_cases hserver with ⟨client, haction, -⟩ |
        ⟨j, b, c, c', shared, events, haction, hc, hmove, rfl⟩
      · simp at haction
      · obtain ⟨rfl, rfl⟩ : i = j ∧ a = b := by simpa using haction
        exact Or.inr (Or.inr ⟨i, a, c, c', events, rfl, hc, hi, hmove, rfl, rfl, rfl, rfl⟩)
    · simp at h

section ConnSteps
variable [GoFmt] {cfg : Config} {s t : Gateway Pool} {i : Nat} {a : ConnAction Pool}
variable {c c' : Connection Pool} {events : List (CancelEvent Pool)}

theorem ConnStep.lt (h : ConnStep cfg s t i a c c' events) : i < s.server.conns.length :=
  (List.getElem?_eq_some_iff.mp h.conn).1

theorem ConnStep.length (h : ConnStep cfg s t i a c c' events) :
    t.server.conns.length = s.server.conns.length := by
  rw [h.conns, List.length_set]

theorem ConnStep.self (h : ConnStep cfg s t i a c c' events) : t.server.conns[i]? = some c' := by
  rw [h.conns, List.getElem?_set_self h.lt]

theorem ConnStep.other (h : ConnStep cfg s t i a c c' events) {j : Nat} (hj : j ≠ i) :
    t.server.conns[j]? = s.server.conns[j]? := by
  rw [h.conns, List.getElem?_set_ne (Ne.symm hj)]

theorem ConnStep.slotEvents_self (h : ConnStep cfg s t i a c c' events) :
    slotEvents i t.log = slotEvents i s.log ++ (slotEvent cfg s.server.shared.slots a).toList := by
  rw [h.log, slotEvents_append, if_pos rfl]

theorem ConnStep.slotEvents_other (h : ConnStep cfg s t i a c c' events) {j : Nat} (hj : j ≠ i) :
    slotEvents j t.log = slotEvents j s.log := by
  rw [h.log, slotEvents_append, if_neg (Ne.symm hj), List.append_nil]

theorem ConnStep.mem_activeConn (h : ConnStep cfg s t i a c c' events) {j : Nat} :
    j ∈ t.activeConn ↔ j ∈ s.activeConn ∧ (j = i → c'.stage ≠ .closed) := by
  have hcloses := h.move.closes_iff.2.1
  rw [h.activeConn]
  split
  · rename_i huntracks
    rw [Finset.mem_erase]
    have hclosed := hcloses.mpr huntracks
    constructor
    · rintro ⟨hne, hj⟩
      exact ⟨hj, fun heq => absurd heq hne⟩
    · rintro ⟨hj, hne⟩
      exact ⟨fun heq => hne heq hclosed, hj⟩
  · rename_i huntracks
    have hopen : c'.stage ≠ .closed := fun hclosed => huntracks (hcloses.mp hclosed)
    simp [hopen]

end ConnSteps

/-- What the log and the set of active connections say about every connection. -/
structure Recorded (s : Gateway Pool) : Prop where
  history : ∀ {i : Nat} {c : Connection Pool}, s.server.conns[i]? = some c →
    c.stage.SlotHistory (slotEvents i s.log)
  fresh : ∀ {i : Nat}, s.server.conns.length ≤ i → slotEvents i s.log = []
  active : ∀ {i : Nat}, i ∈ s.activeConn →
    ∃ c, s.server.conns[i]? = some c ∧ c.stage ≠ .closed
  entered : ∀ {i : Nat} {c : Connection Pool}, s.server.conns[i]? = some c →
    c.stage ≠ .tracked → c.stage ≠ .closed → i ∈ s.activeConn

theorem Recorded.start : Recorded ({} : Gateway Pool) :=
  ⟨by simp, fun _ => rfl, by simp, by simp⟩

theorem Recorded.step [GoFmt] {cfg : Config} {s t : Gateway Pool} {action : GatewayAction Pool}
    (h : Recorded s) (hstep : s.step cfg action = some t) : Recorded t := by
  rcases Gateway.step_cases hstep with ⟨client, -, rfl⟩ | ⟨i, c, -, hc, hstage, -, rfl⟩ |
    ⟨i, a, c, c', events, -, hconn⟩
  · refine ⟨?_, fun hi => h.fresh (Nat.le_trans (by simp) hi), ?_, ?_⟩
    · intro i c hc
      rcases conn_of_accept hc with hold | ⟨rfl, rfl⟩
      · exact h.history hold
      · exact h.fresh (Nat.le_refl _)
    · intro i hi
      obtain ⟨c, hc, hopen⟩ := h.active hi
      have hlt := (List.getElem?_eq_some_iff.mp hc).1
      exact ⟨c, by rw [List.getElem?_append_left hlt, hc], hopen⟩
    · intro i c hc htracked hopen
      rcases conn_of_accept hc with hold | ⟨-, rfl⟩
      · exact h.entered hold htracked hopen
      · exact absurd rfl htracked
  · refine ⟨h.history, h.fresh, ?_, ?_⟩
    · intro j hj
      rcases Finset.mem_insert.mp hj with rfl | hj
      · exact ⟨c, hc, by simp [hstage]⟩
      · exact h.active hj
    · intro j d hd htracked hopen
      exact Finset.mem_insert_of_mem (h.entered hd htracked hopen)
  · refine ⟨?_, ?_, ?_, ?_⟩
    · intro j d hd
      by_cases hj : j = i
      · subst hj
        obtain rfl := Option.some.inj (hconn.self.symm.trans hd)
        rw [hconn.slotEvents_self]
        exact hconn.move.slotHistory (h.history hconn.conn)
      · rw [hconn.other hj] at hd
        rw [hconn.slotEvents_other hj]
        exact h.history hd
    · intro j hj
      rw [hconn.length] at hj
      rw [hconn.slotEvents_other (Nat.ne_of_gt (Nat.lt_of_lt_of_le hconn.lt hj))]
      exact h.fresh hj
    · intro j hj
      obtain ⟨hactive, hopen⟩ := hconn.mem_activeConn.mp hj
      by_cases hji : j = i
      · exact ⟨c', hji ▸ hconn.self, hopen hji⟩
      · rw [hconn.other hji]
        exact h.active hactive
    · intro j d hd htracked hopen
      rw [hconn.mem_activeConn]
      by_cases hj : j = i
      · subst hj
        obtain rfl := Option.some.inj (hconn.self.symm.trans hd)
        exact ⟨hconn.active, fun _ => hopen⟩
      · rw [hconn.other hj] at hd
        exact ⟨h.entered hd htracked hopen, fun heq => absurd heq hj⟩

theorem Recorded.history_of_mem {s : Gateway Pool} (h : Recorded s) {i : Nat} {event : SlotEvent}
    (hmem : (i, event) ∈ s.log) : ∃ stage : Stage Pool, stage.SlotHistory (slotEvents i s.log) := by
  cases hc : s.server.conns[i]? with
  | none =>
    have hevent := mem_slotEvents.mpr hmem
    rw [h.fresh (List.getElem?_eq_none_iff.mp hc)] at hevent
    simp at hevent
  | some c => exact ⟨c.stage, h.history hc⟩

theorem Recorded.rejected {s : Gateway Pool} (h : Recorded s) {i : Nat}
    (hmem : (i, .rejected) ∈ s.log) : slotEvents i s.log = [.rejected] := by
  obtain ⟨stage, hhistory⟩ := h.history_of_mem hmem
  have hevent := mem_slotEvents.mpr hmem
  cases stage with
  | tracked | admitted | looking | forwarding | relaying | handled =>
    rw [show slotEvents i s.log = _ from hhistory] at hevent
    simp at hevent
  | leaving | closed =>
    rcases hhistory with hhistory | hhistory
    · exact hhistory
    · simp [hhistory] at hevent

/-! ## Slots -/

/-- The occupancy of the slots channel, if it has a limit. -/
structure Accounted (cfg : Config) (s : Gateway Pool) : Prop where
  recorded : Recorded s
  occupancy : s.server.shared.slots = s.holders.card
  bound : s.server.shared.slots ≤ cfg.maxConnections

theorem Accounted.start (cfg : Config) : Accounted cfg ({} : Gateway Pool) :=
  ⟨Recorded.start, rfl, Nat.zero_le _⟩

theorem mem_holders {s : Gateway Pool} {i : Nat} :
    i ∈ s.holders ↔ i < s.server.conns.length ∧
      .acquired ∈ slotEvents i s.log ∧ .released ∉ slotEvents i s.log := by
  simp [Gateway.holders]

theorem card_holders_succ {s t : Gateway Pool} {i : Nat} (hi : i ∉ s.holders)
    (h : ∀ j, j ∈ t.holders ↔ j = i ∨ j ∈ s.holders) : t.holders.card = s.holders.card + 1 := by
  have hinsert : t.holders = insert i s.holders := by
    ext j
    rw [h, Finset.mem_insert]
  rw [hinsert, Finset.card_insert_of_notMem hi]

theorem Recorded.holders_accept {s : Gateway Pool} (h : Recorded s) (client : Input) :
    { s with server := { s.server with
      conns := s.server.conns ++ [{ input := client }] } : Gateway Pool }.holders = s.holders := by
  ext i
  simp only [mem_holders, List.length_append, List.length_singleton]
  by_cases hi : i = s.server.conns.length
  · simp [hi, h.fresh (Nat.le_refl _)]
  · have hlt : i < s.server.conns.length + 1 ↔ i < s.server.conns.length := by omega
    rw [hlt]

theorem Accounted.all_closed {cfg : Config} {s : Gateway Pool} (h : Accounted cfg s)
    (hclosed : ∀ c ∈ s.server.conns, c.stage = .closed) :
    s.server.shared.slots = 0 ∧ s.activeConn = ∅ := by
  constructor
  · rw [h.occupancy, Finset.card_eq_zero, Finset.eq_empty_iff_forall_notMem]
    intro i hi
    obtain ⟨hlt, hacquired, hreleased⟩ := mem_holders.mp hi
    have hhistory := h.recorded.history (List.getElem?_eq_getElem hlt)
    rw [hclosed _ (List.getElem_mem hlt)] at hhistory
    rcases hhistory with hevents | hevents
    · simp [hevents] at hacquired
    · simp [hevents] at hreleased
  · rw [Finset.eq_empty_iff_forall_notMem]
    intro i hi
    obtain ⟨c, hc, hopen⟩ := h.recorded.active hi
    exact hopen (hclosed c (List.mem_of_getElem? hc))

section Slots
variable [GoFmt] {cfg : Config} {s t : Gateway Pool} {i : Nat} {a : ConnAction Pool}
variable {c c' : Connection Pool} {events : List (CancelEvent Pool)}

theorem Accounted.conn (hmax : 0 < cfg.maxConnections) (h : Accounted cfg s)
    (hconn : ConnStep cfg s t i a c c' events) :
    t.server.shared.slots = t.holders.card ∧ t.server.shared.slots ≤ cfg.maxConnections := by
  have hothers : ∀ j ≠ i, j ∈ t.holders ↔ j ∈ s.holders := by
    intro j hj
    rw [mem_holders, mem_holders, hconn.length, hconn.slotEvents_other hj]
  have hself : i ∈ t.holders ↔ .acquired ∈ slotEvents i t.log ∧ .released ∉ slotEvents i t.log := by
    rw [mem_holders, hconn.length]
    exact and_iff_right hconn.lt
  have hbefore : i ∈ s.holders ↔
      .acquired ∈ slotEvents i s.log ∧ .released ∉ slotEvents i s.log := by
    rw [mem_holders]
    exact and_iff_right hconn.lt
  have hoccupancy := h.occupancy
  have hbound := h.bound
  rw [hconn.slotEvents_self] at hself
  rcases hconn.move.occupancy hmax (h.recorded.history hconn.conn) with
    ⟨hevent, hpast, hfree, hslots⟩ | ⟨hevent, hpast, hslots⟩ | ⟨hacquired, hreleased, hslots⟩
  · rw [hpast, hevent] at hself
    rw [hpast] at hbefore
    have hcard : t.holders.card = s.holders.card + 1 := by
      refine card_holders_succ (i := i) (by simp [hbefore]) fun j => ?_
      by_cases hj : j = i
      · simp [hj, hself]
      · simp [hj, hothers j hj]
    omega
  · rw [hpast, hevent] at hself
    rw [hpast] at hbefore
    have hcard : s.holders.card = t.holders.card + 1 := by
      refine card_holders_succ (i := i) (by simp [hself]) fun j => ?_
      by_cases hj : j = i
      · simp [hj, hbefore]
      · simp [hj, hothers j hj]
    omega
  · have hholders : t.holders = s.holders := by
      ext j
      by_cases hj : j = i
      · rw [hj, hself, hbefore]
        simp [hacquired, hreleased]
      · exact hothers j hj
    rw [hholders]
    omega

theorem Accounted.step (hmax : 0 < cfg.maxConnections) {action : GatewayAction Pool}
    (h : Accounted cfg s) (hstep : s.step cfg action = some t) : Accounted cfg t := by
  have hrecorded := h.recorded.step hstep
  rcases Gateway.step_cases hstep with ⟨client, -, rfl⟩ | ⟨i, c, -, -, -, -, rfl⟩ |
    ⟨i, a, c, c', events, -, hconn⟩
  · exact ⟨hrecorded, by rw [h.recorded.holders_accept]; exact h.occupancy, h.bound⟩
  · exact ⟨hrecorded, h.occupancy, h.bound⟩
  · obtain ⟨hoccupancy, hbound⟩ := h.conn hmax hconn
    exact ⟨hrecorded, hoccupancy, hbound⟩

theorem Accounted.release_enabled (hmax : 0 < cfg.maxConnections) (h : Accounted cfg s)
    {err : Option GoError} (hc : s.server.conns[i]? = some c) (hstage : c.stage = .handled err) :
    ∃ t, s.step cfg (.conn i .releaseSlot) = some t ∧
      s.server.shared.slots = t.server.shared.slots + 1 := by
  have hevents : slotEvents i s.log = [.acquired] := by
    have hhistory := h.recorded.history hc
    rwa [hstage] at hhistory
  have hholds : i ∈ s.holders := by
    rw [mem_holders, hevents]
    exact ⟨(List.getElem?_eq_some_iff.mp hc).1, by simp, by simp⟩
  have hpos : 0 < s.server.shared.slots := by
    rw [h.occupancy]
    exact Finset.card_pos.mpr ⟨i, hholds⟩
  have hactive : i ∈ s.activeConn := h.recorded.entered hc (by simp [hstage]) (by simp [hstage])
  have hslot : releaseSlot cfg s.server.shared.slots = some (s.server.shared.slots - 1) := by
    rw [releaseSlot, if_neg (Nat.ne_of_gt hmax), if_pos hpos]
  refine ⟨_, by simp [Gateway.step, hactive, Server.step, hc, Connection.step, hstage, hslot]; rfl,
    ?_⟩
  exact (Nat.succ_pred_eq_of_pos hpos).symm

theorem Accounted.rejected_keeps (hmax : 0 < cfg.maxConnections) (h : Accounted cfg s)
    (hrejected : (i, .rejected) ∈ s.log) (hstep : s.step cfg (.conn i a) = some t) :
    t.server.shared.slots = s.server.shared.slots := by
  rcases Gateway.step_cases hstep with ⟨client, haction, -⟩ | ⟨j, c, haction, -⟩ |
    ⟨j, b, c, c', events, haction, hconn⟩
  · simp at haction
  · simp at haction
  · obtain ⟨rfl, rfl⟩ : i = j ∧ a = b := by simpa using haction
    have hevents := h.recorded.rejected hrejected
    rcases hconn.move.occupancy hmax (h.recorded.history hconn.conn) with
      ⟨-, hpast, -⟩ | ⟨-, hpast, -⟩ | ⟨-, -, hslots⟩
    · simp [hevents] at hpast
    · simp [hevents] at hpast
    · exact hslots

/-- In every run with a limit on connections: the occupancy of the slots channel is the
number of connections between a successful `acquireSlot` and their `releaseSlot`, and
within the limit; a connection about to release its slot can; a rejected connection
releases none and its steps leave the occupancy alone; and once all connections have
ended, no slot is taken and none is active. -/
theorem slots_account_for_connections (hmax : 0 < cfg.maxConnections)
    {actions : List (GatewayAction Pool)} (hrun : exec (Gateway.step cfg) {} actions = some s) :
    s.server.shared.slots = s.holders.card ∧
    s.server.shared.slots ≤ cfg.maxConnections ∧
    (∀ i c err, s.server.conns[i]? = some c → c.stage = .handled err →
      ∃ t, s.step cfg (.conn i .releaseSlot) = some t ∧
        s.server.shared.slots = t.server.shared.slots + 1) ∧
    (∀ i, (i, .rejected) ∈ s.log → (i, .released) ∉ s.log ∧
      ∀ a t, s.step cfg (.conn i a) = some t →
        t.server.shared.slots = s.server.shared.slots) ∧
    ((∀ c ∈ s.server.conns, c.stage = .closed) →
      s.server.shared.slots = 0 ∧ s.activeConn = ∅) := by
  have h : Accounted cfg s := exec_invariant (Accounted.step hmax) (Accounted.start cfg) hrun
  refine ⟨h.occupancy, h.bound, fun _ _ _ => h.release_enabled hmax, ?_, h.all_closed⟩
  intro i hrejected
  refine ⟨fun hreleased => ?_, fun a t hstep => h.rejected_keeps hmax hrejected hstep⟩
  simp [← mem_slotEvents, h.recorded.rejected hrejected] at hreleased

end Slots

/-- The session of connection 0 takes the only slot and gets a key; then connection 1
asks to cancel it. -/
def saturatedRun : List (GatewayAction Unit) :=
  [.accept sampleClient, .track 0, .conn 0 (.acquireSlot .full),
    .conn 0 (.handle { sampleEnv with
      network := sampleNetwork (encodeBackendKeyData (sampleKey 7)) } sampleTable),
    .conn 0 (.relay (.frame .full [sampleDraw 1])),
    .accept (cancelClient (sampleKey 1)), .track 1, .conn 1 (.acquireSlot .full),
    .conn 1 .untrack]

theorem slots_account_for_connections_saturated :
    ∃ s, exec (@Gateway.step Unit plainQuote { maxConnections := 1 }) {} saturatedRun = some s ∧
      s.log = [(0, .acquired), (1, .rejected)] ∧ s.holders.card = 1 ∧
      s.server.shared.slots = s.holders.card ∧ (1, .released) ∉ s.log := by
  obtain ⟨s, hrun, hlog, hcard⟩ : ∃ s,
      exec (@Gateway.step Unit plainQuote { maxConnections := 1 }) {} saturatedRun = some s ∧
      s.log = [(0, .acquired), (1, .rejected)] ∧ s.holders.card = 1 := ⟨_, rfl, rfl, by decide⟩
  obtain ⟨hslots, -, -, hrejected, -⟩ :=
    @slots_account_for_connections Unit plainQuote _ _ (by decide) _ hrun
  exact ⟨s, hrun, hlog, hcard, hslots, (hrejected 1 (by simp [hlog])).1⟩

/-! ## Cancel requests -/

/-- The first packet of the client is a CancelRequest for the key. -/
def CancelClient [GoFmt] (input : Input) (key : CancelRequest) : Prop :=
  ∃ packet rest, readStartupPacket input = (.ok packet, rest) ∧ packet.isCancelRequest ∧
    packet.cancel = key

theorem handle_cancelClient [GoFmt] {input : Input} {key : CancelRequest}
    (h : CancelClient input key) (tls : Option ServerTLS) (table : Table Pool)
    {env : HandleEnv Pool} (hdeadline : env.setDeadline = none) :
    handle tls table env input = ([], .cancel key) := by
  obtain ⟨packet, rest, hread, hcancel, rfl⟩ := h
  have hcode : packet.code = cancelRequestCode := by
    simpa [StartupPacket.isCancelRequest] using hcancel
  have hssl : packet.isSSLRequest = false := by
    rw [StartupPacket.isSSLRequest, hcode]
    decide
  have hgss : packet.isGSSEncRequest = false := by
    rw [StartupPacket.isGSSEncRequest, hcode]
    decide
  simp [handle, hdeadline, negotiate, maxNegotiationRounds, negotiateLoop, hread, hssl, hgss,
    hcancel, handleStartup]

/-- The dial of the entry's backend succeeds, with the TLS upgrade if it is enabled. -/
def Reaches (net : Network Pool) (entry : CancelEntry Pool) : Prop :=
  ∃ input, net.dial entry.backendAddr = .ok input ∧ (entry.tls.enabled →
    ∃ conn, (upgradeBackendTLS net entry.backendAddr input entry.route).2 = .ok conn)

/-- What a cancel connection needs from outside: a handshake deadline that can be set,
the session's entry at the lookup, and a backend that takes the packet. -/
def CancelGoesWell (i : Nat) (key : CancelRequest) (entry : CancelEntry Pool)
    (s : Gateway Pool) : GatewayAction Pool → Prop
  | .conn j (.handle env _) => j = i → env.setDeadline = none
  | .conn j .lookup => j = i → s.server.shared.cancels.lookup key = some entry
  | .conn j (.forward net w) => j = i → Reaches net entry ∧ w = .full
  | _ => True

/-- The backend key of the entry went to its backend, under its TLS policy. -/
def CancelSent (key : CancelRequest) (entry : CancelEntry Pool)
    (events : List (CancelEvent Pool)) : Prop :=
  ∃ conn, .sent key conn (encodeCancelRequest entry.backendKey) ∈ events ∧
    conn.address = entry.backendAddr ∧
    conn.tls = if entry.tls.enabled then some (clientTLS entry.route) else none

theorem forwardEntry_reaches {net : Network Pool} {entry : CancelEntry Pool}
    (h : Reaches net entry) : ∃ conn,
      (forwardEntry net .full entry).sent = some (conn, encodeCancelRequest entry.backendKey) := by
  obtain ⟨input, hdial, hupgrade⟩ := h
  by_cases htls : entry.tls.enabled = true
  · obtain ⟨conn, hconn⟩ := hupgrade htls
    exact ⟨conn, by simp [forwardEntry, hdial, htls, hconn, WriteOutcome.written]⟩
  · exact ⟨_, by simp [forwardEntry, hdial, htls, WriteOutcome.written]; rfl⟩

/-- Where a cancel connection is, by what it got from the slots channel and what it did. -/
def Stage.Cancelling (key : CancelRequest) (entry : CancelEntry Pool) (past : List SlotEvent)
    (events : List (CancelEvent Pool)) : Stage Pool → Prop
  | .tracked | .admitted => True
  | .looking request => request = key
  | .forwarding request found => request = key ∧ found = some entry
  | .relaying _ _ => False
  | .handled _ => CancelSent key entry events
  | .leaving | .closed =>
    past = [.acquired, .released] ∧ CancelSent key entry events ∨ past = [.rejected] ∧ events = []

section Cancels
variable [GoFmt] {cfg : Config} {s t : Gateway Pool} {i : Nat}
variable {key : CancelRequest} {entry : CancelEntry Pool}

theorem ConnMove.cancelling {a : ConnAction Pool} {c c' : Connection Pool} {sh : Shared Pool}
    {events past' : List (CancelEvent Pool)} {past : List SlotEvent}
    (h : ConnMove cfg s.server.shared c a c' sh events)
    (hwell : CancelGoesWell i key entry s (.conn i a)) (hclient : CancelClient c.input key)
    (hslots : c.stage.SlotHistory past) (hhistory : c.stage.History past')
    (hcancel : c.stage.Cancelling key entry past past') :
    c'.stage.Cancelling key entry (past ++ (slotEvent cfg s.server.shared.slots a).toList)
      (past' ++ events.filter CancelEvent.isForwarding) := by
  cases h with
  | admitted => trivial
  | rejected hstage hslot =>
    rw [hstage] at hslots hhistory
    obtain rfl : past = [] := hslots
    obtain rfl : past' = [] := hhistory
    exact Or.inr ⟨by simp [slotEvent, hslot], rfl⟩
  | handled hstage =>
    rw [handle_cancelClient hclient cfg.tls _ (hwell rfl)]
    rfl
  | lookedUp hstage =>
    rw [hstage] at hcancel
    obtain rfl : _ = key := hcancel
    exact ⟨rfl, hwell rfl⟩
  | forwarded hstage =>
    rw [hstage] at hcancel
    obtain ⟨rfl, rfl⟩ := hcancel
    obtain ⟨hreaches, rfl⟩ := hwell rfl
    obtain ⟨conn, hconn⟩ := forwardEntry_reaches hreaches
    obtain ⟨haddress, htls, -⟩ := forwardEntry_sent hconn
    refine ⟨conn, List.mem_append_right _ ?_, haddress, htls⟩
    rw [CancelForward.events_forwarding]
    simp [CancelForward.events, forwardCancel, hconn]
  | relayed hstage =>
    rw [hstage] at hcancel
    exact hcancel.elim
  | slotReleased hstage =>
    rw [hstage] at hslots hcancel
    obtain rfl : past = [.acquired] := hslots
    rw [List.filter_nil, List.append_nil]
    exact Or.inl ⟨rfl, hcancel⟩
  | untracked hstage =>
    rw [hstage] at hcancel
    simp only [slotEvent, Option.toList_none, List.filter_nil, List.append_nil]
    exact hcancel

theorem Gateway.step_server {action : GatewayAction Pool} (h : s.step cfg action = some t) :
    t.server = s.server ∨ ∃ b, s.server.step cfg b = some t.server := by
  cases action with
  | accept client => exact Or.inr ⟨.accept client, by rw [← Option.some.inj h]; rfl⟩
  | track i =>
    rcases Gateway.step_cases h with ⟨_, haction, -⟩ | ⟨_, _, -, -, -, -, rfl⟩ |
      ⟨_, _, _, _, _, haction, -⟩
    · simp at haction
    · exact Or.inl rfl
    · simp at haction
  | conn i a =>
    unfold Gateway.step at h
    dsimp only at h
    split at h
    · obtain ⟨server, hserver, rfl⟩ := Option.map_eq_some_iff.mp h
      exact Or.inr ⟨_, hserver⟩
    · simp at h

structure CancelWatched (i : Nat) (key : CancelRequest) (entry : CancelEntry Pool)
    (s : Gateway Pool) : Prop where
  recorded : Recorded s
  journaled : Journaled s.server
  cancelling : ∀ {c : Connection Pool}, s.server.conns[i]? = some c → CancelClient c.input key →
    c.stage.Cancelling key entry (slotEvents i s.log) (forwardingEvents i s.server.journal)

theorem CancelWatched.step {action : GatewayAction Pool} (h : CancelWatched i key entry s)
    (hwell : CancelGoesWell i key entry s action) (hstep : s.step cfg action = some t) :
    CancelWatched i key entry t := by
  have hjournaled : Journaled t.server := by
    rcases Gateway.step_server hstep with hsame | ⟨b, hserver⟩
    · exact hsame ▸ h.journaled
    · exact h.journaled.step hserver
  refine ⟨h.recorded.step hstep, hjournaled, ?_⟩
  intro d hd hclient
  rcases Gateway.step_cases hstep with ⟨client, -, rfl⟩ | ⟨_, _, -, -, -, -, rfl⟩ |
    ⟨j, a, c, c', events, rfl, hconn⟩
  · rcases conn_of_accept hd with hold | ⟨-, rfl⟩
    · exact h.cancelling hold hclient
    · trivial
  · exact h.cancelling hd hclient
  · rw [hconn.journal, forwardingEvents_append]
    by_cases hj : j = i
    · subst hj
      obtain rfl := Option.some.inj (hconn.self.symm.trans hd)
      rw [hconn.move.input] at hclient
      rw [hconn.slotEvents_self, if_pos rfl]
      exact hconn.move.cancelling hwell hclient (h.recorded.history hconn.conn)
        (h.journaled.history hconn.conn) (h.cancelling hconn.conn hclient)
    · rw [hconn.other (Ne.symm hj)] at hd
      rw [hconn.slotEvents_other (Ne.symm hj), if_neg hj, List.append_nil]
      exact h.cancelling hd hclient

def SlotFree (cfg : Config) (i : Nat) (s : Gateway Pool) : GatewayAction Pool → Prop
  | .conn j (.acquireSlot _) =>
    j = i → cfg.maxConnections = 0 ∨ s.server.shared.slots < cfg.maxConnections
  | _ => True

theorem not_rejected_of_slotFree {action : GatewayAction Pool} (h : (i, .rejected) ∉ s.log)
    (hfree : SlotFree cfg i s action) (hstep : s.step cfg action = some t) :
    (i, .rejected) ∉ t.log := by
  rcases Gateway.step_cases hstep with ⟨_, -, rfl⟩ | ⟨_, _, -, -, -, -, rfl⟩ |
    ⟨j, a, c, c', events, rfl, hconn⟩
  · exact h
  · exact h
  · rw [hconn.log]
    intro hmem
    rcases List.mem_append.mp hmem with hmem | hmem
    · exact h hmem
    · obtain ⟨event, hevent, heq⟩ := List.mem_map.mp hmem
      obtain ⟨rfl, rfl⟩ := Prod.mk.inj heq
      have hrejected : slotEvent cfg s.server.shared.slots a = some .rejected := by
        simpa using hevent
      cases a with
      | acquireSlot fatal =>
        have hsome : (acquireSlot cfg s.server.shared.slots).isSome = true := by
          rcases hfree rfl with hmax | hslots
          · simp [acquireSlot, hmax]
          · have hmax : cfg.maxConnections ≠ 0 := by omega
            simp [acquireSlot, hmax, hslots]
        simp [slotEvent, hsome] at hrejected
      | handle | lookup | forward | relay | releaseSlot | untrack => simp [slotEvent] at hrejected

/-- In every run in which the backend of a session can be reached and the session is still
registered at the lookup: a connection that asks to cancel it has, when it ends, sent the
session's backend key to that backend if and only if it was admitted; and it is admitted
if it finds a free slot. -/
theorem cancel_sent_iff_admitted {actions : List (GatewayAction Pool)} {c : Connection Pool}
    (hrun : exec (Gateway.step cfg) {} actions = some s)
    (hwell : Always (Gateway.step cfg) (CancelGoesWell i key entry) {} actions)
    (hc : s.server.conns[i]? = some c) (hclient : CancelClient c.input key)
    (hended : c.stage = .closed) :
    (CancelSent key entry (forwardingEvents i s.server.journal) ↔ (i, .acquired) ∈ s.log) ∧
    (Always (Gateway.step cfg) (SlotFree cfg i) {} actions →
      CancelSent key entry (forwardingEvents i s.server.journal)) := by
  have h : CancelWatched i key entry s := by
    refine exec_always CancelWatched.step ⟨Recorded.start, Journaled.start, ?_⟩ hwell hrun
    intro c hc
    simp at hc
  have hcancel := h.cancelling hc hclient
  rw [hended] at hcancel
  rcases hcancel with ⟨hslots, hsent⟩ | ⟨hslots, hevents⟩
  · refine ⟨iff_of_true hsent ?_, fun _ => hsent⟩
    simp [← mem_slotEvents, hslots]
  · refine ⟨iff_of_false ?_ ?_, fun hfree => ?_⟩
    · rintro ⟨conn, hmem, -⟩
      simp [hevents] at hmem
    · simp [← mem_slotEvents, hslots]
    · have hnot := exec_always not_rejected_of_slotFree (by simp) hfree hrun
      simp [← mem_slotEvents, hslots] at hnot

end Cancels

/-- The same two connections with room for both, up to the lookup of the second. -/
def roomyRun : List (GatewayAction Unit) :=
  saturatedRun.dropLast ++ [.conn 1 (.handle sampleEnv sampleTable)]

def cancelRun : List (GatewayAction Unit) :=
  [.conn 1 .lookup, .conn 1 (.forward sampleEnv.network .full), .conn 1 .releaseSlot,
    .conn 1 .untrack]

theorem sampleEnv_reaches :
    Reaches sampleEnv.network (sessionEntry sampleRoute (sampleKey 7)) :=
  ⟨_, rfl, fun htls => absurd htls (by decide)⟩

theorem cancel_sent_iff_admitted_with_room :
    ∃ s, exec (@Gateway.step Unit plainQuote { maxConnections := 2 }) {} (roomyRun ++ cancelRun) =
        some s ∧ (1, .acquired) ∈ s.log ∧
      CancelSent (sampleKey 1) (sessionEntry sampleRoute (sampleKey 7))
        (forwardingEvents 1 s.server.journal) := by
  have hwell : Always (@Gateway.step Unit plainQuote { maxConnections := 2 })
      (CancelGoesWell 1 (sampleKey 1) (sessionEntry sampleRoute (sampleKey 7))) {}
      (roomyRun ++ cancelRun) := by
    refine always_append (always_of_forall ?_ _) fun t ht => ⟨fun _ => ?_, ?_⟩
    · simp [roomyRun, saturatedRun, CancelGoesWell, sampleEnv]
    · obtain rfl := Option.some.inj ht
      decide
    · intro t _
      refine always_of_forall ?_ t
      simp [CancelGoesWell, sampleEnv_reaches]
  obtain ⟨s, c, hrun, hlog, hc, hclient, hended⟩ : ∃ s c,
      exec (@Gateway.step Unit plainQuote { maxConnections := 2 }) {} (roomyRun ++ cancelRun) =
        some s ∧ (1, .acquired) ∈ s.log ∧ s.server.conns[1]? = some c ∧
      @CancelClient plainQuote c.input (sampleKey 1) ∧ c.stage = .closed :=
    ⟨_, _, rfl, by decide, rfl, ⟨_, _, rfl, rfl, rfl⟩, rfl⟩
  exact ⟨s, hrun, hlog,
    (@cancel_sent_iff_admitted Unit plainQuote _ _ _ _ _ _ _ hrun hwell hc hclient hended).1.mpr
      hlog⟩

/-- At the limit a request to cancel the session that takes the slot is turned away before
its packet is read: the key stays in the registry, and nothing is sent. -/
theorem saturated_gateway_drops_a_cancel :
    ∃ s c, exec (@Gateway.step Unit plainQuote { maxConnections := 1 }) {} saturatedRun = some s ∧
      s.server.shared.cancels.lookup (sampleKey 1) =
        some (sessionEntry sampleRoute (sampleKey 7)) ∧
      Reaches sampleEnv.network (sessionEntry sampleRoute (sampleKey 7)) ∧
      s.server.conns[1]? = some c ∧
      @CancelClient plainQuote c.input (sampleKey 1) ∧ c.stage = .closed ∧
      forwardingEvents 1 s.server.journal = [] :=
  ⟨_, _, rfl, by decide, sampleEnv_reaches, rfl, ⟨_, _, rfl, rfl, rfl⟩, rfl, rfl⟩

end Proxy
end PgProxy
