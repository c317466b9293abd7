import PgProxy.Proxy.KeyLifetime

/-!
# Where a cancellation goes

The journal orders every issue, lookup, dial and cancel packet of a run. The registry
always answers with the last issue of a key; a cancel connection keeps the answer it got
and acts on it, whatever happens to the key in between.
-/

namespace PgProxy
set_option autoImplicit false

namespace Proxy
open Pgwire

variable {Pool : Type}

def CancelEvent.issuedEntry (key : CancelRequest) : CancelEvent Pool → Option (CancelEntry Pool)
  | .issued key' entry => if key' = key then some entry else none
  | _ => none

/-- The entry recorded by the most recent issue that returned the key. -/
def lastIssued (key : CancelRequest) (journal : List (Nat × CancelEvent Pool)) :
    Option (CancelEntry Pool) :=
  (journal.filterMap fun x => x.2.issuedEntry key).getLast?

theorem lastIssued_append (key : CancelRequest) (journal : List (Nat × CancelEvent Pool))
    (i : Nat) (events : List (CancelEvent Pool)) :
    lastIssued key (journal ++ events.map (i, ·)) =
      (events.filterMap (CancelEvent.issuedEntry key)).getLast?.or (lastIssued key journal) := by
  simp [lastIssued, List.filterMap_map, List.getLast?_append]

theorem lastIssued_quiet {key : CancelRequest} {journal later : List (Nat × CancelEvent Pool)}
    (h : ∀ x ∈ later, x.2.issuedEntry key = none) :
    lastIssued key (journal ++ later) = lastIssued key journal := by
  rw [lastIssued, List.filterMap_append, List.filterMap_eq_nil_iff.mpr h, List.append_nil]
  rfl

/-- The events of a connection that carries a CancelRequest. -/
def CancelEvent.isForwarding : CancelEvent Pool → Bool
  | .lookedUp _ _ | .dialled _ | .sent _ _ _ => true
  | .issued _ _ | .released _ => false

def forwardingEvents (i : Nat) (journal : List (Nat × CancelEvent Pool)) :
    List (CancelEvent Pool) :=
  (journal.filter fun x => x.1 = i ∧ x.2.isForwarding).map Prod.snd

theorem forwardingEvents_append (i j : Nat) (journal : List (Nat × CancelEvent Pool))
    (events : List (CancelEvent Pool)) :
    forwardingEvents i (journal ++ events.map (j, ·)) = forwardingEvents i journal ++
      if j = i then events.filter CancelEvent.isForwarding else [] := by
  simp only [forwardingEvents, List.filter_append, List.map_append, List.filter_map,
    List.map_map, Function.comp_def]
  by_cases hij : j = i <;> simp [hij]

theorem mem_of_forwardingEvents {i : Nat} {event : CancelEvent Pool}
    {journal : List (Nat × CancelEvent Pool)} (h : event ∈ forwardingEvents i journal) :
    (i, event) ∈ journal := by
  obtain ⟨⟨j, event⟩, hx, rfl⟩ := List.mem_map.mp h
  obtain ⟨hmem, hj⟩ := List.mem_filter.mp hx
  obtain ⟨rfl, -⟩ : j = i ∧ event.isForwarding = true := by simpa using hj
  exact hmem

/-- The forwarding events of a connection, by where it is in `serve`. -/
def Stage.History : Stage Pool → List (CancelEvent Pool) → Prop
  | .tracked, events | .admitted, events | .looking _, events | .relaying _ _, events =>
    events = []
  | .forwarding request entry, events => events = [.lookedUp request entry]
  | .handled _, events | .leaving, events | .closed, events =>
    events = [] ∨ ∃ request entry net w,
      events = .lookedUp request entry :: (forwardCancel net w entry).events request

theorem relayEvents_not_forwarding (before after : Downstream Pool) :
    (relayEvents before after).filter CancelEvent.isForwarding = [] := by
  rw [List.filter_eq_nil_iff]
  intro event hevent
  rcases List.mem_append.mp hevent with h | h
  · obtain ⟨x, -, rfl⟩ := List.mem_map.mp h
    simp [CancelEvent.isForwarding]
  · split at h
    · obtain ⟨x, -, rfl⟩ := List.mem_map.mp h
      simp [CancelEvent.isForwarding]
    · simp at h

theorem CancelForward.events_forwarding (key : CancelRequest) (f : CancelForward Pool) :
    (f.events key).filter CancelEvent.isForwarding = f.events key := by
  rw [List.filter_eq_self]
  intro event hevent
  rcases List.mem_append.mp hevent with h | h <;> obtain ⟨x, -, rfl⟩ := List.mem_map.mp h <;> rfl

theorem Next.stage_history (next : Next Pool) : next.stage.History [] := by
  cases next with
  | returned err => exact Or.inl rfl
  | cancel request => rfl
  | relay client backend route label => rfl

theorem relayEvents_issued (key : CancelRequest) (before after : Downstream Pool) :
    (relayEvents before after).filterMap (CancelEvent.issuedEntry key) =
      (after.minted.drop before.minted.length).filterMap fun x =>
        if x.1 = key then some x.2 else none := by
  have hreleased : ∀ keys : List CancelRequest,
      (keys.map (CancelEvent.released : CancelRequest → CancelEvent Pool)).filterMap
        (CancelEvent.issuedEntry key) = [] := by
    intro keys
    simp [CancelEvent.issuedEntry]
  rw [relayEvents, List.filterMap_append, List.filterMap_map]
  split <;> simp [hreleased, Function.comp_def, CancelEvent.issuedEntry]

theorem CancelForward.events_issued (key request : CancelRequest) (f : CancelForward Pool) :
    (f.events request).filterMap (CancelEvent.issuedEntry key) = [] := by
  simp [CancelForward.events, CancelEvent.issuedEntry]

section Connections
variable [GoFmt] {cfg : Config} {sh sh' : Shared Pool} {c c' : Connection Pool}
variable {a : ConnAction Pool} {events : List (CancelEvent Pool)}

theorem ConnMove.history (h : ConnMove cfg sh c a c' sh' events)
    {past : List (CancelEvent Pool)} (hpast : c.stage.History past) :
    c'.stage.History (past ++ events.filter CancelEvent.isForwarding) := by
  cases h with
  | admitted hstage _ =>
    rw [hstage] at hpast
    obtain rfl : past = [] := hpast
    rfl
  | rejected hstage _ =>
    rw [hstage] at hpast
    obtain rfl : past = [] := hpast
    exact Or.inl rfl
  | handled hstage =>
    rw [hstage] at hpast
    obtain rfl : past = [] := hpast
    exact Next.stage_history _
  | lookedUp hstage =>
    rw [hstage] at hpast
    obtain rfl : past = [] := hpast
    rfl
  | @forwarded net w request entry hstage =>
    rw [hstage] at hpast
    obtain rfl : past = [.lookedUp request entry] := hpast
    rw [CancelForward.events_forwarding]
    exact Or.inr ⟨request, entry, net, w, rfl⟩
  | relayed hstage _ =>
    rw [hstage] at hpast
    obtain rfl : past = [] := hpast
    rw [relayEvents_not_forwarding]
    unfold Connection.afterRelay
    split
    · rfl
    · exact Or.inl rfl
  | slotReleased hstage _ | untracked hstage =>
    rw [hstage] at hpast
    rw [List.filter_nil, List.append_nil]
    exact hpast

theorem ConnMove.lookedUp_event (h : ConnMove cfg sh c a c' sh' events) {m : Nat}
    {key : CancelRequest} {entry : Option (CancelEntry Pool)}
    (hm : events[m]? = some (.lookedUp key entry)) : m = 0 ∧ entry = sh.cancels.lookup key := by
  cases h with
  | lookedUp hstage =>
    cases m with
    | zero =>
      simp only [List.getElem?_cons_zero, Option.some.injEq, CancelEvent.lookedUp.injEq] at hm
      obtain ⟨rfl, rfl⟩ := hm
      exact ⟨rfl, rfl⟩
    | succ m => simp at hm
  | relayed hstage hrelay =>
    have hforwarding := List.filter_eq_nil_iff.mp (relayEvents_not_forwarding _ _) _
      (List.mem_of_getElem? hm)
    simp [CancelEvent.isForwarding] at hforwarding
  | forwarded hstage =>
    rcases List.mem_append.mp (List.mem_of_getElem? hm) with h | h <;>
      obtain ⟨x, -, hx⟩ := List.mem_map.mp h <;> simp at hx
  | admitted | rejected | handled | slotReleased | untracked => simp at hm

theorem ConnMove.lastIssued (h : ConnMove cfg sh c a c' sh' events)
    {journal : List (Nat × CancelEvent Pool)}
    (hreg : ∀ key entry, sh.cancels.lookup key = some entry →
      Proxy.lastIssued key journal = some entry) (i : Nat) (key : CancelRequest)
    (entry : CancelEntry Pool) (hkey : sh'.cancels.lookup key = some entry) :
    Proxy.lastIssued key (journal ++ events.map (i, ·)) = some entry := by
  rw [lastIssued_append]
  cases h with
  | relayed hstage hrelay =>
    rw [relayEvents_issued]
    cases Relay.step_registryMove hrelay with
    | none _ hminted _ => simpa [hminted] using hreg key entry hkey
    -- the only action that overwrites an entry, and its event says so
    | @issue _ _ key' backendKey _ _ _ _ hminted _ _ =>
      by_cases hkk : key = key'
      · subst hkk
        simpa [hminted] using hkey
      · rw [Finmap.lookup_insert_of_ne _ hkk] at hkey
        simpa [hminted, Ne.symm hkk] using hreg key entry hkey
    | release _ hminted _ _ =>
      have hbefore := Downstream.releaseStep_lookup hkey
      simpa [hminted] using hreg key entry hbefore
  | forwarded =>
    rw [CancelForward.events_issued]
    exact hreg key entry hkey
  | lookedUp => simpa [CancelEvent.issuedEntry] using hreg key entry hkey
  | admitted | rejected | handled | slotReleased | untracked => exact hreg key entry hkey

end Connections

/-- What the journal of a run records about the registry and about every connection. -/
structure Journaled (s : Server Pool) : Prop where
  registry : ∀ key entry, s.shared.cancels.lookup key = some entry →
    lastIssued key s.journal = some entry
  lookups : ∀ {n i : Nat} {key : CancelRequest} {entry : CancelEntry Pool},
    s.journal[n]? = some (i, .lookedUp key (some entry)) →
      lastIssued key (s.journal.take n) = some entry
  history : ∀ {i : Nat} {c : Connection Pool}, s.conns[i]? = some c →
    c.stage.History (forwardingEvents i s.journal)
  fresh : ∀ {i : Nat}, s.conns.length ≤ i → forwardingEvents i s.journal = []

theorem Journaled.start : Journaled ({} : Server Pool) :=
  ⟨by simp, by simp, by simp, fun _ => rfl⟩

theorem Journaled.step [GoFmt] {cfg : Config} {s t : Server Pool} {action : ServerAction Pool}
    (h : Journaled s) (hstep : s.step cfg action = some t) : Journaled t := by
  rcases Server.step_cases hstep with ⟨client, -, rfl⟩ |
    ⟨i, a, c, c', shared, events, -, hc, hmove, rfl⟩
  · refine ⟨h.registry, h.lookups, ?_, ?_⟩
    · intro i c hc
      rcases conn_of_accept hc with hold | ⟨rfl, rfl⟩
      · exact h.history hold
      · exact h.fresh (Nat.le_refl _)
    · intro i hi
      exact h.fresh (Nat.le_trans (by simp) hi)
  · refine ⟨hmove.lastIssued h.registry i, ?_, ?_, ?_⟩
    · intro n j key entry hn
      rw [List.getElem?_append] at hn
      split at hn
      · rename_i hlt
        rw [List.take_append_of_le_length (Nat.le_of_lt hlt)]
        exact h.lookups hn
      · rename_i hge
        obtain ⟨event, hevent, heq⟩ := Option.map_eq_some_iff.mp (List.getElem?_map .. ▸ hn)
        obtain ⟨-, rfl⟩ := Prod.mk.inj heq
        -- the lookup is the only event of its action, so before it stands the old journal
        obtain ⟨hzero, hentry⟩ := hmove.lookedUp_event hevent
        rw [show n = s.journal.length by omega, List.take_left]
        exact h.registry key entry hentry.symm
    · intro j d hd
      rw [forwardingEvents_append]
      rcases conn_of_set hd with ⟨rfl, rfl⟩ | ⟨hj, hold⟩
      · rw [if_pos rfl]
        exact hmove.history (h.history hc)
      · rw [if_neg (Ne.symm hj), List.append_nil]
        exact h.history hold
    · intro j hj
      have hi : i < s.conns.length := (List.getElem?_eq_some_iff.mp hc).1
      rw [List.length_set] at hj
      rw [forwardingEvents_append, if_neg (by omega), List.append_nil]
      exact h.fresh hj

/-! ## What is sent -/

section Sent
variable {net : Network Pool} {w : WriteOutcome} {entry : CancelEntry Pool}
variable {conn : BackendConn Pool} {b : Bytes}

theorem forwardEntry_sent (h : (forwardEntry net w entry).sent = some (conn, b)) :
    conn.address = entry.backendAddr ∧
      conn.tls = (if entry.tls.enabled then some (clientTLS entry.route) else none) ∧
      b = w.written (encodeCancelRequest entry.backendKey) := by
  unfold forwardEntry at h
  dsimp only at h
  split at h
  · simp at h
  · split at h
    · simp at h
    · rename_i conn' htarget
      simp only [Option.some.injEq, Prod.mk.injEq] at h
      obtain ⟨rfl, rfl⟩ := h
      by_cases htls : entry.tls.enabled = true
      · rw [if_pos htls] at htarget
        obtain ⟨haddress, hupgraded⟩ := upgradeBackendTLS_ok htarget
        exact ⟨haddress, by rw [hupgraded.config, if_pos htls], rfl⟩
      · rw [if_neg htls] at htarget
        injection htarget with htarget
        subst htarget
        exact ⟨rfl, by rw [if_neg htls], rfl⟩

variable {stage : Stage Pool} {events : List (CancelEvent Pool)} {key : CancelRequest}

theorem Stage.History.shape (h : stage.History events) :
    events = [] ∨ ∃ request entry, events = [.lookedUp request entry] ∨ ∃ net w,
      events = .lookedUp request entry :: (forwardCancel net w entry).events request := by
  cases stage with
  | tracked | admitted | looking | relaying => exact Or.inl h
  | forwarding request entry => exact Or.inr ⟨request, entry, Or.inl h⟩
  | handled | leaving | closed =>
    rcases h with h | ⟨request, entry, net, w, h⟩
    · exact Or.inl h
    · exact Or.inr ⟨request, entry, Or.inr ⟨net, w, h⟩⟩

theorem Stage.History.sent (h : stage.History events) (hsent : .sent key conn b ∈ events) :
    ∃ entry net w, events = .lookedUp key (some entry) :: (forwardEntry net w entry).events key ∧
      (forwardEntry net w entry).sent = some (conn, b) := by
  rcases h.shape with rfl | ⟨request, entry, rfl | ⟨net, w, rfl⟩⟩
  · simp at hsent
  · simp at hsent
  · rcases List.mem_cons.mp hsent with hlook | hmem
    · simp at hlook
    · rcases List.mem_append.mp hmem with hdial | hsend
      · simp at hdial
      · obtain ⟨x, hx, heq⟩ := List.mem_map.mp hsend
        simp only [CancelEvent.sent.injEq] at heq
        obtain ⟨rfl, rfl, rfl⟩ := heq
        cases entry with
        | none => simp [forwardCancel] at hx
        | some entry => exact ⟨entry, net, w, rfl, by simpa [forwardCancel] using hx⟩

theorem Stage.History.unknown (h : stage.History events) (hnone : .lookedUp key none ∈ events) :
    events = [.lookedUp key none] := by
  rcases h.shape with rfl | ⟨request, entry, rfl | ⟨net, w, rfl⟩⟩
  · simp at hnone
  · rw [List.mem_singleton.mp hnone]
  · rcases List.mem_cons.mp hnone with hlook | hmem
    · simp only [CancelEvent.lookedUp.injEq] at hlook
      obtain ⟨rfl, rfl⟩ := hlook
      rfl
    · rcases List.mem_append.mp hmem with hother | hother <;> simp at hother

end Sent

theorem Journaled.history_of_mem {s : Server Pool} (h : Journaled s) {i : Nat}
    {event : CancelEvent Pool} (hmem : (i, event) ∈ s.journal) (hforwarding : event.isForwarding) :
    event ∈ forwardingEvents i s.journal ∧
      ∃ stage : Stage Pool, stage.History (forwardingEvents i s.journal) := by
  have hevent : event ∈ forwardingEvents i s.journal :=
    List.mem_map.mpr ⟨(i, event), List.mem_filter.mpr ⟨hmem, by simpa using hforwarding⟩, rfl⟩
  refine ⟨hevent, ?_⟩
  cases hc : s.conns[i]? with
  | none =>
    rw [h.fresh (List.getElem?_eq_none_iff.mp hc)] at hevent
    simp at hevent
  | some c => exact ⟨c.stage, h.history hc⟩

theorem Journaled.lookup_before {s : Server Pool} (h : Journaled s)
    {before after : List (Nat × CancelEvent Pool)} {i : Nat} {key : CancelRequest}
    {conn : BackendConn Pool} {b : Bytes}
    (hsplit : s.journal = before ++ (i, .sent key conn b) :: after) :
    ∃ entry net w, (i, .lookedUp key (some entry)) ∈ before ∧
      (forwardEntry net w entry).sent = some (conn, b) := by
  have hjournal : (i, CancelEvent.sent key conn b) ∈ s.journal := by simp [hsplit]
  obtain ⟨hmem, stage, hhistory⟩ := h.history_of_mem hjournal rfl
  obtain ⟨entry, net, w, hevents, hsent⟩ := hhistory.sent hmem
  refine ⟨entry, net, w, ?_, hsent⟩
  have hparts : forwardingEvents i s.journal = forwardingEvents i before ++
      .sent key conn b :: forwardingEvents i after := by
    simp [forwardingEvents, hsplit, CancelEvent.isForwarding]
  rw [hparts] at hevents
  -- The forwarding events of a connection start with its lookup, and the packet is not it.
  cases hbefore : forwardingEvents i before with
  | nil => simp [hbefore] at hevents
  | cons first rest =>
    rw [hbefore, List.cons_append, List.cons.injEq] at hevents
    have hfirst : first ∈ forwardingEvents i before := by simp [hbefore]
    exact hevents.1 ▸ mem_of_forwardingEvents hfirst

/-- In every run of the gateway: issuing takes a free key and releasing forgets one key,
and nothing else changes; a cancel packet for a key goes to the backend, with the key and
under the TLS policy, recorded by the last issue of that key before its lookup, which is
the last issue of all unless the key was issued again in between; and a request for an
unknown key reaches no backend. -/
theorem cancel_goes_to_the_session_looked_up [GoFmt] {cfg : Config}
    {actions : List (ServerAction Pool)} {s : Server Pool}
    (hrun : exec (Server.step cfg) {} actions = some s) :
    (∀ (cancels cancels' : CancelRegistry Pool) entry draws rest key,
      cancels.issue entry draws = some (key, cancels', rest) →
      cancels.lookup key = none ∧ cancels'.lookup key = some entry ∧
      ∀ key' ≠ key, cancels'.lookup key' = cancels.lookup key') ∧
    (∀ (cancels : CancelRegistry Pool) key, ∀ key' ≠ key,
      (cancels.release key).lookup key' = cancels.lookup key') ∧
    (∀ before after i key conn b, s.journal = before ++ (i, .sent key conn b) :: after →
      ∃ earlier between entry w,
        before = earlier ++ (i, .lookedUp key (some entry)) :: between ∧
        lastIssued key earlier = some entry ∧
        ((∀ x ∈ between, x.2.issuedEntry key = none) → lastIssued key before = some entry) ∧
        conn.address = entry.backendAddr ∧
        conn.tls = (if entry.tls.enabled then some (clientTLS entry.route) else none) ∧
        b = WriteOutcome.written (encodeCancelRequest entry.backendKey) w) ∧
    (∀ i key, (i, .lookedUp key none) ∈ s.journal →
      (∀ address, (i, .dialled address) ∉ s.journal) ∧
      ∀ key conn b, (i, .sent key conn b) ∉ s.journal) := by
  have hs : Journaled s := exec_invariant Journaled.step Journaled.start hrun
  refine ⟨?_, fun _ _ _ hne => Finmap.lookup_erase_ne hne, ?_, ?_⟩
  · intro cancels cancels' entry draws rest key hissue
    obtain ⟨hfree, rfl⟩ := CancelRegistry.issue_spec hissue
    exact ⟨hfree, Finmap.lookup_insert _, fun _ hne => Finmap.lookup_insert_of_ne _ hne⟩
  · intro before after i key conn b hsplit
    obtain ⟨entry, net, w, hlook, hsent⟩ := hs.lookup_before hsplit
    obtain ⟨earlier, between, rfl⟩ := List.append_of_mem hlook
    obtain ⟨haddress, htls, hbytes⟩ := forwardEntry_sent hsent
    have hlast : lastIssued key earlier = some entry := by
      have hat : s.journal[earlier.length]? = some (i, .lookedUp key (some entry)) := by
        simp [hsplit]
      have hlast := hs.lookups hat
      rwa [hsplit, List.append_assoc, List.take_left] at hlast
    refine ⟨earlier, between, entry, w, rfl, hlast, fun hquiet => ?_, haddress, htls, hbytes⟩
    rw [lastIssued_quiet, hlast]
    simpa [CancelEvent.issuedEntry] using hquiet
  · intro i key hnone
    obtain ⟨hmem, stage, hhistory⟩ := hs.history_of_mem hnone rfl
    have honly := hhistory.unknown hmem
    have hother : ∀ event : CancelEvent Pool, event.isForwarding → (i, event) ∈ s.journal →
        event = .lookedUp key none := by
      intro event hforwarding hevent
      have := (hs.history_of_mem hevent hforwarding).1
      rwa [honly, List.mem_singleton] at this
    exact ⟨fun address hdial => by simpa using hother _ rfl hdial,
      fun key' conn b hsent => by simpa using hother _ rfl hsent⟩

def cancelClient (key : CancelRequest) : Input := ⟨[encodeCancelRequest key], .sentinel .eof⟩

/-- Connection 1 looks up the key of the session of connection 0. -/
def lookupRun : List (ServerAction Unit) :=
  oneKeyRun 7 ++ [.accept (cancelClient (sampleKey 1)), .conn 1 (.acquireSlot .full),
    .conn 1 (.handle sampleEnv sampleTable), .conn 1 .lookup]

def forwardSample : ServerAction Unit := .conn 1 (.forward sampleEnv.network .full)

theorem cancel_goes_to_the_session_looked_up_at_once :
    ∃ s conn b before, exec (@Server.step Unit plainQuote {}) {} (lookupRun ++ [forwardSample]) =
        some s ∧
      s.journal = before ++ [(1, .sent (sampleKey 1) conn b)] ∧
      ∃ (entry : CancelEntry Unit) (w : WriteOutcome), conn.address = entry.backendAddr ∧
        b = WriteOutcome.written (encodeCancelRequest entry.backendKey) w := by
  obtain ⟨s, conn, b, before, hrun, hsplit⟩ : ∃ s conn b before,
      exec (@Server.step Unit plainQuote {}) {} (lookupRun ++ [forwardSample]) = some s ∧
      s.journal = before ++ [(1, .sent (sampleKey 1) conn b)] :=
    ⟨_, _, _, [(0, .issued _ _), (1, .lookedUp _ _), (1, .dialled _)], rfl, rfl⟩
  obtain ⟨-, -, hsent, -⟩ :=
    @cancel_goes_to_the_session_looked_up Unit plainQuote _ _ _ hrun
  obtain ⟨_, _, entry, w, -, -, -, haddress, -, hbytes⟩ := hsent _ _ _ _ _ _ hsplit
  exact ⟨s, conn, b, before, hrun, hsplit, entry, w, haddress, hbytes⟩

/-- Between the lookup and the send the session ends and the key is drawn again. -/
theorem cancel_misses_a_reissued_key :
    ∃ s conn b before, exec (@Server.step Unit plainQuote {}) {}
        (lookupRun ++ [readFrame 0 [], .conn 0 (.relay .release)] ++
          openSession 2 (encodeBackendKeyData (sampleKey 9)) ++
          [readFrame 2 [sampleDraw 1], forwardSample]) = some s ∧
      s.journal = before ++ [(1, .sent (sampleKey 1) conn b)] ∧
      lastIssued (sampleKey 1) before = some (sessionEntry sampleRoute (sampleKey 9)) ∧
      b = encodeCancelRequest (sampleKey 7) ∧
      encodeCancelRequest (sampleKey 7) ≠ encodeCancelRequest (sampleKey 9) :=
  ⟨_, _, _, [(0, .issued _ _), (1, .lookedUp _ _), (0, .released _), (2, .issued _ _),
    (1, .dialled _)], rfl, rfl, by decide, rfl, by decide⟩

end Proxy
end PgProxy
