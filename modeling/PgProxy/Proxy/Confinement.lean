import PgProxy.Proxy.CancelPath
import PgProxy.Proxy.MetricLabels

/-!
# Whom the gateway talks to

`handle` dials the address of the route its table has for the client, and `forwardCancel` the
address a session has left in the registry. So the gateway reaches no address but those its
clients have asked for by name, and a cancellation goes where the session went that issued its key.
-/

namespace PgProxy
set_option autoImplicit false

namespace Proxy
open Pgwire

variable {Pool : Type}

def Effect.contacts : Effect Pool → Option GoString
  | .plaintext address _ => some address
  | .backend conn _ => some conn.address
  | .client _ | .connection _ _ | .dialDuration _ | .active _ => none

def CancelEvent.contacts : CancelEvent Pool → Option GoString
  | .dialled address => some address
  | .sent _ conn _ => some conn.address
  | .issued _ _ | .released _ | .lookedUp _ _ => none

/-! ## Sessions -/

theorem dialBackend_address {net : Network Pool} {route : Route Pool} {conn : BackendConn Pool}
    (h : (dialBackend net route).conn = .ok conn) : conn.address = route.address := by
  unfold dialBackend at h
  split at h
  · simp at h
  · split at h
    · simp at h
    · split at h
      · exact (upgradeBackendTLS_ok h).1
      · injection h with h
        rw [← h]

theorem dialEffects_contacts {route : Route Pool} {dialled : Dialled Pool} {effect : Effect Pool}
    {address : GoString} (hmem : effect ∈ dialEffects route dialled)
    (h : effect.contacts = some address) : address = route.address := by
  rcases mem_dialEffects hmem with rfl | ⟨b, rfl⟩
  · simp [Effect.contacts] at h
  · exact (Option.some.inj h).symm

section Handle
variable [GoFmt] {tls : Option ServerTLS} {table : Table Pool} {env : HandleEnv Pool}
variable {effect : Effect Pool} {address : GoString}

theorem StartupMove.contacts {client : Conn} {startup : StartupPacket}
    {effects : List (Effect Pool)} {next : Next Pool}
    (h : StartupMove table env client startup effects next) (hmem : effect ∈ effects)
    (hcontacts : effect.contacts = some address) :
    ∃ database route, requestedDatabase startup = some database ∧
      table.lookup database = some route ∧ address = route.address := by
  -- after the dial comes the packet, and then nothing that is sent
  have hrouted : ∀ {database : GoString} {route : Route Pool} {backend : BackendConn Pool}
      {b : Bytes} {tail : List (Effect Pool)}, requestedDatabase startup = some database →
      table.lookup database = some route → (dialBackend env.network route).conn = .ok backend →
      effect ∈ dialEffects route (dialBackend env.network route) ++ .backend backend b :: tail →
      effect ∉ tail → ∃ database route, requestedDatabase startup = some database ∧
        table.lookup database = some route ∧ address = route.address := by
    intro database route backend b tail hdatabase hroute hdial hmem htail
    refine ⟨database, route, hdatabase, hroute, ?_⟩
    rcases List.mem_append.mp hmem with hmem | hmem
    · exact dialEffects_contacts hmem hcontacts
    · rcases List.mem_cons.mp hmem with rfl | hmem
      · rw [← dialBackend_address hdial]
        exact (Option.some.inj hcontacts).symm
      · exact absurd hmem htail
  cases h with
  | cancel => simp at hmem
  | nameless | noRoute =>
    rcases List.mem_pair.mp hmem with rfl | rfl <;> simp [writeFatal, Effect.contacts] at hcontacts
  | unreachable hdatabase hroute =>
    refine ⟨_, _, hdatabase, hroute, ?_⟩
    rcases List.mem_append.mp hmem with hmem | hmem
    · exact dialEffects_contacts hmem hcontacts
    · rcases List.mem_pair.mp hmem with rfl | rfl <;>
        simp [writeFatal, Effect.contacts] at hcontacts
  | cut hdatabase hroute hdial =>
    apply hrouted hdatabase hroute hdial hmem
    intro htail
    obtain rfl := List.mem_singleton.mp htail
    simp [Effect.contacts] at hcontacts
  | stalled hdatabase hroute hdial => exact hrouted hdatabase hroute hdial hmem List.not_mem_nil
  | proxied hdatabase hroute hdial =>
    apply hrouted hdatabase hroute hdial hmem
    intro htail
    rcases List.mem_pair.mp htail with rfl | rfl <;> simp [Effect.contacts] at hcontacts

theorem handle_contacts {raw : Input} (hmem : effect ∈ (handle tls table env raw).1)
    (hcontacts : effect.contacts = some address) :
    ∃ database route, AsksFor tls env table raw database route ∧ address = route.address := by
  have hquiet : effect ∉ (negotiate tls env raw).1 := by
    intro hnego
    obtain ⟨b, rfl⟩ := negotiateLoop_effects _ _ _ hnego
    simp [Effect.contacts] at hcontacts
  have hmove := handle_move tls table env raw
  generalize (handle tls table env raw).1 = effects, (handle tls table env raw).2 = next
    at hmem hmove
  cases hmove with
  | undated => simp at hmem
  | refused hnego =>
    rw [hnego] at hquiet
    rcases List.mem_append.mp hmem with hmem | hmem
    · exact absurd hmem hquiet
    · split at hmem
      · simp at hmem
      · obtain rfl := List.mem_singleton.mp hmem
        simp [Effect.contacts] at hcontacts
  | @started _ _ client startup _ hnego hstartup =>
    rcases List.mem_append.mp hmem with hmem | hmem
    · exact absurd (hnego ▸ hmem) hquiet
    · obtain ⟨database, route, hdatabase, hroute, haddress⟩ := hstartup.contacts hmem hcontacts
      exact ⟨database, route, ⟨⟨client, startup, by rw [hnego], hdatabase⟩, hroute⟩, haddress⟩

end Handle

/-! ## Cancellations -/

/-- Connection `i` has looked this key up, and of those who had issued it by then `j` was the
last. -/
def Cancels (journal : List (Nat × CancelEvent Pool)) (i j : Nat) (key : CancelRequest)
    (entry : CancelEntry Pool) : Prop :=
  ∃ earlier between later, journal = earlier ++ (j, .issued key entry) ::
      (between ++ (i, .lookedUp key (some entry)) :: later) ∧
    ∀ x ∈ between, x.2.issuedEntry key = none

theorem split_of_lastIssued {key : CancelRequest} {journal : List (Nat × CancelEvent Pool)}
    {entry : CancelEntry Pool} (h : lastIssued key journal = some entry) :
    ∃ earlier j between, journal = earlier ++ (j, .issued key entry) :: between ∧
      ∀ x ∈ between, x.2.issuedEntry key = none := by
  obtain ⟨entries, hentries⟩ := List.getLast?_eq_some_iff.mp h
  obtain ⟨front, tail, rfl, -, htail⟩ := List.filterMap_eq_append_iff.mp hentries
  obtain ⟨quiet, ⟨j, event⟩, between, rfl, -, hevent, hbetween⟩ :=
    List.filterMap_eq_cons_iff.mp htail
  obtain rfl := issued_of_issuedEntry hevent
  exact ⟨front ++ quiet, j, between, (List.append_assoc _ _ _).symm,
    List.filterMap_eq_nil_iff.mp hbetween⟩

theorem forwardCancel_contacts {net : Network Pool} {w : WriteOutcome}
    {entry : Option (CancelEntry Pool)} {key : CancelRequest} {event : CancelEvent Pool}
    {address : GoString} (hevent : event ∈ (forwardCancel net w entry).events key)
    (h : event.contacts = some address) :
    ∃ found, entry = some found ∧ address = found.backendAddr := by
  cases entry with
  | none => simp [forwardCancel, CancelForward.events] at hevent
  | some found =>
    refine ⟨found, rfl, ?_⟩
    rcases List.mem_append.mp hevent with hdialled | hsent
    · obtain ⟨a, ha, rfl⟩ := List.mem_map.mp hdialled
      have hsome : (forwardEntry net w found).dialled = some found.backendAddr := by
        unfold forwardEntry
        dsimp only
        split
        · rfl
        · split <;> rfl
      rw [forwardCancel, hsome] at ha
      obtain rfl := List.mem_singleton.mp ha
      exact (Option.some.inj h).symm
    · obtain ⟨⟨conn, b⟩, hx, rfl⟩ := List.mem_map.mp hsent
      rw [← (forwardEntry_sent (Option.mem_toList.mp hx)).1]
      exact (Option.some.inj h).symm

theorem Journaled.cancels {s : Server Pool} (h : Journaled s) {i : Nat} {event : CancelEvent Pool}
    {address : GoString} (hmem : (i, event) ∈ s.journal)
    (haddress : event.contacts = some address) :
    forwardingEvents i s.journal ≠ [] ∧
      ∃ j key entry, Cancels s.journal i j key entry ∧ address = entry.backendAddr := by
  have hforwarding : event.isForwarding := by
    cases event <;> simp [CancelEvent.contacts, CancelEvent.isForwarding] at haddress ⊢
  obtain ⟨hevent, stage, hhistory⟩ := h.history_of_mem hmem hforwarding
  refine ⟨List.ne_nil_of_mem hevent, ?_⟩
  rcases hhistory.shape with hnil | ⟨key, entry, honly | ⟨net, w, hevents⟩⟩
  · simp [hnil] at hevent
  · rw [honly, List.mem_singleton] at hevent
    simp [hevent, CancelEvent.contacts] at haddress
  · rw [hevents] at hevent
    rcases List.mem_cons.mp hevent with rfl | hsent
    · simp [CancelEvent.contacts] at haddress
    · obtain ⟨found, rfl, rfl⟩ := forwardCancel_contacts hsent haddress
      have hlooked : (i, CancelEvent.lookedUp key (some found)) ∈ s.journal :=
        mem_of_forwardingEvents (by rw [hevents]; exact List.mem_cons_self)
      obtain ⟨before, later, hjournal⟩ := List.append_of_mem hlooked
      have hat : s.journal[before.length]? = some (i, .lookedUp key (some found)) := by
        simp [hjournal]
      have hlast := h.lookups hat
      rw [hjournal, List.take_left] at hlast
      obtain ⟨earlier, j, between, rfl, hquiet⟩ := split_of_lastIssued hlast
      exact ⟨j, key, found, ⟨earlier, between, later, by simp [hjournal], hquiet⟩, rfl⟩

/-! ## Runs -/

/-- Which connections have been through `handle`, with what they met there and the table they
were given. -/
abbrev Handlings (Pool : Type) := Nat → HandleEnv Pool → Table Pool → Prop

section Runs
variable [GoFmt] {H : Handlings Pool}

/-- The client of connection `i` has asked for a name that leads to this address by the table it
was given. -/
def LedTo (tls : Option ServerTLS) (H : Handlings Pool) (i : Nat) (raw : Input)
    (address : GoString) : Prop :=
  ∃ env table database route, H i env table ∧ AsksFor tls env table raw database route ∧
    address = route.address

structure Connection.Confined (tls : Option ServerTLS) (H : Handlings Pool) (i : Nat)
    (c : Connection Pool) : Prop where
  relaying : ∀ route relay, c.stage = .relaying route relay → LedTo tls H i c.input route.address
  effects : ∀ effect ∈ c.effects, ∀ address, effect.contacts = some address →
    LedTo tls H i c.input address

omit [GoFmt] in
/-- From here on a connection looks up no key. -/
def Stage.isPast : Stage Pool → Bool
  | .relaying _ _ | .handled _ | .leaving | .closed => true
  | .tracked | .admitted | .looking _ | .forwarding _ _ => false

/-- A key was issued by a session, for the backend that its client has asked for. -/
structure Server.Issuer (tls : Option ServerTLS) (H : Handlings Pool) (s : Server Pool) (j : Nat)
    (address : GoString) : Prop where
  asked : ∃ c, s.conns[j]? = some c ∧ c.stage.isPast = true ∧ LedTo tls H j c.input address
  forwards : forwardingEvents j s.journal = []

/-- What was sent for a client, and the keys its session has left behind, belong to the name it
has asked for. -/
structure Server.Confined (tls : Option ServerTLS) (H : Handlings Pool) (s : Server Pool) :
    Prop where
  journaled : Journaled s
  conns : ∀ i (c : Connection Pool), s.conns[i]? = some c → c.Confined tls H i
  issued : ∀ j key entry, (j, .issued key entry) ∈ s.journal → s.Issuer tls H j entry.backendAddr

section Mono
variable {H' : Handlings Pool} (himp : ∀ i env table, H i env table → H' i env table)
include himp

variable {tls : Option ServerTLS}

theorem LedTo.mono {i : Nat} {raw : Input} {address : GoString} (h : LedTo tls H i raw address) :
    LedTo tls H' i raw address := by
  obtain ⟨env, table, database, route, hhandled, hasks⟩ := h
  exact ⟨env, table, database, route, himp i env table hhandled, hasks⟩

theorem Server.Confined.mono {s : Server Pool} (h : s.Confined tls H) : s.Confined tls H' := by
  refine ⟨h.journaled, ?_, ?_⟩
  · intro i c hc
    have hconfined := h.conns i c hc
    exact ⟨fun route relay hstage => (hconfined.relaying route relay hstage).mono himp,
      fun effect heffect address haddress =>
        (hconfined.effects effect heffect address haddress).mono himp⟩
  · intro j key entry hissued
    obtain ⟨⟨c, hc, hpast, hled⟩, hforwards⟩ := h.issued j key entry hissued
    exact ⟨⟨c, hc, hpast, hled.mono himp⟩, hforwards⟩

end Mono

variable {cfg : Config} {sh sh' : Shared Pool} {i : Nat} {c c' : Connection Pool}
variable {a : ConnAction Pool} {events : List (CancelEvent Pool)}

theorem Connection.Confined.move (hc : c.Confined cfg.tls H i)
    (hhandled : ∀ env table, a = .handle env table → H i env table)
    (hmove : ConnMove cfg sh c a c' sh' events) : c'.Confined cfg.tls H i := by
  constructor
  · intro route relay hstage
    rw [hmove.input]
    rcases hmove.relaying hstage with ⟨relay', hrelaying⟩ |
      ⟨env, table, client, backend, label, rfl, hnext⟩
    · exact hc.relaying route relay' hrelaying
    · obtain ⟨startup, hnego, hdatabase, hroute, -⟩ := handle_relay_inv hnext
      exact ⟨env, table, label, route, hhandled env table rfl,
        ⟨⟨client, startup, hnego, hdatabase⟩, hroute⟩, rfl⟩
  · intro effect heffect address haddress
    rw [hmove.input]
    cases hmove with
    | admitted | lookedUp | forwarded | slotReleased | untracked =>
      exact hc.effects effect heffect address haddress
    | rejected =>
      rcases List.mem_append.mp heffect with hold | hnew
      · exact hc.effects effect hold address haddress
      · rcases List.mem_pair.mp hnew with rfl | rfl <;>
          simp [writeFatal, Effect.contacts] at haddress
    | @handled env table hstage =>
      rcases List.mem_append.mp heffect with hold | hnew
      · exact hc.effects effect hold address haddress
      · obtain ⟨database, route, hasks⟩ := handle_contacts hnew haddress
        exact ⟨env, table, database, route, hhandled env table rfl, hasks⟩
    | relayed =>
      unfold Connection.afterRelay at heffect
      split at heffect
      · exact hc.effects effect heffect address haddress
      · rcases List.mem_append.mp heffect with hold | hnew
        · exact hc.effects effect hold address haddress
        · obtain rfl := List.mem_singleton.mp hnew
          simp [Effect.contacts] at haddress

theorem ConnMove.isPast (h : ConnMove cfg sh c a c' sh' events) (hpast : c.stage.isPast = true) :
    c'.stage.isPast = true ∧ events.filter CancelEvent.isForwarding = [] := by
  cases h with
  | admitted hstage | rejected hstage | handled hstage | lookedUp hstage | forwarded hstage =>
    simp [hstage, Stage.isPast] at hpast
  | relayed =>
    refine ⟨?_, relayEvents_not_forwarding _ _⟩
    unfold Connection.afterRelay
    split <;> rfl
  | slotReleased | untracked => exact ⟨rfl, rfl⟩

theorem Server.Issuer.move {s : Server Pool} {shared : Shared Pool} {j : Nat} {address : GoString}
    (h : s.Issuer cfg.tls H j address) (hc : s.conns[i]? = some c)
    (hmove : ConnMove cfg s.shared c a c' shared events) :
    Server.Issuer cfg.tls H
      { shared, conns := s.conns.set i c', journal := s.journal ++ events.map (i, ·) } j
      address := by
  obtain ⟨⟨d, hd, hpast, hled⟩, hforwards⟩ := h
  by_cases hji : j = i
  · subst hji
    obtain rfl := Option.some.inj (hc.symm.trans hd)
    obtain ⟨hpast', hquiet⟩ := hmove.isPast hpast
    refine ⟨⟨c', List.getElem?_set_self (List.getElem?_eq_some_iff.mp hc).1, hpast',
      hmove.input ▸ hled⟩, ?_⟩
    rw [forwardingEvents_append, hforwards, if_pos rfl, hquiet, List.append_nil]
  · refine ⟨⟨d, by rw [List.getElem?_set_ne (Ne.symm hji), hd], hpast, hled⟩, ?_⟩
    rw [forwardingEvents_append, hforwards, if_neg (Ne.symm hji), List.append_nil]

theorem Server.Confined.start (tls : Option ServerTLS) (H : Handlings Pool) :
    ({} : Server Pool).Confined tls H :=
  ⟨Journaled.start, by simp, by simp⟩

theorem Server.Confined.step {s t : Server Pool} {action : ServerAction Pool}
    (h : s.Confined cfg.tls H)
    (hhandled : ∀ i env table, action = .conn i (.handle env table) → H i env table)
    (hstep : s.step cfg action = some t) : t.Confined cfg.tls H := by
  have hjournaled := h.journaled.step hstep
  rcases Server.step_cases hstep with ⟨client, rfl, rfl⟩ |
    ⟨i, a, c, c', shared, events, rfl, hc, hmove, rfl⟩
  · refine ⟨hjournaled, ?_, ?_⟩
    · intro j d hd
      rcases conn_of_accept hd with hold | ⟨-, rfl⟩
      · exact h.conns j d hold
      · exact ⟨by simp, by simp⟩
    · intro j key entry hissued
      obtain ⟨⟨d, hd, hasked⟩, hforwards⟩ := h.issued j key entry hissued
      have hlt : j < s.conns.length := (List.getElem?_eq_some_iff.mp hd).1
      exact ⟨⟨d, by rw [List.getElem?_append_left hlt, hd], hasked⟩, hforwards⟩
  · have hgiven : ∀ env table, a = .handle env table → H i env table := by
      rintro env table rfl
      exact hhandled i env table rfl
    refine ⟨hjournaled, ?_, ?_⟩
    · intro j d hd
      rcases conn_of_set hd with ⟨rfl, rfl⟩ | ⟨-, hold⟩
      · exact (h.conns _ c hc).move hgiven hmove
      · exact h.conns j d hold
    · intro j key entry hissued
      rcases List.mem_append.mp hissued with hold | hnew
      · exact (h.issued j key entry hold).move hc hmove
      · obtain ⟨event, hevent, heq⟩ := List.mem_map.mp hnew
        obtain ⟨rfl, rfl⟩ := Prod.mk.inj heq
        obtain ⟨route, relay, backendKey, hstage, rfl⟩ := hmove.issued hevent
        -- it relays, so it has not forwarded anything
        have hforwards := h.journaled.history hc
        rw [hstage] at hforwards
        have hissuer : s.Issuer cfg.tls H i route.address :=
          ⟨⟨c, hc, by rw [hstage]; rfl, (h.conns i c hc).relaying route relay hstage⟩, hforwards⟩
        exact hissuer.move hc hmove

/-- A cancellation goes where the session went that issued its key, which is not the connection
that carries the cancellation. -/
theorem Server.Confined.cancels {s : Server Pool} {tls : Option ServerTLS} (h : s.Confined tls H)
    {event : CancelEvent Pool} {address : GoString} (hmem : (i, event) ∈ s.journal)
    (haddress : event.contacts = some address) :
    ∃ j key entry d, j ≠ i ∧ Cancels s.journal i j key entry ∧ address = entry.backendAddr ∧
      s.conns[j]? = some d ∧ LedTo tls H j d.input address := by
  obtain ⟨hforwards, j, key, entry, hcancels, rfl⟩ := h.journaled.cancels hmem haddress
  have hissued : (j, CancelEvent.issued key entry) ∈ s.journal := by
    obtain ⟨earlier, between, later, hjournal, -⟩ := hcancels
    rw [hjournal]
    exact List.mem_append_right _ List.mem_cons_self
  obtain ⟨⟨d, hd, -, hled⟩, hquiet⟩ := h.issued j key entry hissued
  refine ⟨j, key, entry, d, ?_, hcancels, rfl, hd, hled⟩
  rintro rfl
  exact hforwards hquiet

end Runs

end Proxy
end PgProxy
