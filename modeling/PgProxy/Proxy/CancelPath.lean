import PgProxy.HostPort
import PgProxy.Proxy.CancelSafety
import PgProxy.Proxy.Handling

/-!
# How a cancellation reaches its backend

A session dials its backend by the route; a cancellation has only the address and the TLS
settings that were recorded when the session's key was issued, and takes the host out of
the address again. Every recorded entry goes back to the action that put the session
through, so the two connections are made in the same way, whatever the routing table holds
by then.
-/

namespace PgProxy
set_option autoImplicit false

namespace Proxy
open Pgwire

variable {Pool : Type}

theorem hostOf_address_iff (route : Route Pool) :
    hostOf route.address = route.host ↔ BracketFree route.host := by
  unfold hostOf
  constructor
  · intro h
    split at h
    · have hlength := length_lt_joinHostPort route.host (itoa route.port.toInt)
      rw [show joinHostPort route.host (itoa route.port.toInt) = route.host from h] at hlength
      exact absurd hlength (Nat.lt_irrefl _)
    · rename_i hsplit
      exact h ▸ bracketFree_of_splitHostPort hsplit
  · intro h
    rw [Route.address, splitHostPort_joinHostPort h (itoa_bracketFree _) (itoa_colon _)]

/-! ## Where the key of a session comes from -/

/-- One of the actions put connection `i`, whose client sends `raw`, through to the backend
of the route, which the routing table of that moment had for the name the client asked
for. -/
inductive EstablishedBy [GoFmt] (tls : Option ServerTLS) (actions : List (ServerAction Pool))
    (i : Nat) (raw : Input) (route : Route Pool) : Prop
  | intro {env : HandleEnv Pool} {table : Table Pool} {client : Conn} {startup : StartupPacket}
      {database : GoString} {backend : BackendConn Pool}
      (haction : .conn i (.handle env table) ∈ actions)
      (hnego : (negotiate tls env raw).2 = .ok (client, startup))
      (hdatabase : requestedDatabase startup = some database)
      (hroute : table.lookup database = some route)
      (hdial : (dialBackend env.network route).conn = .ok backend)

theorem EstablishedBy.mono [GoFmt] {tls : Option ServerTLS} {past : List (ServerAction Pool)}
    {i : Nat} {raw : Input} {route : Route Pool} (h : EstablishedBy tls past i raw route)
    (action : ServerAction Pool) : EstablishedBy tls (past ++ [action]) i raw route := by
  obtain ⟨haction, hnego, hdatabase, hroute, hdial⟩ := h
  exact .intro (List.mem_append_left _ haction) hnego hdatabase hroute hdial

theorem issued_of_relayEvents {route : Route Pool} {action : RelayAction}
    {d d' : Downstream Pool} {cancels cancels' : CancelRegistry Pool} {key : CancelRequest}
    {entry : CancelEntry Pool} (hmove : RegistryMove route action d d' cancels cancels')
    (h : .issued key entry ∈ relayEvents d d') :
    ∃ backendKey, entry = sessionEntry route backendKey := by
  rcases List.mem_append.mp h with hissued | hreleased
  · obtain ⟨x, hx, heq⟩ := List.mem_map.mp hissued
    obtain ⟨-, rfl⟩ := CancelEvent.issued.inj heq
    cases hmove with
    | none _ hminted _ | release _ hminted _ _ => simp [hminted] at hx
    | @issue _ _ _ backendKey _ _ _ _ hminted _ _ =>
      simp only [hminted, List.drop_left, List.mem_singleton] at hx
      exact ⟨backendKey, by rw [hx]⟩
  · split at hreleased
    · simp at hreleased
    · simp at hreleased

theorem ConnMove.issued [GoFmt] {cfg : Config} {sh sh' : Shared Pool} {c c' : Connection Pool}
    {a : ConnAction Pool} {events : List (CancelEvent Pool)} {key : CancelRequest}
    {entry : CancelEntry Pool} (h : ConnMove cfg sh c a c' sh' events)
    (hissued : .issued key entry ∈ events) :
    ∃ route relay backendKey, c.stage = .relaying route relay ∧
      entry = sessionEntry route backendKey := by
  cases h with
  | relayed hstage hrelay =>
    obtain ⟨backendKey, hentry⟩ := issued_of_relayEvents (Relay.step_registryMove hrelay) hissued
    exact ⟨_, _, backendKey, hstage, hentry⟩
  | forwarded =>
    rcases List.mem_append.mp hissued with hmem | hmem <;> simp at hmem
  | lookedUp | admitted | rejected | handled | slotReleased | untracked => simp at hissued

/-- Every session that relays, and every key issued so far, goes back to an action that put
its connection through. -/
structure Traced [GoFmt] (cfg : Config) (past : List (ServerAction Pool)) (s : Server Pool) :
    Prop where
  sessions : ∀ {i : Nat} {c : Connection Pool} {route : Route Pool} {relay : Relay Pool},
    s.conns[i]? = some c → c.stage = .relaying route relay →
      EstablishedBy cfg.tls past i c.input route
  issued : ∀ {i : Nat} {key : CancelRequest} {entry : CancelEntry Pool},
    (i, .issued key entry) ∈ s.journal → ∃ c route backendKey, s.conns[i]? = some c ∧
      EstablishedBy cfg.tls past i c.input route ∧ entry = sessionEntry route backendKey

theorem Traced.start [GoFmt] (cfg : Config) : Traced cfg [] ({} : Server Pool) :=
  ⟨by simp, by simp⟩

theorem Traced.accept [GoFmt] {cfg : Config} {past : List (ServerAction Pool)} {s : Server Pool}
    (h : Traced cfg past s) (client : Input) : Traced cfg (past ++ [.accept client])
      { s with conns := s.conns ++ [{ input := client }] } := by
  constructor
  · intro i c route relay hc hstage
    rcases conn_of_accept hc with hold | ⟨-, rfl⟩
    · exact (h.sessions hold hstage).mono _
    · simp at hstage
  · intro i key entry hissued
    obtain ⟨c, route, backendKey, hc, hestablished, hentry⟩ := h.issued hissued
    have hlt : i < s.conns.length := (List.getElem?_eq_some_iff.mp hc).1
    exact ⟨c, route, backendKey, by rw [List.getElem?_append_left hlt, hc],
      hestablished.mono _, hentry⟩

theorem Traced.conn [GoFmt] {cfg : Config} {past : List (ServerAction Pool)} {s : Server Pool}
    {i : Nat} {a : ConnAction Pool} {c c' : Connection Pool} {shared : Shared Pool}
    {events : List (CancelEvent Pool)} (h : Traced cfg past s) (hc : s.conns[i]? = some c)
    (hmove : ConnMove cfg s.shared c a c' shared events) :
    Traced cfg (past ++ [.conn i a])
      { shared, conns := s.conns.set i c', journal := s.journal ++ events.map (i, ·) } := by
  constructor
  · intro j d route relay hd hstage
    rcases conn_of_set hd with ⟨rfl, rfl⟩ | ⟨-, hold⟩
    · rw [hmove.input]
      rcases hmove.relaying hstage with ⟨relay', hrelaying⟩ |
        ⟨env, table, client, backend, label, rfl, hnext⟩
      · exact (h.sessions hc hrelaying).mono _
      · obtain ⟨startup, hnego, hdatabase, hroute, hdial⟩ := handle_relay_inv hnext
        exact .intro (List.mem_append_right _ (List.mem_singleton_self _)) hnego hdatabase hroute
          hdial
    · exact (h.sessions hold hstage).mono _
  · intro j key entry hissued
    rcases List.mem_append.mp hissued with hold | hnew
    · obtain ⟨d, route, backendKey, hd, hestablished, hentry⟩ := h.issued hold
      obtain ⟨d', hd', hinput⟩ := hmove.kept hc hd
      exact ⟨d', route, backendKey, hd', hinput ▸ hestablished.mono _, hentry⟩
    · obtain ⟨event, hevent, heq⟩ := List.mem_map.mp hnew
      obtain ⟨rfl, rfl⟩ := Prod.mk.inj heq
      obtain ⟨route, relay, backendKey, hstage, hentry⟩ := hmove.issued hevent
      obtain ⟨d', hd', hinput⟩ := hmove.kept hc hc
      exact ⟨d', route, backendKey, hd', hinput ▸ (h.sessions hc hstage).mono _, hentry⟩

theorem Traced.step [GoFmt] {cfg : Config} {past : List (ServerAction Pool)} {s t : Server Pool}
    {action : ServerAction Pool} (h : Traced cfg past s) (hstep : s.step cfg action = some t) :
    Traced cfg (past ++ [action]) t := by
  rcases Server.step_cases hstep with ⟨client, rfl, rfl⟩ |
    ⟨i, a, c, c', shared, events, rfl, hc, hmove, rfl⟩
  · exact h.accept client
  · exact h.conn hc hmove

/-! ## The two connections to a backend -/

/-- The connection a cancellation is sent on is made as the session's connection was: the
same address, the same mode, trust anchors and server name, and so the same upgrade. If the
deadline can be set, which only the session insists on, it succeeds on the same networks
with the same connection. -/
structure Mirrors (route : Route Pool) (entry : CancelEntry Pool) : Prop where
  dialled : ∀ net w, (forwardCancel net w (some entry)).dialled = some route.address
  enabled : entry.tls.enabled = route.tls.enabled
  mode : entry.route.tls.mode = route.tls.mode
  rootCAs : (clientTLS entry.route).rootCAs = route.tls.rootCAs
  serverName : (clientTLS entry.route).serverName =
    if route.tls.serverName = [] then route.host else route.tls.serverName
  upgrade : ∀ net address input,
    upgradeBackendTLS net address input entry.route = upgradeBackendTLS net address input route
  sent : ∀ net w, net.setDeadline = none →
    (forwardCancel net w (some entry)).plaintext = (dialBackend net route).plaintext ∧
    (forwardCancel net w (some entry)).sent = (dialBackend net route).conn.toOption.map
      fun conn => (conn, w.written (encodeCancelRequest entry.backendKey))

theorem upgradeBackendTLS_congr {route route' : Route Pool} (hhost : route.host = route'.host)
    (htls : route.tls = route'.tls) (net : Network Pool) (address : GoString) (input : Input) :
    upgradeBackendTLS net address input route = upgradeBackendTLS net address input route' := by
  have hconfig : clientTLS route = clientTLS route' := by rw [clientTLS, clientTLS, hhost, htls]
  unfold upgradeBackendTLS
  rw [hconfig, htls]

theorem mirrors_sessionEntry {route : Route Pool} (h : BracketFree route.host)
    (backendKey : CancelRequest) : Mirrors route (sessionEntry route backendKey) := by
  have hhost : (sessionEntry route backendKey).route.host = route.host :=
    (hostOf_address_iff route).mpr h
  have hupgrade : ∀ net address input, upgradeBackendTLS net address input
      (sessionEntry route backendKey).route = upgradeBackendTLS net address input route :=
    upgradeBackendTLS_congr hhost rfl
  refine ⟨?_, rfl, rfl, rfl, ?_, hupgrade, ?_⟩
  · intro net w
    unfold forwardCancel forwardEntry
    dsimp only
    split
    · rfl
    · split <;> rfl
  · rw [clientTLS, hhost]
    rfl
  · intro net w hdeadline
    have haddress : (sessionEntry route backendKey).backendAddr = route.address := rfl
    have htls : (sessionEntry route backendKey).tls = route.tls := rfl
    simp only [forwardCancel, forwardEntry, dialBackend, haddress, htls, hupgrade, hdeadline]
    cases net.dial route.address with
    | error e => exact ⟨rfl, rfl⟩
    | ok input =>
      cases henabled : route.tls.enabled with
      | false => exact ⟨rfl, rfl⟩
      | true =>
        simp only [if_true]
        cases (upgradeBackendTLS net route.address input route).2 with
        | error e => exact ⟨rfl, rfl⟩
        | ok conn => exact ⟨rfl, rfl⟩

theorem issued_of_issuedEntry {key : CancelRequest} {event : CancelEvent Pool}
    {entry : CancelEntry Pool} (h : event.issuedEntry key = some entry) :
    event = .issued key entry := by
  cases event with
  | issued key' entry' =>
    simp only [CancelEvent.issuedEntry, Option.ite_none_right_eq_some, Option.some.injEq] at h
    obtain ⟨rfl, rfl⟩ := h
    rfl
  | released | lookedUp | dialled | sent => simp [CancelEvent.issuedEntry] at h

theorem issued_of_lastIssued {key : CancelRequest} {journal : List (Nat × CancelEvent Pool)}
    {entry : CancelEntry Pool} (h : lastIssued key journal = some entry) :
    ∃ i, (i, .issued key entry) ∈ journal := by
  obtain ⟨⟨i, event⟩, hmem, hentry⟩ := List.mem_filterMap.mp (List.mem_of_getLast? h)
  exact ⟨i, issued_of_issuedEntry hentry ▸ hmem⟩

theorem Journaled.issued_of_forwarding {s : Server Pool} (h : Journaled s) {j : Nat}
    {c : Connection Pool} {key : CancelRequest} {entry : CancelEntry Pool}
    (hc : s.conns[j]? = some c) (hstage : c.stage = .forwarding key (some entry)) :
    ∃ i, (i, .issued key entry) ∈ s.journal := by
  have hhistory := h.history hc
  rw [hstage] at hhistory
  have hlooked : .lookedUp key (some entry) ∈ forwardingEvents j s.journal := by
    rw [show forwardingEvents j s.journal = _ from hhistory]
    exact List.mem_singleton_self _
  obtain ⟨n, hn⟩ := List.getElem?_of_mem (mem_of_forwardingEvents hlooked)
  obtain ⟨i, hissued⟩ := issued_of_lastIssued (h.lookups hn)
  exact ⟨i, List.mem_of_mem_take hissued⟩

/-- In every run of the gateway: the host comes back out of a route's address exactly if it
has no brackets, which no name, IPv4 address or IPv6 literal has; every key issued goes
back to an action that put its connection through to a route, which the routing table of
that moment had, and a cancellation under the entry of the key reaches the backend the way
the session did; and a connection that forwards a cancellation does so under the entry of
a key that was issued. -/
theorem cancel_path_mirrors_session [GoFmt] {cfg : Config} {actions : List (ServerAction Pool)}
    {s : Server Pool} (hrun : exec (Server.step cfg) {} actions = some s) :
    (∀ route : Route Pool, hostOf route.address = route.host ↔ BracketFree route.host) ∧
    (∀ host, HostForm host → BracketFree host) ∧
    (∀ i key entry, (i, .issued key entry) ∈ s.journal → ∃ c route, s.conns[i]? = some c ∧
      EstablishedBy cfg.tls actions i c.input route ∧
      (HostForm route.host → Mirrors route entry)) ∧
    (∀ (j : Nat) (c : Connection Pool) key entry, s.conns[j]? = some c →
      c.stage = .forwarding key (some entry) → ∃ i, (i, .issued key entry) ∈ s.journal) := by
  have htraced : Traced cfg actions s := exec_history Traced.step (Traced.start cfg) hrun
  have hjournaled : Journaled s := exec_invariant Journaled.step Journaled.start hrun
  refine ⟨hostOf_address_iff, fun _ => HostForm.bracketFree, ?_, ?_⟩
  · intro i key entry hissued
    obtain ⟨c, route, backendKey, hc, hestablished, rfl⟩ := htraced.issued hissued
    exact ⟨c, route, hc, hestablished, fun h => mirrors_sessionEntry h.bracketFree backendKey⟩
  · intro j c key entry hc hstage
    exact hjournaled.issued_of_forwarding hc hstage

def zonedRoute : Route Unit :=
  { sampleRoute with host := str "fe80::1%eth0", tls := { mode := .verifyFull } }

/-- The session's backend agrees to TLS and then sends a key; the table is empty by the time
the key comes back. -/
def zonedRun : List (ServerAction Unit) :=
  [.accept sampleClient, .conn 0 (.acquireSlot .full),
    .conn 0 (.handle
      { sampleEnv with
        network :=
          { dial := fun _ => .ok
              ⟨[negotiationAccepted :: encodeBackendKeyData (sampleKey 7)], .sentinel .eof⟩
            handshake := fun _ input => .ok (input, [])
            verify := fun _ _ _ => none } }
      (Table.new (Finmap.singleton (str "app") zonedRoute))),
    readFrame 0 [sampleDraw 1], .accept (cancelClient (sampleKey 1)),
    .conn 1 (.acquireSlot .full), .conn 1 (.handle sampleEnv (Table.new ∅)), .conn 1 .lookup]

theorem cancel_path_mirrors_session_zoned :
    ∃ s entry, exec (@Server.step Unit plainQuote {}) {} zonedRun = some s ∧
      (0, .issued (sampleKey 1) entry) ∈ s.journal ∧ Mirrors zonedRoute entry := by
  obtain ⟨s, entry, hrun, hjournal⟩ : ∃ s entry,
      exec (@Server.step Unit plainQuote {}) {} zonedRun = some s ∧
      (0, .issued (sampleKey 1) entry) ∈ s.journal :=
    ⟨_, sessionEntry zonedRoute (sampleKey 7), rfl, List.mem_cons_self⟩
  obtain ⟨-, -, hissued, -⟩ := @cancel_path_mirrors_session Unit plainQuote _ _ _ hrun
  obtain ⟨c, route, -, hestablished, hmirrors⟩ := hissued _ _ _ hjournal
  have hroute : route = zonedRoute := by
    obtain ⟨haction, -, -, hroute, -⟩ := hestablished
    simp only [zonedRun, readFrame, List.mem_cons, reduceCtorEq, ServerAction.conn.injEq,
      ConnAction.handle.injEq, List.not_mem_nil, false_or, or_false, and_false, true_and,
      zero_ne_one, false_and] at haction
    obtain ⟨-, rfl⟩ := haction
    obtain rfl := (Finmap.mem_singleton _ _ _).mp (Finmap.mem_of_lookup_eq_some hroute)
    exact Option.some.inj (hroute.symm.trans Finmap.lookup_singleton_eq)
  subst hroute
  refine ⟨s, entry, hrun, hjournal, hmirrors ?_⟩
  have hform : zonedRoute.host = str "fe80::1" ++ str "%" ++ str "eth0" := by decide
  rw [hform]
  exact .zoned (by decide +kernel) (by constructor <;> decide)

end Proxy
end PgProxy
