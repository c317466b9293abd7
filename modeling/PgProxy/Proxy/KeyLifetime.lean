import PgProxy.Lib.Ownership
import PgProxy.Proxy.BackendStream
import PgProxy.Proxy.Server

/-!
# How long a cancellation key lives

A relay touches the registry in two places: a round of the framed loop issues a key, and
the deferred release forgets the last one issued. As long as no session reads a second
key, the registry is owned by the running sessions.
-/

namespace PgProxy
set_option autoImplicit false

namespace Proxy
open Pgwire

variable {Pool : Type}

/-- What an action of a relay can do to the registry. -/
inductive RegistryMove (route : Route Pool) (action : RelayAction) (d d' : Downstream Pool)
    (cancels : CancelRegistry Pool) : CancelRegistry Pool → Prop
  | none (hissued : d'.issued = d.issued) (hminted : d'.minted = d.minted)
      (hreturned : d'.phase = .returned ↔ d.phase = .returned) :
      RegistryMove route action d d' cancels cancels
  | issue {w : WriteOutcome} {draws : List Draw} {key backendKey : CancelRequest}
      (haction : action = .frame w draws)
      (hreads : StartsWithKey (fun body => body.length = 8) d.reader.r.stream)
      (hfree : cancels.lookup key = Option.none)
      (hissued : d'.issued = some key)
      (hminted : d'.minted = d.minted ++ [(key, sessionEntry route backendKey)])
      (hrunning : d.phase ≠ .returned) (hrunning' : d'.phase ≠ .returned) :
      RegistryMove route action d d' cancels (cancels.insert key (sessionEntry route backendKey))
  | release (hissued : d'.issued = d.issued) (hminted : d'.minted = d.minted)
      (hexiting : d.phase = .exiting) (hreturned : d'.phase = .returned) :
      RegistryMove route action d d' cancels (d.releaseStep cancels).2

section Moves
variable {route : Route Pool} {cancels cancels' : CancelRegistry Pool}

theorem Downstream.releaseStep_lookup {d : Downstream Pool} {key : CancelRequest}
    {entry : CancelEntry Pool} (h : (d.releaseStep cancels).2.lookup key = some entry) :
    cancels.lookup key = some entry := by
  unfold Downstream.releaseStep at h
  dsimp only at h
  split at h
  · rename_i released _
    by_cases hkk : key = released
    · rw [hkk, CancelRegistry.release, Finmap.lookup_erase] at h
      simp at h
    · rwa [CancelRegistry.release, Finmap.lookup_erase_ne hkk] at h
  · exact h

theorem Downstream.deliver_running {type : UInt8} {out : Bytes} {w : WriteOutcome}
    {d : Downstream Pool} (h : d.phase = .framing) : (d.deliver type out w).phase ≠ .returned := by
  rw [Downstream.deliver_phase]
  split
  · simp
  · split <;> simp [h]

theorem FrameRound.registryMove {w : WriteOutcome} {draws draws' : List Draw}
    {d d' : Downstream Pool} (h : FrameRound route w draws d cancels d' cancels' draws')
    (hphase : d.phase = .framing) :
    RegistryMove route (.frame w draws) d d' cancels cancels' := by
  cases h with
  | stopped | undecodable => exact .none rfl rfl (by simp [Downstream.exit, hphase])
  | @key m rest _ _ issued _ _ hframe htype hbody hkey hissue =>
    obtain ⟨hfree, rfl⟩ := CancelRegistry.issue_spec hissue
    exact .issue rfl ⟨m, rest, hframe, htype, hbody⟩ hfree (by simp) (by simp) (by simp [hphase])
      (Downstream.deliver_running hphase)
  | message =>
    exact .none (by simp) (by simp)
      ⟨fun h => absurd h (Downstream.deliver_running hphase), fun h => by simp [hphase] at h⟩

theorem Downstream.spliceStep_move {action : RelayAction} (w : WriteOutcome)
    {d : Downstream Pool} (hphase : d.phase = .splicing) :
    RegistryMove route action d (d.spliceStep w) cancels cancels := by
  obtain ⟨piece, rest, result, hround⟩ : ∃ piece rest result,
      copyRound d.reader.r w = (piece, rest, result) := ⟨_, _, _, rfl⟩
  simp only [Downstream.spliceStep, hround]
  cases result with
  | none => exact .none rfl rfl (by simp)
  | some err => exact .none rfl rfl (by simp [Downstream.exit, hphase])

theorem Relay.step_registryMove [GoFmt] {s t : Relay Pool} {action : RelayAction}
    (h : s.step route cancels action = some (t, cancels')) :
    RegistryMove route action s.down t.down cancels cancels' := by
  cases action with
  | up w =>
    simp only [Relay.step, Option.map_eq_some_iff, Prod.mk.injEq] at h
    obtain ⟨up, -, rfl, rfl⟩ := h
    exact .none rfl rfl Iff.rfl
  | frame w draws =>
    simp only [Relay.step, Option.ite_none_right_eq_some, Option.map_eq_some_iff,
      Prod.mk.injEq] at h
    obtain ⟨hphase, ⟨down, cancels₁, draws₁⟩, hround, rfl, rfl⟩ := h
    exact (Downstream.frameStep_round hround).registryMove hphase
  | splice w =>
    simp only [Relay.step, Option.ite_none_right_eq_some, Option.some.injEq,
      Prod.mk.injEq] at h
    obtain ⟨hphase, rfl, rfl⟩ := h
    exact Downstream.spliceStep_move w hphase
  | release =>
    simp only [Relay.step, Option.ite_none_right_eq_some, Option.some.injEq,
      Prod.mk.injEq] at h
    obtain ⟨hphase, rfl, rfl⟩ := h
    exact .release rfl rfl hphase rfl
  | closeClient | finish =>
    simp only [Relay.step, Option.ite_none_right_eq_some, Option.some.injEq,
      Prod.mk.injEq] at h
    obtain ⟨-, rfl, rfl⟩ := h
    exact .none rfl rfl Iff.rfl

end Moves

/-! ## Sessions and the keys they hold -/

/-- What holds of a relay that has not returned, if its session reads one key at most. -/
structure Relay.Ok (r : Relay Pool) : Prop extends r.Running where
  issued : r.down.issued = r.down.minted.getLast?.map Prod.fst
  once : r.down.minted.length ≤ 1

theorem Relay.start_ok (client backend : Input) : (Relay.start client backend : Relay Pool).Ok :=
  ⟨.start client backend, rfl, by simp [Relay.start]⟩

def Downstream.holds (d : Downstream Pool) : Option (CancelRequest × CancelEntry Pool) :=
  if d.phase = .returned then none else d.minted.getLast?

def Connection.holds (c : Connection Pool) : Option (CancelRequest × CancelEntry Pool) :=
  match c.stage with
  | .relaying _ relay => relay.down.holds
  | _ => none

theorem Connection.holds_of_idle {c : Connection Pool}
    (h : ∀ route relay, c.stage ≠ .relaying route relay) : c.holds = none := by
  unfold Connection.holds
  split
  · rename_i hstage
    exact absurd hstage (h _ _)
  · rfl

def Server.owner (s : Server Pool) (i : Nat) : Option (CancelRequest × CancelEntry Pool) :=
  s.conns[i]?.bind Connection.holds

theorem Server.owner_set {s : Server Pool} {i : Nat} {c c' : Connection Pool}
    {shared : Shared Pool} {journal : List (Nat × CancelEvent Pool)} (h : s.conns[i]? = some c) :
    Server.owner { shared, conns := s.conns.set i c', journal } =
      Function.update s.owner i c'.holds := by
  have hi : i < s.conns.length := (List.getElem?_eq_some_iff.mp h).1
  funext j
  by_cases hij : j = i
  · subst hij
    simp [Server.owner, hi]
  · simp [Server.owner, Function.update_of_ne hij, List.getElem?_set_ne (Ne.symm hij)]

theorem Server.owner_accept (s : Server Pool) (client : Input) :
    Server.owner { s with conns := s.conns ++ [{ input := client }] } = s.owner := by
  funext j
  simp only [Server.owner, List.getElem?_append]
  split
  · rfl
  · rename_i hj
    rw [List.getElem?_eq_none (Nat.le_of_not_lt hj)]
    cases h : [({ input := client } : Connection Pool)][j - s.conns.length]? with
    | none => rfl
    | some c =>
      have := List.mem_of_getElem? h
      simp only [List.mem_singleton] at this
      subst this
      rfl

/-- The backend's next frame is a key, the session holds one already, and the action
reads it. -/
def SecondKey (relay : Relay Pool) (action : RelayAction) : Prop :=
  (∃ w draws, action = .frame w draws) ∧ relay.down.issued ≠ none ∧
    StartsWithKey (fun body => body.length = 8) relay.down.reader.r.stream

theorem issued_eq_none_of_first {relay : Relay Pool} {action : RelayAction} {w : WriteOutcome}
    {draws : List Draw} (hone : ¬ SecondKey relay action) (haction : action = .frame w draws)
    (hreads : StartsWithKey (fun body => body.length = 8) relay.down.reader.r.stream) :
    relay.down.issued = none := by
  by_contra hne
  exact hone ⟨⟨w, draws, haction⟩, hne, hreads⟩

section Session
variable {route : Route Pool} {s t : Relay Pool} {action : RelayAction}
variable {cancels cancels' : CancelRegistry Pool}

theorem Relay.Ok.minted_eq_nil (hs : s.Ok) (h : s.down.issued = none) : s.down.minted = [] := by
  have := hs.issued
  rw [h] at this
  simpa using this.symm

theorem Relay.Ok.step [GoFmt] (hs : s.Ok) (hone : ¬ SecondKey s action)
    (h : s.step route cancels action = some (t, cancels')) (hrunning : t.result = none) :
    t.Ok := by
  have hkeys : t.down.issued = t.down.minted.getLast?.map Prod.fst ∧
      t.down.minted.length ≤ 1 := by
    cases Relay.step_registryMove h with
    | none hissued hminted _ =>
      rw [hissued, hminted]
      exact ⟨hs.issued, hs.once⟩
    | release hissued hminted _ _ =>
      rw [hissued, hminted]
      exact ⟨hs.issued, hs.once⟩
    -- the session held no key, so this one is its first
    | issue haction hreads _ hissued hminted _ _ =>
      rw [hissued, hminted, hs.minted_eq_nil (issued_eq_none_of_first hone haction hreads)]
      exact ⟨rfl, Nat.le_refl _⟩
  exact ⟨hs.toRunning.step h hrunning, hkeys.1, hkeys.2⟩

theorem Relay.Ok.owned [GoFmt] {owner : Nat → Option (CancelRequest × CancelEntry Pool)} {i : Nat}
    (hs : s.Ok) (hone : ¬ SecondKey s action)
    (h : s.step route cancels action = some (t, cancels')) (howned : Owned cancels owner)
    (hi : owner i = s.down.holds) :
    Owned cancels' (Function.update owner i t.down.holds) := by
  cases Relay.step_registryMove h with
  | none _ hminted hreturned =>
    have hsame : t.down.holds = owner i := by
      simp only [hi, Downstream.holds, hminted, hreturned]
    rw [hsame, Function.update_eq_self]
    exact howned
  | @issue _ _ key backendKey haction hreads hfree _ hminted _ hrunning =>
    have hnil := hs.minted_eq_nil (issued_eq_none_of_first hone haction hreads)
    have hbefore : owner i = none := by simp [hi, Downstream.holds, hnil]
    have hafter : t.down.holds = some (key, sessionEntry route backendKey) := by
      rw [Downstream.holds, if_neg hrunning, hminted, hnil]
      rfl
    rw [hafter]
    exact howned.insert hbefore hfree _
  | release hissued hminted hexiting hreturned =>
    have hafter : t.down.holds = none := by rw [Downstream.holds, if_pos hreturned]
    have hbefore : owner i = s.down.minted.getLast? := by
      rw [hi, Downstream.holds, if_neg (by simp [hexiting])]
    rw [hafter]
    cases hlast : s.down.minted.getLast? with
    | none =>
      have hnone : s.down.issued = none := by rw [hs.issued, hlast]; rfl
      rw [hlast] at hbefore
      rw [← hbefore, Function.update_eq_self]
      simpa [Downstream.releaseStep, hnone] using howned
    | some x =>
      have hkey : s.down.issued = some x.1 := by rw [hs.issued, hlast]; rfl
      simp only [Downstream.releaseStep, hkey, CancelRegistry.release]
      exact howned.erase (hbefore.trans hlast)

theorem Relay.Ok.release_forgets (hs : s.Ok) {key : CancelRequest}
    (hkey : key ∈ s.down.minted.map Prod.fst) :
    (s.down.releaseStep cancels).2.lookup key = none := by
  obtain ⟨x, hx, rfl⟩ := List.mem_map.mp hkey
  have honly : s.down.minted = [x] := by
    have hone := hs.once
    match hm : s.down.minted, hx with
    | [y], hx => rw [List.mem_singleton.mp hx]
    | _ :: _ :: _, _ => simp [hm] at hone
  have hissued : s.down.issued = some x.1 := by rw [hs.issued, honly]; rfl
  simp only [Downstream.releaseStep, hissued, CancelRegistry.release]
  exact Finmap.lookup_erase _ _

end Session

/-! ## The whole gateway -/

/-- The registry is owned by the sessions that are still running. -/
structure KeysOwned (s : Server Pool) : Prop where
  sessions : ∀ {i : Nat} {c : Connection Pool} {route : Route Pool} {relay : Relay Pool},
    s.conns[i]? = some c → c.stage = .relaying route relay → relay.Ok
  owned : Owned s.shared.cancels s.owner

/-- No action of the gateway reads a second key in a session. -/
def OneKeyPerSession (s : Server Pool) (action : ServerAction Pool) : Prop :=
  ∀ (i : Nat) (c : Connection Pool) (route : Route Pool) (relay : Relay Pool) (a : RelayAction),
    action = .conn i (.relay a) → s.conns[i]? = some c → c.stage = .relaying route relay →
      ¬ SecondKey relay a

theorem KeysOwned.start : KeysOwned ({} : Server Pool) :=
  ⟨by simp, Owned.empty⟩

theorem Connection.afterRelay_holds {c : Connection Pool} {route : Route Pool} {relay : Relay Pool}
    (h : relay.result ≠ none → relay.down.phase = .returned) :
    (c.afterRelay route relay).holds = relay.down.holds := by
  unfold Connection.afterRelay
  split
  · rfl
  · rename_i err hresult
    rw [Downstream.holds, if_pos (h (by simp [hresult]))]
    rfl

theorem KeysOwned.step [GoFmt] {cfg : Config} {s t : Server Pool} {action : ServerAction Pool}
    (h : KeysOwned s) (hone : OneKeyPerSession s action) (hstep : s.step cfg action = some t) :
    KeysOwned t := by
  rcases Server.step_cases hstep with ⟨client, -, rfl⟩ |
    ⟨i, a, c, c', shared, events, rfl, hc, hconn, rfl⟩
  · refine ⟨?_, by rw [Server.owner_accept]; exact h.owned⟩
    intro i c route relay hc hstage
    rcases conn_of_accept hc with hold | ⟨-, rfl⟩
    · exact h.sessions hold hstage
    · simp at hstage
  -- Either connection `i` moved its relay, or the registry was not touched at all.
  · rcases hconn.registry with
      ⟨route, relay, relay', act, rfl, hstage, hrelay, rfl, -⟩ | ⟨hsame, hidle, hfresh⟩
    · have hok := h.sessions hc hstage
      have hfirst : ¬ SecondKey relay act := hone i c route relay act rfl hc hstage
      have hreturned := (hok.toRunning.step_returned hrelay).2
      constructor
      · intro j d route' relay'' hd hstage'
        rcases conn_of_set hd with ⟨rfl, rfl⟩ | ⟨-, hold⟩
        · unfold Connection.afterRelay at hstage'
          split at hstage'
          · rename_i hresult
            obtain ⟨-, rfl⟩ := Stage.relaying.inj hstage'
            exact hok.step hfirst hrelay hresult
          · simp at hstage'
        · exact h.sessions hold hstage'
      · rw [Server.owner_set hc, Connection.afterRelay_holds hreturned]
        exact hok.owned hfirst hrelay h.owned (by simp [Server.owner, hc, Connection.holds, hstage])
    · constructor
      · intro j d route relay hd hstage
        rcases conn_of_set hd with ⟨rfl, rfl⟩ | ⟨-, hold⟩
        · obtain ⟨client, backend, rfl⟩ := hfresh route relay hstage
          exact Relay.start_ok client backend
        · exact h.sessions hold hstage
      · have hbefore : s.owner i = none := by
          rw [Server.owner, hc, Option.bind_some, Connection.holds_of_idle hidle]
        have hafter : c'.holds = none := by
          unfold Connection.holds
          split
          · rename_i hstage
            obtain ⟨client, backend, rfl⟩ := hfresh _ _ hstage
            rfl
          · rfl
        rw [Server.owner_set hc, hafter, ← hbefore, Function.update_eq_self, hsame]
        exact h.owned

/-- In every run in which no session reads a second key: every key in the registry
belongs to a session whose `relayFromBackend` is running and was issued by it; the release
that ends a session leaves none of its keys behind; and without running sessions the
registry is empty. -/
theorem no_key_outlives_its_session [GoFmt] {cfg : Config} {actions : List (ServerAction Pool)}
    {s : Server Pool} (hone : Always (Server.step cfg) OneKeyPerSession {} actions)
    (hrun : exec (Server.step cfg) {} actions = some s) :
    (∀ key entry, s.shared.cancels.lookup key = some entry →
      ∃ (i : Nat) (c : Connection Pool) (route : Route Pool) (relay : Relay Pool),
        s.conns[i]? = some c ∧ c.stage = .relaying route relay ∧
        relay.down.phase ≠ .returned ∧ (key, entry) ∈ relay.down.minted) ∧
    (∀ (i : Nat) (c : Connection Pool) (route : Route Pool) (relay : Relay Pool) (t : Server Pool),
      s.conns[i]? = some c → c.stage = .relaying route relay →
      s.step cfg (.conn i (.relay .release)) = some t →
      ∀ key ∈ relay.down.minted.map Prod.fst, t.shared.cancels.lookup key = none) ∧
    ((∀ c ∈ s.conns, ∀ route relay, c.stage = .relaying route relay →
      relay.down.phase = .returned) → s.shared.cancels = ∅) := by
  have hs : KeysOwned s := exec_always KeysOwned.step KeysOwned.start hone hrun
  refine ⟨?_, ?_, ?_⟩
  · intro key entry hkey
    obtain ⟨i, hi⟩ := (hs.owned.entries key entry).mp hkey
    obtain ⟨c, hc, hholds⟩ := Option.bind_eq_some_iff.mp hi
    unfold Connection.holds at hholds
    split at hholds
    · rename_i route relay hstage
      unfold Downstream.holds at hholds
      split at hholds
      · simp at hholds
      · rename_i hrunning
        exact ⟨i, c, route, relay, hc, hstage, hrunning, List.mem_of_getLast? hholds⟩
    · simp at hholds
  · intro i c route relay t hc hstage hstep key hkey
    simp only [Server.step, hc, Connection.step, hstage, Relay.step, Option.map_eq_some_iff,
      Option.ite_none_right_eq_some, Option.some.injEq] at hstep
    obtain ⟨_, ⟨_, ⟨-, rfl⟩, rfl⟩, rfl⟩ := hstep
    exact (hs.sessions hc hstage).release_forgets hkey
  · intro hended
    apply hs.owned.eq_empty
    intro i
    cases hc : s.conns[i]? with
    | none => simp [Server.owner, hc]
    | some c =>
      simp only [Server.owner, hc, Option.bind_some, Connection.holds]
      split
      · rename_i route relay hstage
        rw [Downstream.holds, if_pos (hended c (List.mem_of_getElem? hc) route relay hstage)]
      · rfl

def sampleNetwork (backend : Bytes) : Network Unit :=
  { sampleEnv.network with dial := fun _ => .ok ⟨[backend], .sentinel .eof⟩ }

def openSession (i : Nat) (backend : Bytes) : List (ServerAction Unit) :=
  [.accept sampleClient, .conn i (.acquireSlot .full),
    .conn i (.handle { sampleEnv with network := sampleNetwork backend } sampleTable)]

/-- The end of the session, once its framed loop has met the end of the stream. -/
def closeSession (i : Nat) : List (ServerAction Unit) :=
  [.conn i (.relay .release), .conn i (.relay .closeClient), .conn i (.relay (.up .full)),
    .conn i (.relay .finish), .conn i .releaseSlot, .conn i .untrack]

def sampleDraw (n : UInt8) : Draw := ⟨[0, 0, 0, n, 0, 0, 0, n], rfl⟩

def sampleKey (n : UInt32) : CancelRequest := ⟨⟨n⟩, ⟨n⟩⟩

def readFrame (i : Nat) (draws : List Draw) : ServerAction Unit :=
  .conn i (.relay (.frame .full draws))

def oneKeyRun (n : UInt32) : List (ServerAction Unit) :=
  openSession 0 (encodeBackendKeyData (sampleKey n)) ++ [readFrame 0 [sampleDraw 1]]

theorem no_key_outlives_its_session_one :
    ∃ s, exec (@Server.step Unit plainQuote {}) {} (oneKeyRun 7) = some s ∧
      s.shared.cancels.lookup (sampleKey 1) =
        some (sessionEntry sampleRoute (sampleKey 7)) ∧
      ∃ (i : Nat) (c : Connection Unit) (route : Route Unit) (relay : Relay Unit),
        s.conns[i]? = some c ∧ c.stage = .relaying route relay ∧ relay.down.phase ≠ .returned ∧
        (sampleKey 1, sessionEntry sampleRoute (sampleKey 7)) ∈ relay.down.minted := by
  have hone : Always (@Server.step Unit plainQuote {}) OneKeyPerSession {} (oneKeyRun 7) := by
    refine ⟨by simp [OneKeyPerSession], fun t₁ h₁ => ⟨by simp [OneKeyPerSession], fun t₂ h₂ =>
      ⟨by simp [OneKeyPerSession], fun t₃ h₃ => ⟨?_, fun _ _ => trivial⟩⟩⟩⟩
    obtain rfl := Option.some.inj h₁
    obtain rfl := Option.some.inj h₂
    obtain rfl := Option.some.inj h₃
    rintro i c route relay a ha hc hstage ⟨-, hissued, -⟩
    simp only [readFrame, ServerAction.conn.injEq] at ha
    obtain ⟨rfl, -⟩ := ha
    obtain rfl := Option.some.inj hc
    obtain ⟨-, rfl⟩ := Stage.relaying.inj hstage
    exact hissued rfl
  obtain ⟨s, hrun, hlookup⟩ : ∃ s,
      exec (@Server.step Unit plainQuote {}) {} (oneKeyRun 7) = some s ∧
      s.shared.cancels.lookup (sampleKey 1) =
        some (sessionEntry sampleRoute (sampleKey 7)) := ⟨_, rfl, by decide⟩
  exact ⟨s, hrun, hlookup,
    (@no_key_outlives_its_session Unit plainQuote _ _ _ hone hrun).1 _ _ hlookup⟩

/-- A backend that sends two keys: the session releases the second one only. -/
theorem second_key_outlives_its_session :
    ∃ s, exec (@Server.step Unit plainQuote {}) {}
        (openSession 0 (encodeBackendKeyData (sampleKey 7) ++
            encodeBackendKeyData (sampleKey 8)) ++
          [readFrame 0 [sampleDraw 1], readFrame 0 [sampleDraw 2], readFrame 0 []] ++
          closeSession 0) = some s ∧
      (∀ c ∈ s.conns, c.stage = .closed) ∧
      s.shared.cancels.lookup (sampleKey 1) =
        some (sessionEntry sampleRoute (sampleKey 7)) := by
  refine ⟨_, rfl, ?_, by decide⟩
  intro c hc
  obtain rfl := List.mem_singleton.mp hc
  rfl

end Proxy
end PgProxy
