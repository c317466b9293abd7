import PgProxy.Proxy.KeyLifetime

/-!
# Backend keys stay with the backend

Two runs of the gateway that differ only in the keys their backends hand out: whatever
a client can observe is the same in both. The relation between the two runs keeps the
unread streams equal up to the payload of keys, the registries equal up to the entries
under the keys, and everything a client has received equal.
-/

namespace PgProxy
set_option autoImplicit false

namespace Proxy
open Pgwire BigEndian

variable {Pool : Type}

/-! ## Streams -/

/-- Backend streams that differ only in the payload of BackendKeyData messages before the
first ReadyForQuery. -/
inductive SameButKeys : Bytes → Bytes → Prop
  | same (s : Bytes) : SameButKeys s s
  | key {b₁ b₂ s₁ s₂ : Bytes} (h₁ : b₁.length = 8) (h₂ : b₂.length = 8)
      (h : SameButKeys s₁ s₂) :
      SameButKeys (Message.encode ⟨msgBackendKeyData, b₁⟩ ++ s₁)
        (Message.encode ⟨msgBackendKeyData, b₂⟩ ++ s₂)
  | message {m : Message} {s₁ s₂ : Bytes} (hlegal : m.Legal) (htype : m.type ≠ msgReadyForQuery)
      (h : SameButKeys s₁ s₂) : SameButKeys (m.encode ++ s₁) (m.encode ++ s₂)

inductive SameHead (s₁ s₂ : Bytes) : Prop
  | none (h₁ : firstFrame s₁ = none) (h₂ : firstFrame s₂ = none)
  | message {m : Message} {rest₁ rest₂ : Bytes} (h₁ : firstFrame s₁ = some (m, rest₁))
      (h₂ : firstFrame s₂ = some (m, rest₂)) (hrest : SameButKeys rest₁ rest₂)
      (hready : m.type = msgReadyForQuery → rest₁ = rest₂)
  | key {b₁ b₂ rest₁ rest₂ : Bytes}
      (h₁ : firstFrame s₁ = some (⟨msgBackendKeyData, b₁⟩, rest₁))
      (h₂ : firstFrame s₂ = some (⟨msgBackendKeyData, b₂⟩, rest₂))
      (hb₁ : b₁.length = 8) (hb₂ : b₂.length = 8) (hrest : SameButKeys rest₁ rest₂)

theorem key_legal {b : Bytes} (h : b.length = 8) : Message.Legal ⟨msgBackendKeyData, b⟩ := by
  simp [Message.Legal, maxMessageLength, h]

theorem encodeBackendKeyData_blind (k₁ k₂ : CancelRequest) :
    SameButKeys (encodeBackendKeyData k₁) (encodeBackendKeyData k₂) := by
  have h₁ : (putUint32 k₁.processID.toUInt32 ++ putUint32 k₁.secretKey.toUInt32).length = 8 := by
    simp
  have h₂ : (putUint32 k₂.processID.toUInt32 ++ putUint32 k₂.secretKey.toUInt32).length = 8 := by
    simp
  have h := SameButKeys.key h₁ h₂ (.same [])
  simpa [Message.encode, encodeBackendKeyData, h₁, h₂] using h

theorem SameButKeys.head {s₁ s₂ : Bytes} (h : SameButKeys s₁ s₂) : SameHead s₁ s₂ := by
  cases h with
  | same =>
    cases hframe : firstFrame s₁ with
    | none => exact .none hframe hframe
    | some x => exact .message hframe hframe (.same _) fun _ => rfl
  | key h₁ h₂ h =>
    exact .key (firstFrame_encode (key_legal h₁) _) (firstFrame_encode (key_legal h₂) _) h₁ h₂ h
  | message hlegal htype h =>
    exact .message (firstFrame_encode hlegal _) (firstFrame_encode hlegal _) h
      fun hz => absurd hz htype

/-- Backend connections whose streams differ only in keys and arrive in the same chunks. -/
structure BlindInputs (r₁ r₂ : Input) : Prop where
  fin : r₁.fin = r₂.fin
  lengths : r₁.chunks.map List.length = r₂.chunks.map List.length
  stream : SameButKeys r₁.stream r₂.stream

theorem input_ext {r₁ r₂ : Input} (hfin : r₁.fin = r₂.fin)
    (hlengths : r₁.chunks.map List.length = r₂.chunks.map List.length)
    (hstream : r₁.stream = r₂.stream) : r₁ = r₂ := by
  obtain ⟨chunks₁, fin₁⟩ := r₁
  obtain ⟨chunks₂, fin₂⟩ := r₂
  obtain rfl : fin₁ = fin₂ := hfin
  obtain rfl : chunks₁ = chunks₂ := List.eq_iff_flatten_eq.mpr ⟨hstream, hlengths⟩
  rfl

theorem afterMessage_lengths {r₁ r₂ : Input} (n : Nat)
    (h : r₁.chunks.map List.length = r₂.chunks.map List.length) :
    (afterMessage r₁ n).chunks.map List.length = (afterMessage r₂ n).chunks.map List.length :=
  ChunkReader.pullChunks_lengths (ChunkReader.pullChunks_lengths h)

/-! ## Registries -/

/-- The same keys are taken, whatever is recorded under them. -/
def SameKeys (cancels₁ cancels₂ : CancelRegistry Pool) : Prop :=
  ∀ key, (cancels₁.lookup key).isSome = (cancels₂.lookup key).isSome

theorem SameKeys.issue {cancels₁ cancels₂ cancels₁' cancels₂' : CancelRegistry Pool}
    {e₁ e₂ : CancelEntry Pool} {draws rest₁ rest₂ : List Draw} {key₁ key₂ : CancelRequest}
    (h : SameKeys cancels₁ cancels₂)
    (h₁ : cancels₁.issue e₁ draws = some (key₁, cancels₁', rest₁))
    (h₂ : cancels₂.issue e₂ draws = some (key₂, cancels₂', rest₂)) :
    key₁ = key₂ ∧ SameKeys cancels₁' cancels₂' := by
  have hcongr := CancelRegistry.issue_key_congr h e₁ e₂ draws
  rw [h₁, h₂] at hcongr
  simp only [Option.map_some, Option.some.injEq, Prod.mk.injEq] at hcongr
  obtain ⟨rfl, -⟩ := hcongr
  obtain ⟨-, rfl⟩ := CancelRegistry.issue_spec h₁
  obtain ⟨-, rfl⟩ := CancelRegistry.issue_spec h₂
  refine ⟨rfl, fun key => ?_⟩
  by_cases hkey : key = key₁
  · subst hkey
    simp
  · simpa [Finmap.lookup_insert_of_ne _ hkey] using h key

theorem SameKeys.release {cancels₁ cancels₂ : CancelRegistry Pool}
    (h : SameKeys cancels₁ cancels₂) (key : CancelRequest) :
    SameKeys (cancels₁.release key) (cancels₂.release key) := by
  intro key'
  by_cases hkey : key' = key
  · subst hkey
    simp [CancelRegistry.release]
  · simpa [CancelRegistry.release, Finmap.lookup_erase_ne hkey] using h key'

/-! ## Relays -/

/-- Two calls of `relayFromBackend` that the client cannot tell apart. -/
structure BlindDown (d₁ d₂ : Downstream Pool) : Prop where
  phase : d₁.phase = d₂.phase
  issued : d₁.issued = d₂.issued
  toClient : d₁.toClient = d₂.toClient
  framing : d₁.phase = .framing → BlindInputs d₁.reader.r d₂.reader.r
  splicing : d₁.phase = .splicing → d₁.reader.r = d₂.reader.r

section Rounds
variable {route : Route Pool} {w : WriteOutcome} {draws draws' : List Draw}
variable {d d' d₁ d₂ d₁' d₂' : Downstream Pool}
variable {cancels cancels' cancels₁ cancels₂ cancels₁' cancels₂' : CancelRegistry Pool}

theorem FrameRound.of_none (h : FrameRound route w draws d cancels d' cancels' draws')
    (hframe : firstFrame d.reader.r.stream = none) :
    cancels' = cancels ∧ d'.phase = .exiting ∧ d'.issued = d.issued ∧
      d'.toClient = d.toClient := by
  cases h with
  | stopped => exact ⟨rfl, rfl, rfl, rfl⟩
  | undecodable h | key h | message h => simp [h] at hframe

theorem FrameRound.of_undecodable (h : FrameRound route w draws d cancels d' cancels' draws')
    {m : Message} {rest : Bytes} (hframe : firstFrame d.reader.r.stream = some (m, rest))
    (htype : m.type = msgBackendKeyData) (hbody : m.body.length ≠ 8) :
    cancels' = cancels ∧ d'.phase = .exiting ∧ d'.issued = d.issued ∧
      d'.toClient = d.toClient := by
  cases h with
  | undecodable => exact ⟨rfl, rfl, rfl, rfl⟩
  | stopped h => simp [h] at hframe
  | key h _ hb =>
    obtain rfl := firstFrame_unique h hframe
    exact absurd hb hbody
  | message h ht =>
    obtain rfl := firstFrame_unique h hframe
    exact absurd htype ht

theorem FrameRound.of_key (h : FrameRound route w draws d cancels d' cancels' draws')
    {m : Message} {rest : Bytes} (hframe : firstFrame d.reader.r.stream = some (m, rest))
    (htype : m.type = msgBackendKeyData) (hbody : m.body.length = 8) :
    ∃ backendKey issued buf minted,
      cancels.issue (sessionEntry route backendKey) draws = some (issued, cancels', draws') ∧
      d' = { d with
          reader := ⟨afterMessage d.reader.r m.body.length, buf⟩
          issued := some issued
          minted }.deliver m.type (encodeBackendKeyData issued) w := by
  cases h with
  | key h _ _ _ hissue =>
    obtain rfl := firstFrame_unique h hframe
    exact ⟨_, _, _, _, hissue, rfl⟩
  | stopped h => simp [h] at hframe
  | undecodable h _ hb =>
    obtain rfl := firstFrame_unique h hframe
    exact absurd hbody hb
  | message h ht =>
    obtain rfl := firstFrame_unique h hframe
    exact absurd htype ht

theorem FrameRound.of_message (h : FrameRound route w draws d cancels d' cancels' draws')
    {m : Message} {rest : Bytes} (hframe : firstFrame d.reader.r.stream = some (m, rest))
    (htype : m.type ≠ msgBackendKeyData) :
    ∃ buf, cancels' = cancels ∧
      d' = { d with
          reader := ⟨afterMessage d.reader.r m.body.length, buf⟩ }.deliver m.type m.encode w := by
  cases h with
  | message h _ =>
    obtain rfl := firstFrame_unique h hframe
    exact ⟨_, rfl, rfl⟩
  | stopped h => simp [h] at hframe
  | undecodable h ht | key h ht =>
    obtain rfl := firstFrame_unique h hframe
    exact absurd ht htype

theorem BlindDown.deliver (h : BlindDown d₁ d₂) (hphase : d₁.phase = .framing)
    {type : UInt8} {out : Bytes} {n : Nat} {rest₁ rest₂ buf₁ buf₂ : Bytes}
    {issued : Option CancelRequest} {minted₁ minted₂ : List (CancelRequest × CancelEntry Pool)}
    (hrest₁ : (afterMessage d₁.reader.r n).stream = rest₁)
    (hrest₂ : (afterMessage d₂.reader.r n).stream = rest₂)
    (hrest : SameButKeys rest₁ rest₂) (hready : type = msgReadyForQuery → rest₁ = rest₂) :
    BlindDown
      ({ d₁ with
          reader := ⟨afterMessage d₁.reader.r n, buf₁⟩
          issued
          minted := minted₁ }.deliver type out w)
      ({ d₂ with
          reader := ⟨afterMessage d₂.reader.r n, buf₂⟩
          issued
          minted := minted₂ }.deliver type out w) := by
  have hinputs := h.framing hphase
  have hlengths := afterMessage_lengths n hinputs.lengths
  constructor
  · simp [Downstream.deliver_phase, h.phase]
  · simp
  · simp [h.toClient]
  · intro _
    simp only [Downstream.deliver_reader]
    exact ⟨hinputs.fin, hlengths, by rw [hrest₁, hrest₂]; exact hrest⟩
  · intro hp
    simp only [Downstream.deliver_phase, hphase] at hp
    simp only [Downstream.deliver_reader]
    -- the raw copy starts after ReadyForQuery, and from there on the streams are equal
    have hz : type = msgReadyForQuery := by
      by_contra hne
      rw [if_neg hne] at hp
      split at hp <;> simp at hp
    exact input_ext hinputs.fin hlengths (by rw [hrest₁, hrest₂]; exact hready hz)

theorem BlindDown.exit (h : BlindDown d₁ d₂)
    (h₁ : d₁'.phase = .exiting ∧ d₁'.issued = d₁.issued ∧ d₁'.toClient = d₁.toClient)
    (h₂ : d₂'.phase = .exiting ∧ d₂'.issued = d₂.issued ∧ d₂'.toClient = d₂.toClient) :
    BlindDown d₁' d₂' := by
  obtain ⟨hphase₁, hissued₁, hclient₁⟩ := h₁
  obtain ⟨hphase₂, hissued₂, hclient₂⟩ := h₂
  exact ⟨by rw [hphase₁, hphase₂], by rw [hissued₁, hissued₂, h.issued],
    by rw [hclient₁, hclient₂, h.toClient], by simp [hphase₁], by simp [hphase₁]⟩

theorem BlindDown.key (h : BlindDown d₁ d₂) (hphase : d₁.phase = .framing)
    (hkeys : SameKeys cancels₁ cancels₂) {draws₁ draws₂ : List Draw}
    (round₁ : FrameRound route w draws d₁ cancels₁ d₁' cancels₁' draws₁)
    (round₂ : FrameRound route w draws d₂ cancels₂ d₂' cancels₂' draws₂)
    {b₁ b₂ rest₁ rest₂ : Bytes}
    (h₁ : firstFrame d₁.reader.r.stream = some (⟨msgBackendKeyData, b₁⟩, rest₁))
    (h₂ : firstFrame d₂.reader.r.stream = some (⟨msgBackendKeyData, b₂⟩, rest₂))
    (hb₁ : b₁.length = 8) (hb₂ : b₂.length = 8) (hrest : SameButKeys rest₁ rest₂) :
    BlindDown d₁' d₂' ∧ SameKeys cancels₁' cancels₂' := by
  obtain ⟨_, issued₁, _, _, hissue₁, rfl⟩ := round₁.of_key h₁ rfl hb₁
  obtain ⟨_, issued₂, _, _, hissue₂, rfl⟩ := round₂.of_key h₂ rfl hb₂
  obtain ⟨rfl, hkeys'⟩ := hkeys.issue hissue₁ hissue₂
  have hrest₁ := afterMessage_stream h₁
  have hrest₂ := afterMessage_stream h₂
  simp only [hb₁] at hrest₁ ⊢
  simp only [hb₂] at hrest₂ ⊢
  exact ⟨h.deliver hphase hrest₁ hrest₂ hrest fun hz => absurd hz (by decide), hkeys'⟩

theorem BlindDown.frame (h : BlindDown d₁ d₂) (hphase : d₁.phase = .framing)
    (hkeys : SameKeys cancels₁ cancels₂) {draws₁ draws₂ : List Draw}
    (round₁ : FrameRound route w draws d₁ cancels₁ d₁' cancels₁' draws₁)
    (round₂ : FrameRound route w draws d₂ cancels₂ d₂' cancels₂' draws₂) :
    BlindDown d₁' d₂' ∧ SameKeys cancels₁' cancels₂' := by
  cases (h.framing hphase).stream.head with
  | none h₁ h₂ =>
    obtain ⟨rfl, hexit₁⟩ := round₁.of_none h₁
    obtain ⟨rfl, hexit₂⟩ := round₂.of_none h₂
    exact ⟨h.exit hexit₁ hexit₂, hkeys⟩
  | key h₁ h₂ hb₁ hb₂ hrest => exact h.key hphase hkeys round₁ round₂ h₁ h₂ hb₁ hb₂ hrest
  | @message m _ _ h₁ h₂ hrest hready =>
    -- the same frame in both streams, which may itself be a key
    by_cases htype : m.type = msgBackendKeyData
    · by_cases hbody : m.body.length = 8
      · obtain ⟨type, body⟩ := m
        obtain rfl : type = msgBackendKeyData := htype
        exact h.key hphase hkeys round₁ round₂ h₁ h₂ hbody hbody hrest
      · obtain ⟨rfl, hexit₁⟩ := round₁.of_undecodable h₁ htype hbody
        obtain ⟨rfl, hexit₂⟩ := round₂.of_undecodable h₂ htype hbody
        exact ⟨h.exit hexit₁ hexit₂, hkeys⟩
    · obtain ⟨_, rfl, rfl⟩ := round₁.of_message h₁ htype
      obtain ⟨_, rfl, rfl⟩ := round₂.of_message h₂ htype
      rw [h.issued]
      exact ⟨h.deliver hphase (afterMessage_stream h₁) (afterMessage_stream h₂) hrest hready,
        hkeys⟩

theorem BlindDown.splice (h : BlindDown d₁ d₂) (hphase : d₁.phase = .splicing) :
    BlindDown (d₁.spliceStep w) (d₂.spliceStep w) := by
  have hreader := h.splicing hphase
  have hphase₂ : d₂.phase = .splicing := h.phase ▸ hphase
  obtain ⟨piece, rest, result, hround⟩ : ∃ piece rest result,
      copyRound d₁.reader.r w = (piece, rest, result) := ⟨_, _, _, rfl⟩
  have hround₂ : copyRound d₂.reader.r w = (piece, rest, result) := hreader ▸ hround
  simp only [Downstream.spliceStep, hround, hround₂]
  cases result with
  | none =>
    exact ⟨h.phase, h.issued, by simp [h.toClient], by simp [hphase], fun _ => rfl⟩
  | some err =>
    exact ⟨rfl, h.issued, by simp [Downstream.exit, Downstream.countCopied, h.toClient],
      by simp [Downstream.exit], by simp [Downstream.exit]⟩

theorem BlindDown.release (h : BlindDown d₁ d₂) (hkeys : SameKeys cancels₁ cancels₂) :
    BlindDown (d₁.releaseStep cancels₁).1 (d₂.releaseStep cancels₂).1 ∧
      SameKeys (d₁.releaseStep cancels₁).2 (d₂.releaseStep cancels₂).2 := by
  refine ⟨⟨rfl, h.issued, h.toClient, by simp [Downstream.releaseStep],
    by simp [Downstream.releaseStep]⟩, ?_⟩
  simp only [Downstream.releaseStep, h.issued]
  cases d₂.issued with
  | none => exact hkeys
  | some key => exact hkeys.release key

end Rounds

structure BlindRelay (s₁ s₂ : Relay Pool) : Prop where
  up : s₁.up = s₂.up
  down : BlindDown s₁.down s₂.down
  clientClosed : s₁.clientClosed = s₂.clientClosed
  result : s₁.result.isSome = s₂.result.isSome

theorem BlindRelay.step [GoFmt] {route : Route Pool} {action : RelayAction}
    {s₁ s₂ t₁ t₂ : Relay Pool} {cancels₁ cancels₂ cancels₁' cancels₂' : CancelRegistry Pool}
    (h : BlindRelay s₁ s₂) (hkeys : SameKeys cancels₁ cancels₂)
    (h₁ : s₁.step route cancels₁ action = some (t₁, cancels₁'))
    (h₂ : s₂.step route cancels₂ action = some (t₂, cancels₂')) :
    BlindRelay t₁ t₂ ∧ SameKeys cancels₁' cancels₂' := by
  cases action with
  | up w =>
    simp only [Relay.step, Option.map_eq_some_iff, Prod.mk.injEq] at h₁ h₂
    obtain ⟨up₁, hup₁, rfl, rfl⟩ := h₁
    obtain ⟨up₂, hup₂, rfl, rfl⟩ := h₂
    rw [h.up, h.clientClosed, hup₂, Option.some.injEq] at hup₁
    exact ⟨⟨hup₁.symm, h.down, h.clientClosed, h.result⟩, hkeys⟩
  | frame w draws =>
    simp only [Relay.step, Option.ite_none_right_eq_some, Option.map_eq_some_iff,
      Prod.mk.injEq] at h₁ h₂
    obtain ⟨hphase, x₁, hround₁, rfl, rfl⟩ := h₁
    obtain ⟨-, x₂, hround₂, rfl, rfl⟩ := h₂
    obtain ⟨hdown, hkeys'⟩ := h.down.frame hphase hkeys
      (Downstream.frameStep_round hround₁) (Downstream.frameStep_round hround₂)
    exact ⟨⟨h.up, hdown, h.clientClosed, h.result⟩, hkeys'⟩
  | splice w =>
    simp only [Relay.step, Option.ite_none_right_eq_some, Option.some.injEq,
      Prod.mk.injEq] at h₁ h₂
    obtain ⟨hphase, rfl, rfl⟩ := h₁
    obtain ⟨-, rfl, rfl⟩ := h₂
    exact ⟨⟨h.up, h.down.splice hphase, h.clientClosed, h.result⟩, hkeys⟩
  | release =>
    simp only [Relay.step, Option.ite_none_right_eq_some, Option.some.injEq,
      Prod.mk.injEq] at h₁ h₂
    obtain ⟨-, rfl, rfl⟩ := h₁
    obtain ⟨-, rfl, rfl⟩ := h₂
    obtain ⟨hdown, hkeys'⟩ := h.down.release hkeys
    exact ⟨⟨h.up, hdown, h.clientClosed, h.result⟩, hkeys'⟩
  | closeClient =>
    simp only [Relay.step, Option.ite_none_right_eq_some, Option.some.injEq,
      Prod.mk.injEq] at h₁ h₂
    obtain ⟨-, rfl, rfl⟩ := h₁
    obtain ⟨-, rfl, rfl⟩ := h₂
    exact ⟨⟨h.up, h.down, rfl, h.result⟩, hkeys⟩
  | finish =>
    simp only [Relay.step, Option.ite_none_right_eq_some, Option.some.injEq,
      Prod.mk.injEq] at h₁ h₂
    obtain ⟨-, rfl, rfl⟩ := h₁
    obtain ⟨-, rfl, rfl⟩ := h₂
    exact ⟨⟨h.up, h.down, h.clientClosed, rfl⟩, hkeys⟩

/-! ## Up to the relay -/

inductive BlindDial : Except GoError (BackendConn Pool) → Except GoError (BackendConn Pool) → Prop
  | failed (e₁ e₂ : GoError) : BlindDial (.error e₁) (.error e₂)
  | reached {conn₁ conn₂ : BackendConn Pool} (h : BlindInputs conn₁.input conn₂.input) :
      BlindDial (.ok conn₁) (.ok conn₂)

/-- The same environment, except for the keys the backends will send. -/
structure BlindEnv (env₁ env₂ : HandleEnv Pool) : Prop where
  same : env₂ = { env₁ with network := env₂.network }
  dial : ∀ route, BlindDial (dialBackend env₁.network route).conn
    (dialBackend env₂.network route).conn

inductive BlindNext : Next Pool → Next Pool → Prop
  | returned (err₁ err₂ : Option GoError) : BlindNext (.returned err₁) (.returned err₂)
  | cancel (request : CancelRequest) : BlindNext (.cancel request) (.cancel request)
  | relay {client : Conn} {backend₁ backend₂ : BackendConn Pool} {route : Route Pool}
      {label : GoString} (h : BlindInputs backend₁.input backend₂.input) :
      BlindNext (.relay client backend₁ route label) (.relay client backend₂ route label)

theorem clientBytes_append (xs ys : List (Effect Pool)) :
    clientBytes (xs ++ ys) = clientBytes xs ++ clientBytes ys := by
  simp [clientBytes]

theorem dialEffects_clientBytes (route : Route Pool) (dialled : Dialled Pool) :
    clientBytes (dialEffects route dialled) = [] := by
  unfold dialEffects
  split <;> split <;> rfl

theorem forwardStartup_blind (env : HandleEnv Pool) (net : Network Pool) (client : Conn)
    (startup : StartupPacket) (database : GoString) (route : Route Pool)
    {conn₁ conn₂ : BackendConn Pool} (h : BlindInputs conn₁.input conn₂.input) :
    clientBytes (forwardStartup env client startup database route conn₁).1 =
      clientBytes (forwardStartup { env with network := net } client startup database route
        conn₂).1 ∧
    BlindNext (forwardStartup env client startup database route conn₁).2
      (forwardStartup { env with network := net } client startup database route conn₂).2 := by
  unfold forwardStartup
  dsimp only
  split
  · exact ⟨rfl, .returned _ _⟩
  · split
    · exact ⟨rfl, .returned _ _⟩
    · split
      · exact ⟨rfl, .returned _ _⟩
      · exact ⟨rfl, .relay h⟩

section Handle
variable [GoFmt] {tls : Option ServerTLS} {table : Table Pool} {env env₁ env₂ : HandleEnv Pool}

theorem negotiateLoop_network (net : Network Pool) (rounds : Nat) (conn : Conn) :
    negotiateLoop tls { env with network := net } rounds conn =
      negotiateLoop tls env rounds conn := by
  induction rounds generalizing conn with
  | zero => rfl
  | succ rounds ih => simp only [negotiateLoop, ih]

variable (table) in
theorem handleStartup_blind (h : BlindEnv env₁ env₂) (client : Conn) (startup : StartupPacket) :
    clientBytes (handleStartup table env₁ client startup).1 =
      clientBytes (handleStartup table env₂ client startup).1 ∧
    BlindNext (handleStartup table env₁ client startup).2
      (handleStartup table env₂ client startup).2 := by
  obtain ⟨hsame, hdial⟩ := h
  generalize env₂.network = net at hsame hdial
  subst hsame
  unfold handleStartup
  split
  · exact ⟨rfl, .cancel _⟩
  · split
    · exact ⟨rfl, .returned _ _⟩
    · rename_i database _
      split
      · exact ⟨rfl, .returned _ _⟩
      · rename_i route _
        have hconn := hdial route
        dsimp only at hconn ⊢
        generalize hd₁ : dialBackend env₁.network route = dialled₁ at hconn ⊢
        generalize hd₂ : dialBackend net route = dialled₂ at hconn ⊢
        obtain ⟨observed₁, plaintext₁, conn₁⟩ := dialled₁
        obtain ⟨observed₂, plaintext₂, conn₂⟩ := dialled₂
        cases hconn with
        | failed e₁ e₂ =>
          refine ⟨?_, .returned _ _⟩
          simp only [clientBytes_append, dialEffects_clientBytes]
        | reached hinputs =>
          obtain ⟨hbytes, hnext⟩ := forwardStartup_blind env₁ net client startup database
            route hinputs
          refine ⟨?_, hnext⟩
          simp only [clientBytes_append, dialEffects_clientBytes, List.nil_append]
          exact hbytes

variable (tls table) in
theorem handle_blind (h : BlindEnv env₁ env₂) (raw : Input) :
    clientBytes (handle tls table env₁ raw).1 = clientBytes (handle tls table env₂ raw).1 ∧
    BlindNext (handle tls table env₁ raw).2 (handle tls table env₂ raw).2 := by
  have hnegotiate : negotiate tls env₂ raw = negotiate tls env₁ raw := by
    rw [h.same]
    exact negotiateLoop_network _ _ _
  have hdeadline : env₂.setDeadline = env₁.setDeadline := by rw [h.same]
  unfold handle
  rw [hnegotiate, hdeadline]
  split
  · exact ⟨rfl, .returned _ _⟩
  · split
    · exact ⟨rfl, .returned _ _⟩
    · rename_i client startup _
      obtain ⟨hbytes, hnext⟩ := handleStartup_blind table h client startup
      exact ⟨by simp only [clientBytes_append, hbytes], hnext⟩

end Handle

/-! ## The whole gateway -/

inductive BlindStage : Stage Pool → Stage Pool → Prop
  | tracked : BlindStage .tracked .tracked
  | admitted : BlindStage .admitted .admitted
  | looking (request : CancelRequest) : BlindStage (.looking request) (.looking request)
  | forwarding (request : CancelRequest) (entry₁ entry₂ : Option (CancelEntry Pool)) :
      BlindStage (.forwarding request entry₁) (.forwarding request entry₂)
  | relaying {route : Route Pool} {relay₁ relay₂ : Relay Pool} (h : BlindRelay relay₁ relay₂) :
      BlindStage (.relaying route relay₁) (.relaying route relay₂)
  | handled (err₁ err₂ : Option GoError) : BlindStage (.handled err₁) (.handled err₂)
  | leaving : BlindStage .leaving .leaving
  | closed : BlindStage .closed .closed

/-- Two connections whose clients have received the same. -/
structure BlindConn (c₁ c₂ : Connection Pool) : Prop where
  input : c₁.input = c₂.input
  bytes : clientBytes c₁.effects = clientBytes c₂.effects
  stage : BlindStage c₁.stage c₂.stage

structure BlindShared (sh₁ sh₂ : Shared Pool) : Prop where
  slots : sh₁.slots = sh₂.slots
  keys : SameKeys sh₁.cancels sh₂.cancels

/-- The same action, except for the keys of the backend a session is opened to and for
what a cancel connection meets, which no client sees. -/
inductive BlindAction : ConnAction Pool → ConnAction Pool → Prop
  | acquireSlot (fatal : WriteOutcome) : BlindAction (.acquireSlot fatal) (.acquireSlot fatal)
  | handle {env₁ env₂ : HandleEnv Pool} (h : BlindEnv env₁ env₂) (table : Table Pool) :
      BlindAction (.handle env₁ table) (.handle env₂ table)
  | lookup : BlindAction .lookup .lookup
  | forward (net₁ net₂ : Network Pool) (w₁ w₂ : WriteOutcome) :
      BlindAction (.forward net₁ w₁) (.forward net₂ w₂)
  | relay (action : RelayAction) : BlindAction (.relay action) (.relay action)
  | releaseSlot : BlindAction .releaseSlot .releaseSlot
  | untrack : BlindAction .untrack .untrack

theorem BlindConn.received {c₁ c₂ : Connection Pool} (h : BlindConn c₁ c₂) :
    c₁.received = c₂.received := by
  obtain ⟨input₁, stage₁, effects₁⟩ := c₁
  obtain ⟨input₂, stage₂, effects₂⟩ := c₂
  obtain ⟨-, hbytes, hstage⟩ := h
  simp only [Connection.received] at hbytes ⊢
  rw [hbytes]
  cases hstage with
  | relaying hrelay => simp only [hrelay.down.toClient]
  | _ => rfl

theorem BlindNext.stage {next₁ next₂ : Next Pool} (h : BlindNext next₁ next₂) :
    BlindStage next₁.stage next₂.stage := by
  cases h with
  | returned err₁ err₂ => exact .handled err₁ err₂
  | cancel request => exact .looking request
  | relay hinputs =>
    exact .relaying ⟨rfl, ⟨rfl, rfl, rfl, fun _ => hinputs, by simp [Relay.start]⟩, rfl, rfl⟩

theorem BlindConn.afterRelay {c₁ c₂ : Connection Pool} (h : BlindConn c₁ c₂) (route : Route Pool)
    {relay₁ relay₂ : Relay Pool} (hrelay : BlindRelay relay₁ relay₂) :
    BlindConn (c₁.afterRelay route relay₁) (c₂.afterRelay route relay₂) := by
  have hresult := hrelay.result
  unfold Connection.afterRelay
  cases h₁ : relay₁.result <;> cases h₂ : relay₂.result
  · exact ⟨h.input, h.bytes, .relaying hrelay⟩
  · simp [h₁, h₂] at hresult
  · simp [h₁, h₂] at hresult
  · refine ⟨h.input, ?_, .handled _ _⟩
    simp only [clientBytes_append, h.bytes, hrelay.down.toClient]

section Gateway
variable [GoFmt] {cfg : Config} {sh₁ sh₂ sh₁' sh₂' : Shared Pool}
variable {c₁ c₂ c₁' c₂' : Connection Pool} {a₁ a₂ : ConnAction Pool}
variable {events₁ events₂ : List (CancelEvent Pool)}

theorem BlindConn.move (h : BlindConn c₁ c₂) (hsh : BlindShared sh₁ sh₂)
    (ha : BlindAction a₁ a₂) (h₁ : ConnMove cfg sh₁ c₁ a₁ c₁' sh₁' events₁)
    (h₂ : ConnMove cfg sh₂ c₂ a₂ c₂' sh₂' events₂) :
    BlindConn c₁' c₂' ∧ BlindShared sh₁' sh₂' := by
  have hstage := h.stage
  cases ha with
  | acquireSlot fatal =>
    cases h₁ with
    | admitted _ hslot₁ =>
      cases h₂ with
      | admitted _ hslot₂ =>
        rw [hsh.slots, hslot₂, Option.some.injEq] at hslot₁
        exact ⟨⟨h.input, h.bytes, .admitted⟩, hslot₁.symm, hsh.keys⟩
      | rejected _ hslot₂ => simp [hsh.slots, hslot₂] at hslot₁
    | rejected _ hslot₁ =>
      cases h₂ with
      | admitted _ hslot₂ => simp [hsh.slots, hslot₂] at hslot₁
      | rejected _ hslot₂ =>
        exact ⟨⟨h.input, by simp only [clientBytes_append, h.bytes], .leaving⟩, hsh⟩
  | handle henv table =>
    cases h₁ with
    | handled =>
      cases h₂ with
      | handled =>
        obtain ⟨hbytes, hnext⟩ := handle_blind cfg.tls table henv c₁.input
        rw [h.input] at hbytes hnext ⊢
        exact ⟨⟨rfl, by simp only [clientBytes_append, h.bytes, hbytes], hnext.stage⟩, hsh⟩
  | lookup =>
    cases h₁ with
    | lookedUp hstage₁ =>
      cases h₂ with
      | lookedUp hstage₂ =>
        rw [hstage₁, hstage₂] at hstage
        cases hstage
        exact ⟨⟨h.input, h.bytes, .forwarding _ _ _⟩, hsh⟩
  | forward =>
    cases h₁ with
    | forwarded =>
      cases h₂ with
      | forwarded => exact ⟨⟨h.input, h.bytes, .handled _ _⟩, hsh⟩
  | relay action =>
    cases h₁ with
    | relayed hstage₁ hrelay₁ =>
      cases h₂ with
      | relayed hstage₂ hrelay₂ =>
        rw [hstage₁, hstage₂] at hstage
        cases hstage with
        | relaying hrelay =>
          obtain ⟨hrelay', hkeys⟩ := hrelay.step hsh.keys hrelay₁ hrelay₂
          exact ⟨h.afterRelay _ hrelay', hsh.slots, hkeys⟩
  | releaseSlot =>
    cases h₁ with
    | slotReleased _ hslot₁ =>
      cases h₂ with
      | slotReleased _ hslot₂ =>
        rw [hsh.slots, hslot₂, Option.some.injEq] at hslot₁
        exact ⟨⟨h.input, h.bytes, .leaving⟩, hslot₁.symm, hsh.keys⟩
  | untrack =>
    cases h₁ with
    | untracked =>
      cases h₂ with
      | untracked => exact ⟨⟨h.input, h.bytes, .closed⟩, hsh⟩

inductive BlindServerAction : ServerAction Pool → ServerAction Pool → Prop
  | accept (client : Input) : BlindServerAction (.accept client) (.accept client)
  | conn (i : Nat) {a₁ a₂ : ConnAction Pool} (h : BlindAction a₁ a₂) :
      BlindServerAction (.conn i a₁) (.conn i a₂)

structure BlindServer (s₁ s₂ : Server Pool) : Prop where
  shared : BlindShared s₁.shared s₂.shared
  length : s₁.conns.length = s₂.conns.length
  conns : ∀ {i : Nat} {c₁ c₂ : Connection Pool}, s₁.conns[i]? = some c₁ →
    s₂.conns[i]? = some c₂ → BlindConn c₁ c₂

theorem BlindServer.step {s₁ s₂ t₁ t₂ : Server Pool} {a₁ a₂ : ServerAction Pool}
    (h : BlindServer s₁ s₂) (ha : BlindServerAction a₁ a₂) (h₁ : s₁.step cfg a₁ = some t₁)
    (h₂ : s₂.step cfg a₂ = some t₂) : BlindServer t₁ t₂ := by
  cases ha with
  | accept client =>
    obtain rfl := Option.some.inj h₁
    obtain rfl := Option.some.inj h₂
    refine ⟨h.shared, by simp [h.length], ?_⟩
    intro i c₁ c₂ hc₁ hc₂
    rw [List.getElem?_append] at hc₁ hc₂
    rw [h.length] at hc₁
    split at hc₁
    · rename_i hi
      rw [if_pos hi] at hc₂
      exact h.conns hc₁ hc₂
    · rename_i hi
      rw [if_neg hi] at hc₂
      obtain rfl := List.mem_singleton.mp (List.mem_of_getElem? hc₁)
      obtain rfl := List.mem_singleton.mp (List.mem_of_getElem? hc₂)
      exact ⟨rfl, rfl, .tracked⟩
  | conn i ha =>
    rcases Server.step_cases h₁ with ⟨_, hfalse, -⟩ |
      ⟨_, _, c₁, c₁', sh₁, events₁, heq₁, hc₁, hmove₁, rfl⟩
    · simp at hfalse
    rcases Server.step_cases h₂ with ⟨_, hfalse, -⟩ |
      ⟨_, _, c₂, c₂', sh₂, events₂, heq₂, hc₂, hmove₂, rfl⟩
    · simp at hfalse
    simp only [ServerAction.conn.injEq] at heq₁ heq₂
    obtain ⟨rfl, rfl⟩ := heq₁
    obtain ⟨rfl, rfl⟩ := heq₂
    obtain ⟨hconn, hshared⟩ := (h.conns hc₁ hc₂).move h.shared ha hmove₁ hmove₂
    refine ⟨hshared, by simp [h.length], ?_⟩
    intro j d₁ d₂ hd₁ hd₂
    by_cases hij : i = j
    · subst hij
      rw [List.getElem?_set_self (List.getElem?_eq_some_iff.mp hc₁).1] at hd₁
      rw [List.getElem?_set_self (List.getElem?_eq_some_iff.mp hc₂).1] at hd₂
      exact Option.some.inj hd₁ ▸ Option.some.inj hd₂ ▸ hconn
    · rw [List.getElem?_set_ne hij] at hd₁ hd₂
      exact h.conns hd₁ hd₂

/-- Two runs of the gateway with the same interleaving, the same clients and the same
random draws, whose backends differ in the keys they send: every client receives the
same bytes in both. -/
theorem backend_keys_never_reach_clients {actions₁ actions₂ : List (ServerAction Pool)}
    {s₁ s₂ : Server Pool} (hactions : List.Forall₂ BlindServerAction actions₁ actions₂)
    (h₁ : exec (Server.step cfg) {} actions₁ = some s₁)
    (h₂ : exec (Server.step cfg) {} actions₂ = some s₂) :
    s₁.conns.map Connection.received = s₂.conns.map Connection.received := by
  have hstart : BlindServer ({} : Server Pool) {} := ⟨⟨rfl, fun _ => rfl⟩, rfl, by simp⟩
  have h : BlindServer s₁ s₂ := exec_lockstep BlindServer.step hstart hactions h₁ h₂
  apply List.ext_getElem?
  intro i
  rw [List.getElem?_map, List.getElem?_map]
  cases hc₁ : s₁.conns[i]? with
  | none =>
    have hlen := List.getElem?_eq_none_iff.mp hc₁
    rw [h.length] at hlen
    rw [List.getElem?_eq_none hlen]
  | some c₁ =>
    have hlen := (List.getElem?_eq_some_iff.mp hc₁).1
    rw [h.length] at hlen
    rw [List.getElem?_eq_getElem hlen, Option.map_some, Option.map_some,
      (h.conns hc₁ (List.getElem?_eq_getElem hlen)).received]

end Gateway

theorem upgradeBackendTLS_sample (backend : Bytes) (address : GoString) (conn : Input)
    (route : Route Unit) :
    ∃ e, (upgradeBackendTLS (sampleNetwork backend) address conn route).2 = .error e := by
  unfold upgradeBackendTLS
  dsimp only [sampleNetwork, sampleEnv, WriteOutcome.err]
  split
  · exact ⟨_, rfl⟩
  · split <;> exact ⟨_, rfl⟩

theorem openSession_blind (i : Nat) {b₁ b₂ : Bytes} (h : SameButKeys b₁ b₂)
    (hlen : b₁.length = b₂.length) :
    List.Forall₂ BlindServerAction (openSession i b₁) (openSession i b₂) := by
  refine .cons (.accept _) (.cons (.conn i (.acquireSlot _)) (.cons (.conn i (.handle ?_ _)) .nil))
  refine ⟨rfl, fun route => ?_⟩
  by_cases htls : route.tls.enabled
  · obtain ⟨e₁, h₁⟩ := upgradeBackendTLS_sample b₁ route.address ⟨[b₁], .sentinel .eof⟩ route
    obtain ⟨e₂, h₂⟩ := upgradeBackendTLS_sample b₂ route.address ⟨[b₂], .sentinel .eof⟩ route
    simp only [dialBackend, sampleNetwork, sampleEnv, htls, if_true] at h₁ h₂ ⊢
    rw [h₁, h₂]
    exact .failed e₁ e₂
  · simp only [dialBackend, sampleNetwork, sampleEnv, htls]
    exact .reached ⟨rfl, by simp [hlen], by simpa [ChunkReader.stream] using h⟩

theorem backend_keys_never_reach_clients_two :
    ∃ s₁ s₂, exec (@Server.step Unit plainQuote {}) {} (oneKeyRun 7) = some s₁ ∧
      exec (@Server.step Unit plainQuote {}) {} (oneKeyRun 8) = some s₂ ∧
      s₁.shared.cancels.lookup (sampleKey 1) ≠ s₂.shared.cancels.lookup (sampleKey 1) ∧
      s₁.conns.map Connection.received = [encodeBackendKeyData (sampleKey 1)] ∧
      s₁.conns.map Connection.received = s₂.conns.map Connection.received := by
  have hblind : List.Forall₂ BlindServerAction (oneKeyRun 7) (oneKeyRun 8) := by
    have hkeys := encodeBackendKeyData_blind (sampleKey 7) (sampleKey 8)
    exact List.rel_append (openSession_blind 0 hkeys rfl) (.cons (.conn 0 (.relay _)) .nil)
  refine ⟨_, _, rfl, rfl, by decide, by decide, ?_⟩
  exact @backend_keys_never_reach_clients Unit plainQuote {} _ _ _ _ hblind rfl rfl

end Proxy
end PgProxy
