import PgProxy.Pgwire.Startup
import PgProxy.Proxy.Session

/-!
# Negotiation

A round of `negotiate` reads one packet. It answers a request for encryption with one
byte and goes on, or it is the last round. The rounds that go on are a chain of exchanges;
how the last one can end is an inductive relation with one case per return of the loop.
-/

namespace PgProxy
set_option autoImplicit false

namespace Proxy
open Pgwire

variable {Pool : Type}

/-- A request for encryption and its answer: read from `conn`, the negotiation goes on
with `next`. -/
structure Exchange where
  conn : Conn
  packet : StartupPacket
  answer : UInt8
  next : Conn

def Exchange.effect (x : Exchange) : Effect Pool := .client [x.answer]

inductive Answers (tls : Option ServerTLS) (conn : Conn) (packet : StartupPacket) : UInt8 → Prop
  | declineTLS (hssl : packet.isSSLRequest) (htls : tls = none) :
      Answers tls conn packet negotiationRejected
  | acceptTLS (hssl : packet.isSSLRequest) (htls : tls.isSome) (hplain : conn.encrypted = false) :
      Answers tls conn packet negotiationAccepted
  | declineGSS (hssl : packet.isSSLRequest = false) (hgss : packet.isGSSEncRequest) :
      Answers tls conn packet negotiationRejected

theorem Answers.code {tls : Option ServerTLS} {conn : Conn} {packet : StartupPacket}
    {answer : UInt8} (h : Answers tls conn packet answer) :
    packet.code = sslRequestCode ∨ packet.code = gssEncRequestCode := by
  cases h with
  | declineTLS hssl | acceptTLS hssl =>
    exact Or.inl (by simpa [StartupPacket.isSSLRequest] using hssl)
  | declineGSS _ hgss => exact Or.inr (by simpa [StartupPacket.isGSSEncRequest] using hgss)

theorem Answers.accepts {tls : Option ServerTLS} {conn : Conn} {packet : StartupPacket}
    (h : Answers tls conn packet negotiationAccepted) :
    packet.isSSLRequest ∧ tls.isSome ∧ conn.encrypted = false := by
  generalize hanswer : negotiationAccepted = answer at h
  cases h with
  | acceptTLS hssl htls hplain => exact ⟨hssl, htls, hplain⟩
  | declineTLS | declineGSS => simp [negotiationAccepted, negotiationRejected] at hanswer

section Rounds
variable [GoFmt]

/-- The answer was written in full, and after an acceptance the handshake succeeded. -/
structure Exchange.Survives (tls : Option ServerTLS) (env : HandleEnv Pool) (x : Exchange) :
    Prop where
  answers : Answers tls x.conn x.packet x.answer
  reads : ∃ rest, readStartupPacket x.conn.input = (.ok x.packet, rest) ∧
    if x.answer = negotiationAccepted then
      ∃ input, env.handshake rest = .ok input ∧ x.next = { encrypted := true, input }
    else x.next = { x.conn with input := rest }

/-- How the loop returns: the byte it still answered with, the effects of the last round
and the result. -/
inductive Ending (tls : Option ServerTLS) (env : HandleEnv Pool) (conn : Conn) :
    Option UInt8 → List (Effect Pool) → Except GoError (Conn × StartupPacket) → Prop
  | unread {e : GoError} {rest : Input} (hread : readStartupPacket conn.input = (.error e, rest)) :
      Ending tls env conn none []
        (.error (if isBenignClose e then e else errorfWrap (str "reading startup packet") e))
  | cut {packet : StartupPacket} {rest : Input} {answer : UInt8} {w : WriteOutcome}
      {what : GoString} {e : GoError} (hread : readStartupPacket conn.input = (.ok packet, rest))
      (hanswers : Answers tls conn packet answer) (hcut : w.err = some e) :
      Ending tls env conn (some answer) [.client (w.written [answer])]
        (.error (errorfWrap what e))
  | handshakeFailed {packet : StartupPacket} {rest : Input} {e : GoError}
      (hread : readStartupPacket conn.input = (.ok packet, rest))
      (hanswers : Answers tls conn packet negotiationAccepted)
      (hshake : env.handshake rest = .error e) :
      Ending tls env conn (some negotiationAccepted) [.client [negotiationAccepted]]
        (.error (errorfWrap (str "client TLS handshake") e))
  | secondRequest {packet : StartupPacket} {rest : Input}
      (hread : readStartupPacket conn.input = (.ok packet, rest))
      (hssl : packet.isSSLRequest) (hencrypted : conn.encrypted) :
      Ending tls env conn none [] (.error (errorsNew
        "client sent a second SSLRequest inside an established TLS session"))
  | refused {packet : StartupPacket} {rest : Input}
      (hread : readStartupPacket conn.input = (.ok packet, rest))
      (hrequired : tls.any ServerTLS.required) (hplain : conn.encrypted = false) :
      Ending tls env conn none [writeFatal env.fatal sqlStateProtocolViolation
          (str "the gateway requires a TLS connection")
          (str "Connect with sslmode=require or stronger.")]
        (.error (errorsNew "client declined the required TLS upgrade"))
  | startup {packet : StartupPacket} {rest : Input}
      (hread : readStartupPacket conn.input = (.ok packet, rest))
      (hssl : packet.isSSLRequest = false) (hgss : packet.isGSSEncRequest = false)
      (hallowed : packet.isCancelRequest ∨ conn.encrypted ∨ tls.any ServerTLS.required = false) :
      Ending tls env conn none [] (.ok ({ conn with input := rest }, packet))

variable {tls : Option ServerTLS} {env : HandleEnv Pool}

variable (tls env) in
theorem negotiateLoop_round (rounds : Nat) (conn : Conn) :
    (∃ x : Exchange, x.conn = conn ∧ x.Survives tls env ∧
      negotiateLoop tls env (rounds + 1) conn =
        (x.effect :: (negotiateLoop tls env rounds x.next).1,
          (negotiateLoop tls env rounds x.next).2)) ∨
    ∃ answer effects result, Ending tls env conn answer effects result ∧
      negotiateLoop tls env (rounds + 1) conn = (effects, result) := by
  rw [negotiateLoop]
  split
  · rename_i e rest hread
    exact Or.inr ⟨_, _, _, .unread hread, rfl⟩
  · rename_i packet rest hread
    dsimp only
    split
    · rename_i hssl
      split
      · have hanswers : Answers none conn packet negotiationRejected := .declineTLS hssl rfl
        split
        · rename_i e hcut
          exact Or.inr ⟨_, _, _, .cut hread hanswers hcut, rfl⟩
        · rename_i hfull
          rw [WriteOutcome.written_of_err_none hfull]
          exact Or.inl ⟨⟨conn, packet, _, { conn with input := rest }⟩, rfl,
            ⟨hanswers, rest, hread, rfl⟩, rfl⟩
      · split
        · rename_i hencrypted
          exact Or.inr ⟨_, _, _, .secondRequest hread hssl hencrypted, rfl⟩
        · rename_i settings hplain
          have hanswers : Answers (some settings) conn packet negotiationAccepted :=
            .acceptTLS hssl rfl (by simpa using hplain)
          split
          · rename_i e hcut
            exact Or.inr ⟨_, _, _, .cut hread hanswers hcut, rfl⟩
          · rename_i hfull
            rw [WriteOutcome.written_of_err_none hfull]
            split
            · rename_i e hshake
              exact Or.inr ⟨_, _, _, .handshakeFailed hread hanswers hshake, rfl⟩
            · rename_i input hshake
              exact Or.inl ⟨⟨conn, packet, _, { encrypted := true, input }⟩, rfl,
                ⟨hanswers, rest, hread, input, hshake, rfl⟩, rfl⟩
    · rename_i hssl
      split
      · rename_i hgss
        have hanswers : Answers tls conn packet negotiationRejected :=
          .declineGSS (by simpa using hssl) hgss
        split
        · rename_i e hcut
          exact Or.inr ⟨_, _, _, .cut hread hanswers hcut, rfl⟩
        · rename_i hfull
          rw [WriteOutcome.written_of_err_none hfull]
          exact Or.inl ⟨⟨conn, packet, _, { conn with input := rest }⟩, rfl,
            ⟨hanswers, rest, hread, rfl⟩, rfl⟩
      · rename_i hgss
        have hstartup : packet.isCancelRequest ∨ conn.encrypted ∨
              tls.any ServerTLS.required = false →
            Ending tls env conn none [] (.ok ({ conn with input := rest }, packet)) :=
          .startup hread (by simpa using hssl) (by simpa using hgss)
        split
        · rename_i hcancel
          exact Or.inr ⟨_, _, _, hstartup (Or.inl hcancel), rfl⟩
        · split
          · rename_i hrefused
            obtain ⟨hrequired, hplain⟩ : tls.any ServerTLS.required = true ∧
                conn.encrypted = false := by simpa using hrefused
            exact Or.inr ⟨_, _, _, .refused hread hrequired hplain, rfl⟩
          · rename_i hallowed
            refine Or.inr ⟨_, _, _, hstartup (Or.inr ?_), rfl⟩
            cases hencrypted : conn.encrypted with
            | true => exact Or.inl rfl
            | false => exact Or.inr (by simpa [hencrypted] using hallowed)

/-- The exchanges follow one another, from a connection to the one of the last round. -/
inductive Linked (tls : Option ServerTLS) (env : HandleEnv Pool) :
    Conn → List Exchange → Conn → Prop
  | nil (conn : Conn) : Linked tls env conn [] conn
  | cons {x : Exchange} {xs : List Exchange} {last : Conn} (hsurvives : x.Survives tls env)
      (hrest : Linked tls env x.next xs last) : Linked tls env x.conn (x :: xs) last

variable (tls env) in
theorem negotiateLoop_linked (rounds : Nat) (conn : Conn) :
    ∃ xs last answer effects result, Linked tls env conn xs last ∧
      negotiateLoop tls env rounds conn = (xs.map Exchange.effect ++ effects, result) ∧
      (xs.length < rounds ∧ Ending tls env last answer effects result ∨
        xs.length = rounds ∧ answer = none ∧ effects = [] ∧ ∃ e, result = .error e) := by
  induction rounds generalizing conn with
  | zero => exact ⟨[], conn, none, [], _, .nil conn, rfl, Or.inr ⟨rfl, rfl, rfl, _, rfl⟩⟩
  | succ rounds ih =>
    rcases negotiateLoop_round tls env rounds conn with
      ⟨x, rfl, hsurvives, hloop⟩ | ⟨answer, effects, result, hending, hloop⟩
    · obtain ⟨xs, last, answer, effects, result, hlinked, hrest, hend⟩ := ih x.next
      refine ⟨x :: xs, last, answer, effects, result, .cons hsurvives hlinked, ?_, ?_⟩
      · rw [hloop, hrest]
        rfl
      · simpa using hend
    · exact ⟨[], conn, answer, effects, result, .nil conn, hloop,
        Or.inl ⟨Nat.succ_pos _, hending⟩⟩

theorem Exchange.Survives.encrypted {x : Exchange} (h : x.Survives tls env) :
    (x.answer = negotiationAccepted → x.next.encrypted = true) ∧
      (x.answer ≠ negotiationAccepted →
        x.answer = negotiationRejected ∧ x.next.encrypted = x.conn.encrypted) := by
  obtain ⟨rest, -, hnext⟩ := h.reads
  refine ⟨fun haccepted => ?_, fun hother => ?_⟩
  · rw [if_pos haccepted] at hnext
    obtain ⟨input, -, hnext⟩ := hnext
    rw [hnext]
  · rw [if_neg hother] at hnext
    refine ⟨?_, by rw [hnext]⟩
    obtain ⟨conn, packet, answer, next⟩ := x
    cases h.answers with
    | declineTLS | declineGSS => rfl
    | acceptTLS => exact absurd rfl hother

theorem Linked.encrypted {conn last : Conn} {xs : List Exchange}
    (h : Linked tls env conn xs last) (henc : conn.encrypted = true) :
    last.encrypted = true ∧
      ∀ x ∈ xs, x.conn.encrypted = true ∧ x.answer ≠ negotiationAccepted := by
  induction h with
  | nil => exact ⟨henc, by simp⟩
  | @cons x xs last hsurvives hrest ih =>
    have hanswer : x.answer ≠ negotiationAccepted := by
      intro haccepted
      have := (haccepted ▸ hsurvives.answers).accepts.2.2
      simp [henc] at this
    have hnext := (hsurvives.encrypted.2 hanswer).2.trans henc
    obtain ⟨hlast, hlater⟩ := ih hnext
    refine ⟨hlast, fun y hy => ?_⟩
    rcases List.mem_cons.mp hy with rfl | hy
    · exact ⟨henc, hanswer⟩
    · exact hlater y hy

theorem Ending.accepts {conn : Conn} {effects : List (Effect Pool)}
    {result : Except GoError (Conn × StartupPacket)}
    (h : Ending tls env conn (some negotiationAccepted) effects result) :
    tls.isSome ∧ conn.encrypted = false := by
  generalize hanswer : some negotiationAccepted = answer at h
  cases h with
  | cut _ hanswers =>
    obtain rfl := Option.some.inj hanswer
    exact hanswers.accepts.2
  | handshakeFailed _ hanswers => exact hanswers.accepts.2
  | unread | secondRequest | refused | startup => simp at hanswer

/-- The answers of the negotiation, the last one included. -/
def answers (xs : List Exchange) (answer : Option UInt8) : List UInt8 :=
  xs.map Exchange.answer ++ answer.toList

theorem Linked.count_accepted {conn last : Conn} {xs : List Exchange} {answer : Option UInt8}
    (h : Linked tls env conn xs last)
    (hlast : answer = some negotiationAccepted → last.encrypted = false) :
    (answers xs answer).count negotiationAccepted ≤ 1 := by
  induction h with
  | nil => exact List.count_le_length.trans (by cases answer <;> simp [answers])
  | @cons x xs last hsurvives hrest ih =>
    have hsplit : answers (x :: xs) answer = x.answer :: answers xs answer := rfl
    by_cases haccepted : x.answer = negotiationAccepted
    · -- the rest of the chain is encrypted, and there is nothing left to accept
      obtain ⟨henc, hlater⟩ := hrest.encrypted (hsurvives.encrypted.1 haccepted)
      have hnone : negotiationAccepted ∉ answers xs answer := by
        rintro hmem
        rcases List.mem_append.mp hmem with hmem | hmem
        · obtain ⟨y, hy, heq⟩ := List.mem_map.mp hmem
          exact (hlater y hy).2 heq
        · have := hlast (by simpa using hmem)
          simp [henc] at this
      rw [hsplit, haccepted, List.count_cons_self, List.count_eq_zero.mpr hnone]
    · rw [hsplit, List.count_cons_of_ne haccepted]
      exact ih hlast

theorem Linked.accepted {conn last : Conn} {xs before after : List Exchange} {x : Exchange}
    (h : Linked tls env conn xs last) (hsplit : xs = before ++ x :: after) :
    x.Survives tls env ∧ Linked tls env x.next after last := by
  induction h generalizing before with
  | nil => simp at hsplit
  | @cons y ys last hsurvives hrest ih =>
    cases before with
    | nil =>
      obtain ⟨rfl, rfl⟩ := List.cons.inj hsplit
      exact ⟨hsurvives, hrest⟩
    | cons z zs => exact ih (List.cons.inj hsplit).2

/-! ## What the returned connection goes on with -/

/-- A client connection after its startup packet. `base` is everything the client sends
on this connection: negotiation requests, the packet, and what is still unread. -/
structure StartupOn (base : Input) (p : StartupPacket) (unread : Input) : Prop where
  layout : ∃ (codes : List Int32) (pkt : Bytes),
    (∀ code ∈ codes, code = sslRequestCode ∨ code = gssEncRequestCode) ∧ IsPacket pkt p ∧
    base.stream = codes.flatMap negotiationRequest ++ pkt ++ unread.stream
  fin : unread.fin = base.fin

theorem StartupOn.cons {base rest unread : Input} {q p : StartupPacket}
    (hread : readStartupPacket base = (.ok q, rest))
    (hcode : q.code = sslRequestCode ∨ q.code = gssEncRequestCode)
    (h : StartupOn rest p unread) : StartupOn base p unread := by
  obtain ⟨pkt₀, hpkt₀, hstream, hfin⟩ := readStartupPacket_ok hread
  obtain ⟨codes, pkt, hcodes, hpkt, hlayout⟩ := h.layout
  refine ⟨⟨q.code :: codes, pkt, ?_, hpkt, ?_⟩, h.fin.trans hfin⟩
  · simpa using ⟨hcode, hcodes⟩
  · rw [hstream, hlayout, hpkt₀.negotiation hcode]
    simp

theorem StartupOn.now {base rest : Input} {p : StartupPacket}
    (hread : readStartupPacket base = (.ok p, rest)) : StartupOn base p rest := by
  obtain ⟨pkt, hpkt, hstream, hfin⟩ := readStartupPacket_ok hread
  exact ⟨⟨[], pkt, by simp, hpkt, by simpa using hstream⟩, hfin⟩

/-- The connection `negotiate` goes on with: the one it was given, or the decrypted
stream of a handshake. -/
def ContinuesOn (env : HandleEnv Pool) (conn client : Conn) (base : Input) : Prop :=
  (client.encrypted = conn.encrypted ∧ base = conn.input) ∨
  (conn.encrypted = false ∧ client.encrypted = true ∧ ∃ r, env.handshake r = .ok base)

theorem Linked.startup {conn last client : Conn} {xs : List Exchange} {p : StartupPacket}
    {rest : Input} (h : Linked tls env conn xs last)
    (hread : readStartupPacket last.input = (.ok p, rest))
    (hclient : client = { last with input := rest }) :
    ∃ base, ContinuesOn env conn client base ∧ StartupOn base p client.input := by
  -- Every exchange has read one request. It stays on its connection or moves to the
  -- decrypted stream of a handshake, on which the layout of the bytes starts anew.
  induction h with
  | nil conn =>
    subst hclient
    exact ⟨conn.input, Or.inl ⟨rfl, rfl⟩, StartupOn.now hread⟩
  | @cons x xs last hsurvives hrest ih =>
    obtain ⟨base, hbase, hon⟩ := ih hread hclient
    obtain ⟨input, hrequest, hnext⟩ := hsurvives.reads
    by_cases haccepted : x.answer = negotiationAccepted
    · rw [if_pos haccepted] at hnext
      obtain ⟨decrypted, hshake, hnext⟩ := hnext
      rw [hnext] at hbase
      refine ⟨base, Or.inr ⟨(haccepted ▸ hsurvives.answers).accepts.2.2, ?_⟩, hon⟩
      rcases hbase with ⟨henc, rfl⟩ | ⟨hfalse, -⟩
      · exact ⟨henc, _, hshake⟩
      · simp at hfalse
    · rw [if_neg haccepted] at hnext
      rw [hnext] at hbase
      rcases hbase with ⟨henc, rfl⟩ | hbase
      · exact ⟨x.conn.input, Or.inl ⟨henc, rfl⟩, hon.cons hrequest hsurvives.answers.code⟩
      · exact ⟨base, Or.inr hbase, hon⟩

theorem Ending.ok {last client : Conn} {answer : Option UInt8} {effects : List (Effect Pool)}
    {p : StartupPacket} (h : Ending tls env last answer effects (.ok (client, p))) :
    (∃ rest, readStartupPacket last.input = (.ok p, rest) ∧ client = { last with input := rest }) ∧
      (p.isCancelRequest ∨ client.encrypted ∨ tls.any ServerTLS.required = false) := by
  generalize hresult : (Except.ok (client, p) : Except GoError _) = result at h
  cases h with
  | startup hread _ _ hallowed =>
    obtain ⟨rfl, rfl⟩ := Prod.mk.inj (Except.ok.inj hresult)
    exact ⟨⟨_, hread, rfl⟩, hallowed⟩
  | unread | cut | handshakeFailed | secondRequest | refused => simp at hresult

theorem negotiateLoop_ok {rounds : Nat} {conn client : Conn} {p : StartupPacket}
    (h : (negotiateLoop tls env rounds conn).2 = .ok (client, p)) :
    ∃ base, ContinuesOn env conn client base ∧ StartupOn base p client.input := by
  obtain ⟨xs, last, answer, effects, result, hlinked, hloop, hend⟩ :=
    negotiateLoop_linked tls env rounds conn
  rw [hloop] at h
  obtain rfl : result = .ok (client, p) := h
  rcases hend with ⟨-, hending⟩ | ⟨-, -, -, e, he⟩
  · obtain ⟨⟨rest, hread, hclient⟩, -⟩ := hending.ok
    exact hlinked.startup hread hclient
  · simp at he

theorem negotiateLoop_effects (rounds : Nat) (conn : Conn) :
    ∀ effect ∈ (negotiateLoop tls env rounds conn).1, ∃ b, effect = .client b := by
  obtain ⟨xs, last, answer, effects, result, -, hloop, hend⟩ :=
    negotiateLoop_linked tls env rounds conn
  rw [hloop]
  intro effect heffect
  rcases List.mem_append.mp heffect with hmem | hmem
  · obtain ⟨x, -, rfl⟩ := List.mem_map.mp hmem
    exact ⟨_, rfl⟩
  · rcases hend with ⟨-, hending⟩ | ⟨-, -, rfl, -⟩
    · cases hending with
      | cut | handshakeFailed | refused => exact ⟨_, List.mem_singleton.mp hmem⟩
      | unread | secondRequest | startup => simp at hmem
    · simp at hmem

/-- The negotiation with every client: a chain of at most four packets, each request of it
answered by one byte. It accepts at most once, if TLS is configured and the connection is
in the clear, and reads everything after that from the decrypted stream; every other
request it survives is declined. It returns a startup packet in the clear only if TLS is
not required, and then the connection goes on with the first byte after the packet. -/
theorem negotiate_state_machine (tls : Option ServerTLS) (env : HandleEnv Pool) (raw : Input) :
    ∃ xs last answer effects result,
      negotiate tls env raw = (xs.map Exchange.effect ++ effects, result) ∧
      Linked tls env { encrypted := false, input := raw } xs last ∧
      (xs.length < 4 ∧ Ending tls env last answer effects result ∨
        xs.length = 4 ∧ answer = none ∧ effects = [] ∧ ∃ e, result = .error e) ∧
      (answers xs answer).count negotiationAccepted ≤ 1 ∧
      (negotiationAccepted ∈ answers xs answer → tls.isSome) ∧
      (∀ before x after, xs = before ++ x :: after → x.answer = negotiationAccepted →
        x.conn.encrypted = false ∧
        (∃ rest, readStartupPacket x.conn.input = (.ok x.packet, rest) ∧
          env.handshake rest = .ok x.next.input) ∧
        Linked tls env x.next after last ∧ last.encrypted = true ∧
        ∀ y ∈ after, y.conn.encrypted = true) ∧
      (answer = some negotiationAccepted → last.encrypted = false) ∧
      (∀ x ∈ xs, x.answer ≠ negotiationAccepted → x.answer = negotiationRejected) ∧
      (∀ client p, result = .ok (client, p) →
        (p.isCancelRequest ∨ client.encrypted ∨ tls.any ServerTLS.required = false) ∧
        ∃ base, ContinuesOn env { encrypted := false, input := raw } client base ∧
          StartupOn base p client.input) := by
  obtain ⟨xs, last, answer, effects, result, hlinked, hloop, hend⟩ :=
    negotiateLoop_linked tls env 4 { encrypted := false, input := raw }
  have haccepts : answer = some negotiationAccepted → tls.isSome ∧ last.encrypted = false := by
    rintro rfl
    rcases hend with ⟨-, hending⟩ | ⟨-, hnone, -⟩
    · exact hending.accepts
    · simp at hnone
  have hsurvives : ∀ x ∈ xs, x.Survives tls env := by
    intro x hx
    obtain ⟨before, after, hsplit⟩ := List.append_of_mem hx
    exact (hlinked.accepted hsplit).1
  refine ⟨xs, last, answer, effects, result, hloop, hlinked, hend,
    hlinked.count_accepted fun h => (haccepts h).2, ?_, ?_, fun h => (haccepts h).2, ?_, ?_⟩
  · intro hmem
    rcases List.mem_append.mp hmem with hmem | hmem
    · obtain ⟨x, hx, heq⟩ := List.mem_map.mp hmem
      exact (heq ▸ (hsurvives x hx).answers).accepts.2.1
    · exact (haccepts (by simpa using hmem)).1
  · intro before x after hsplit haccepted
    obtain ⟨hx, hafter⟩ := hlinked.accepted hsplit
    obtain ⟨henc, hlater⟩ := hafter.encrypted (hx.encrypted.1 haccepted)
    obtain ⟨rest, hread, hnext⟩ := hx.reads
    rw [if_pos haccepted] at hnext
    obtain ⟨input, hshake, hnext⟩ := hnext
    exact ⟨(haccepted ▸ hx.answers).accepts.2.2, ⟨rest, hread, by rw [hnext]; exact hshake⟩,
      hafter, henc, fun y hy => (hlater y hy).1⟩
  · intro x hx hother
    exact ((hsurvives x hx).encrypted.2 hother).1
  · rintro client p rfl
    rcases hend with ⟨-, hending⟩ | ⟨-, -, -, e, he⟩
    · obtain ⟨⟨rest, hread, hclient⟩, hallowed⟩ := hending.ok
      exact ⟨hallowed, hlinked.startup hread hclient⟩
    · simp at he

end Rounds

end Proxy
end PgProxy
