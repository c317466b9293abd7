import PgProxy.Lib.Delimited
import PgProxy.Pgwire.MessageCodec
import PgProxy.Proxy.StartupLimit

/-!
# Error responses

A response is a message whose body is a list of coded fields, and it can be taken apart in
one way only as long as no text in it holds a zero byte and the whole fits a message. The
name a client asked for comes out of a startup packet, so it is too short to break either
condition, even after quoting.
-/

namespace PgProxy
set_option autoImplicit false

namespace Pgwire

/-- The body is these fields, each a code byte and a value ended by a zero byte, and one
closing zero byte. -/
structure ParsesAs (body : Bytes) (fields : List (UInt8 × GoString)) : Prop where
  values : ∀ field ∈ fields, 0 ∉ field.2
  layout : body = (fields.flatMap fun field => [field.1] ++ field.2 ++ [0]) ++ [0]

theorem flatMap_field_cons (field : UInt8 × GoString) (fields : List (UInt8 × GoString)) :
    ((field :: fields).flatMap fun field => [field.1] ++ field.2 ++ [0]) ++ [0] =
      field.1 :: (field.2 ++ 0 :: ((fields.flatMap fun field => [field.1] ++ field.2 ++ [0]) ++
        [0])) := by
  simp

theorem ParsesAs.unique {body : Bytes} {fields fields' : List (UInt8 × GoString)}
    (h : ParsesAs body fields) (h' : ParsesAs body fields') : fields = fields' := by
  -- The closing byte alone is too short for a field, and the zero byte that ends a value is
  -- the first one in it.
  induction fields generalizing body fields' with
  | nil =>
    cases fields' with
    | nil => rfl
    | cons field' fields' =>
      have hlen := congrArg List.length (h.layout.symm.trans h'.layout)
      simp only [flatMap_field_cons, List.length_cons, List.length_append, List.flatMap_nil,
        List.length_nil] at hlen
      omega
  | cons field fields ih =>
    cases fields' with
    | nil =>
      have hlen := congrArg List.length (h.layout.symm.trans h'.layout)
      simp only [flatMap_field_cons, List.length_cons, List.length_append, List.flatMap_nil,
        List.length_nil] at hlen
      omega
    | cons field' fields' =>
      have hbody := h.layout.symm.trans h'.layout
      rw [flatMap_field_cons, flatMap_field_cons, List.cons.injEq] at hbody
      obtain ⟨hvalue, hvalues⟩ := List.forall_mem_cons.mp h.values
      obtain ⟨hvalue', hvalues'⟩ := List.forall_mem_cons.mp h'.values
      obtain ⟨hfield, hrest⟩ := Delimited.cut_unique hvalue hvalue' hbody.2
      rw [ih ⟨hvalues, rfl⟩ ⟨hvalues', hrest⟩, Prod.ext hbody.1 hfield]

/-- The fields of a response: severity twice, code, message, and a detail if there is one. -/
def responseFields (sqlState message detail : GoString) : List (UInt8 × GoString) :=
  [(83, str "FATAL"), (86, str "FATAL"), (67, sqlState), (77, message)] ++
    if detail = [] then [] else [(68, detail)]

structure Readable (sqlState message detail : GoString) : Prop where
  sqlState_nul : 0 ∉ sqlState
  message_nul : 0 ∉ message
  detail_nul : 0 ∉ detail
  size : (encodeErrorResponse sqlState message detail).length ≤ 2 ^ 20

section Response
variable {sqlState message detail : GoString}

theorem encodeErrorResponse_eq (sqlState message detail : GoString) :
    encodeErrorResponse sqlState message detail = Message.encode ⟨msgErrorResponse,
      ((responseFields sqlState message detail).flatMap fun field =>
        [field.1] ++ field.2 ++ [0]) ++ [0]⟩ := by
  unfold encodeErrorResponse responseFields
  by_cases hdetail : detail = []
  · rw [if_pos hdetail, if_neg (not_not.mpr hdetail)]
  · rw [if_neg hdetail, if_pos hdetail]

theorem encodeErrorResponse_length (sqlState message detail : GoString) :
    (encodeErrorResponse sqlState message detail).length ≤
      26 + sqlState.length + message.length + detail.length := by
  have hfatal : (str "FATAL").length = 5 := by decide
  rw [encodeErrorResponse_eq, Message.encode_length]
  unfold responseFields
  split
  · simp only [List.flatMap_cons, List.flatMap_nil, List.append_nil, List.length_append,
      List.length_singleton, hfatal]
    omega
  · simp only [List.cons_append, List.nil_append, List.flatMap_cons, List.flatMap_nil,
      List.append_nil, List.length_append, List.length_cons, List.length_nil, hfatal]
    omega

theorem Readable.values (h : Readable sqlState message detail) :
    ∀ field ∈ responseFields sqlState message detail, 0 ∉ field.2 := by
  have hfatal : 0 ∉ str "FATAL" := by decide
  have hsqlState := h.sqlState_nul
  have hmessage := h.message_nul
  have hdetail := h.detail_nul
  unfold responseFields
  split <;> simp [hfatal, hsqlState, hmessage, hdetail]

theorem Readable.read [GoFmt] (h : Readable sqlState message detail) {mr : MessageReader}
    (hmr : mr.r.stream = encodeErrorResponse sqlState message detail) :
    ∃ body mr', mr.next = (.ok ⟨msgErrorResponse, body⟩, mr') ∧ mr'.r.stream = [] ∧
      ∀ fields, ParsesAs body fields ↔ fields = responseFields sqlState message detail := by
  have hsize := h.size
  rw [encodeErrorResponse_eq, Message.encode_length] at hsize
  rw [encodeErrorResponse_eq, ← List.append_nil (Message.encode _)] at hmr
  obtain ⟨mr', hnext, hrest⟩ := MessageReader.next_encode
    (by unfold Message.Legal maxMessageLength; omega) hmr
  refine ⟨_, mr', hnext, hrest, fun fields => ?_⟩
  constructor
  · intro hparses
    exact hparses.unique ⟨h.values, rfl⟩
  · rintro rfl
    exact ⟨h.values, rfl⟩

end Response

/-! ## The names that startup packets carry -/

theorem IsPacket.value_length [GoFmt] {pkt : Bytes} {p : StartupPacket} {param : Parameter}
    (h : IsPacket pkt p) (hversion : p.majorVersion = 3) (hparam : param ∈ p.parameters) :
    param.value.length ≤ maxStartupPacketLength := by
  obtain ⟨tail, hbytes⟩ := h.bytes hversion
  obtain ⟨pre, post, hsplit⟩ := List.append_of_mem hparam
  have hpairs : param.value.length ≤ p.pairs.length := by
    rw [StartupPacket.pairs, hsplit]
    simp only [List.flatMap_append, List.flatMap_cons, Parameter.encode, List.length_append]
    omega
  have hlen := hbytes.length_eq
  have hmax := h.max
  omega

end Pgwire

namespace Proxy
open Pgwire

variable {Pool : Type}

theorem requestedDatabase_mem {p : StartupPacket} {database : GoString}
    (h : requestedDatabase p = some database) :
    ∃ param ∈ p.parameters, param.value = database := by
  have hsome := (Option.filter_eq_some_iff.mp h).1
  have hparam : ∀ key, p.parameter key = some database →
      ∃ param ∈ p.parameters, param.value = database := by
    intro key hkey
    obtain ⟨param, hfind, hvalue⟩ := Option.map_eq_some_iff.mp hkey
    exact ⟨param, List.mem_of_find?_eq_some hfind, hvalue⟩
  split at hsome
  · rename_i named hnamed
    exact hparam _ (hnamed.trans hsome)
  · exact hparam _ hsome

section Handle
variable [GoFmt]

/-- The responses that `handle` builds from the name of a database. -/
inductive ResponseNaming (database : GoString) : GoString → GoString → GoString → Prop where
  | noRoute : ResponseNaming database sqlStateUndefinedDatabase
      (str "database " ++ quote database ++ str " does not exist")
      (str "No PostgresRoute in this cluster claims that database name.")
  | unreachable : ResponseNaming database sqlStateConnectionFailure
      (str "the gateway could not reach the backend for database " ++ quote database)
      (str "Check the status of the PostgresRoute and of the backend Service.")

theorem StartupMove.client {table : Table Pool} {env : HandleEnv Pool} {client : Conn}
    {p : StartupPacket} {effects : List (Effect Pool)} {next : Next Pool} {database : GoString}
    {b : Bytes} (h : StartupMove table env client p effects next)
    (hdatabase : requestedDatabase p = some database) (hmem : Effect.client b ∈ effects) :
    ∃ sqlState message detail, ResponseNaming database sqlState message detail ∧
      b = env.fatal.written (encodeErrorResponse sqlState message detail) := by
  have hdial : ∀ (route : Route Pool) dialled, Effect.client b ∉ dialEffects route dialled := by
    intro route dialled hmem
    rcases mem_dialEffects hmem with h | ⟨_, h⟩ <;> simp at h
  cases h with
  | cancel => simp at hmem
  | nameless hnone => simp [hnone] at hdatabase
  | noRoute hdatabase' =>
    obtain rfl := Option.some.inj (hdatabase'.symm.trans hdatabase)
    simp only [writeFatal, List.mem_cons, reduceCtorEq, Effect.client.injEq, List.not_mem_nil,
      or_false, false_or] at hmem
    exact ⟨_, _, _, .noRoute, hmem⟩
  | unreachable hdatabase' =>
    obtain rfl := Option.some.inj (hdatabase'.symm.trans hdatabase)
    simp only [writeFatal, List.mem_append, hdial, List.mem_cons, reduceCtorEq,
      Effect.client.injEq, List.not_mem_nil, or_false, false_or] at hmem
    exact ⟨_, _, _, .unreachable, hmem⟩
  | cut | stalled | proxied => simp [hdial] at hmem

theorem handle_client {tls : Option ServerTLS} {table : Table Pool} {env : HandleEnv Pool}
    {raw : Input} {client : Conn} {p : StartupPacket} {database : GoString} {b : Bytes}
    (hnego : (negotiate tls env raw).2 = .ok (client, p))
    (hdatabase : requestedDatabase p = some database)
    (h : Effect.client b ∈ (handle tls table env raw).1) :
    Effect.client b ∈ (negotiate tls env raw).1 ∨
      ∃ sqlState message detail, ResponseNaming database sqlState message detail ∧
        b = env.fatal.written (encodeErrorResponse sqlState message detail) := by
  have hmove := handle_move tls table env raw
  generalize (handle tls table env raw).1 = effects, (handle tls table env raw).2 = next
    at h hmove
  cases hmove with
  | undated => simp at h
  | refused hnego' => simp [hnego'] at hnego
  | started hnego' hstartup =>
    rw [hnego', Except.ok.injEq, Prod.mk.injEq] at hnego
    obtain ⟨rfl, rfl⟩ := hnego
    rw [hnego']
    rcases List.mem_append.mp h with hmem | hmem
    · exact Or.inl hmem
    · exact Or.inr (hstartup.client hdatabase hmem)

/-- Quoting adds no zero byte and makes a string at most `factor` times as long. -/
def QuotesWithin (factor : Nat) : Prop :=
  ∀ s : GoString, s ≠ [] → 0 ∉ s → 0 ∉ quote s ∧ (quote s).length ≤ factor * s.length

theorem ResponseNaming.readable {database sqlState message detail : GoString}
    (h : ResponseNaming database sqlState message detail) (hnul : 0 ∉ quote database)
    (hlen : (quote database).length ≤ 1000000) : Readable sqlState message detail := by
  have hsize := encodeErrorResponse_length sqlState message detail
  cases h with
  | noRoute =>
    have htexts : 0 ∉ str "database " ∧ 0 ∉ str " does not exist" := by decide
    have hlengths : sqlStateUndefinedDatabase.length = 5 ∧ (str "database ").length = 9 ∧
        (str " does not exist").length = 15 := by decide
    have hdetail : 0 ∉ str "No PostgresRoute in this cluster claims that database name." ∧
        (str "No PostgresRoute in this cluster claims that database name.").length = 59 := by
      decide +kernel
    refine ⟨by decide, ?_, hdetail.1, Nat.le_trans hsize ?_⟩
    · simp only [List.mem_append, not_or]
      exact ⟨⟨htexts.1, hnul⟩, htexts.2⟩
    · rw [List.length_append, List.length_append]
      omega
  | unreachable =>
    have hsqlState : sqlStateConnectionFailure.length = 5 := by decide
    have htext : 0 ∉ str "the gateway could not reach the backend for database " ∧
        (str "the gateway could not reach the backend for database ").length = 53 := by
      decide +kernel
    have hdetail :
        0 ∉ str "Check the status of the PostgresRoute and of the backend Service." ∧
        (str "Check the status of the PostgresRoute and of the backend Service.").length =
          65 := by
      decide +kernel
    refine ⟨by decide, ?_, hdetail.1, Nat.le_trans hsize ?_⟩
    · simp only [List.mem_append, not_or]
      exact ⟨htext.1, hnul⟩
    · rw [List.length_append]
      omega

/-- Every response made of texts without zero bytes that fits 1 MiB reads back as one
message with exactly its fields; and so do the responses that name the database of a
startup packet, whatever the packet was. -/
theorem error_responses_read_back {factor : Nat} (hfactor : factor ≤ 100)
    (hquote : QuotesWithin factor) :
    (∀ sqlState message detail, 0 ∉ sqlState → 0 ∉ message → 0 ∉ detail →
      (encodeErrorResponse sqlState message detail).length ≤ 2 ^ 20 →
      ∀ mr : MessageReader, mr.r.stream = encodeErrorResponse sqlState message detail →
      ∃ body mr', mr.next = (.ok ⟨msgErrorResponse, body⟩, mr') ∧ mr'.r.stream = [] ∧
        ∀ fields, ParsesAs body fields ↔
          fields = [(83, str "FATAL"), (86, str "FATAL"), (67, sqlState), (77, message)] ++
            if detail = [] then [] else [(68, detail)]) ∧
    (∀ (tls : Option ServerTLS) (env : HandleEnv Pool) raw client p database,
      (negotiate tls env raw).2 = .ok (client, p) → requestedDatabase p = some database →
      (∀ sqlState message detail, ResponseNaming database sqlState message detail →
        Readable sqlState message detail) ∧
      ∀ table b, Effect.client b ∈ (handle tls table env raw).1 →
        Effect.client b ∈ (negotiate tls env raw).1 ∨
        ∃ sqlState message detail, ResponseNaming database sqlState message detail ∧
          b = env.fatal.written (encodeErrorResponse sqlState message detail)) := by
  refine ⟨?_, ?_⟩
  · intro sqlState message detail hsqlState hmessage hdetail hsize mr hmr
    exact Readable.read ⟨hsqlState, hmessage, hdetail, hsize⟩ hmr
  · intro tls env raw client p database hnego hdatabase
    obtain ⟨base, -, ⟨codes, pkt, -, hpkt, -⟩, -⟩ := negotiateLoop_ok hnego
    have hversion := version_of_requested hpkt hdatabase
    obtain ⟨tail, hbytes⟩ := hpkt.bytes hversion
    have hne := requestedDatabase_ne_nil hdatabase
    obtain ⟨param, hparam, rfl⟩ := requestedDatabase_mem hdatabase
    obtain ⟨hnul, hlen⟩ := hquote param.value hne (hbytes.wellFormed param hparam).value_nul
    have hvalue : param.value.length ≤ 10000 := hpkt.value_length hversion hparam
    have hbound : factor * param.value.length ≤ 100 * 10000 := Nat.mul_le_mul hfactor hvalue
    exact ⟨fun _ _ _ h => h.readable hnul (Nat.le_trans hlen hbound),
      fun table b hb => handle_client hnego hdatabase hb⟩

end Handle

theorem quotesWithin_plain : @QuotesWithin plainQuote 3 := by
  intro s hne hnul
  have hquote : 0 ∉ str "\"" ∧ (str "\"").length = 1 := by decide
  have hpos := List.length_pos_iff.mpr hne
  refine ⟨?_, ?_⟩
  · simp only [quote, List.mem_append, not_or]
    exact ⟨⟨hquote.1, hnul⟩, hquote.1⟩
  · simp only [quote, List.length_append, hquote.2]
    omega

def goneReader : MessageReader :=
  newMessageReader
    ⟨[encodeErrorResponse sqlStateConnectionFailure (str "gone") []], .sentinel .eof⟩

theorem error_responses_read_back_app :
    (∃ body mr', @MessageReader.next plainQuote goneReader =
        (.ok ⟨msgErrorResponse, body⟩, mr') ∧
      ParsesAs body [(83, str "FATAL"), (86, str "FATAL"), (67, str "08006"), (77, str "gone")]) ∧
    ∀ sqlState message detail,
      @ResponseNaming plainQuote (str "app") sqlState message detail →
      Readable sqlState message detail := by
  obtain ⟨hread, hnaming⟩ :=
    @error_responses_read_back Unit plainQuote 3 (by decide) quotesWithin_plain
  obtain ⟨body, mr', hnext, -, hfields⟩ := hread sqlStateConnectionFailure (str "gone") []
    (by decide) (by decide) (by decide) (by decide) goneReader rfl
  exact ⟨⟨body, mr', hnext, (hfields _).mpr rfl⟩,
    (hnaming none sampleEnv sampleClient
      { encrypted := false, input := ⟨[str "Q"], .sentinel .eof⟩ } sampleStartup (str "app")
      rfl rfl).1⟩

end Proxy
end PgProxy
