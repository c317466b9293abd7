import PgProxy.Lib.Delimited
import PgProxy.Pgwire.Startup

/-!
# The grammar of startup packets

`StartsWithPacket` describes the byte streams that start with a packet, without the
reader: the length, the four kinds of body, the pairs of a parameter list and what may
follow them. The reader accepts exactly these streams. `parseParametersChecked` is the
parameter loop once more with its run-time failures left in; none of them happens.
-/

namespace PgProxy
set_option autoImplicit false

namespace Pgwire
open BigEndian

/-- A parameter that a list can carry; an empty key would end the list. -/
structure Parameter.WellFormed (param : Parameter) : Prop where
  key_ne : param.key ≠ []
  key_nul : 0 ∉ param.key
  value_nul : 0 ∉ param.value

/-- What may follow the pairs: the end of the packet, or an empty key and any padding. -/
def ListEnd (tail : Bytes) : Prop := tail = [] ∨ ∃ padding, tail = 0 :: padding

/-- A last string that no zero byte ends, in the place of a key or of a value. -/
def Unterminated (tail : Bytes) : Prop :=
  (tail ≠ [] ∧ 0 ∉ tail) ∨
    ∃ key value, tail = key ++ 0 :: value ∧ key ≠ [] ∧ 0 ∉ key ∧ 0 ∉ value

structure ParameterList (payload : Bytes) (params : List Parameter) (tail : Bytes) : Prop where
  split : payload = params.flatMap Parameter.encode ++ tail
  wellFormed : ∀ param ∈ params, param.WellFormed
  ends : ListEnd tail

/-- A list of pairs that breaks off in the middle of one. -/
def UnterminatedList (payload : Bytes) : Prop :=
  ∃ (params : List Parameter) (tail : Bytes), payload = params.flatMap Parameter.encode ++ tail ∧
    (∀ param ∈ params, param.WellFormed) ∧ Unterminated tail

/-- The bodies of the four kinds of packets. -/
inductive PacketBody : Bytes → StartupPacket → Prop where
  | negotiation {code : Int32} (hcode : code = sslRequestCode ∨ code = gssEncRequestCode) :
      PacketBody (putUint32 code.toUInt32) { code }
  | cancel {key : Bytes} (hkey : key.length = 8) :
      PacketBody (putUint32 cancelRequestCode.toUInt32 ++ key)
        { code := cancelRequestCode, cancel := ⟨⟨uint32 key⟩, ⟨uint32 (key.drop 4)⟩⟩ }
  | startup {code : Int32} {payload tail : Bytes} {params : List Parameter}
      (hcode : code.toUInt32.toNat / 65536 = 3) (hlist : ParameterList payload params tail) :
      PacketBody (putUint32 code.toUInt32 ++ payload) { code, parameters := params }

structure StartsWithPacket (s : Bytes) (p : StartupPacket) : Prop where
  min : minStartupPacketLength ≤ declaredLength s
  max : declaredLength s ≤ maxStartupPacketLength
  complete : declaredLength s ≤ s.length
  body : PacketBody ((s.take (declaredLength s)).drop 4) p

/-! ## Strings and pairs -/

theorem readCString_append {s : GoString} (hs : 0 ∉ s) (rest : Bytes) :
    readCString (s ++ 0 :: rest) = .ok (s, rest) := by
  unfold readCString
  rw [Delimited.idxOf_append hs]
  simp

theorem readCString_ok {b rest : Bytes} {s : GoString} (h : readCString b = .ok (s, rest)) :
    b = s ++ 0 :: rest ∧ 0 ∉ s := by
  unfold readCString at h
  dsimp only at h
  split at h
  · simp at h
  · rename_i hstop
    simp only [Except.ok.injEq, Prod.mk.injEq] at h
    obtain ⟨rfl, rfl⟩ := h
    exact ⟨Delimited.take_idxOf_append_drop hstop, Delimited.notMem_take_idxOf b⟩

theorem readCString_error {b : Bytes} {e : GoError} (h : readCString b = .error e) :
    0 ∉ b ∧ e = .sentinel .unexpectedEOF := by
  unfold readCString at h
  dsimp only at h
  split at h
  · rename_i hstop
    injection h with h
    exact ⟨List.idxOf_eq_length_iff.mp hstop, h.symm⟩
  · simp at h

theorem Parameter.WellFormed.head_ne {param : Parameter} (h : param.WellFormed) :
    ∃ b key, param.key = b :: key ∧ b ≠ 0 := by
  obtain ⟨b, key, hkey⟩ := List.exists_cons_of_ne_nil h.key_ne
  exact ⟨b, key, hkey, fun hb => h.key_nul (by rw [hkey, hb]; exact List.mem_cons_self)⟩

theorem flatMap_encode_cons (param : Parameter) (params : List Parameter) (tail : Bytes) :
    (param :: params).flatMap Parameter.encode ++ tail =
      param.key ++ 0 :: (param.value ++ 0 :: (params.flatMap Parameter.encode ++ tail)) := by
  simp [Parameter.encode]

theorem ParameterList.cons {rest tail : Bytes} {param : Parameter} {params : List Parameter}
    (hparam : param.WellFormed) (h : ParameterList rest params tail) :
    ParameterList (param.key ++ 0 :: (param.value ++ 0 :: rest)) (param :: params) tail where
  split := by rw [flatMap_encode_cons, h.split]
  wellFormed := List.forall_mem_cons.mpr ⟨hparam, h.wellFormed⟩
  ends := h.ends

theorem UnterminatedList.cons {rest : Bytes} {param : Parameter} (hparam : param.WellFormed)
    (h : UnterminatedList rest) :
    UnterminatedList (param.key ++ 0 :: (param.value ++ 0 :: rest)) := by
  obtain ⟨params, tail, rfl, hwell, hopen⟩ := h
  exact ⟨param :: params, tail, (flatMap_encode_cons param params tail).symm,
    List.forall_mem_cons.mpr ⟨hparam, hwell⟩, hopen⟩

/-! ## The parameter loop -/

section Parse
variable [GoFmt]

/-- What one round of the loop can do. -/
inductive ParseRound (fuel : Nat) (payload : Bytes) (acc : List Parameter) :
    Except GoError (List Parameter) → Prop where
  | ended (h : ListEnd payload) : ParseRound fuel payload acc (.ok acc)
  | unterminated {e : GoError} (h : Unterminated payload) (he : e.is .unexpectedEOF) :
      ParseRound fuel payload acc (.error e)
  | pair {param : Parameter} {rest : Bytes} (hparam : param.WellFormed)
      (hpayload : payload = param.key ++ 0 :: (param.value ++ 0 :: rest)) :
      ParseRound fuel payload acc (parseParametersLoop fuel rest (acc ++ [param]))

theorem parseParametersLoop_round (fuel : Nat) (payload : Bytes) (acc : List Parameter) :
    ParseRound fuel payload acc (parseParametersLoop (fuel + 1) payload acc) := by
  cases payload with
  | nil => exact .ended (Or.inl rfl)
  | cons b tail =>
    rw [parseParametersLoop]
    split
    · rename_i hb
      exact .ended (Or.inr ⟨tail, by rw [hb]⟩)
    · rename_i hb
      split
      · rename_i e hkey
        obtain ⟨hnul, rfl⟩ := readCString_error hkey
        exact .unterminated (Or.inl ⟨by simp, hnul⟩) rfl
      · rename_i key rest hkey
        obtain ⟨hpayload, hnul⟩ := readCString_ok hkey
        have hne : key ≠ [] := by
          rintro rfl
          exact hb (List.cons.inj hpayload).1
        split
        · rename_i e hvalue
          obtain ⟨hvalueNul, rfl⟩ := readCString_error hvalue
          exact .unterminated (Or.inr ⟨key, rest, hpayload, hne, hnul, hvalueNul⟩) rfl
        · rename_i value rest' hvalue
          obtain ⟨rfl, hvalueNul⟩ := readCString_ok hvalue
          exact .pair ⟨hne, hnul, hvalueNul⟩ hpayload

theorem parseParametersLoop_pair {param : Parameter} (hparam : param.WellFormed) (fuel : Nat)
    (rest : Bytes) (acc : List Parameter) :
    parseParametersLoop (fuel + 1) (param.key ++ 0 :: (param.value ++ 0 :: rest)) acc =
      parseParametersLoop fuel rest (acc ++ [param]) := by
  obtain ⟨b, key, hkey, hb⟩ := hparam.head_ne
  have hread := readCString_append hparam.key_nul (param.value ++ 0 :: rest)
  rw [hkey, List.cons_append] at hread ⊢
  rw [parseParametersLoop, if_neg hb, hread]
  simp only [readCString_append hparam.value_nul rest, ← hkey]

theorem parseParametersLoop_listEnd {tail : Bytes} (h : ListEnd tail) (fuel : Nat)
    (acc : List Parameter) : parseParametersLoop fuel tail acc = .ok acc := by
  cases fuel with
  | zero => rfl
  | succ fuel =>
    rcases h with rfl | ⟨padding, rfl⟩
    · rfl
    · simp [parseParametersLoop]

theorem parseParametersLoop_of_list {payload tail : Bytes} {params : List Parameter}
    (h : ParameterList payload params tail) {fuel : Nat} (hfuel : payload.length ≤ fuel)
    (acc : List Parameter) : parseParametersLoop fuel payload acc = .ok (acc ++ params) := by
  obtain ⟨rfl, hwell, hends⟩ := h
  induction params generalizing fuel acc with
  | nil =>
    rw [List.flatMap_nil, List.nil_append, List.append_nil]
    exact parseParametersLoop_listEnd hends fuel acc
  | cons param params ih =>
    obtain ⟨hparam, hparams⟩ := List.forall_mem_cons.mp hwell
    rw [flatMap_encode_cons] at hfuel ⊢
    simp only [List.length_append, List.length_cons] at hfuel
    obtain ⟨fuel, rfl⟩ : ∃ n, fuel = n + 1 := ⟨fuel - 1, by omega⟩
    have hrest : (params.flatMap Parameter.encode ++ tail).length ≤ fuel := by
      rw [List.length_append]
      omega
    rw [parseParametersLoop_pair hparam, ih _ hparams hrest, List.append_assoc,
      List.singleton_append]

/-- What the loop makes of a payload: the pairs up to the end of the list, or an error
about the string that is not terminated. -/
theorem parseParametersLoop_outcome {fuel : Nat} {payload : Bytes}
    (hfuel : payload.length ≤ fuel) (acc : List Parameter) :
    (∃ params tail, ParameterList payload params tail ∧
      parseParametersLoop fuel payload acc = .ok (acc ++ params)) ∨
    (UnterminatedList payload ∧
      ∃ e, parseParametersLoop fuel payload acc = .error e ∧ e.is .unexpectedEOF) := by
  induction fuel generalizing payload acc with
  | zero =>
    have hnil : payload = [] := List.eq_nil_of_length_eq_zero (by omega)
    exact Or.inl ⟨[], payload, ⟨rfl, by simp, Or.inl hnil⟩, by simp [parseParametersLoop]⟩
  | succ fuel ih =>
    have hround := parseParametersLoop_round fuel payload acc
    generalize parseParametersLoop (fuel + 1) payload acc = result at hround ⊢
    cases hround with
    | ended h => exact Or.inl ⟨[], payload, ⟨rfl, by simp, h⟩, by simp⟩
    | unterminated h he => exact Or.inr ⟨⟨[], payload, rfl, by simp, h⟩, _, rfl, he⟩
    | @pair param rest hparam hpayload =>
      have hrest : rest.length ≤ fuel := by
        have hlen := congrArg List.length hpayload
        simp only [List.length_append, List.length_cons] at hlen
        omega
      rcases ih hrest (acc ++ [param]) with ⟨params, tail, hlist, hok⟩ | ⟨hopen, hfailed⟩
      · refine Or.inl ⟨param :: params, tail, hpayload ▸ hlist.cons hparam, ?_⟩
        rw [hok, List.append_assoc, List.singleton_append]
      · exact Or.inr ⟨hpayload ▸ hopen.cons hparam, hfailed⟩

theorem parseParameters_ok_iff {payload : Bytes} {params : List Parameter} :
    parseParameters payload = .ok params ↔ ∃ tail, ParameterList payload params tail := by
  unfold parseParameters
  constructor
  · intro h
    rcases parseParametersLoop_outcome (Nat.le_refl payload.length) [] with
      ⟨found, tail, hlist, hok⟩ | ⟨-, e, herror, -⟩
    · rw [h, List.nil_append, Except.ok.injEq] at hok
      exact ⟨tail, hok ▸ hlist⟩
    · rw [h] at herror
      simp at herror
  · rintro ⟨tail, hlist⟩
    simpa using parseParametersLoop_of_list hlist (Nat.le_refl payload.length) []

theorem parseParameters_error {payload : Bytes} {e : GoError}
    (h : parseParameters payload = .error e) :
    UnterminatedList payload ∧ e.is .unexpectedEOF := by
  unfold parseParameters at h
  rcases parseParametersLoop_outcome (Nat.le_refl payload.length) [] with
    ⟨found, tail, hlist, hok⟩ | ⟨hopen, e', herror, he⟩
  · rw [h] at hok
    simp at hok
  · rw [h, Except.error.injEq] at herror
    exact ⟨hopen, herror ▸ he⟩

end Parse

/-! ## Slices in bounds -/

/-- The slice `b[lo:hi]`; `none` is a run-time panic. -/
def sliceChecked (b : Bytes) (lo hi : Nat) : Option Bytes :=
  if lo ≤ hi ∧ hi ≤ b.length then some ((b.take hi).drop lo) else none

def readCStringChecked (b : Bytes) : Option (Except GoError (GoString × Bytes)) :=
  let stop := b.idxOf 0
  if stop = b.length then some (.error (.sentinel .unexpectedEOF))
  else do
    let value ← sliceChecked b 0 stop
    let rest ← sliceChecked b (stop + 1) b.length
    some (.ok (value, rest))

/-- The loop of `parseParameters` for a number of rounds. `none` is an index or a slice out
of bounds, or a loop that has not come to its end. -/
def parseParametersChecked [GoFmt] :
    Nat → Bytes → List Parameter → Option (Except GoError (List Parameter))
  | 0, payload, params => if 0 < payload.length then none else some (.ok params)
  | rounds + 1, payload, params =>
    if 0 < payload.length then do
      let first ← payload[0]?
      if first = 0 then some (.ok params)
      else
        match ← readCStringChecked payload with
        | .error e => some (.error (errorfWrap (str "pgwire: reading parameter name") e))
        | .ok (key, rest) =>
          match ← readCStringChecked rest with
          | .error e =>
            some (.error (errorfWrap (str "pgwire: reading value of parameter " ++ quote key) e))
          | .ok (value, rest) => parseParametersChecked rounds rest (params ++ [⟨key, value⟩])
    else some (.ok params)

theorem readCStringChecked_eq (b : Bytes) : readCStringChecked b = some (readCString b) := by
  unfold readCStringChecked readCString
  dsimp only
  split
  · rfl
  · rename_i hstop
    have hle : b.idxOf 0 ≤ b.length := List.idxOf_le_length
    simp only [sliceChecked]
    rw [if_pos ⟨Nat.zero_le _, hle⟩, if_pos ⟨by omega, Nat.le_refl _⟩]
    simp

theorem parseParametersChecked_eq [GoFmt] {rounds : Nat} {payload : Bytes}
    (h : payload.length ≤ rounds) (params : List Parameter) :
    parseParametersChecked rounds payload params =
      some (parseParametersLoop rounds payload params) := by
  induction rounds generalizing payload params with
  | zero =>
    rw [parseParametersChecked, if_neg (by omega)]
    rfl
  | succ rounds ih =>
    cases payload with
    | nil => rfl
    | cons b tail =>
      rw [parseParametersChecked, parseParametersLoop, if_pos (by simp)]
      simp only [List.getElem?_cons_zero, Option.bind_eq_bind, Option.bind_some,
        readCStringChecked_eq]
      split
      · rfl
      · cases hkey : readCString (b :: tail) with
        | error e => rfl
        | ok found =>
          obtain ⟨key, rest⟩ := found
          dsimp only
          cases hvalue : readCString rest with
          | error e => rfl
          | ok found =>
            obtain ⟨value, rest'⟩ := found
            have hlen := congrArg List.length (readCString_ok hkey).1
            have hlen' := congrArg List.length (readCString_ok hvalue).1
            simp only [List.length_append, List.length_cons] at h hlen hlen'
            have hrounds : rest'.length ≤ rounds := by omega
            exact ih hrounds _

/-! ## Bodies and packets -/

theorem majorVersion_eq_three_iff {p : StartupPacket} :
    p.majorVersion = 3 ↔ p.code.toUInt32.toNat / 65536 = 3 := by
  have hword : p.code.toUInt32.toNat < 4294967296 := p.code.toUInt32.toNat_lt
  have hcode : p.code.toInt = (p.code.toUInt32.toNat : Int).bmod 4294967296 :=
    BitVec.toInt_eq_toNat_bmod p.code.toBitVec
  have hshift : p.majorVersion = p.code.toInt / 65536 := Int.shiftRight_eq_div_pow _ 16
  rw [hshift, hcode, Int.bmod_def]
  split <;> omega

section Decode
variable [GoFmt]

theorem decodeStartupBody_of_body {body : Bytes} {p : StartupPacket} (h : PacketBody body p) :
    decodeStartupBody body = .ok p := by
  cases h with
  | @negotiation code hcode =>
    have hdrop : (putUint32 code.toUInt32).drop 4 = [] := rfl
    simp only [decodeStartupBody, uint32_putUint32, hdrop]
    rw [if_pos hcode, if_neg (by simp)]
  | @cancel key hkey =>
    simp only [decodeStartupBody, uint32_putUint32_append,
      List.drop_left' (putUint32_length _)]
    rw [if_neg (by decide), if_pos trivial, if_neg (by omega)]
  | @startup code payload tail params hcode hlist =>
    have hversion := majorVersion_eq_three_iff (p := { code }).mpr hcode
    have hnegotiation : ¬ (code = sslRequestCode ∨ code = gssEncRequestCode) := by
      rintro (rfl | rfl) <;> exact absurd hcode (by decide)
    have hcancel : code ≠ cancelRequestCode := by
      rintro rfl
      exact absurd hcode (by decide)
    simp only [decodeStartupBody, uint32_putUint32_append,
      List.drop_left' (putUint32_length _)]
    rw [if_neg hnegotiation, if_neg hcancel, if_neg (not_not.mpr hversion),
      parseParameters_ok_iff.mpr ⟨tail, hlist⟩]

theorem decodeStartupBody_ok {body : Bytes} {p : StartupPacket} (h4 : 4 ≤ body.length)
    (h : decodeStartupBody body = .ok p) : PacketBody body p := by
  obtain ⟨code, payload, rfl⟩ : ∃ (code : Int32) (payload : Bytes),
      body = putUint32 code.toUInt32 ++ payload :=
    ⟨⟨uint32 body⟩, body.drop 4, (putUint32_uint32_append h4).symm⟩
  simp only [decodeStartupBody, uint32_putUint32_append,
    List.drop_left' (putUint32_length _)] at h
  split at h
  · rename_i hcode
    split at h
    · simp at h
    · rename_i hpayload
      injection h with h
      rw [← h, not_not.mp hpayload, List.append_nil]
      exact .negotiation hcode
  · split at h
    · rename_i hcode
      split at h
      · simp at h
      · rename_i hpayload
        injection h with h
        have hcode' : code = cancelRequestCode := hcode
        rw [← h, hcode']
        exact .cancel (not_not.mp hpayload)
    · split at h
      · simp at h
      · rename_i hversion
        split at h
        · simp at h
        · rename_i params hparams
          injection h with h
          obtain ⟨tail, hlist⟩ := parseParameters_ok_iff.mp hparams
          rw [← h]
          exact .startup (majorVersion_eq_three_iff.mp (not_not.mp hversion)) hlist

theorem readStartupPacket_ok_iff {r : Input} {p : StartupPacket} :
    (readStartupPacket r).1 = .ok p ↔ StartsWithPacket r.stream p := by
  constructor
  · intro h
    have hread := readStartupPacket_read r
    generalize readStartupPacket r = result at hread h
    cases hread with
    | headless => simp at h
    | outOfRange => simp at h
    | incomplete => simp at h
    | complete hmin hmax hfull =>
      have h8 : 8 ≤ declaredLength r.stream := hmin
      refine ⟨hmin, hmax, hfull, decodeStartupBody_ok ?_ h⟩
      rw [List.length_drop, List.length_take]
      omega
  · rintro ⟨hmin, hmax, hfull, hbody⟩
    rw [readStartupPacket_complete hmin hmax hfull]
    exact decodeStartupBody_of_body hbody

theorem readStartupPacket_consumes (r : Input) :
    ∃ n ≤ max 4 (declaredLength r.stream),
      (readStartupPacket r).2.stream = r.stream.drop n := by
  have hread := readStartupPacket_read r
  generalize readStartupPacket r = result at hread
  have hrest : ((r.pull 4).2.pull (declaredLength r.stream - 4)).2.stream =
      r.stream.drop (4 + (declaredLength r.stream - 4)) := by
    rw [ChunkReader.pull_snd_stream, ChunkReader.pull_snd_stream, List.drop_drop]
  cases hread with
  | headless | outOfRange => exact ⟨4, by omega, ChunkReader.pull_snd_stream 4 r⟩
  | incomplete | complete => exact ⟨4 + (declaredLength r.stream - 4), by omega, hrest⟩

theorem readStartupPacket_consumes_packet {r : Input} {p : StartupPacket}
    (h : (readStartupPacket r).1 = .ok p) :
    (readStartupPacket r).2.stream = r.stream.drop (declaredLength r.stream) := by
  obtain ⟨hmin, hmax, hfull, -⟩ := readStartupPacket_ok_iff.mp h
  have h8 : 8 ≤ declaredLength r.stream := hmin
  rw [readStartupPacket_complete hmin hmax hfull, ChunkReader.pull_snd_stream,
    ChunkReader.pull_snd_stream, List.drop_drop,
    show 4 + (declaredLength r.stream - 4) = declaredLength r.stream by omega]

theorem readStartupPacket_consumes_header {r : Input}
    (h : declaredLength r.stream < minStartupPacketLength ∨
      maxStartupPacketLength < declaredLength r.stream) :
    (readStartupPacket r).2.stream = r.stream.drop 4 := by
  have hread := readStartupPacket_read r
  generalize readStartupPacket r = result at hread
  cases hread with
  | headless | outOfRange => exact ChunkReader.pull_snd_stream 4 r
  | incomplete _ hmin hmax | complete hmin hmax => omega

/-- The reader accepts its grammar and nothing else, returns the packet the grammar
describes, and takes no byte it should leave. -/
theorem readStartupPacket_accepts_grammar (r : Input) :
    (∀ p, (readStartupPacket r).1 = .ok p ↔ StartsWithPacket r.stream p) ∧
    (∀ p q, StartsWithPacket r.stream p → StartsWithPacket r.stream q → p = q) ∧
    (∀ p, (readStartupPacket r).1 = .ok p →
      (readStartupPacket r).2.stream = r.stream.drop (declaredLength r.stream)) ∧
    (∀ e, (readStartupPacket r).1 = .error e → ∃ n ≤ max 4 (declaredLength r.stream),
      (readStartupPacket r).2.stream = r.stream.drop n) ∧
    (declaredLength r.stream < minStartupPacketLength ∨
        maxStartupPacketLength < declaredLength r.stream →
      (readStartupPacket r).2.stream = r.stream.drop 4) ∧
    ∀ payload, parseParametersChecked payload.length payload [] =
      some (parseParameters payload) := by
  refine ⟨fun p => readStartupPacket_ok_iff, ?_, fun p => readStartupPacket_consumes_packet,
    fun e _ => readStartupPacket_consumes r, readStartupPacket_consumes_header,
    fun payload => parseParametersChecked_eq (Nat.le_refl payload.length) []⟩
  intro p q hp hq
  have hread := readStartupPacket_ok_iff.mpr hp
  rw [readStartupPacket_ok_iff.mpr hq, Except.ok.injEq] at hread
  exact hread.symm

end Decode
end Pgwire
end PgProxy
