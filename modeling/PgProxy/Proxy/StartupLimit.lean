import PgProxy.Pgwire.StartupCodec
import PgProxy.Proxy.BackendStream
import PgProxy.Proxy.Handling

/-!
# The size of the startup packet the backend gets

`handle` encodes the client's packet again, with a terminator and perhaps with another
database name, and does not look at the size it comes to. A packet that was within the
limit can leave the gateway beyond it; `forwardedSize` says exactly when.
-/

namespace PgProxy
set_option autoImplicit false

namespace Proxy
open Pgwire

variable {Pool : Type}

/-- What a parameter adds to a packet, given the value it replaces if there is one. -/
def parameterGrowth (param : Parameter) : Option GoString → Int
  | some old => param.value.length - old.length
  | none => param.encode.length

def renameGrowth (route : Route Pool) (database : GoString) (p : StartupPacket) : Int :=
  if route.targetDatabase ≠ [] ∧ route.targetDatabase ≠ database then
    parameterGrowth ⟨str "database", route.targetDatabase⟩ (p.parameter (str "database"))
  else 0

/-- The size of the packet for the backend, from the bytes of the client's packet and what
follows the pairs in them. -/
def forwardedSize (route : Route Pool) (database : GoString) (p : StartupPacket)
    (pkt tail : Bytes) : Int :=
  pkt.length - tail.length + 1 + renameGrowth route database p

theorem setParameterIn_size (key value : GoString) (params : List Parameter) :
    (((StartupPacket.setParameterIn key value params).flatMap Parameter.encode).length : Int) =
      (params.flatMap Parameter.encode).length + parameterGrowth ⟨key, value⟩
        ((params.find? fun param => param.key = key).map Parameter.value) := by
  induction params with
  | nil => simp [StartupPacket.setParameterIn, parameterGrowth]
  | cons param params ih =>
    rw [StartupPacket.setParameterIn]
    by_cases hkey : param.key = key
    · rw [if_pos hkey, List.find?_cons_of_pos (by simpa using hkey), Option.map_some,
        parameterGrowth]
      simp only [List.flatMap_cons, List.length_append, Parameter.encode,
        List.length_singleton]
      omega
    · rw [if_neg hkey, List.find?_cons_of_neg (by simpa using hkey), List.flatMap_cons,
        List.length_append, List.flatMap_cons, List.length_append]
      omega

theorem forwardedPacket_size (route : Route Pool) (database : GoString) {p : StartupPacket}
    {pkt tail : Bytes} (h : StartupBytes pkt p tail) :
    ((forwardedPacket route database p).encode.length : Int) =
      forwardedSize route database p pkt tail := by
  have hpkt := h.length_eq
  have hpairs : ((forwardedPacket route database p).pairs.length : Int) =
      p.pairs.length + renameGrowth route database p := by
    unfold forwardedPacket renameGrowth
    split
    · exact setParameterIn_size _ _ _
    · rw [Int.add_zero]
  rw [StartupPacket.encode_length, forwardedSize]
  omega

theorem forwardedPacket_wellFormed {route : Route Pool} {database : GoString}
    {p : StartupPacket} (htarget : 0 ∉ route.targetDatabase)
    (h : ∀ param ∈ p.parameters, param.WellFormed) :
    ∀ param ∈ (forwardedPacket route database p).parameters, param.WellFormed := by
  have hkey : str "database" ≠ [] ∧ 0 ∉ str "database" := by decide
  have hdatabase : Parameter.WellFormed ⟨str "database", route.targetDatabase⟩ :=
    ⟨hkey.1, hkey.2, htarget⟩
  unfold forwardedPacket
  split
  · intro param hparam
    rcases setParameterIn_setsFirst (str "database") route.targetDatabase p.parameters with
      ⟨pre, old, post, hbefore, -, hafter⟩ | ⟨-, hafter⟩
    · rw [StartupPacket.setParameter, hafter] at hparam
      rw [hbefore] at h
      simp only [List.mem_append, List.mem_cons] at h hparam
      rcases hparam with hpre | rfl | hpost
      · exact h param (Or.inl hpre)
      · exact hdatabase
      · exact h param (Or.inr (Or.inr hpost))
    · rw [StartupPacket.setParameter, hafter] at hparam
      rcases List.mem_append.mp hparam with hold | hnew
      · exact h param hold
      · exact List.mem_singleton.mp hnew ▸ hdatabase
  · exact h

theorem forwardedPacket_frame (route : Route Pool) (database : GoString) (p : StartupPacket) :
    (forwardedPacket route database p).code = p.code ∧
      (forwardedPacket route database p).cancel = p.cancel := by
  unfold forwardedPacket
  split <;> exact ⟨rfl, rfl⟩

section Handle
variable [GoFmt]

theorem StartupMove.backend {table : Table Pool} {env : HandleEnv Pool} {client : Conn}
    {p : StartupPacket} {effects : List (Effect Pool)} {next : Next Pool}
    {conn : BackendConn Pool} {b : Bytes} (h : StartupMove table env client p effects next)
    (hmem : Effect.backend conn b ∈ effects) :
    ∃ database route, requestedDatabase p = some database ∧
      table.lookup database = some route ∧
      b = env.forward.written (forwardedPacket route database p).encode := by
  have hdial : ∀ route dialled, Effect.backend conn b ∉ dialEffects route dialled := by
    intro route dialled hmem
    rcases mem_dialEffects hmem with h | ⟨_, h⟩ <;> simp at h
  cases h with
  | cancel | nameless | noRoute => simp [writeFatal] at hmem
  | unreachable => simp [hdial, writeFatal] at hmem
  | cut hdatabase hroute | stalled hdatabase hroute | proxied hdatabase hroute =>
    refine ⟨_, _, hdatabase, hroute, ?_⟩
    simp only [List.mem_append, hdial, List.mem_cons, List.not_mem_nil, reduceCtorEq, or_false,
      false_or, Effect.backend.injEq] at hmem
    exact hmem.2

theorem handle_backend {tls : Option ServerTLS} {table : Table Pool} {env : HandleEnv Pool}
    {raw : Input} {conn : BackendConn Pool} {b : Bytes}
    (h : Effect.backend conn b ∈ (handle tls table env raw).1) :
    ∃ client p database route, (negotiate tls env raw).2 = .ok (client, p) ∧
      requestedDatabase p = some database ∧ table.lookup database = some route ∧
      b = env.forward.written (forwardedPacket route database p).encode := by
  have hquiet : Effect.backend conn b ∉ (negotiate tls env raw).1 := by
    intro hmem
    obtain ⟨c, hc⟩ := negotiateLoop_effects _ _ _ hmem
    cases hc
  have hmove := handle_move tls table env raw
  generalize (handle tls table env raw).1 = effects, (handle tls table env raw).2 = next
    at h hmove
  cases hmove with
  | undated => simp at h
  | refused hnego =>
    rw [hnego] at hquiet
    rcases List.mem_append.mp h with hmem | hmem
    · exact absurd hmem hquiet
    · split at hmem <;> simp at hmem
  | @started _ _ client p _ hnego hstartup =>
    rw [hnego] at hquiet ⊢
    rcases List.mem_append.mp h with hmem | hmem
    · exact absurd hmem hquiet
    · obtain ⟨database, route, hforwarded⟩ := hstartup.backend hmem
      exact ⟨client, p, database, route, rfl, hforwarded⟩

theorem version_of_requested {pkt : Bytes} {p : StartupPacket} {database : GoString}
    (hpkt : IsPacket pkt p) (h : requestedDatabase p = some database) : p.majorVersion = 3 := by
  have hbody := hpkt.body
  generalize pkt.drop 4 = body at hbody
  cases hbody with
  | negotiation | cancel => simp [requestedDatabase, StartupPacket.parameter] at h
  | startup hcode => exact majorVersion_eq_three_iff.mpr hcode

/-- A client's packet, where it is among the client's bytes, and the route it goes by. -/
structure RoutedStartup (tls : Option ServerTLS) (table : Table Pool) (env : HandleEnv Pool)
    (raw : Input) (pkt : Bytes) (p : StartupPacket) (database : GoString) (route : Route Pool) :
    Prop where
  packet : IsPacket pkt p
  sent : ∃ (client : Conn) (base : Input) (codes : List Int32),
    (negotiate tls env raw).2 = .ok (client, p) ∧
    ContinuesOn env { encrypted := false, input := raw } client base ∧
    base.stream = codes.flatMap negotiationRequest ++ pkt ++ client.input.stream
  requested : requestedDatabase p = some database
  routed : table.lookup database = some route

/-- What a backend gets is a packet of the forwarded size, and it is a packet the reader
accepts under the same code exactly if that size is within the limit. -/
theorem forwarded_packet_within_limit {tls : Option ServerTLS} {table : Table Pool}
    {env : HandleEnv Pool} {raw : Input} {conn : BackendConn Pool} {b : Bytes}
    (htargets : ∀ database route, table.lookup database = some route →
      0 ∉ route.targetDatabase)
    (hsent : Effect.backend conn b ∈ (handle tls table env raw).1) :
    ∃ pkt p database route tail, RoutedStartup tls table env raw pkt p database route ∧
      StartupBytes pkt p tail ∧
      b = env.forward.written (forwardedPacket route database p).encode ∧
      ((forwardedPacket route database p).encode.length ≤ maxStartupPacketLength ↔
        forwardedSize route database p pkt tail ≤ maxStartupPacketLength) ∧
      (forwardedSize route database p pkt tail ≤ maxStartupPacketLength →
        ∀ (r : Input) (rest : Bytes),
          r.stream = (forwardedPacket route database p).encode ++ rest →
          ∃ q r', readStartupPacket r = (.ok q, r') ∧ q = forwardedPacket route database p ∧
            q.code = p.code ∧ r'.stream = rest) := by
  obtain ⟨client, p, database, route, hnego, hdatabase, hroute, hb⟩ := handle_backend hsent
  obtain ⟨base, hbase, ⟨codes, pkt, -, hpkt, hlayout⟩, -⟩ := negotiateLoop_ok hnego
  have hversion := version_of_requested hpkt hdatabase
  obtain ⟨tail, hbytes⟩ := hpkt.bytes hversion
  have hsize := forwardedPacket_size route database hbytes
  obtain ⟨hcode, hcancel⟩ := forwardedPacket_frame route database p
  refine ⟨pkt, p, database, route, tail,
    ⟨hpkt, ⟨client, base, codes, hnego, hbase, hlayout⟩, hdatabase, hroute⟩, hbytes, hb, ?_, ?_⟩
  · rw [← hsize]
    exact Int.ofNat_le.symm
  · intro hfits r rest hr
    rw [← hsize] at hfits
    have hversion' : (forwardedPacket route database p).majorVersion = 3 := by
      rw [StartupPacket.majorVersion, hcode]
      exact hversion
    obtain ⟨r', hread, hrest⟩ := readStartupPacket_encode hversion'
      (forwardedPacket_wellFormed (htargets database route hroute) hbytes.wellFormed)
      (Int.ofNat_le.mp hfits) hr
    rw [← hbytes.plain, ← hcancel] at hread
    exact ⟨_, r', hread, rfl, hcode, hrest⟩

end Handle

theorem sampleTable_targets (database : GoString) (route : Route Unit)
    (h : sampleTable.lookup database = some route) : 0 ∉ route.targetDatabase := by
  by_cases hdatabase : database = str "app"
  · rw [hdatabase] at h
    obtain rfl : sampleRoute = route := Option.some.inj h
    decide
  · have hnone : sampleTable.lookup database = none :=
      Finmap.lookup_eq_none.mpr fun hmem => hdatabase (Finmap.mem_singleton _ _ _ |>.mp hmem)
    rw [hnone] at h
    simp at h

theorem forwarded_packet_within_limit_renamed :
    ∃ pkt tail,
      @RoutedStartup Unit plainQuote none sampleTable sampleEnv sampleClient pkt sampleStartup
        (str "app") sampleRoute ∧
      forwardedSize sampleRoute (str "app") sampleStartup pkt tail ≤ maxStartupPacketLength ∧
      ∃ q r', @readStartupPacket plainQuote
          ⟨[(forwardedPacket sampleRoute (str "app") sampleStartup).encode], .sentinel .eof⟩ =
            (.ok q, r') ∧
        q.code = protocolVersion3 := by
  let _ : GoFmt := plainQuote
  obtain ⟨pkt, p, database, route, tail, hrouted, -, -, hsize, hread⟩ :=
    @forwarded_packet_within_limit Unit plainQuote none sampleTable sampleEnv sampleClient
      { address := str "db:5432", tls := none, input := ⟨[], .sentinel .eof⟩ }
      (forwardedPacket sampleRoute (str "app") sampleStartup).encode sampleTable_targets
      (.tail _ (.head _))
  obtain ⟨client, base, codes, hnego, -, -⟩ := hrouted.sent
  have hp : sampleStartup = p := congrArg Prod.snd (Except.ok.inj (hnego : Except.ok
    (({ encrypted := false, input := ⟨[str "Q"], .sentinel .eof⟩ } : Conn), sampleStartup) = _))
  subst hp
  obtain rfl : str "app" = database := Option.some.inj hrouted.requested
  obtain rfl : sampleRoute = route := Option.some.inj hrouted.routed
  have hfits := hsize.mp (by decide)
  obtain ⟨q, r', hq, -, hcode, -⟩ := hread hfits ⟨[_], .sentinel .eof⟩ [] rfl
  exact ⟨pkt, tail, hrouted, hfits, q, r', hq, hcode⟩

def paddedStartup (n : Nat) : StartupPacket :=
  { code := protocolVersion3
    parameters := [⟨str "database", str "app"⟩, ⟨str "options", List.replicate n 97⟩] }

def paddedClient (n : Nat) : Input := ⟨[(paddedStartup n).encode], .sentinel .eof⟩

theorem paddedStartup_wellFormed (n : Nat) :
    ∀ param ∈ (paddedStartup n).parameters, param.WellFormed := by
  have hdatabase : str "database" ≠ [] ∧ 0 ∉ str "database" ∧ 0 ∉ str "app" := by decide
  have hoptions : str "options" ≠ [] ∧ 0 ∉ str "options" := by decide
  have hvalue : (0 : UInt8) ∉ List.replicate n 97 := by
    intro hmem
    exact absurd (List.eq_of_mem_replicate hmem) (by decide)
  intro param hparam
  simp only [paddedStartup, List.mem_cons, List.not_mem_nil, or_false] at hparam
  rcases hparam with rfl | rfl
  · exact ⟨hdatabase.1, hdatabase.2.1, hdatabase.2.2⟩
  · exact ⟨hoptions.1, hoptions.2, hvalue⟩

theorem paddedStartup_length (n : Nat) :
    (paddedStartup n).encode.length = n + 31 ∧
      (forwardedPacket sampleRoute (str "app") (paddedStartup n)).encode.length = n + 32 := by
  have hpairs : (paddedStartup n).pairs.length = n + 22 := by
    have hdatabase : (Parameter.encode ⟨str "database", str "app"⟩).length = 13 := by decide
    have hoptions : (str "options").length = 7 := by decide
    rw [StartupPacket.pairs, paddedStartup, List.flatMap_cons, List.flatMap_cons,
      List.flatMap_nil, List.append_nil, List.length_append, hdatabase]
    simp only [Parameter.encode, List.length_append, List.length_replicate,
      List.length_singleton, hoptions]
    omega
  have hrenamed : ((forwardedPacket sampleRoute (str "app") (paddedStartup n)).pairs.length : Int) =
      (paddedStartup n).pairs.length + 1 := setParameterIn_size _ _ _
  rw [StartupPacket.encode_length, StartupPacket.encode_length]
  omega

theorem negotiate_plain [GoFmt] {env : HandleEnv Pool} {raw rest : Input} {p : StartupPacket}
    (hread : readStartupPacket raw = (.ok p, rest)) (hcode : p.code = protocolVersion3) :
    (negotiate none env raw).2 = .ok ({ encrypted := false, input := rest }, p) := by
  have hssl : p.isSSLRequest = false := by rw [StartupPacket.isSSLRequest, hcode]; rfl
  have hgss : p.isGSSEncRequest = false := by rw [StartupPacket.isGSSEncRequest, hcode]; rfl
  have hcancel : p.isCancelRequest = false := by rw [StartupPacket.isCancelRequest, hcode]; rfl
  rw [negotiate, maxNegotiationRounds, negotiateLoop]
  simp [hread, hssl, hgss, hcancel]

/-- The reader accepts a packet of the maximum size, the route renames its database to a
longer name, and the backend gets a packet beyond the limit. -/
theorem renamed_packet_exceeds_limit :
    (paddedStartup 9969).encode.length = maxStartupPacketLength ∧
    (∃ rest, @readStartupPacket plainQuote (paddedClient 9969) =
      (.ok (paddedStartup 9969), rest)) ∧
    sampleRoute.targetDatabase.length ≤ 63 ∧ 0 ∉ sampleRoute.targetDatabase ∧
    ∃ effects next, @handle Unit plainQuote none sampleTable sampleEnv (paddedClient 9969) =
        (effects, next) ∧
      (backendBytes effects).length = maxStartupPacketLength + 1 ∧
      ∀ r : Input, r.stream = backendBytes effects →
        ∀ p, (@readStartupPacket plainQuote r).1 ≠ .ok p := by
  let _ : GoFmt := plainQuote
  obtain ⟨hlen, hlen'⟩ := paddedStartup_length 9969
  have hstream : (paddedClient 9969).stream = (paddedStartup 9969).encode ++ [] := rfl
  obtain ⟨rest, hread, -⟩ := readStartupPacket_encode (p := paddedStartup 9969) (by decide)
    (paddedStartup_wellFormed 9969) hlen.le hstream
  obtain ⟨effects, hhandle, hbytes⟩ := @handle_relay Unit plainQuote none sampleTable sampleEnv
    (paddedClient 9969) { encrypted := false, input := rest } (paddedStartup 9969) (str "app")
    sampleRoute
    { address := str "db:5432", tls := none, input := ⟨[], .sentinel .eof⟩ }
    ⟨rfl, rfl, rfl, rfl⟩ (negotiate_plain hread rfl) rfl rfl rfl rfl
  refine ⟨hlen, ⟨rest, hread⟩, by decide, by decide, effects, _, hhandle, ?_, ?_⟩
  · rw [hbytes]
    exact hlen'
  · intro r hr p hp
    -- the length field is right, and it is what the reader refuses
    have hmax := (readStartupPacket_ok_iff.mp hp).max
    rw [hr, hbytes, ← List.append_nil (StartupPacket.encode _),
      StartupPacket.declaredLength_encode (by rw [hlen']; decide), hlen'] at hmax
    exact absurd hmax (by decide)

end Proxy
end PgProxy
