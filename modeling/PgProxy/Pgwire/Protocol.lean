import PgProxy.Go

/-!
# Startup packets and cancellation keys

The slice of the PostgreSQL frontend protocol the gateway reads and writes before
a session starts: startup, SSL, GSSAPI and cancel packets, and the key a backend
hands out for cancelling queries.
-/

namespace PgProxy
set_option autoImplicit false

namespace Pgwire
open BigEndian

def protocolVersion3 : Int32 := 196608
def cancelRequestCode : Int32 := 80877102
def sslRequestCode : Int32 := 80877103
def gssEncRequestCode : Int32 := 80877104

def maxStartupPacketLength : Nat := 10000
def minStartupPacketLength : Nat := 8

structure Parameter where
  key : GoString
  value : GoString
  deriving DecidableEq, Repr

structure CancelRequest where
  processID : Int32
  secretKey : Int32
  deriving DecidableEq

structure StartupPacket where
  code : Int32
  parameters : List Parameter := []
  cancel : CancelRequest := ⟨0, 0⟩
  deriving DecidableEq

namespace StartupPacket

def isSSLRequest (p : StartupPacket) : Bool := p.code == sslRequestCode
def isGSSEncRequest (p : StartupPacket) : Bool := p.code == gssEncRequestCode
def isCancelRequest (p : StartupPacket) : Bool := p.code == cancelRequestCode

/-- The protocol major version: an arithmetic shift of the signed code. -/
def majorVersion (p : StartupPacket) : Int := p.code.toInt.shiftRight 16

/-- The value of a startup parameter, the first one under this key. -/
def parameter (p : StartupPacket) (key : GoString) : Option GoString :=
  (p.parameters.find? fun param => param.key = key).map Parameter.value

/-- Replace the first parameter under the key, or append one. -/
def setParameterIn (key value : GoString) : List Parameter → List Parameter
  | [] => [⟨key, value⟩]
  | param :: rest =>
    if param.key = key then { param with value } :: rest
    else param :: setParameterIn key value rest

def setParameter (p : StartupPacket) (key value : GoString) : StartupPacket :=
  { p with parameters := setParameterIn key value p.parameters }

end StartupPacket

/-- The bytes up to the first zero byte, and what follows that byte. -/
def readCString (b : Bytes) : Except GoError (GoString × Bytes) :=
  let stop := b.idxOf 0
  if stop = b.length then .error (.sentinel .unexpectedEOF)
  else .ok (b.take stop, b.drop (stop + 1))

section Read
variable [GoFmt]

/-- The parameter loop. Every round takes at least two bytes, so a fuel of the
payload's length is never used up. -/
def parseParametersLoop : Nat → Bytes → List Parameter → Except GoError (List Parameter)
  | 0, _, params => .ok params
  | fuel + 1, payload, params =>
    match payload with
    | [] => .ok params
    | b :: _ =>
      -- an empty key ends the list; padding after it is tolerated
      if b = 0 then .ok params
      else
        match readCString payload with
        | .error e => .error (errorfWrap (str "pgwire: reading parameter name") e)
        | .ok (key, rest) =>
          match readCString rest with
          | .error e =>
            .error (errorfWrap (str "pgwire: reading value of parameter " ++ quote key) e)
          | .ok (value, rest) => parseParametersLoop fuel rest (params ++ [⟨key, value⟩])

def parseParameters (payload : Bytes) : Except GoError (List Parameter) :=
  parseParametersLoop payload.length payload []

/-- The packet in a complete body, the length field taken off. -/
def decodeStartupBody (body : Bytes) : Except GoError StartupPacket :=
  let code : Int32 := ⟨uint32 body⟩
  let payload := body.drop 4
  let packet : StartupPacket := { code }
  if code = sslRequestCode ∨ code = gssEncRequestCode then
    if payload ≠ [] then
      .error (.other (str "pgwire: negotiation packet carries " ++ itoa payload.length ++
        str " trailing bytes"))
    else .ok packet
  else if code = cancelRequestCode then
    if payload.length ≠ 8 then
      .error (.other (str "pgwire: cancel request payload is " ++ itoa payload.length ++
        str " bytes, want 8"))
    else .ok { packet with cancel := ⟨⟨uint32 payload⟩, ⟨uint32 (payload.drop 4)⟩⟩ }
  else if packet.majorVersion ≠ 3 then
    .error (.other (str "pgwire: unsupported protocol version " ++ itoa packet.majorVersion ++
      str "." ++ itoa (packet.code.toInt % 65536)))
  else
    match parseParameters payload with
    | .error e => .error e
    | .ok params => .ok { packet with parameters := params }

/-- Decode a single startup-phase packet and leave the rest of the stream. -/
def readStartupPacket (r : Input) : Except GoError StartupPacket × Input :=
  match readFull 4 r with
  | (.error e, r) => (.error e, r)
  | (.ok header, r) =>
    let length := (uint32 header).toNat
    if length < minStartupPacketLength then
      (.error (.other (str "pgwire: startup packet length " ++ itoa length ++
        str " is below the minimum of " ++ itoa minStartupPacketLength)), r)
    else if length > maxStartupPacketLength then
      (.error (.wrap (Sentinel.startupTooLarge.text ++ str ": " ++ itoa length ++ str " > " ++
        itoa maxStartupPacketLength) (.sentinel .startupTooLarge)), r)
    else
      match readFull (length - 4) r with
      | (.error e, r) => (.error (errorfWrap (str "pgwire: reading startup packet body") e), r)
      | (.ok body, r) => (decodeStartupBody body, r)

end Read

def Parameter.encode (param : Parameter) : Bytes := param.key ++ [0] ++ param.value ++ [0]

/-- Serialise a protocol 3.0 startup packet, preserving parameter order. -/
def StartupPacket.encode (p : StartupPacket) : Bytes :=
  let size := p.parameters.foldl
    (fun size param => size + (param.key.length + 1 + param.value.length + 1)) (4 + 4 + 1)
  putUint32 (UInt32.ofNat size) ++ putUint32 p.code.toUInt32 ++
    p.parameters.flatMap Parameter.encode ++ [0]

def encodeCancelRequest (key : CancelRequest) : Bytes :=
  putUint32 16 ++ putUint32 cancelRequestCode.toUInt32 ++ putUint32 key.processID.toUInt32 ++
    putUint32 key.secretKey.toUInt32

end Pgwire
end PgProxy
