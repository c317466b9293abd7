import PgProxy.Pgwire.Protocol

/-!
# Framed backend messages

A message is a type byte, a length that counts itself but not the type byte, and
a body. The reader takes exactly the bytes of one message and keeps the buffer of
the last body for the next.
-/

namespace PgProxy
set_option autoImplicit false

namespace Pgwire
open BigEndian

def msgBackendKeyData : UInt8 := 75
def msgReadyForQuery : UInt8 := 90
def msgErrorResponse : UInt8 := 69

def maxMessageLength : Nat := 2 ^ 20

structure Message where
  type : UInt8
  body : Bytes
  deriving DecidableEq

def Message.encode (m : Message) : Bytes :=
  [m.type] ++ putUint32 (UInt32.ofNat (m.body.length + 4)) ++ m.body

/-- `buf` is the whole array behind the body slice, so its length is the capacity. -/
structure MessageReader where
  r : Input
  buf : Bytes

def newMessageReader (r : Input) : MessageReader := ⟨r, []⟩

def MessageReader.next [GoFmt] (mr : MessageReader) : Except GoError Message × MessageReader :=
  match readFull 5 mr.r with
  | (.error e, r) => (.error e, { mr with r })
  | (.ok header, r) =>
    let type := header.headD 0
    let length := (uint32 header.tail).toNat
    if length < 4 then
      (.error (.other (str "pgwire: message " ++ quoteByte type ++ str " declares length " ++
        itoa length ++ str ", want at least 4")), { mr with r })
    else if length > maxMessageLength then
      (.error (.other (str "pgwire: message " ++ quoteByte type ++ str " length " ++
        itoa length ++ str " exceeds the " ++ itoa maxMessageLength ++ str " byte limit")),
        { mr with r })
    else
      let bodyLen := length - 4
      let buf := if mr.buf.length < bodyLen then List.replicate bodyLen 0 else mr.buf
      match readFull bodyLen r with
      | (.error e, r) =>
        (.error (errorfWrap (str "pgwire: reading body of message " ++ quoteByte type) e),
          ⟨r, buf⟩)
      | (.ok body, r) =>
        -- the read overwrites the first `bodyLen` bytes of the buffer
        let buf := body ++ buf.drop bodyLen
        (.ok ⟨type, buf.take bodyLen⟩, ⟨r, buf⟩)

def encodeBackendKeyData (key : CancelRequest) : Bytes :=
  [msgBackendKeyData] ++ putUint32 12 ++ putUint32 key.processID.toUInt32 ++
    putUint32 key.secretKey.toUInt32

def decodeBackendKeyData (body : Bytes) : Except GoError CancelRequest :=
  if body.length ≠ 8 then
    .error (.other (str "pgwire: BackendKeyData body is " ++ itoa body.length ++
      str " bytes, want 8"))
  else .ok ⟨⟨uint32 body⟩, ⟨uint32 (body.drop 4)⟩⟩

def sqlStateUndefinedDatabase : GoString := str "3D000"
def sqlStateConnectionFailure : GoString := str "08006"
def sqlStateTooManyConnections : GoString := str "53300"
def sqlStateProtocolViolation : GoString := str "08P01"

/-- A fatal ErrorResponse: coded, zero-terminated fields and a closing zero byte. -/
def encodeErrorResponse (sqlState message detail : GoString) : Bytes :=
  let fields : List (UInt8 × GoString) :=
    [(83, str "FATAL"), (86, str "FATAL"), (67, sqlState), (77, message)] ++
      if detail ≠ [] then [(68, detail)] else []
  let body := fields.flatMap fun f => [f.1] ++ f.2 ++ [0]
  Message.encode ⟨msgErrorResponse, body ++ [0]⟩

end Pgwire
end PgProxy
