import TransportSecurity.Bytes.Field
import TransportSecurity.Bytes.Scan

/-!
Handshake messages: a type, the length of the body in three octets, and the body.

`Body` ties a kind of body to its type and its wire form; `Body.encode` and `Body.decode` add and
remove the type and the length.
-/

namespace TransportSecurity

/-- The types of handshake messages. -/
inductive MessageType where
  | helloRequest | clientHello | serverHello | certificates | serverKeyExchange
  | certificateRequest | serverHelloDone | certificateVerify | clientKeyExchange | finished
  deriving DecidableEq, Repr

namespace MessageType

/-- The octet that stands for a message type. -/
def code : MessageType → UInt8
  | .helloRequest => 0
  | .clientHello => 1
  | .serverHello => 2
  | .certificates => 11
  | .serverKeyExchange => 12
  | .certificateRequest => 13
  | .serverHelloDone => 14
  | .certificateVerify => 15
  | .clientKeyExchange => 16
  | .finished => 20

/-- Every message type, in the order of their codes. -/
def all : List MessageType :=
  [.helloRequest, .clientHello, .serverHello, .certificates, .serverKeyExchange,
    .certificateRequest, .serverHelloDone, .certificateVerify, .clientKeyExchange, .finished]

/-- The message type an octet stands for. -/
def ofCode? (code : UInt8) : Option MessageType := all.find? (·.code = code)

theorem ofCode?_eq_some_iff {code : UInt8} {type : MessageType} :
    ofCode? code = some type ↔ type.code = code := by
  constructor
  · intro h
    simpa using List.find?_some h
  · rintro rfl
    cases type <;> rfl

/-- The type of a message, from its first octet. -/
def ofMessage (message : Octets) : Except Error MessageType :=
  match message with
  | [] => .error .invalidLength
  | code :: _ =>
    match ofCode? code with
    | some type => .ok type
    | none => .error (.unknownHandshakeType code)

end MessageType

/-- A kind of message body: its type, how it is written, and how it is read. -/
class Body (Content : Type) where
  type : MessageType
  write : Content → Except Error Octets
  scan : Scan Content

namespace Body

/-- The octets in front of a body. -/
def headerLength : Nat := 4

variable {Content : Type} [Body Content]

/-- A whole message. -/
def encode (content : Content) : Except Error Octets := do
  let body ← Field.sized24 (← write content)
  return (type Content).code :: body

/-- Reads a whole message of one type, which must hold its body exactly. -/
def decode (Content : Type) [Body Content] (message : Octets) : Except Error Content :=
  Scan.whole (do
    let code ← Scan.octet
    if code ≠ (type Content).code then throw (.unknownHandshakeType code)
    Scan.nested 3 scan) message

end Body

end TransportSecurity
