import TransportSecurity.Bytes.Field
import TransportSecurity.Bytes.Scan

/-!
Record headers: what a record carries, the version it names, and how long its fragment is.
-/

namespace TransportSecurity

/-- A protocol version. -/
structure Version where
  major : UInt8
  minor : UInt8
  deriving DecidableEq, Repr

namespace Version

/-- The version spoken here: TLS 1.2, which calls itself 3.3 on the wire. -/
def current : Version := ⟨3, 3⟩

/-- A version as it is sent. -/
def encode (version : Version) : Octets := [version.major, version.minor]

/-- Reads a version, any at all. -/
def scan : Scan Version := return ⟨← Scan.octet, ← Scan.octet⟩

/-- Whether a version is at least another, by its major number first. -/
def atLeast (version least : Version) : Bool :=
  least.major < version.major || (least.major = version.major && least.minor ≤ version.minor)

end Version

/-- What a record carries. -/
inductive ContentType where | changeCipherSpec | alert | handshake | applicationData
  deriving DecidableEq, Repr

namespace ContentType

/-- The octet that stands for a content type. -/
def code : ContentType → UInt8
  | .changeCipherSpec => 20
  | .alert => 21
  | .handshake => 22
  | .applicationData => 23

/-- The content type an octet stands for. -/
def ofCode? (code : UInt8) : Option ContentType :=
  [changeCipherSpec, alert, handshake, applicationData].find? (·.code = code)

theorem ofCode?_eq_some_iff {code : UInt8} {type : ContentType} :
    ofCode? code = some type ↔ type.code = code := by
  constructor
  · intro h
    simpa using List.find?_some h
  · rintro rfl
    cases type <;> rfl

end ContentType

namespace Record

/-- The octets in a header. -/
def headerLength : Nat := 5

/-- The longest fragment once its protection is removed. -/
def maxFragment : Nat := 16384

/-- The longest piece of a payload put into one record, which leaves room for tag and padding. -/
def maxPiece : Nat := 16292

/-- The longest fragment of a record on the wire. -/
def maxLength : Nat := maxFragment + 64

/-- A record header. -/
structure Header where
  type : ContentType
  version : Version
  length : Nat
  deriving DecidableEq, Repr

namespace Header

/-- The header of a record that is sent. -/
def ofLength (type : ContentType) (length : Nat) : Header := ⟨type, .current, length⟩

/-- The length of header and fragment together. -/
def recordLength (header : Header) : Nat := headerLength + header.length

/-- A header as it is sent; a length that needs more than two octets loses its high part. -/
def encode (header : Header) : Octets :=
  header.type.code :: (header.version.encode ++ Octets.bigEndian 2 header.length)

/-- Reads a header. Content type, version and length are checked in this order. -/
def scan : Scan Header := do
  let code ← Scan.octet
  let some type := ContentType.ofCode? code | throw (.unknownContentType code)
  let version ← Version.scan
  if version.major ≠ 3 ∨ 3 < version.minor then
    throw (.unsupportedVersion version.major version.minor)
  let length ← Scan.number 2
  if maxLength < length then throw (.recordOverflow length)
  return ⟨type, version, length⟩

/-- The header at the front of a string, once there are enough octets for one. -/
def ofFront? (octets : Octets) : Except Error (Option Header) :=
  let front := octets.take headerLength
  if front.length < headerLength then .ok none
  else do
    let (header, _) ← Scan.front scan front
    return some header

end Header

end Record

end TransportSecurity
