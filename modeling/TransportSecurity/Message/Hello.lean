import TransportSecurity.Entropy.Basic
import TransportSecurity.Message.Body
import TransportSecurity.Record.Header
import TransportSecurity.Suite

/-!
The hellos: what the client offers and what the server chooses.

A trailing block of extensions is carried as it is. A hello without one ends after its fixed fields,
which is not the same as an empty block.
-/

namespace TransportSecurity

/-- The random octets of a hello. -/
abbrev Random := Fixed 32

namespace Random

/-- Draws the random octets of a hello. -/
def draw {G : Type} [Entropy G] : EStateM Error G Random := Entropy.demand 32

/-- Reads the random octets of a hello. -/
def scan : Scan Random := Scan.fixed 32

end Random

namespace SessionId

/-- The longest session identifier. -/
def maxLength : Nat := 32

/-- Reads a session identifier. -/
def scan : Scan Octets := do
  let id ← Scan.sized 1
  if maxLength < id.length then throw .invalidLength
  return id

end SessionId

namespace SuiteList

/-- A list of suites as it is sent. -/
def encode (suites : List Suite) : Octets :=
  Octets.bigEndian 2 (2 * suites.length) ++ suites.flatMap Field.word

/-- The suites spelled by octets, two octets each. -/
def ofOctets : Octets → List Suite
  | a :: b :: rest => UInt16.ofNat (Octets.value [a, b]) :: ofOctets rest
  | _ => []

/-- Reads a list of suites, which may not be empty. -/
def scan : Scan (List Suite) := do
  let octets ← Scan.sized 2
  if octets.isEmpty ∨ octets.length % 2 ≠ 0 then throw .invalidLength
  return ofOctets octets

end SuiteList

namespace CompressionList

/-- The code of no compression, the only method there is. -/
def null : UInt8 := 0

/-- Reads a list of compression methods, which may not be empty; unknown ones are kept. -/
def scan : Scan Octets := do
  let methods ← Scan.sized 1
  if methods.isEmpty then throw .invalidLength
  return methods

end CompressionList

namespace Extensions

/-- A block of extensions as it is sent, or nothing. -/
def encode : Option Octets → Octets
  | none => []
  | some block => Field.sized16 block

/-- Reads a block of extensions if anything is left. -/
def scan : Scan (Option Octets) := do
  if ← Scan.atEnd then return none
  return some (← Scan.sized 2)

end Extensions

/-- What a client offers. -/
structure ClientHello where
  version : Version
  random : Random
  sessionId : Octets
  suites : List Suite
  compression : Octets
  extensions : Option Octets
  deriving DecidableEq

namespace ClientHello

/-- The hello of a client that offers suites and nothing else. -/
def offering (random : Random) (suites : List Suite) : ClientHello :=
  ⟨.current, random, [], suites, [CompressionList.null], none⟩

/-- Whether the client can do without compression. -/
def offersNull (hello : ClientHello) : Bool := hello.compression.contains CompressionList.null

/-- The lengths that a hello's fields can have on the wire. -/
structure WellFormed (hello : ClientHello) : Prop where
  sessionId : hello.sessionId.length ≤ SessionId.maxLength
  suites : 1 ≤ hello.suites.length ∧ hello.suites.length ≤ 32767
  compression : 1 ≤ hello.compression.length ∧ hello.compression.length ≤ 255
  extensions : ∀ block ∈ hello.extensions, block.length ≤ 65535

instance : Body ClientHello where
  type := .clientHello
  write hello := return hello.version.encode ++ (hello.random.val ++
    (Field.sized8 hello.sessionId ++ (SuiteList.encode hello.suites ++
      (Field.sized8 hello.compression ++ Extensions.encode hello.extensions))))
  scan := do
    let version ← Version.scan
    let random ← Random.scan
    let sessionId ← SessionId.scan
    let suites ← SuiteList.scan
    let compression ← CompressionList.scan
    let extensions ← Extensions.scan
    return { version, random, sessionId, suites, compression, extensions }

end ClientHello

/-- What a server chooses. It always chooses no compression. -/
structure ServerHello where
  version : Version
  random : Random
  sessionId : Octets
  suite : Suite
  extensions : Option Octets
  deriving DecidableEq

namespace ServerHello

/-- The hello of a server that chooses a suite and nothing else. -/
def choosing (random : Random) (suite : Suite) : ServerHello := ⟨.current, random, [], suite, none⟩

/-- The lengths that a hello's fields can have on the wire. -/
structure WellFormed (hello : ServerHello) : Prop where
  sessionId : hello.sessionId.length ≤ SessionId.maxLength
  extensions : ∀ block ∈ hello.extensions, block.length ≤ 65535

instance : Body ServerHello where
  type := .serverHello
  write hello := return hello.version.encode ++ (hello.random.val ++
    (Field.sized8 hello.sessionId ++ (Field.word hello.suite ++
      (CompressionList.null :: Extensions.encode hello.extensions))))
  scan := do
    let version ← Version.scan
    let random ← Random.scan
    let sessionId ← SessionId.scan
    let suite ← Scan.word
    if (← Scan.octet) ≠ CompressionList.null then throw .invalidCompression
    let extensions ← Extensions.scan
    return { version, random, sessionId, suite, extensions }

end ServerHello

end TransportSecurity
