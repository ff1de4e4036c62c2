import TransportSecurity.Der.Element

/-!
RSA keys and their two encodings.

A public key is a pair of numbers in range; a private key adds the factors of the modulus and an
exponent that belongs to them. A private key comes bare or wrapped with the name of its algorithm.
-/

namespace TransportSecurity.Rsa

/-- A modulus and an exponent in range. -/
structure PublicKey where
  modulus : Nat
  exponent : Nat
  deriving DecidableEq, Repr

namespace PublicKey

/-- The octets that a number below the modulus takes. -/
def size (key : PublicKey) : Nat := (Nat.log2 key.modulus + 8) / 8

/-- Whether modulus and exponent are odd and the exponent is below the modulus and not too large. -/
def inRange (key : PublicKey) : Bool :=
  key.exponent < key.modulus && key.modulus % 2 = 1 && key.exponent % 2 = 1 &&
    2 ≤ key.exponent && key.exponent ≤ 2 ^ 33 - 1

/-- The bits that the modulus of another end's key may have. -/
def maxBits : Nat := 4096

/-- The two numbers of a key. -/
def scan : Der.Reader PublicKey := do
  return { modulus := ← Der.natural, exponent := ← Der.natural }

/-- Reads the encoding of a key. -/
def ofDer? (octets : Octets) : Option PublicKey := do
  let key ← Der.whole (Der.sequence scan) octets
  if key.modulus < 2 ^ maxBits && key.inRange then return key else failure

end PublicKey

/-- A public key, the exponent that undoes its own, and two factors of its modulus. That the factors
are prime is not known. -/
structure PrivateKey where
  publicKey : PublicKey
  exponent : Nat
  firstFactor : Nat
  secondFactor : Nat
  deriving DecidableEq, Repr

namespace PrivateKey

/-- Whether the parts of a key belong together: the factors make the modulus, and the exponents
undo each other modulo one less than each factor. -/
def belongsTogether (key : PrivateKey) : Bool :=
  let product := key.publicKey.exponent * key.exponent
  key.publicKey.inRange && 2 ≤ key.firstFactor && 2 ≤ key.secondFactor &&
    key.firstFactor * key.secondFactor = key.publicKey.modulus &&
    product % (key.firstFactor - 1) = 1 && product % (key.secondFactor - 1) = 1

/-- The numbers of a key: version 0, those of the key itself, and three that follow from these and
are not looked at. -/
def scan : Der.Reader PrivateKey := do
  if (← Der.natural) ≠ 0 then failure
  let key : PrivateKey := {
    publicKey := ← PublicKey.scan
    exponent := ← Der.natural
    firstFactor := ← Der.natural
    secondFactor := ← Der.natural
  }
  let _ ← Der.natural
  let _ ← Der.natural
  let _ ← Der.natural
  return key

/-- Reads a bare key. -/
def ofBareDer? (octets : Octets) : Option PrivateKey := do
  let key ← Der.whole (Der.sequence scan) octets
  if key.belongsTogether then return key else failure

/-- The name of the algorithm, 1.2.840.113549.1.1.1. -/
def algorithmName : Octets := [0x2a, 0x86, 0x48, 0x86, 0xf7, 0x0d, 0x01, 0x01, 0x01]

/-- Reads the name of the algorithm and its empty parameters. -/
def scanAlgorithm : Der.Reader Unit := Der.sequence do
  if (← Der.contentsOf Der.objectTag) ≠ algorithmName then failure
  if (← Der.contentsOf Der.nullTag) ≠ [] then failure

/-- Passes over attributes, of any contents, up to the public key under tag 1, and tells whether it is
there. -/
def scanPublicBits : (room : Nat) → Der.Reader Bool
  | 0 => return false
  | room + 1 => do
    if ← Der.atEnd then return false
    let octets ← get
    let element ← Der.readCanonical
    if element.tag.tagClass = .contextSpecific ∧ element.tag.number = 1 then
      if element.tag.constructed ∨ element.contents.headD 1 ≠ 0 then failure
      return true
    else if element.tag.tagClass = .contextSpecific ∧ element.tag.number = 0 then
      scanPublicBits room
    else
      set octets
      return false

/-- Passes over elements to the end; each wraps one other element under a tag of the context. -/
def passRest : (room : Nat) → Der.Reader Unit
  | 0 => return
  | room + 1 => do
    if ← Der.atEnd then return
    let element ← Der.readCanonical
    if element.tag.tagClass ≠ .contextSpecific ∨ !element.tag.constructed then failure
    let _ ← Der.whole Der.readCanonical element.contents
    passRest room

/-- Reads the wrapping of a key: a version, the algorithm, the key itself, attributes, and in the
second version a public key. The answer is the key as it is encoded. -/
def scanWrapping : Der.Reader Octets := do
  let version ← Der.natural
  if 1 < version then failure
  scanAlgorithm
  let key ← Der.contentsOf Der.octetStringTag
  let room := (← get).length
  let hasPublicBits ← scanPublicBits room
  if hasPublicBits ≠ decide (version = 1) then failure
  passRest room
  return key

/-- Reads a key, bare or wrapped. -/
def ofDer? (octets : Octets) : Option PrivateKey :=
  match ofBareDer? octets with
  | some key => some key
  | none => do
    let key ← Der.whole (Der.sequence scanWrapping) octets
    ofBareDer? key

end PrivateKey

end TransportSecurity.Rsa
