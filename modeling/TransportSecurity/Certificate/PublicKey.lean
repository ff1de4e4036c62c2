import TransportSecurity.Certificate.Time
import TransportSecurity.Der.Open

/-!
The public key inside a certificate.

A certificate has to be well-formed up to its signature: every field in its place, with the tag it
should have. Of most tags only the number is looked at, and of identifiers of algorithms and
extensions not even that. What the fields say is not checked, and neither is the signature. What
follows the certificate, or the known fields of one of its parts, is passed over.
-/

namespace TransportSecurity.Certificate

open Der (Reader)

/-- What `reader` makes of the front of a sequence. -/
def sequence {α : Type} (reader : Reader α) : Reader α := do
  let element ← Der.read
  if element.tag.number ≠ 16 then failure
  Der.front reader element.contents

/-- The contents of an element that holds no elements, with a tag of a given number. -/
def primitive (number : Nat) : Reader Octets := do
  let element ← Der.read
  if element.tag.number ≠ number ∨ element.tag.constructed then failure
  return element.contents

/-- The name of an algorithm or an extension, an element of any kind that holds no elements. -/
def identifier : Reader Unit := do
  let element ← Der.read
  if element.tag.constructed then failure

/-- Whether octets are a number in as few octets as can be. -/
def isInteger : Octets → Bool
  | [] => false
  | [_] => true
  | first :: second :: _ =>
    !(first = 0 && second.toNat < 128) && !(first = 0xff && 128 ≤ second.toNat)

/-- A version, under a tag of its own; it may be missing. -/
def version : Reader Unit := do
  if ← Der.atEnd then return
  let octets ← get
  let element ← Der.read
  if element.tag.number = 0 ∧ element.tag.tagClass = .contextSpecific then
    let number ← Der.front (primitive 2) element.contents
    if !isInteger number || 128 ≤ (number.headD 0).toNat || 2 ^ 32 ≤ Octets.value number then
      failure
  else set octets

/-- A serial number, of any contents. It alone may be of open length. -/
def serial : Reader Unit := do
  let tag ← Der.readOpen
  if tag.number ≠ 2 then failure

/-- An algorithm: its identifier, and parameters of any kind or none. -/
def algorithm : Reader Unit := sequence do
  identifier
  unless ← Der.atEnd do
    let _ ← Der.read

/-- A name, of any contents. -/
def name : Reader Unit := sequence (return)

/-- A moment in one of the two notations. -/
def moment : Reader Unit := do
  let element ← Der.read
  let written :=
    (element.tag.number = 23 && Time.isShort element.contents) ||
      (element.tag.number = 24 && Time.isLong element.contents)
  if !written then failure

/-- The moments between which a certificate is meant to be used. -/
def validity : Reader Unit := sequence do
  moment
  moment

/-- The octets of a string of bits; the bits of the last octet that are not used must be zero. -/
def bitString : Reader Octets := do
  match ← primitive 3 with
  | [] => failure
  | [unused] => if unused = 0 then return [] else failure
  | unused :: octets =>
    let last := (octets.getLastD 0).toNat
    let zeros := if last = 0 then 8 else (List.range 8).countP fun i => last % 2 ^ (i + 1) = 0
    if zeros < unused.toNat then failure
    return octets

/-- The octets of the public key, whatever algorithm it is for. -/
def subjectKey : Reader Octets := sequence do
  algorithm
  bitString

/-- One of the two strings of bits from the second version of the format, under a tag of its own; it
is missing if the next element has another tag, which is all that is looked at then. -/
def uniqueId (number : Nat) : Reader Unit := do
  if ← Der.atEnd then return
  let octets ← get
  let tag ← Der.readTag
  let length ← Der.readLength
  if tag.number ≠ number then set octets
  else if tag.tagClass = .contextSpecific ∧ tag.constructed then
    let _ ← Der.front bitString (← Der.take length)
  else failure

/-- Whether an extension is critical, in one octet of any value; it may be missing. -/
def critical : Reader Unit := do
  let _ ← Der.attempt do
    let element ← Der.read
    if element.tag.number ≠ 1 ∨ element.contents.length ≠ 1 then failure

/-- An extension: its identifier, whether it is critical, and its value. -/
def extension : Reader Unit := sequence do
  identifier
  critical
  let _ ← primitive 4

/-- Whether octets are extensions in a row; `room` bounds their number. -/
def areExtensions : (room : Nat) → Octets → Bool
  | _, [] => true
  | 0, _ => false
  | room + 1, octets =>
    match extension octets with
    | some (_, rest) => areExtensions room rest
    | none => false

/-- The extensions, under a tag of their own, to the end; they may be missing. -/
def extensions : Reader Unit := do
  if ← Der.atEnd then return
  let tag ← Der.readTag
  if tag.number ≠ 3 then failure
  let _ ← Der.readLength
  let element ← Der.read
  if element.tag.number ≠ 16 ∨ !areExtensions element.contents.length element.contents then failure
  unless ← Der.atEnd do failure

/-- The signed part of a certificate; the answer is the public key. -/
def signedPart : Reader Octets := sequence do
  version
  serial
  algorithm
  name
  validity
  name
  let key ← subjectKey
  uniqueId 1
  uniqueId 2
  extensions
  return key

/-- A certificate; the answer is the public key. -/
def certificate : Reader Octets := sequence do
  let key ← signedPart
  algorithm
  let _ ← bitString
  return key

/-- The octets of the public key in the certificate at the front of a string. -/
def publicKey? (octets : Octets) : Option Octets := Der.front certificate octets

end TransportSecurity.Certificate
