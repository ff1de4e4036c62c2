import TransportSecurity.BlockCipher.Chaining
import TransportSecurity.Entropy.Basic
import TransportSecurity.KeySchedule
import TransportSecurity.Record.Plain

/-!
Protected records: each piece is followed by its tag, padded to whole blocks and encrypted.

The tag covers the record's number as well, so records are accepted only in the order they were
made. Whatever fails past a protected record's header is the same `Error.badRecordMac`, so that the
sender of a forged record cannot tell a bad padding from a bad tag.
-/

namespace TransportSecurity.Record

/-- The number of the record after this one; there is none after the last. -/
def nextNumber (number : UInt64) : Except Error UInt64 :=
  if number.toNat + 1 < 2 ^ 64 then .ok (number + 1) else .error .sequenceExhausted

/-- What a tag covers in front of the fragment. -/
def tagHeader (number : UInt64) (type : ContentType) (version : Version) (length : Nat) :
    Except Error Octets :=
  if length < 2 ^ 16 then
    .ok (Octets.bigEndian 8 number.toNat ++ type.code :: (version.encode ++
      Octets.bigEndian 2 length))
  else .error .lengthOutOfRange

/-- The tag of a fragment. -/
def tag (keys : WriteKeys) (number : UInt64) (type : ContentType) (version : Version)
    (fragment : Octets) : Except Error Octets := do
  let header ← tagHeader number type version fragment.length
  return keys.mac.tagOfTwo keys.macKey header fragment

/-- Fails unless `given` is the tag of the fragment. -/
def checkTag (keys : WriteKeys) (number : UInt64) (type : ContentType) (version : Version)
    (fragment given : Octets) : Except Error Unit := do
  let header ← tagHeader number type version fragment.length
  unless Octets.same (keys.mac.tag keys.macKey (header ++ fragment)) given do
    throw .badRecordMac

/-- The value of each padding octet after `length` octets: one less than their number. -/
def paddingValue (length : Nat) : Nat := Aes.blockLength - 1 - length % Aes.blockLength

/-- The padding that brings `length` octets to whole blocks. -/
def padding (length : Nat) : Octets :=
  List.replicate (paddingValue length + 1) (UInt8.ofNat (paddingValue length))

/-- A record around content that is padded and encrypted from a starting block. -/
def encrypted (keys : WriteKeys) (type : ContentType) (start content : Octets) :
    Except Error Octets := do
  let ciphertext ← Aes.encryptOctets keys.cipherKey start (content ++ padding content.length)
  return (Header.ofLength type (start.length + ciphertext.length)).encode ++ (start ++ ciphertext)

/-- What protecting records uses up: record numbers and random octets. -/
structure Sealer (G : Type) where
  number : UInt64
  source : G

section Protecting

variable {G : Type} [Entropy G]

/-- Draws the starting block of a record. -/
def drawStart : EStateM Error (Sealer G) (Fixed Aes.blockLength) := fun sealer =>
  match Entropy.demand Aes.blockLength sealer.source with
  | .ok start source => .ok start { sealer with source }
  | .error error source => .error error { sealer with source }

/-- A piece as one protected record under the next number. The number counts once the record is
made. -/
def protectPiece (keys : WriteKeys) (type : ContentType) (piece : Octets) :
    EStateM Error (Sealer G) Octets := do
  let number := (← get).number
  let given ← ofExcept (tag keys number type .current piece)
  let start ← drawStart
  let record ← ofExcept (encrypted keys type start.val (piece ++ given))
  let next ← ofExcept (nextNumber number)
  modify ({ · with number := next })
  return record

/-- Pieces as protected records in a row. -/
def protectPieces (keys : WriteKeys) (type : ContentType) :
    List Octets → EStateM Error (Sealer G) Octets
  | [] => return []
  | piece :: rest => do
    let record ← protectPiece keys type piece
    return record ++ (← protectPieces keys type rest)

/-- A payload as protected records. -/
def protect (keys : WriteKeys) (type : ContentType) (payload : Octets) :
    EStateM Error (Sealer G) Octets :=
  protectPieces keys type (pieces payload)

end Protecting

/-- The shortest protected record: header, starting block and a padded tag. -/
def minProtectedLength (macLength : Nat) : Nat :=
  headerLength + Aes.blockLength + (macLength / Aes.blockLength + 1) * Aes.blockLength

/-- The content and the tag inside a decrypted fragment, if its padding is in order: its last octet
is less than a block, what is left without padding and tag is no longer than a fragment may be, and
all padding octets are alike. -/
def unpad? (macLength : Nat) (plaintext : Octets) : Option (Octets × Octets) := do
  let last ← plaintext.getLast?
  let paddingLength := last.toNat + 1
  if Aes.blockLength < paddingLength then none
  else if plaintext.length < paddingLength + macLength then none
  else
    let contentLength := plaintext.length - paddingLength - macLength
    if maxFragment < contentLength then none
    else if (plaintext.drop (contentLength + macLength)).all (· = last) then
      some (plaintext.take contentLength, (plaintext.drop contentLength).take macLength)
    else none

/-- The content of one whole protected record, and the number of the record after it. -/
def unprotect (keys : WriteKeys) (number : UInt64) (record : Octets) :
    Except Error (Octets × UInt64) := do
  let some header ← Header.ofFront? record | throw .invalidLength
  if record.length ≠ header.recordLength then throw .invalidLength
  if record.length < minProtectedLength keys.macLength ∨
      header.length % Aes.blockLength ≠ 0 then throw .badRecordMac
  let fragment := record.drop headerLength
  let plaintext ← Aes.decryptOctets keys.cipherKey (fragment.take Aes.blockLength)
    (fragment.drop Aes.blockLength)
  let some (content, given) := unpad? keys.macLength plaintext | throw .badRecordMac
  match checkTag keys number header.type header.version content given with
  | .error _ => throw .badRecordMac
  | .ok () => return (content, ← nextNumber number)

end TransportSecurity.Record
