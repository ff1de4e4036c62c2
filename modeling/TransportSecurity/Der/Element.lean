import TransportSecurity.Bytes.Basic

/-!
Elements of the distinguished encoding: a tag, the length of the contents, and the contents.

`read` takes any tag and any definite length, however it is spelled. `readCanonical` takes only
known tags and only what `Element.encode` writes, so what it reads has one encoding.
-/

namespace TransportSecurity.Der

/-- What is read off the front of octets, leaving the rest; nothing if they do not fit. -/
abbrev Reader := StateT Octets Option

/-- The four classes of tags. -/
inductive TagClass where | universal | application | contextSpecific | privateUse
  deriving DecidableEq, Repr

/-- A tag: its class, whether the contents are elements themselves, and its number. -/
structure Tag where
  tagClass : TagClass
  constructed : Bool
  number : Nat
  deriving DecidableEq, Repr

/-- A tag and the contents under it. -/
structure Element where
  tag : Tag
  contents : Octets
  deriving DecidableEq, Repr

namespace Tag

/-- The numbers of the universal kinds whose contents are not elements: boolean, integer, bit
string, octet string, null, object identifier, real, enumerated, UTF-8, numeric, printable,
teletex, videotex and IA5 string, the two notations for time, visible string and BMP string. -/
def plainKinds : List Nat := [1, 2, 3, 4, 5, 6, 9, 10, 12, 18, 19, 20, 21, 22, 23, 24, 26, 30]

/-- The numbers of the universal kinds whose contents are elements: sequence and set. -/
def nestedKinds : List Nat := [16, 17]

/-- Whether a tag is that of a universal kind above, or of another class with a number that fits
into the first octet. -/
def isKnown (tag : Tag) : Bool :=
  match tag.tagClass, tag.constructed with
  | .universal, false => tag.number ∈ plainKinds
  | .universal, true => tag.number ∈ nestedKinds
  | _, _ => tag.number < 31

end Tag

namespace TagClass

/-- The two bits that stand for a class. -/
def code : TagClass → Nat
  | .universal => 0
  | .application => 1
  | .contextSpecific => 2
  | .privateUse => 3

/-- The class that two bits stand for. -/
def ofCode : Nat → TagClass
  | 0 => .universal
  | 1 => .application
  | 2 => .contextSpecific
  | _ => .privateUse

end TagClass

/-- The digits of a large tag number, seven bits to an octet; the last octet is below 128. Five
octets are the most, and of the number they spell the lowest 32 bits are kept. -/
def readNumber : (octets : Octets) → (number room : Nat) → Option (Nat × Octets)
  | octet :: rest, number, room + 1 =>
    let number := (number * 128 + octet.toNat % 128) % 2 ^ 32
    if octet.toNat < 128 then some (number, rest) else readNumber rest number room
  | _, _, _ => none

/-- Reads a tag. -/
def readTag : Reader Tag := fun octets =>
  match octets with
  | [] => none
  | first :: rest =>
    let tagClass := TagClass.ofCode (first.toNat / 64)
    let constructed := first.toNat / 32 % 2 = 1
    if first.toNat % 32 < 31 then some (⟨tagClass, constructed, first.toNat % 32⟩, rest)
    else
      match readNumber rest 0 5 with
      | none => none
      | some (number, rest) => some (⟨tagClass, constructed, number⟩, rest)

/-- Reads a length: one octet below 128, or the count of the octets that spell it and those. -/
def readLength : Reader Nat := fun octets =>
  match octets with
  | [] => none
  | first :: rest =>
    if first.toNat < 128 then some (first.toNat, rest)
    else
      let width := first.toNat - 128
      let digits := rest.take width
      if width = 0 ∨ width = 127 ∨ digits.length < width then none
      else if 2 ^ 64 ≤ Octets.value digits then none
      else some (Octets.value digits, rest.drop width)

/-- Takes a number of octets. -/
def take (length : Nat) : Reader Octets := fun octets =>
  let taken := octets.take length
  if taken.length = length then some (taken, octets.drop length) else none

/-- Reads an element. -/
def read : Reader Element := do
  let tag ← readTag
  let length ← readLength
  return ⟨tag, ← take length⟩

/-- The shortest spelling of a length. -/
def encodeLength (length : Nat) : Octets :=
  if length < 128 then [UInt8.ofNat length]
  else
    let width := Nat.log2 length / 8 + 1
    UInt8.ofNat (128 + width) :: Octets.bigEndian width length

/-- An element as it is written; its tag's number is below 31. -/
def Element.encode (element : Element) : Octets :=
  UInt8.ofNat (element.tag.tagClass.code * 64 + (if element.tag.constructed then 32 else 0) +
    element.tag.number) :: (encodeLength element.contents.length ++ element.contents)

/-- Reads an element with a known tag that is spelled as it would be written. -/
def readCanonical : Reader Element := fun octets =>
  match read octets with
  | none => none
  | some (element, _) =>
    let written := element.encode
    if element.tag.isKnown && written.isPrefixOf octets then
      some (element, octets.drop written.length)
    else none

/-- What is read canonically has one encoding. -/
theorem eq_encode_of_readCanonical {octets rest : Octets} {element : Element}
    (h : readCanonical octets = some (element, rest)) : octets = element.encode ++ rest := by
  unfold readCanonical at h
  split at h
  · cases h
  · next found rest' reading =>
    dsimp only at h
    split at h
    · next fits =>
      obtain ⟨tail, rfl⟩ := List.isPrefixOf_iff_prefix.mp (Bool.and_eq_true_iff.mp fits).2
      cases h
      simp
    · cases h

/-- What `reader` makes of contents, if it takes all of them. -/
def whole {α : Type} (reader : Reader α) (contents : Octets) : Option α :=
  match reader contents with
  | some (value, []) => some value
  | _ => none

/-- What `reader` makes of the front of contents. -/
def front {α : Type} (reader : Reader α) (contents : Octets) : Option α :=
  (reader contents).map (·.1)

/-- Whether nothing is left. -/
def atEnd : Reader Bool := return (← get).isEmpty

/-- What `reader` makes of the front, or nothing and then nothing is taken. -/
def attempt {α : Type} (reader : Reader α) : Reader (Option α) := fun octets =>
  match reader octets with
  | some (value, rest) => some (some value, rest)
  | none => some (none, octets)

/-- The tags used here. -/
def integerTag : Tag := ⟨.universal, false, 2⟩
def bitStringTag : Tag := ⟨.universal, false, 3⟩
def octetStringTag : Tag := ⟨.universal, false, 4⟩
def nullTag : Tag := ⟨.universal, false, 5⟩
def objectTag : Tag := ⟨.universal, false, 6⟩
def sequenceTag : Tag := ⟨.universal, true, 16⟩

/-- The contents of a canonical element with a given tag. -/
def contentsOf (tag : Tag) : Reader Octets := do
  let element ← readCanonical
  if element.tag = tag then return element.contents else failure

/-- A number that is not negative, in as few octets as can be. -/
def natural : Reader Nat := do
  match ← contentsOf integerTag with
  | [] => failure
  | [octet] => if octet.toNat < 128 then return octet.toNat else failure
  | first :: second :: rest =>
    if first.toNat < 128 ∧ ¬ (first = 0 ∧ second.toNat < 128) then
      return Octets.value (first :: second :: rest)
    else failure

/-- What `reader` makes of all contents of a canonical sequence. -/
def sequence {α : Type} (reader : Reader α) : Reader α := do
  let contents ← contentsOf sequenceTag
  whole reader contents

end TransportSecurity.Der
