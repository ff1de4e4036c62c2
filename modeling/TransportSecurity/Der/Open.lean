import TransportSecurity.Der.Element

/-!
Elements whose length may be left open.

An element of open length has a tag that says that its contents are elements, and these go on up to
an end mark, which is an empty element with the number zero. They may be open themselves.
`skipOpen_endMark` says that the mark is taken and what follows it is left.
-/

namespace TransportSecurity.Der

/-- How far contents go: a count of octets, or up to an end mark. -/
inductive Extent where
  | octets (count : Nat)
  | endMark
  deriving DecidableEq, Repr

/-- Reads a length that may be left open. -/
def readExtent : Reader Extent := fun octets =>
  match octets with
  | [] => none
  | first :: rest =>
    if first = 0x80 then some (.endMark, rest)
    else (readLength (first :: rest)).map fun (length, rest) => (.octets length, rest)

/-- The elements that may be open at once. -/
def maxOpen : Nat := 49

/-- Reads on until all of the elements that are open have ended; `room` bounds the elements that are
read. -/
def skipOpen : (room count : Nat) → Reader Unit
  | _, 0 => return
  | 0, _ + 1 => failure
  | room + 1, count + 1 => do
    let tag ← readTag
    match ← readExtent with
    | .endMark =>
      if !tag.constructed || maxOpen ≤ count + 1 then failure
      skipOpen room (count + 2)
    | .octets 0 => skipOpen room (if tag.number = 0 then count else count + 1)
    | .octets length =>
      let _ ← take length
      skipOpen room (count + 1)

/-- Reads an element, of open length or not, and answers with its tag. -/
def readOpen : Reader Tag := do
  let tag ← readTag
  match ← readExtent with
  | .endMark =>
    if !tag.constructed then failure
    skipOpen (← get).length 1
  | .octets length => let _ ← take length
  return tag

/-- An end mark ends the last open element. -/
theorem skipOpen_endMark (room : Nat) (rest : Octets) :
    skipOpen (room + 1) 1 (0 :: 0 :: rest) = some ((), rest) := by
  cases room <;> rfl

end TransportSecurity.Der
