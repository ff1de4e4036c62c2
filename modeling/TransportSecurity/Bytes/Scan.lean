import TransportSecurity.Bytes.Basic
import TransportSecurity.Error

/-!
Reading fields off the front of an octet string.

A `Scan` consumes octets from the front and leaves the rest as its state. Running off the end is
always `Error.invalidLength`, and then a single field leaves the octets as they were; a field with a
length in front has by then consumed that length and nothing more.
-/

namespace TransportSecurity

/-- A reader of the octets that its state still holds. -/
abbrev Scan := EStateM Error Octets

namespace Scan

/-- The next `n` octets. -/
def fixed (n : Nat) : Scan (Fixed n) := fun octets =>
  if enough : (octets.take n).length = n then .ok ⟨octets.take n, enough⟩ (octets.drop n)
  else .error .invalidLength octets

/-- The next `n` octets, as a plain string. -/
def take (n : Nat) : Scan Octets := return (← fixed n).val

/-- The number in the next `width` octets. -/
def number (width : Nat) : Scan Nat := return Octets.value (← take width)

/-- The next octet. -/
def octet : Scan UInt8 := return UInt8.ofNat (← number 1)

/-- The number in the next two octets. -/
def word : Scan UInt16 := return UInt16.ofNat (← number 2)

/-- A string that has its length in front, in `width` octets. -/
def sized (width : Nat) : Scan Octets := do take (← number width)

/-- How many octets are left. -/
def remaining : Scan Nat := return (← get).length

/-- Whether no octet is left. -/
def atEnd : Scan Bool := return (← get).isEmpty

/-- Fails unless every octet has been consumed. -/
def finish : Scan Unit := do unless ← atEnd do throw .trailingBytes

/-- Reads a whole octet string: what `scan` leaves behind is an error. -/
def whole {α : Type} (scan : Scan α) (octets : Octets) : Except Error α :=
  match (do let value ← scan; finish; return value : Scan α) octets with
  | .ok value _ => .ok value
  | .error error _ => .error error

/-- Reads from the front of an octet string and leaves the rest alone. -/
def front {α : Type} (scan : Scan α) (octets : Octets) : Except Error (α × Octets) :=
  match scan octets with
  | .ok value rest => .ok (value, rest)
  | .error error _ => .error error

/-- A string that has its length in front and holds exactly what `scan` reads. -/
def nested {α : Type} (width : Nat) (scan : Scan α) : Scan α := do
  match whole scan (← sized width) with
  | .ok value => return value
  | .error error => throw error

end Scan

end TransportSecurity
