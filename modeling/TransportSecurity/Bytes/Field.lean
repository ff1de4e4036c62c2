import TransportSecurity.Bytes.Basic
import TransportSecurity.Error

/-!
Writing fields: numbers of a fixed width and strings with their length in front.

A one- or two-octet length simply drops what does not fit, so their writers are total. A length of
three octets is never cut: a body too long for it is `Error.fieldOverflow`.
-/

namespace TransportSecurity.Field

/-- A number in two octets. -/
def word (n : UInt16) : Octets := Octets.bigEndian 2 n.toNat

/-- A number in three octets. -/
def triple (n : Nat) : Except Error Octets :=
  if n < 2 ^ 24 then .ok (Octets.bigEndian 3 n) else .error (.fieldOverflow n)

/-- A string with its length in front, in one octet. -/
def sized8 (body : Octets) : Octets := Octets.bigEndian 1 body.length ++ body

/-- A string with its length in front, in two octets. -/
def sized16 (body : Octets) : Octets := Octets.bigEndian 2 body.length ++ body

/-- A string with its length in front, in three octets. -/
def sized24 (body : Octets) : Except Error Octets := return (← triple body.length) ++ body

end TransportSecurity.Field
