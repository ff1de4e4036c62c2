import TransportSecurity.Bytes.Basic

/-!
The two notations for moments in certificates.

A moment counts as written if its digits are in place and name a day and time that exist. What the
moment is does not matter here: no certificate is refused for its age.
-/

namespace TransportSecurity.Certificate.Time

/-- The value of two decimal digits. -/
def twoDigits (a b : UInt8) : Option Nat :=
  if 0x30 ≤ a ∧ a ≤ 0x39 ∧ 0x30 ≤ b ∧ b ≤ 0x39 then
    some ((a.toNat - 0x30) * 10 + (b.toNat - 0x30))
  else none

/-- Whether an octet is a decimal digit. -/
def isDigit (octet : UInt8) : Bool := 0x30 ≤ octet && octet ≤ 0x39

/-- The days of a month. -/
def daysIn (year month : Nat) : Nat :=
  if month = 2 then
    if year % 4 = 0 ∧ (year % 100 ≠ 0 ∨ year % 400 = 0) then 29 else 28
  else if month = 4 ∨ month = 6 ∨ month = 9 ∨ month = 11 then 30
  else 31

/-- Whether a day exists. -/
def dayExists (year month day : Nat) : Bool :=
  1 ≤ month && month ≤ 12 && 1 ≤ day && day ≤ daysIn year month

/-- Whether a date and a time of day exist. -/
def momentExists (year month day hour minute second : Nat) : Bool :=
  dayExists year month day && hour ≤ 23 && minute ≤ 59 && second ≤ 59

/-- Whether a zone is written as `Z` or as a difference in hours, of which there may be 25, and
minutes. -/
def zoneExists : Octets → Bool
  | [0x5a] => true
  | [sign, a, b, c, d] =>
    (sign = 0x2b || sign = 0x2d) && (twoDigits a b).any (· ≤ 25) && (twoDigits c d).any (· ≤ 59)
  | _ => false

/-- The seconds and what follows them; they may be missing only before a single octet. -/
def seconds : Octets → Option (Nat × Octets)
  | [] => none
  | [zone] => some (0, [zone])
  | a :: b :: zone => (twoDigits a b).map (·, zone)

/-- Whether octets are `Z`, with or without a fraction of at most three digits before it. -/
def fractionAndZone : Octets → Bool
  | [] => false
  | mark :: rest =>
    let digits := (rest.takeWhile isDigit).length
    (mark = 0x5a && rest = []) || (mark = 0x2e && digits ≤ 3 && rest.drop digits = [0x5a])

/-- Whether octets write a moment with a two-digit year, which lies between 1950 and 2049. -/
def isShort (octets : Octets) : Bool :=
  match octets with
  | y1 :: y2 :: m1 :: m2 :: d1 :: d2 :: h1 :: h2 :: i1 :: i2 :: rest =>
    Option.isSome do
      let year ← twoDigits y1 y2
      let month ← twoDigits m1 m2
      let day ← twoDigits d1 d2
      let hour ← twoDigits h1 h2
      let minute ← twoDigits i1 i2
      let (second, zone) ← seconds rest
      let year := if 50 ≤ year then 1900 + year else 2000 + year
      guard (momentExists year month day hour minute second && zoneExists zone)
  | _ => false

/-- Whether octets write a moment with a four-digit year, in universal time. -/
def isLong (octets : Octets) : Bool :=
  match octets with
  | y1 :: y2 :: y3 :: y4 :: m1 :: m2 :: d1 :: d2 :: h1 :: h2 :: i1 :: i2 :: rest =>
    Option.isSome do
      let century ← twoDigits y1 y2
      let year ← twoDigits y3 y4
      let month ← twoDigits m1 m2
      let day ← twoDigits d1 d2
      let hour ← twoDigits h1 h2
      let minute ← twoDigits i1 i2
      let (second, zone) ← seconds rest
      guard (momentExists (century * 100 + year) month day hour minute second && fractionAndZone zone)
  | _ => false

end TransportSecurity.Certificate.Time
