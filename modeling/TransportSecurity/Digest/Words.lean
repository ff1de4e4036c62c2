import TransportSecurity.Bytes.Basic

/-!
The 32-bit words that digests compute with.
-/

namespace TransportSecurity.Words

/-- The words spelled by octets, four octets each. -/
def ofOctets : Octets → List UInt32
  | a :: b :: c :: d :: rest =>
    (a.toUInt32 <<< 24 ||| b.toUInt32 <<< 16 ||| c.toUInt32 <<< 8 ||| d.toUInt32) :: ofOctets rest
  | _ => []

/-- The four octets of a word. -/
def octets (word : UInt32) : Octets :=
  [(word >>> 24).toUInt8, (word >>> 16).toUInt8, (word >>> 8).toUInt8, word.toUInt8]

/-- A word turned left by `n` places, for `n` between 1 and 31. -/
def turnLeft (word n : UInt32) : UInt32 := word <<< n ||| word >>> (32 - n)

/-- A word turned right by `n` places, for `n` between 1 and 31. -/
def turnRight (word n : UInt32) : UInt32 := word >>> n ||| word <<< (32 - n)

/-- Each place from `b` where `a` has a one, and from `c` where it has a zero. -/
def choice (a b c : UInt32) : UInt32 := (a &&& b) ^^^ (~~~a &&& c)

/-- Each place as the majority of the three words has it. -/
def majority (a b c : UInt32) : UInt32 := (a &&& b) ^^^ (a &&& c) ^^^ (b &&& c)

/-- The sum of the places, without carry. -/
def parity (a b c : UInt32) : UInt32 := a ^^^ b ^^^ c

/-- Goes on from sixteen words for `n` more: each new word is `next` of the sixteen before it. -/
def expand (next : List UInt32 → UInt32) : Nat → List UInt32 → List UInt32
  | 0, window => window
  | _ + 1, [] => []
  | n + 1, first :: rest => first :: expand next n (rest ++ [next (first :: rest)])

end TransportSecurity.Words
