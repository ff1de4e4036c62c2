import TransportSecurity.BlockCipher.Aes.Substitution

/-!
The sixteen octets that AES works on, as four columns of four, and the steps of a round on them.

Each step has its inverse beside it. `unmix_mix` is the heart of it: mixing a column multiplies it
by a polynomial over the field of 256 elements, and unmixing by the polynomial's inverse, which
comes down to `double` being linear.
-/

namespace TransportSecurity.Aes

/-- Four octets. -/
structure Column where
  (a b c d : UInt8)
  deriving DecidableEq, Repr

/-- Sixteen octets, column by column. -/
structure Block where
  (first second third fourth : Column)
  deriving DecidableEq, Repr

/-- The octets in a block. -/
def blockLength : Nat := 16

/-- Doubles an octet as a polynomial, reduced by x⁸ + x⁴ + x³ + x + 1. -/
def double (octet : UInt8) : UInt8 :=
  octet <<< 1 ^^^ if octet &&& 0x80 = 0 then 0 else 0x1b

namespace Column

/-- The sum of two columns. -/
def add (x y : Column) : Column := ⟨x.a ^^^ y.a, x.b ^^^ y.b, x.c ^^^ y.c, x.d ^^^ y.d⟩

/-- Applies a function to each octet. -/
def map (f : UInt8 → UInt8) (x : Column) : Column := ⟨f x.a, f x.b, f x.c, f x.d⟩

/-- Moves each octet one place up, the top one to the bottom. -/
def rotate (x : Column) : Column := ⟨x.b, x.c, x.d, x.a⟩

/-- Twice `p`, three times `q`, and `r` and `s` once. -/
def mixed (p q r s : UInt8) : UInt8 := double p ^^^ (double q ^^^ q) ^^^ r ^^^ s

/-- Multiplies a column by 3x³ + x² + x + 2. -/
def mix (x : Column) : Column :=
  ⟨mixed x.a x.b x.c x.d, mixed x.b x.c x.d x.a, mixed x.c x.d x.a x.b, mixed x.d x.a x.b x.c⟩

/-- Fourteen times `p`, eleven times `q`, thirteen times `r` and nine times `s`. -/
def unmixed (p q r s : UInt8) : UInt8 :=
  double (double (double (p ^^^ q ^^^ r ^^^ s) ^^^ (p ^^^ r)) ^^^ (p ^^^ q)) ^^^ (q ^^^ r ^^^ s)

/-- Multiplies a column by 11x³ + 13x² + 9x + 14, which undoes `mix`. -/
def unmix (x : Column) : Column :=
  ⟨unmixed x.a x.b x.c x.d, unmixed x.b x.c x.d x.a, unmixed x.c x.d x.a x.b,
    unmixed x.d x.a x.b x.c⟩

/-- The octets of a column. -/
def octets (x : Column) : Octets := [x.a, x.b, x.c, x.d]

end Column

namespace Block

/-- Applies a function to each column. -/
def map (f : Column → Column) (x : Block) : Block :=
  ⟨f x.first, f x.second, f x.third, f x.fourth⟩

/-- The sum of two blocks. -/
def add (x y : Block) : Block :=
  ⟨x.first.add y.first, x.second.add y.second, x.third.add y.third, x.fourth.add y.fourth⟩

/-- Replaces every octet. -/
def substitute (x : Block) : Block := x.map (Column.map Aes.substitute)

/-- Undoes `substitute`. -/
def restore (x : Block) : Block := x.map (Column.map Aes.restore)

/-- Turns row number `i` left by `i` places. -/
def shift (x : Block) : Block :=
  ⟨⟨x.first.a, x.second.b, x.third.c, x.fourth.d⟩, ⟨x.second.a, x.third.b, x.fourth.c, x.first.d⟩,
    ⟨x.third.a, x.fourth.b, x.first.c, x.second.d⟩, ⟨x.fourth.a, x.first.b, x.second.c, x.third.d⟩⟩

/-- Undoes `shift`. -/
def unshift (x : Block) : Block :=
  ⟨⟨x.first.a, x.fourth.b, x.third.c, x.second.d⟩, ⟨x.second.a, x.first.b, x.fourth.c, x.third.d⟩,
    ⟨x.third.a, x.second.b, x.first.c, x.fourth.d⟩, ⟨x.fourth.a, x.third.b, x.second.c, x.first.d⟩⟩

/-- The block of a string of sixteen octets. -/
def ofOctets : Octets → Block
  | [a, b, c, d, e, f, g, h, i, j, k, l, m, n, o, p] =>
    ⟨⟨a, b, c, d⟩, ⟨e, f, g, h⟩, ⟨i, j, k, l⟩, ⟨m, n, o, p⟩⟩
  | _ => ⟨⟨0, 0, 0, 0⟩, ⟨0, 0, 0, 0⟩, ⟨0, 0, 0, 0⟩, ⟨0, 0, 0, 0⟩⟩

/-- The octets of a block. -/
def octets (x : Block) : Octets :=
  x.first.octets ++ x.second.octets ++ x.third.octets ++ x.fourth.octets

end Block

theorem xor_swap (p q r : UInt8) : p ^^^ (q ^^^ r) = q ^^^ (p ^^^ r) := by
  rw [← UInt8.xor_assoc, UInt8.xor_comm p q, UInt8.xor_assoc]

theorem xor_cancel (p q : UInt8) : p ^^^ (p ^^^ q) = q := by
  rw [← UInt8.xor_assoc, UInt8.xor_self, UInt8.zero_xor]

theorem top_bit (p : UInt8) : p &&& 0x80 = 0 ∨ p &&& 0x80 = 0x80 := by
  have all : ∀ n : Fin 256, UInt8.ofFin n &&& 0x80 = 0 ∨ UInt8.ofFin n &&& 0x80 = 0x80 := by
    decide +kernel
  exact all p.toFin

theorem double_xor (p q : UInt8) : double (p ^^^ q) = double p ^^^ double q := by
  have split : (p ^^^ q) &&& 0x80 = (p &&& 0x80) ^^^ (q &&& 0x80) := by
    apply UInt8.toBitVec_inj.1
    ext i _
    simp [Bool.and_xor_distrib_right]
  have moved : (p ^^^ q) <<< 1 = p <<< 1 ^^^ q <<< 1 := by
    apply UInt8.toBitVec_inj.1
    simp [BitVec.shiftLeft_xor_distrib]
  unfold double
  rw [split, moved]
  rcases top_bit p with hp | hp <;> rcases top_bit q with hq | hq <;>
    simp [hp, hq, UInt8.xor_assoc, UInt8.xor_comm, xor_swap]

theorem unmixed_mixed (p q r s : UInt8) :
    Column.unmixed (Column.mixed p q r s) (Column.mixed q r s p) (Column.mixed r s p q)
      (Column.mixed s p q r) = p := by
  simp only [Column.unmixed, Column.mixed, double_xor]
  simp only [UInt8.xor_assoc, UInt8.xor_comm, xor_swap, xor_cancel, UInt8.xor_self,
    UInt8.xor_zero, UInt8.zero_xor]

theorem Column.unmix_mix (x : Column) : x.mix.unmix = x := by
  simp only [mix, unmix, unmixed_mixed]

theorem Block.unshift_shift (x : Block) : x.shift.unshift = x := rfl

theorem Block.restore_substitute (x : Block) : x.substitute.restore = x := by
  simp [restore, substitute, map, Column.map, Aes.restore_substitute]

theorem Block.ofOctets_octets (x : Block) : ofOctets x.octets = x := rfl

theorem Block.length_octets (x : Block) : x.octets.length = blockLength := rfl

theorem Block.octets_ofOctets {octets : Octets} (whole : octets.length = blockLength) :
    (ofOctets octets).octets = octets := by
  match octets, whole with
  | [_, _, _, _, _, _, _, _, _, _, _, _, _, _, _, _], _ => rfl

end TransportSecurity.Aes
