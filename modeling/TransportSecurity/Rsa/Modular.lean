/-!
Arithmetic modulo a number: powers, inverses, and the number that leaves given remainders under two
moduli.

`powMod_eq` says what the fast power is and `mul_inverse_mod` what an inverse is; `join_mod_left` and
`join_mod_right` say that the joined number leaves both remainders if no number above one divides
both moduli.
-/

namespace TransportSecurity.Rsa

/-- `base ^ exponent % modulus`, by repeated squaring. -/
def powMod (base exponent modulus : Nat) : Nat :=
  if exponent = 0 then 1 % modulus
  else
    let half := powMod (base * base % modulus) (exponent / 2) modulus
    if exponent % 2 = 1 then base * half % modulus else half
termination_by exponent

theorem powMod_eq (base exponent modulus : Nat) :
    powMod base exponent modulus = base ^ exponent % modulus := by
  fun_induction powMod base exponent modulus with
  | case1 => simp
  | case2 base exponent nonzero half odd ih =>
    have split : exponent = exponent / 2 * 2 + 1 := by omega
    have square : base ^ exponent = base * (base * base) ^ (exponent / 2) := by
      conv => lhs; rw [split, Nat.pow_succ, Nat.mul_comm (exponent / 2) 2, Nat.pow_mul, Nat.pow_two]
      rw [Nat.mul_comm]
    have halfEq : half = (base * base) ^ (exponent / 2) % modulus := ih.trans (Nat.pow_mod ..).symm
    rw [square, halfEq, Nat.mul_mod_mod]
  | case3 base exponent nonzero half even ih =>
    have split : exponent = 2 * (exponent / 2) := by omega
    have square : base ^ exponent = (base * base) ^ (exponent / 2) := by
      conv => lhs; rw [split, Nat.pow_mul, Nat.pow_two]
    rw [square, Nat.pow_mod, ← ih]

/-- Two numbers whose products with `a` and `b` add up to the greatest common divisor. -/
def bezout (a b : Nat) : Int × Int :=
  if b = 0 then (1, 0)
  else
    let (x, y) := bezout b (a % b)
    (y, x - (a / b : Nat) * y)
termination_by b
decreasing_by exact Nat.mod_lt a (by omega)

theorem bezout_eq (a b : Nat) : a * (bezout a b).1 + b * (bezout a b).2 = Nat.gcd a b := by
  fun_induction bezout a b with
  | case1 a => simp
  | case2 a b nonzero x y found ih =>
    rw [found] at ih
    have division : (a : Int) = b * (a / b : Nat) + (a % b : Nat) := by
      exact_mod_cast (Nat.div_add_mod a b).symm
    have step : Nat.gcd a b = Nat.gcd b (a % b) := by
      rw [Nat.gcd_comm a b, Nat.gcd_rec b a, Nat.gcd_comm]
    rw [step, ← ih, division]
    simp only [Int.mul_sub, Int.add_mul, Int.mul_assoc]
    omega

/-- The number below a modulus that undoes multiplying by another, if no number above one divides
both. -/
def inverse (n modulus : Nat) : Nat := ((bezout n modulus).1 % modulus).toNat

theorem mul_inverse_mod {n modulus : Nat} (positive : 0 < modulus)
    (coprime : Nat.gcd n modulus = 1) : n * inverse n modulus % modulus = 1 % modulus := by
  have law := bezout_eq n modulus
  rw [coprime] at law
  have found : (inverse n modulus : Int) = (bezout n modulus).1 % modulus :=
    Int.toNat_of_nonneg (Int.emod_nonneg _ (Int.natCast_ne_zero.mpr (Nat.ne_of_gt positive)))
  have split : (n : Int) * (bezout n modulus).1 = 1 + modulus * -(bezout n modulus).2 := by
    have : ((1 : Nat) : Int) = 1 := rfl
    rw [Int.mul_neg]
    omega
  apply Int.ofNat_inj.mp
  rw [Int.natCast_emod, Int.natCast_mul, found, Int.mul_emod, Int.emod_emod, ← Int.mul_emod, split,
    Int.add_mul_emod_self_left]
  rfl

/-- The number below `p * q` that leaves the remainder of `a` under `p` and that of `b` under
`q`. -/
def join (p q a b : Nat) : Nat :=
  ((b + q * ((bezout q p).1 * (a - b)) : Int) % (p * q : Nat)).toNat

section Join

variable {p q : Nat} (a b : Nat)

theorem join_eq (hp : 0 < p) (hq : 0 < q) :
    (join p q a b : Int) = (b + q * ((bezout q p).1 * (a - b)) : Int) % (p * q : Nat) := by
  have positive : ((p * q : Nat) : Int) ≠ 0 := by
    have := Nat.mul_pos hp hq
    omega
  exact Int.toNat_of_nonneg (Int.emod_nonneg _ positive)

/-- The joined number leaves the first remainder. -/
theorem join_mod_left (hp : 0 < p) (hq : 0 < q) (coprime : Nat.gcd p q = 1) :
    join p q a b % p = a % p := by
  have law := bezout_eq q p
  rw [Nat.gcd_comm, coprime] at law
  have step : (b + q * ((bezout q p).1 * (a - b)) : Int) =
      a + p * (-(bezout q p).2 * (a - b)) := by
    have inverse : (q : Int) * (bezout q p).1 = 1 - p * (bezout q p).2 := by
      have : ((1 : Nat) : Int) = 1 := rfl
      omega
    rw [← Int.mul_assoc, inverse, Int.sub_mul, Int.one_mul, Int.neg_mul, Int.mul_neg, Int.mul_assoc]
    omega
  apply Int.ofNat_inj.mp
  rw [Int.natCast_emod, Int.natCast_emod, join_eq a b hp hq, step,
    Int.emod_emod_of_dvd _ (Int.natCast_dvd_natCast.mpr (Nat.dvd_mul_right p q)),
    Int.add_mul_emod_self_left]

/-- The joined number leaves the second remainder. -/
theorem join_mod_right (hp : 0 < p) (hq : 0 < q) : join p q a b % q = b % q := by
  apply Int.ofNat_inj.mp
  rw [Int.natCast_emod, Int.natCast_emod, join_eq a b hp hq,
    Int.emod_emod_of_dvd _ (Int.natCast_dvd_natCast.mpr (Nat.dvd_mul_left q p)),
    Int.add_mul_emod_self_left]

end Join

end TransportSecurity.Rsa
