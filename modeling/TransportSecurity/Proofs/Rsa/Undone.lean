import Mathlib.FieldTheory.Finite.Basic
import Mathlib.NumberTheory.LucasPrimality
import TransportSecurity.Proofs.Session.Means

/-!
Decryption undoes encryption.

If the factors of a private key are two primes, then raising to its exponents undoes raising to the
public one: under each prime by Fermat, and so under the modulus (`PrivateKey.root_powMod`). Blinding
changes nothing about that (`PrivateKey.blindRoot_powMod`) and padding is found again, so what was
encrypted is decrypted (`decrypt?_encrypt`).
-/

namespace TransportSecurity.Rsa

/-- An exponent that is one more than a multiple of what is one less than a prime does nothing. -/
theorem pow_mod_of_prime {p exponent : Nat} (prime : p.Prime) (one : exponent % (p - 1) = 1)
    (m : Nat) : m ^ exponent % p = m % p := by
  have split : exponent = 1 + (p - 1) * (exponent / (p - 1)) := by
    have parts := Nat.mod_add_div exponent (p - 1)
    rw [one] at parts
    exact parts.symm
  have : Fact p.Prime := ⟨prime⟩
  have positive : 1 + (p - 1) = p := by
    have := prime.two_le
    omega
  have cancels : ∀ k, (m : ZMod p) ^ (1 + (p - 1) * k) = m := by
    intro k
    induction k with
    | zero => rw [Nat.mul_zero, Nat.add_zero, pow_one]
    | succ k ih =>
      have next : 1 + (p - 1) * (k + 1) = p + (p - 1) * k := by
        rw [Nat.mul_succ]
        omega
      rw [next, pow_add, ZMod.pow_card]
      rw [pow_add, pow_one] at ih
      exact ih
  refine (ZMod.natCast_eq_natCast_iff' ..).mp ?_
  rw [Nat.cast_pow, split]
  exact cancels _

/-- A number that is one more than a prime times a power of two is prime if some number has the order
of what is one less than it. -/
theorem prime_of_powMod {p r k : Nat} (a : Nat) (prime : r.Prime) (split : p = r * 2 ^ k + 1)
    (whole : powMod a (p - 1) p = 1) (half : powMod a ((p - 1) / 2) p ≠ 1)
    (part : powMod a ((p - 1) / r) p ≠ 1) : p.Prime := by
  have large : 1 < p := by
    have := Nat.mul_pos prime.pos (Nat.two_pow_pos k)
    omega
  have same (n : Nat) : powMod a n p = 1 ↔ (a : ZMod p) ^ n = (1 : Nat) := by
    rw [powMod_eq, ← Nat.cast_pow, ZMod.natCast_eq_natCast_iff',
      Nat.mod_eq_of_lt large]
  rw [Nat.cast_one] at same
  refine lucas_primality p a ((same _).mp whole) fun l isPrime divides => ?_
  rw [split, Nat.add_sub_cancel] at divides
  rcases isPrime.dvd_mul.mp divides with divides | divides
  · rw [(Nat.prime_dvd_prime_iff_eq isPrime prime).mp divides]
    exact mt (same _).mpr part
  · rw [(Nat.prime_dvd_prime_iff_eq isPrime Nat.prime_two).mp (isPrime.dvd_of_dvd_pow divides)]
    exact mt (same _).mpr half

/-- The joined number is below the product of the moduli. -/
theorem join_lt {p q : Nat} (a b : Nat) (hp : 0 < p) (hq : 0 < q) : join p q a b < p * q := by
  refine Int.ofNat_lt.mp ?_
  rw [join_eq a b hp hq]
  exact Int.emod_lt_of_pos _ (Int.natCast_pos.mpr (Nat.mul_pos hp hq))

/-- What blinds can be divided by. -/
theorem PublicKey.gcd_blind (key : PublicKey) (offered : Nat) :
    Nat.gcd (key.blind offered) key.modulus = 1 := by
  rw [blind]
  split
  · assumption
  · exact Nat.gcd_one_left _

namespace PrivateKey

/-- A private key whose parts belong together, with two primes for factors. -/
structure Proper (key : PrivateKey) : Prop where
  together : key.belongsTogether
  first : key.firstFactor.Prime
  second : key.secondFactor.Prime
  distinct : key.firstFactor ≠ key.secondFactor

variable {key : PrivateKey}

theorem Proper.modulus (proper : key.Proper) :
    key.firstFactor * key.secondFactor = key.publicKey.modulus := by
  have together := proper.together
  simp only [belongsTogether, Bool.and_eq_true, decide_eq_true_eq] at together
  exact together.1.1.2

theorem Proper.firstExponent (proper : key.Proper) :
    key.publicKey.exponent * key.exponent % (key.firstFactor - 1) = 1 := by
  have together := proper.together
  simp only [belongsTogether, Bool.and_eq_true, decide_eq_true_eq] at together
  exact together.1.2

theorem Proper.secondExponent (proper : key.Proper) :
    key.publicKey.exponent * key.exponent % (key.secondFactor - 1) = 1 := by
  have together := proper.together
  simp only [belongsTogether, Bool.and_eq_true, decide_eq_true_eq] at together
  exact together.2

theorem Proper.coprime (proper : key.Proper) : key.firstFactor.Coprime key.secondFactor :=
  (Nat.coprime_primes proper.first proper.second).mpr proper.distinct

/-- Under a prime factor, what an exponent leaves for that factor undoes the public exponent. -/
theorem undone_under {p e d modulus : Nat} (prime : p.Prime) (factor : p ∣ modulus)
    (one : e * d % (p - 1) = 1) (m : Nat) :
    (m ^ e % modulus) ^ (d % (p - 1)) % p = m % p := by
  rw [Nat.pow_mod, Nat.mod_mod_of_dvd _ factor, ← Nat.pow_mod, ← Nat.pow_mul]
  refine pow_mod_of_prime prime ?_ m
  rw [Nat.mul_mod, Nat.mod_mod, ← Nat.mul_mod, one]

/-- The root of a number is below the modulus. -/
theorem root_lt (proper : key.Proper) (c : Nat) : key.root c < key.publicKey.modulus := by
  simp only [root, proper.coprime.gcd_eq_one, if_true, ← proper.modulus]
  exact join_lt _ _ proper.first.pos proper.second.pos

/-- What the public exponent does is undone. -/
theorem root_powMod (proper : key.Proper) (m : Nat) :
    key.root (powMod m key.publicKey.exponent key.publicKey.modulus) =
      m % key.publicKey.modulus := by
  have coprime := proper.coprime
  have first : key.root (powMod m key.publicKey.exponent key.publicKey.modulus) ≡ m
      [MOD key.firstFactor] := by
    rw [Nat.ModEq, root_mod_firstFactor _ _ proper.first.pos proper.second.pos coprime, powMod_eq]
    exact undone_under proper.first (Dvd.intro _ proper.modulus) proper.firstExponent m
  have second : key.root (powMod m key.publicKey.exponent key.publicKey.modulus) ≡ m
      [MOD key.secondFactor] := by
    rw [Nat.ModEq, root_mod_secondFactor _ _ proper.first.pos proper.second.pos coprime, powMod_eq]
    exact undone_under proper.second (Dvd.intro_left _ proper.modulus) proper.secondExponent m
  have both := (Nat.modEq_and_modEq_iff_modEq_mul coprime).mp ⟨first, second⟩
  rw [proper.modulus, Nat.ModEq, Nat.mod_eq_of_lt (root_lt proper _)] at both
  exact both

/-- What the public exponent does is undone, whatever number blinds. -/
theorem blindRoot_powMod (proper : key.Proper) (offered m : Nat) :
    key.blindRoot (key.publicKey.blind offered)
      (powMod m key.publicKey.exponent key.publicKey.modulus) = m % key.publicKey.modulus := by
  have positive : 0 < key.publicKey.modulus := by
    rw [← proper.modulus]
    exact Nat.mul_pos proper.first.pos proper.second.pos
  generalize whole : key.publicKey.blind offered = blind
  have inverts := mul_inverse_mod positive (whole ▸ key.publicKey.gcd_blind offered)
  -- the hidden number is the encrypted product
  have hidden : powMod m key.publicKey.exponent key.publicKey.modulus *
      powMod blind key.publicKey.exponent key.publicKey.modulus % key.publicKey.modulus =
        powMod (m * blind) key.publicKey.exponent key.publicKey.modulus := by
    simp only [powMod_eq, ← Nat.mul_mod, Nat.mul_pow]
  calc key.blindRoot blind (powMod m key.publicKey.exponent key.publicKey.modulus)
      = m * blind % key.publicKey.modulus * inverse blind key.publicKey.modulus %
          key.publicKey.modulus := by rw [blindRoot, hidden, root_powMod proper]
    _ = m * (blind * inverse blind key.publicKey.modulus % key.publicKey.modulus) %
          key.publicKey.modulus := by rw [Nat.mod_mul_mod, Nat.mul_assoc, Nat.mul_mod_mod]
    _ = m % key.publicKey.modulus := by rw [inverts, Nat.mul_mod_mod, Nat.mul_one]

end PrivateKey

/-- A number below the modulus fits into as many octets as the modulus has. -/
theorem PublicKey.modulus_lt (key : PublicKey) : key.modulus < 256 ^ key.size := by
  have below := Nat.lt_log2_self (n := key.modulus)
  have bits : key.modulus.log2 + 1 ≤ 8 * key.size := by
    rw [size]
    omega
  calc key.modulus < 2 ^ (key.modulus.log2 + 1) := below
    _ ≤ 2 ^ (8 * key.size) := Nat.pow_le_pow_right (by decide) bits
    _ = 256 ^ key.size := by rw [Nat.pow_mul]

/-- A number that needs an octet less than the modulus is below it. -/
theorem PublicKey.lt_modulus (key : PublicKey) {n : Nat} (some : 0 < key.modulus)
    (fits : n < 256 ^ (key.size - 1)) : n < key.modulus := by
  have above := Nat.log2_self_le (Nat.ne_of_gt some)
  have bits : 8 * (key.size - 1) ≤ key.modulus.log2 := by
    rw [size]
    omega
  calc n < 256 ^ (key.size - 1) := fits
    _ = 2 ^ (8 * (key.size - 1)) := by rw [Nat.pow_mul]
    _ ≤ 2 ^ key.modulus.log2 := Nat.pow_le_pow_right (by decide) bits
    _ ≤ key.modulus := above

section Encryption

variable {G : Type} [Entropy G] {source : G}

/-- Filling leaves as many octets, and none of them is zero. -/
theorem fillZeros_spec (octets : Octets) (source : G) :
    (fillZeros octets source).1.length = octets.length ∧
      ∀ octet ∈ (fillZeros octets source).1, octet ≠ 0 := by
  induction octets generalizing source with
  | nil => exact ⟨rfl, by simp [fillZeros]⟩
  | cons octet octets ih =>
    by_cases zero : octet = 0
    · obtain ⟨length, nonzero⟩ := ih (Entropy.drawNonzero source).2
      simp only [fillZeros, zero, if_true, List.length_cons, length, List.forall_mem_cons]
      exact ⟨trivial, Entropy.drawNonzero_ne_zero source, nonzero⟩
    · obtain ⟨length, nonzero⟩ := ih source
      simp only [fillZeros, zero, if_false, List.length_cons, length, List.forall_mem_cons]
      exact ⟨trivial, zero, nonzero⟩

/-- What was encrypted is decrypted. -/
theorem decrypt?_encrypt {key : PrivateKey} {message encrypted : Octets} {next : G}
    (proper : key.Proper) (offered : Nat)
    (encrypts : encrypt key.publicKey message source = .ok encrypted next) :
    decrypt? key offered encrypted = some message := by
  obtain ⟨room, drawn, between, filler, draws, fills, rfl⟩ := encrypt_eq_ok.mp encrypts
  rw [minPadding] at room
  have length : filler.length = key.publicKey.size - 3 - message.length := by
    have spec := (fillZeros_spec drawn.val between).1
    rw [fills, drawn.property] at spec
    exact spec
  have nonzero : ∀ octet ∈ filler, octet ≠ 0 := by
    have spec := (fillZeros_spec drawn.val between).2
    rw [fills] at spec
    exact spec
  have padded : (pad filler message).length = key.publicKey.size := by
    simp only [pad, List.length_cons, List.length_append, length]
    omega
  have positive : 0 < key.publicKey.modulus := by
    rw [← proper.modulus]
    exact Nat.mul_pos proper.first.pos proper.second.pos
  have small : Octets.value (pad filler message) < key.publicKey.modulus := by
    refine key.publicKey.lt_modulus positive ?_
    have rest := Octets.value_lt (2 :: (filler ++ 0 :: message))
    rwa [← padded, pad, List.length_cons, Nat.add_sub_cancel]
  have undone := PrivateKey.blindRoot_powMod proper offered (Octets.value (pad filler message))
  have below : powMod (Octets.value (pad filler message)) key.publicKey.exponent
      key.publicKey.modulus < key.publicKey.modulus := by
    rw [powMod_eq]
    exact Nat.mod_lt _ positive
  have written := Octets.value_bigEndian_of_lt (Nat.lt_trans below key.publicKey.modulus_lt)
  rw [Nat.mod_eq_of_lt small] at undone
  simp only [decrypt?, written, undone]
  rw [if_pos ⟨below, by rw [minPadding]; omega⟩, if_pos trivial, ← padded, Octets.bigEndian_value]
  exact unpad?_pad (by omega) nonzero

end Encryption

end TransportSecurity.Rsa
