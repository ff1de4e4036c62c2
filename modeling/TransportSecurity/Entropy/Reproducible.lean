import TransportSecurity.Entropy.Basic

/-!
A reproducible source, for rehearsing a handshake: octets given beforehand, then the top octets of a
linear congruential sequence.

That the sequence never stays below 2⁵⁶ is a matter of thirteen terms (`exists_large`). Differences
of neighbouring terms are multiplied by the same factor from term to term, and the first is odd; the
integer combination of twelve of them in the proof would be half the modulus, while terms below 2⁵⁶
leave it smaller than that.
-/

namespace TransportSecurity

/-- A reproducible source: the octets it still delivers first, the state of the sequence after
them, how much has been drawn and how much may be. -/
structure Reproducible where
  upfront : Octets
  state : UInt64
  drawn : Nat
  limit : Option Nat

namespace Reproducible

/-- The source that starts at a seed. -/
def ofSeed (seed : UInt64) (upfront : Octets) (limit : Option Nat) : Reproducible :=
  ⟨upfront, seed, 0, limit⟩

/-- The state after a state. -/
def advance (state : UInt64) : UInt64 := state * 6364136223846793005 + 1442695040888963407

/-- The next octet. -/
def next (source : Reproducible) : UInt8 × Reproducible :=
  match source.upfront with
  | octet :: rest => (octet, { source with upfront := rest, drawn := source.drawn + 1 })
  | [] =>
    let state := advance source.state
    ((state >>> 56).toUInt8, { source with state, drawn := source.drawn + 1 })

/-- The next `n` octets. -/
def draw : (n : Nat) → Reproducible → Fixed n × Reproducible
  | 0, source => (⟨[], rfl⟩, source)
  | n + 1, source =>
    let (octet, after) := source.next
    let (octets, last) := draw n after
    (⟨octet :: octets.val, by rw [List.length_cons, octets.property]⟩, last)

/-- Of thirteen terms in a row, one is not below 2⁵⁶. -/
theorem exists_large (x : Nat → Nat)
    (step : ∀ i, x (i + 1) = (x i * 6364136223846793005 + 1442695040888963407) % 2 ^ 64) :
    ∃ i, i < 13 ∧ 2 ^ 56 ≤ x i := by
  refine Classical.byContradiction fun none => ?_
  have small : ∀ i, i < 13 → x i < 2 ^ 56 := fun i hi =>
    Nat.lt_of_not_le fun large => none ⟨i, hi, large⟩
  obtain ⟨q, quotient⟩ : ∃ q : Nat → Nat, ∀ i, (x (i + 1) : Int) =
      x i * 6364136223846793005 + 1442695040888963407 - 2 ^ 64 * q i :=
    ⟨fun i => (x i * 6364136223846793005 + 1442695040888963407) / 2 ^ 64, fun i => by
      dsimp only; rw [step i]; omega⟩
  obtain ⟨s, sum⟩ : ∃ s : Int, s = -8 * ((x 1 : Int) - x 0) + 12 * ((x 2 : Int) - x 1) -
      5 * ((x 3 : Int) - x 2) + 14 * ((x 5 : Int) - x 4) - 5 * ((x 6 : Int) - x 5) +
      6 * ((x 7 : Int) - x 6) - 29 * ((x 8 : Int) - x 7) + 3 * ((x 9 : Int) - x 8) -
      ((x 10 : Int) - x 9) - 20 * ((x 11 : Int) - x 10) + ((x 12 : Int) - x 11) := ⟨_, rfl⟩
  have bound : -(104 * 2 ^ 56) < s ∧ s < 104 * 2 ^ 56 := by
    have := small 0; have := small 1; have := small 2; have := small 3; have := small 4
    have := small 5; have := small 6; have := small 7; have := small 8; have := small 9
    have := small 10; have := small 11; have := small 12
    omega
  have half : s % 2 ^ 64 = 2 ^ 63 := by
    have := quotient 0; have := quotient 1; have := quotient 2; have := quotient 3
    have := quotient 4; have := quotient 5; have := quotient 6; have := quotient 7
    have := quotient 8; have := quotient 9; have := quotient 10; have := quotient 11
    simp only [Nat.reduceAdd] at *
    omega
  omega

/-- The states that follow a state. -/
def orbit (state : UInt64) : Nat → UInt64
  | 0 => advance state
  | i + 1 => advance (orbit state i)

theorem orbit_advance (state : UInt64) (i : Nat) :
    orbit (advance state) i = orbit state (i + 1) := by
  induction i with
  | zero => rw [orbit, orbit, orbit]
  | succ i ih => exact congrArg advance ih

theorem toNat_advance (state : UInt64) : (advance state).toNat =
    (state.toNat * 6364136223846793005 + 1442695040888963407) % 2 ^ 64 := by
  rw [advance, UInt64.toNat_add, UInt64.toNat_mul, Nat.mod_add_mod]
  rfl

theorem exists_octet_ne_zero (state : UInt64) :
    ∃ i, i < 13 ∧ (orbit state i >>> 56).toUInt8 ≠ 0 := by
  obtain ⟨i, hi, large⟩ := exists_large (fun i => (orbit state i).toNat)
    fun i => toNat_advance (orbit state i)
  refine ⟨i, hi, fun zero => ?_⟩
  have value := congrArg UInt8.toNat zero
  have bound := (orbit state i).toNat_lt
  simp [Nat.shiftRight_eq_div_pow] at value
  omega

/-- What is left after a zero was drawn. -/
def AfterZero (next source : Reproducible) : Prop :=
  (draw 1 source).1.val = [0] ∧ (draw 1 source).2 = next

theorem acc_of_octet_ne_zero (i : Nat) (source : Reproducible) (upfront : source.upfront = [])
    (large : (orbit source.state i >>> 56).toUInt8 ≠ 0) : Acc AfterZero source := by
  induction i generalizing source with
  | zero =>
    refine ⟨_, fun next after => absurd ?_ large⟩
    simpa [draw, Reproducible.next, upfront, orbit] using after.1
  | succ i ih =>
    refine ⟨_, fun next after => ?_⟩
    rw [← after.2]
    apply ih
    · simp [draw, Reproducible.next, upfront]
    · simpa [draw, Reproducible.next, upfront, orbit_advance] using large

theorem acc_afterZero (octets : Octets) (source : Reproducible)
    (upfront : source.upfront = octets) : Acc AfterZero source := by
  induction octets generalizing source with
  | nil =>
    obtain ⟨i, _, large⟩ := exists_octet_ne_zero source.state
    exact acc_of_octet_ne_zero i source upfront large
  | cons octet rest ih =>
    refine ⟨_, fun next after => ?_⟩
    rw [← after.2]
    apply ih
    simp [draw, Reproducible.next, upfront]

instance : Entropy Reproducible where
  draw := draw
  draw? n source :=
    if source.limit.any (· < source.drawn + n) then (none, source)
    else
      let (octets, next) := draw n source
      (some octets, next)
  zeros_end := ⟨fun source => acc_afterZero _ source rfl⟩

end Reproducible

end TransportSecurity
