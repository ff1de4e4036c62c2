/-!
Octet strings and the numbers they spell.

Everything the protocol sends or hashes is a list of octets. Numbers are written most significant
octet first in a fixed width; `value_bigEndian` and `bigEndian_value` say that writing and reading
are inverse on the numbers that fit, and `bigEndian_inj` that two such numbers never share a text.
-/

-- Powers of numbers are those of the core library in every module, also where a module imports
-- another library that has its own.
attribute [instance (high), default_instance (high + 1)] instPowNat

namespace TransportSecurity

/-- A string of octets. -/
abbrev Octets := List UInt8

/-- An octet string of a length known in advance. -/
abbrev Fixed (n : Nat) := { octets : Octets // octets.length = n }

namespace Octets

/-- The number spelled by octets, most significant first. -/
def value (octets : Octets) : Nat := octets.foldl (fun n octet => n * 256 + octet.toNat) 0

/-- The `width` low octets of `n`, most significant first; what does not fit is dropped. -/
def bigEndian : Nat → Nat → Octets
  | 0, _ => []
  | width + 1, n => bigEndian width (n / 256) ++ [UInt8.ofNat n]

/-- Two octet strings combined place by place, as long as the shorter one. -/
def xor (a b : Octets) : Octets := List.zipWith (· ^^^ ·) a b

/-- Whether two strings hold the same octets; strings of different lengths never do. All places are
compared, also those behind the first in which the strings differ. -/
def same (a b : Octets) : Bool := decide (a.length = b.length) && (a.xor b).all (· = 0)

@[simp] theorem length_bigEndian (width n : Nat) : (bigEndian width n).length = width := by
  induction width generalizing n with
  | zero => rfl
  | succ width ih => simp [bigEndian, ih]

@[simp] theorem value_nil : value [] = 0 := rfl

@[simp] theorem value_concat (front : Octets) (last : UInt8) :
    value (front ++ [last]) = value front * 256 + last.toNat := by
  simp [value, List.foldl_append]

theorem value_bigEndian (width n : Nat) : value (bigEndian width n) = n % 256 ^ width := by
  induction width generalizing n with
  | zero => simp [bigEndian, Nat.mod_one]
  | succ width ih =>
    have last : (UInt8.ofNat n).toNat = n % 256 := by simp
    rw [bigEndian, value_concat, ih, last, Nat.pow_succ', Nat.mod_mul]
    omega

theorem value_bigEndian_of_lt {width n : Nat} (fits : n < 256 ^ width) :
    value (bigEndian width n) = n := by
  rw [value_bigEndian, Nat.mod_eq_of_lt fits]

theorem bigEndian_inj {width m n : Nat} (hm : m < 256 ^ width) (hn : n < 256 ^ width)
    (same : bigEndian width m = bigEndian width n) : m = n := by
  have := congrArg value same
  rwa [value_bigEndian_of_lt hm, value_bigEndian_of_lt hn] at this

theorem bigEndian_value_reverse (tail : Octets) :
    bigEndian tail.length (value tail.reverse) = tail.reverse := by
  induction tail with
  | nil => rfl
  | cons last tail ih =>
    have low : last.toNat < 256 := last.toNat_lt
    have high : (value tail.reverse * 256 + last.toNat) / 256 = value tail.reverse := by omega
    have octet : UInt8.ofNat (value tail.reverse * 256 + last.toNat) = last := by
      apply UInt8.toNat_inj.1
      simp only [UInt8.toNat_ofNat']
      omega
    rw [List.reverse_cons, value_concat, List.length_cons, bigEndian, high, octet, ih]

/-- Writing the number that octets spell, in their own length, gives the octets back. -/
theorem bigEndian_value (octets : Octets) : bigEndian octets.length (value octets) = octets := by
  have h := bigEndian_value_reverse octets.reverse
  simpa using h

theorem value_lt (octets : Octets) : value octets < 256 ^ octets.length := by
  have h := value_bigEndian octets.length (value octets)
  rw [bigEndian_value] at h
  rw [h]
  exact Nat.mod_lt _ (Nat.pow_pos (by decide))

theorem same_iff {a b : Octets} : same a b = true ↔ a = b := by
  induction a generalizing b with
  | nil => cases b <;> simp [same, xor]
  | cons octet rest ih =>
    cases b with
    | nil => simp [same]
    | cons other others =>
      simp only [same, xor, Bool.and_eq_true, decide_eq_true_eq] at ih
      simp only [same, xor, List.zipWith_cons_cons, List.all_cons, List.length_cons,
        Nat.add_right_cancel_iff, Bool.and_eq_true, decide_eq_true_eq, UInt8.xor_eq_zero_iff,
        List.cons.injEq, ← ih]
      exact and_left_comm

end Octets

end TransportSecurity
