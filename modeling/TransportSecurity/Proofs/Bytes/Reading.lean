import TransportSecurity.Bytes.Field
import TransportSecurity.Bytes.Scan
import TransportSecurity.Proofs.Success

/-!
Reading back what was written.

Each lemma says exactly on which octets a scan succeeds, with which value and which rest: on those
that the field's writer puts in front of the rest. So a message is read back field by field, and
whatever is read is what would be written.
-/

namespace TransportSecurity.Scan

variable {α : Type} {octets rest : Octets}

theorem fixed_eq_ok {n : Nat} {taken : Fixed n} :
    fixed n octets = .ok taken rest ↔ octets = taken.val ++ rest := by
  unfold fixed
  constructor
  · split
    · rintro ⟨⟩
      exact (List.take_append_drop ..).symm
    · rintro ⟨⟩
  · rintro rfl
    have front : (taken.val ++ rest).take n = taken.val := List.take_left' taken.property
    have back : (taken.val ++ rest).drop n = rest := List.drop_left' taken.property
    simp only [front, back, taken.property, dif_pos]

theorem take_eq_ok {n : Nat} {taken : Octets} :
    take n octets = .ok taken rest ↔ taken.length = n ∧ octets = taken ++ rest := by
  simp only [take, bind_eq_ok, fixed_eq_ok, pure_eq_ok]
  constructor
  · rintro ⟨taken, _, rfl, rfl, rfl⟩
    exact ⟨taken.property, rfl⟩
  · rintro ⟨length, rfl⟩
    exact ⟨⟨taken, length⟩, rest, rfl, rfl, rfl⟩

theorem number_eq_ok {width n : Nat} :
    number width octets = .ok n rest ↔
      n < 256 ^ width ∧ octets = Octets.bigEndian width n ++ rest := by
  simp only [number, bind_eq_ok, take_eq_ok, pure_eq_ok]
  constructor
  · rintro ⟨digits, _, ⟨rfl, rfl⟩, rfl, rfl⟩
    rw [Octets.bigEndian_value]
    exact ⟨Octets.value_lt digits, rfl⟩
  · rintro ⟨fits, rfl⟩
    exact ⟨_, rest, ⟨Octets.length_bigEndian .., rfl⟩, Octets.value_bigEndian_of_lt fits, rfl⟩

theorem octet_eq_ok {octet : UInt8} : Scan.octet octets = .ok octet rest ↔
    octets = octet :: rest := by
  simp only [Scan.octet, bind_eq_ok, number_eq_ok, pure_eq_ok]
  constructor
  · rintro ⟨n, _, ⟨_, rfl⟩, rfl, rfl⟩
    simp [Octets.bigEndian]
  · rintro rfl
    exact ⟨octet.toNat, rest, ⟨octet.toNat_lt, by simp [Octets.bigEndian]⟩, UInt8.ofNat_toNat, rfl⟩

theorem word_eq_ok {word : UInt16} : Scan.word octets = .ok word rest ↔
    octets = Field.word word ++ rest := by
  simp only [Scan.word, bind_eq_ok, number_eq_ok, pure_eq_ok]
  constructor
  · rintro ⟨n, _, ⟨fits, rfl⟩, rfl, rfl⟩
    have small : n < 2 ^ 16 := fits
    rw [Field.word, UInt16.toNat_ofNat', Nat.mod_eq_of_lt small]
  · rintro rfl
    exact ⟨word.toNat, rest, ⟨word.toNat_lt, rfl⟩, UInt16.ofNat_toNat, rfl⟩

/-- A string with its length in front is read exactly if the length fits. -/
theorem sized_eq_ok {width : Nat} {body : Octets} : sized width octets = .ok body rest ↔
    body.length < 256 ^ width ∧
      octets = Octets.bigEndian width body.length ++ body ++ rest := by
  simp only [sized, bind_eq_ok, number_eq_ok, take_eq_ok, List.append_assoc]
  constructor
  · rintro ⟨_, _, ⟨fits, rfl⟩, rfl, rfl⟩
    exact ⟨fits, rfl⟩
  · rintro ⟨fits, rfl⟩
    exact ⟨body.length, body ++ rest, ⟨fits, rfl⟩, rfl, rfl⟩

theorem atEnd_eq_ok {done : Bool} :
    atEnd octets = .ok done rest ↔ octets.isEmpty = done ∧ octets = rest := by
  simp only [atEnd, bind_eq_ok, get_eq_ok, pure_eq_ok]
  constructor
  · rintro ⟨_, _, ⟨rfl, rfl⟩, rfl, rfl⟩
    exact ⟨rfl, rfl⟩
  · rintro ⟨rfl, rfl⟩
    exact ⟨octets, octets, ⟨rfl, rfl⟩, rfl, rfl⟩

theorem finish_eq_ok {u : Unit} : finish octets = .ok u rest ↔ octets = [] ∧ rest = [] := by
  simp only [finish, bind_eq_ok, atEnd_eq_ok, ite_eq_ok, throw_eq_ok, pure_eq_ok]
  constructor
  · rintro ⟨_, _, ⟨rfl, rfl⟩, ⟨nothing, _, rfl⟩ | ⟨_, impossible⟩⟩
    · exact ⟨List.isEmpty_iff.mp nothing, List.isEmpty_iff.mp nothing⟩
    · exact impossible.elim
  · rintro ⟨rfl, rfl⟩
    exact ⟨true, [], ⟨rfl, rfl⟩, Or.inl ⟨rfl, trivial, rfl⟩⟩

theorem whole_eq_ok {scan : Scan α} {value : α} :
    whole scan octets = .ok value ↔ scan octets = .ok value [] := by
  have ran {left : Octets} : (do let value ← scan; finish; return value : Scan α) octets =
      .ok value left ↔ left = [] ∧ scan octets = .ok value [] := by
    simp only [bind_eq_ok, finish_eq_ok, pure_eq_ok]
    constructor
    · rintro ⟨_, _, read, _, _, ⟨rfl, rfl⟩, rfl, rfl⟩
      exact ⟨rfl, read⟩
    · rintro ⟨rfl, read⟩
      exact ⟨value, [], read, (), [], ⟨rfl, rfl⟩, rfl, rfl⟩
  unfold whole
  split
  · next found left result =>
    constructor
    · rintro ⟨rfl⟩
      exact (ran.mp result).2
    · intro read
      cases result.symm.trans (ran.mpr ⟨rfl, read⟩)
      rfl
  · next error left result =>
    constructor
    · rintro ⟨⟩
    · intro read
      cases result.symm.trans (ran.mpr ⟨rfl, read⟩)

/-- What is nested behind its length is read from the octets of that length alone. -/
theorem nested_eq_ok {width : Nat} {scan : Scan α} {value : α} :
    nested width scan octets = .ok value rest ↔ ∃ body, body.length < 256 ^ width ∧
      octets = Octets.bigEndian width body.length ++ body ++ rest ∧
      scan body = .ok value [] := by
  simp only [nested, bind_eq_ok, sized_eq_ok]
  constructor
  · rintro ⟨body, _, ⟨fits, rfl⟩, read⟩
    cases result : whole scan body with
    | error error =>
      rw [result] at read
      exact (throw_eq_ok.mp read).elim
    | ok found =>
      rw [result] at read
      obtain ⟨rfl, rfl⟩ := pure_eq_ok.mp read
      exact ⟨body, fits, rfl, whole_eq_ok.mp result⟩
  · rintro ⟨body, fits, rfl, read⟩
    refine ⟨body, rest, ⟨fits, rfl⟩, ?_⟩
    rw [whole_eq_ok.mpr read]
    rfl

end TransportSecurity.Scan
