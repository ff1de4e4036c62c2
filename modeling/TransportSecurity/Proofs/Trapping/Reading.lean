import TransportSecurity.Proofs.Bytes.Reading
import TransportSecurity.Proofs.Trapping.Operations

/-!
Reading by place.

A `Cursor` is a place in a buffer that is never cut, and a `Reader` moves it: how much is left is a
difference, and what is read is a slice. The difference has no result for a place beyond the end, so
that a reader is as good as the scan that consumes octets (`Reads`) only from places within.
-/

namespace TransportSecurity.Trapping

/-- A place in a buffer. -/
structure Cursor where
  buffer : Octets
  offset : Nat

/-- A place within the buffer, with these octets behind it. -/
def Cursor.Holds (cursor : Cursor) (octets : Octets) : Prop :=
  cursor.offset ≤ cursor.buffer.length ∧ cursor.buffer.drop cursor.offset = octets

/-- A program that reads from a cursor on. -/
abbrev Reader := EStateM Halt Cursor

namespace Reader

/-- How many octets are left. -/
def remaining : Reader Nat := do
  let cursor ← get
  ofExcept (minus cursor.buffer.length cursor.offset)

/-- Whether no octet is left. -/
def atEnd : Reader Bool := return (← remaining) == 0

/-- The next `n` octets. -/
def take (n : Nat) : Reader Octets := do
  if (← remaining) < n then throw (.error .invalidLength)
  let cursor ← get
  let octets ← ofExcept (slice cursor.buffer cursor.offset (cursor.offset + n))
  set { cursor with offset := cursor.offset + n }
  return octets

/-- The next octet. -/
def octet : Reader UInt8 := do ofExcept (octetAt (← take 1) 0)

/-- The number in the next `width` octets. -/
def number (width : Nat) : Reader Nat := do ofExcept (numberOf width (← take width))

/-- The number in the next two octets. -/
def word : Reader UInt16 := return UInt16.ofNat (← number 2)

/-- The next `n` octets, copied to a place for them. -/
def fixed (n : Nat) : Reader (Fixed n) := do ofExcept (copied n (← take n))

/-- A string that has its length in front, in one octet. -/
def sized8 : Reader Octets := do take (← octet).toNat

/-- A string that has its length in front, in `width` octets. -/
def sized (width : Nat) : Reader Octets := do take (← number width)

/-- Fails unless every octet has been read. -/
def finish : Reader Unit := do unless ← atEnd do throw (.error .trailingBytes)

/-- What a program makes of octets, from their beginning. -/
def front {α : Type} (reader : Reader α) (octets : Octets) : Except Halt α :=
  match reader ⟨octets, 0⟩ with
  | .ok value _ => .ok value
  | .error halt _ => .error halt

/-- Reads a whole octet string: what `reader` leaves behind is an error. -/
def whole {α : Type} (reader : Reader α) (octets : Octets) : Except Halt α :=
  front (do let value ← reader; finish; return value) octets

/-- A string that has its length in front and holds exactly what `reader` reads. -/
def nested {α : Type} (width : Nat) (reader : Reader α) : Reader α := do
  ofExcept (whole reader (← sized width))

end Reader

/-- From every place within its buffer a reader does what a scan does with the octets there. -/
def Reads {α : Type} (reader : Reader α) (scan : Scan α) : Prop :=
  ∀ cursor octets, Cursor.Holds cursor octets → Follows Cursor.Holds reader scan cursor octets

section Places

variable {cursor : Cursor} {octets : Octets} {n : Nat}

theorem Cursor.holds_start (octets : Octets) : Cursor.Holds ⟨octets, 0⟩ octets :=
  ⟨Nat.zero_le _, rfl⟩

theorem Cursor.Holds.length (holds : cursor.Holds octets) :
    octets.length = cursor.buffer.length - cursor.offset := by
  rw [← holds.2, List.length_drop]

/-- The place after `n` octets, if there are so many. -/
theorem Cursor.Holds.advance (holds : cursor.Holds octets) (enough : n ≤ octets.length) :
    Cursor.Holds { cursor with offset := cursor.offset + n } (octets.drop n) := by
  obtain ⟨within, rfl⟩ := holds
  rw [List.length_drop] at enough
  exact ⟨by dsimp only; omega, by rw [List.drop_drop]⟩

theorem remaining_eq (holds : cursor.Holds octets) :
    Reader.remaining cursor = .ok octets.length cursor := by
  rw [Reader.remaining, get_bind, minus_eq holds.1, holds.length]
  rfl

theorem atEnd_eq (holds : cursor.Holds octets) :
    Reader.atEnd cursor = .ok octets.isEmpty cursor := by
  rw [Reader.atEnd, bind_of_ok (remaining_eq holds)]
  cases octets <;> rfl

/-- Too few octets are an error. -/
theorem take_of_lt (holds : cursor.Holds octets) (few : octets.length < n) :
    Reader.take n cursor = .error (.error .invalidLength) cursor := by
  rw [Reader.take, bind_of_ok (remaining_eq holds)]
  dsimp only
  rw [if_pos few]
  rfl

/-- Enough octets are read without a trap: the slice ends within the buffer. -/
theorem take_of_le (holds : cursor.Holds octets) (enough : n ≤ octets.length) :
    Reader.take n cursor =
      .ok (octets.take n) { cursor with offset := cursor.offset + n } := by
  have within := holds.length
  rw [Reader.take, bind_of_ok (remaining_eq holds)]
  dsimp only
  rw [if_neg (by omega), get_bind, slice_add (by have := holds.1; omega), holds.2]
  rfl

/-- What is read ends within the buffer. -/
theorem take_eq_ok {taken : Octets} {next : Cursor} (ran : Reader.take n cursor = .ok taken next) :
    next = { cursor with offset := cursor.offset + n } ∧
      cursor.offset + n ≤ cursor.buffer.length := by
  rcases Nat.lt_or_ge cursor.buffer.length cursor.offset with beyond | within
  · rw [Reader.take, bind_of_error (show Reader.remaining cursor = .error _ cursor by
      rw [Reader.remaining, get_bind, minus, if_neg (by omega)]
      rfl)] at ran
    cases ran
  · have holds : cursor.Holds (cursor.buffer.drop cursor.offset) := ⟨within, rfl⟩
    have length := holds.length
    rcases Nat.lt_or_ge (cursor.buffer.drop cursor.offset).length n with few | enough
    · rw [take_of_lt holds few] at ran
      cases ran
    · rw [take_of_le holds enough] at ran
      cases ran
      exact ⟨rfl, by omega⟩

/-- A string with its length in front moves the place on, within the buffer. -/
theorem sized_moves {width : Nat} {taken : Octets} {next : Cursor}
    (ran : Reader.sized (width + 1) cursor = .ok taken next) :
    next.buffer = cursor.buffer ∧ cursor.offset < next.offset ∧
      next.offset ≤ next.buffer.length := by
  simp only [Reader.sized, Reader.number, bind_eq_ok, ofExcept_eq_ok] at ran
  obtain ⟨length, _, ⟨digits, _, read, number, rfl⟩, ran⟩ := ran
  obtain ⟨rfl, _⟩ := take_eq_ok read
  obtain ⟨rfl, within⟩ := take_eq_ok ran
  exact ⟨rfl, by dsimp only; omega, within⟩

theorem fixed_of_lt (few : octets.length < n) :
    Scan.fixed n octets = .error .invalidLength octets := by
  rw [Scan.fixed, dif_neg (by rw [List.length_take]; omega)]

theorem fixed_of_le (enough : n ≤ octets.length) : Scan.fixed n octets =
    .ok ⟨octets.take n, List.length_take_of_le enough⟩ (octets.drop n) := by
  rw [Scan.fixed, dif_pos (List.length_take_of_le enough)]

end Places

namespace Reads

variable {α β : Type}

theorem pure (value : α) : Reads (pure value) (pure value) :=
  fun _ _ holds => Follows.pure value holds

theorem throw (error : Error) : Reads (throw (.error error) : Reader α) (throw error) :=
  fun _ _ holds => Follows.throw error holds

/-- What comes next may use what the first part has read. -/
theorem bind_ran {reader : Reader α} {scan : Scan α} {next : α → Reader β} {next' : α → Scan β}
    (first : Reads reader scan) (later : ∀ value octets rest, scan octets = .ok value rest →
      Reads (next value) (next' value)) :
    Reads (reader >>= next) (scan >>= next') :=
  fun cursor octets holds => (first cursor octets holds).bind fun value cursor' rest ran holds' =>
    later value octets rest ran cursor' rest holds'

theorem bind {reader : Reader α} {scan : Scan α} {next : α → Reader β} {next' : α → Scan β}
    (first : Reads reader scan) (later : ∀ value, Reads (next value) (next' value)) :
    Reads (reader >>= next) (scan >>= next') := first.bind_ran fun value _ _ _ => later value

theorem ite {c : Prop} [Decidable c] {reader reader' : Reader α} {scan scan' : Scan α}
    (first : Reads reader scan) (second : Reads reader' scan') :
    Reads (if c then reader else reader') (if c then scan else scan') := by
  split
  · exact first
  · exact second

theorem ofExcept {result : Except Halt α} {total : Except Error α} (same : result = raised total) :
    Reads (ofExcept result) (ofExcept total) :=
  fun _ _ holds => Follows.ofExcept same holds

theorem atEnd : Reads Reader.atEnd Scan.atEnd := by
  intro cursor octets holds
  unfold Follows
  rw [atEnd_eq holds]
  exact .ok holds

theorem take (n : Nat) : Reads (Reader.take n) (Scan.take n) := by
  intro cursor octets holds
  unfold Follows Scan.take
  rcases Nat.lt_or_ge octets.length n with few | enough
  · rw [take_of_lt holds few, bind_of_error (fixed_of_lt few)]
    exact .error holds
  · rw [take_of_le holds enough, bind_of_ok (fixed_of_le enough)]
    exact .ok (holds.advance enough)

theorem fixed (n : Nat) : Reads (Reader.fixed n) (Scan.fixed n) := by
  intro cursor octets holds
  unfold Follows Reader.fixed
  rcases Nat.lt_or_ge octets.length n with few | enough
  · rw [bind_of_error (take_of_lt holds few), fixed_of_lt few]
    exact .error holds
  · rw [bind_of_ok (take_of_le holds enough), fixed_of_le enough,
      copied_eq (List.length_take_of_le enough)]
    exact .ok (holds.advance enough)

theorem octet : Reads Reader.octet Scan.octet := by
  simp only [Scan.octet, Scan.number, bind_assoc, pure_bind]
  refine (take 1).bind_ran fun taken octets rest ran => ?_
  obtain ⟨single, _⟩ := Scan.take_eq_ok.mp ran
  obtain ⟨octet, rfl⟩ := List.length_eq_one_iff.mp single
  have same : UInt8.ofNat (Octets.value [octet]) = octet := by simp [Octets.value]
  rw [same]
  exact pure octet

theorem number (width : Nat) : Reads (Reader.number width) (Scan.number width) := by
  refine (take width).bind_ran fun taken octets rest ran => ?_
  rw [numberOf_eq (Scan.take_eq_ok.mp ran).1]
  exact pure _

theorem word : Reads Reader.word Scan.word := (number 2).bind fun _ => pure _

/-- One octet is a number of its own. -/
theorem octet_toNat : Reads (do return (← Reader.octet).toNat) (Scan.number 1) := by
  simp only [Reader.octet, bind_assoc]
  refine (take 1).bind_ran fun taken octets rest ran => ?_
  obtain ⟨single, _⟩ := Scan.take_eq_ok.mp ran
  obtain ⟨octet, rfl⟩ := List.length_eq_one_iff.mp single
  have same : Octets.value [octet] = octet.toNat := by simp [Octets.value]
  rw [same]
  exact pure octet.toNat

theorem sized8 : Reads Reader.sized8 (Scan.sized 1) := by
  have read := octet_toNat.bind take
  rw [bind_assoc] at read
  exact read

theorem sized (width : Nat) : Reads (Reader.sized width) (Scan.sized width) :=
  (number width).bind take

theorem finish : Reads Reader.finish Scan.finish := by
  refine atEnd.bind fun done => ?_
  exact ite (pure _) (throw _)

/-- From the beginning of a string a reader is as good as a scan. -/
theorem front {reader : Reader α} {scan : Scan α} (reads : Reads reader scan) (octets : Octets) :
    reader.front octets = raised (Prod.fst <$> Scan.front scan octets) := by
  have same := reads ⟨octets, 0⟩ octets (Cursor.holds_start octets)
  unfold Follows at same
  unfold Reader.front Scan.front
  generalize reader ⟨octets, 0⟩ = result at same ⊢
  generalize scan octets = total at same ⊢
  cases same <;> rfl

theorem whole {reader : Reader α} {scan : Scan α} (reads : Reads reader scan) (octets : Octets) :
    reader.whole octets = raised (Scan.whole scan octets) := by
  have all : Reads (do let value ← reader; Reader.finish; return value)
      (do let value ← scan; Scan.finish; return value) :=
    reads.bind fun value => finish.bind fun _ => pure value
  rw [Reader.whole, all.front, Scan.front, Scan.whole]
  split <;> rfl

theorem nested (width : Nat) {reader : Reader α} {scan : Scan α} (reads : Reads reader scan) :
    Reads (Reader.nested width reader) (Scan.nested width scan) := by
  refine (sized width).bind fun octets => ?_
  have same := reads.whole octets
  rw [same]
  cases Scan.whole scan octets with
  | ok value => exact pure value
  | error error => exact throw error

end Reads

end TransportSecurity.Trapping
