import TransportSecurity.Proofs.Bytes.Reading

/-!
Reading whatever is asked for.

Requests are answered one after the other, each from where the one before stopped, also where that
one failed (`turns`). `Accounts` lists all that a single request can come to: which octets it
consumes, what it answers and what is wrong if it fails. Nothing else ever happens
(`turn_accounts`), and each of these does (`Accounts.turn_eq`).

So fields that are written one behind the other are answered in turn by the matching requests, and
whatever octets are answered so are those that would be written (`Entry.turns_iff_written`).
-/

namespace TransportSecurity

namespace Scan

/-! ### Requests -/

/-- What can be asked of octets. -/
inductive Request where
  | take (n : Nat)
  | octet
  | word
  | number (width : Nat)
  | sized (width : Nat)
  | remaining
  | atEnd
  | finish
  deriving DecidableEq, Repr

/-- What a request is answered with. -/
inductive Answer where
  | octets (octets : Octets)
  | octet (octet : UInt8)
  | word (word : UInt16)
  | number (n : Nat)
  | flag (flag : Bool)
  | nothing
  deriving DecidableEq, Repr

/-- The scan that answers a request. -/
def Request.scan : Request → Scan Answer
  | .take n => return .octets (← Scan.take n)
  | .octet => return .octet (← Scan.octet)
  | .word => return .word (← Scan.word)
  | .number width => return .number (← Scan.number width)
  | .sized width => return .octets (← Scan.sized width)
  | .remaining => return .number (← Scan.remaining)
  | .atEnd => return .flag (← Scan.atEnd)
  | .finish => do
    Scan.finish
    return .nothing

/-- A request that was made: the states around it, and the answer or why there is none. -/
structure Turn (ε σ : Type) where
  request : Request
  before : σ
  ended : Except ε Answer
  after : σ

section Turns

variable {ε σ : Type} (perform : Request → EStateM ε σ Answer) {request : Request} {s s' : σ}

/-- A request is made. -/
def turn (request : Request) (s : σ) : Turn ε σ :=
  match perform request s with
  | .ok answer s' => ⟨request, s, .ok answer, s'⟩
  | .error error s' => ⟨request, s, .error error, s'⟩

/-- Requests are made one after the other, whether or not they succeed. -/
def turns : List Request → σ → List (Turn ε σ)
  | [], _ => []
  | request :: requests, s =>
    turn perform request s :: turns requests (turn perform request s).after

/-- The state that requests lead to. -/
def stateAfter (requests : List Request) (s : σ) : σ :=
  requests.foldl (fun s request => (turn perform request s).after) s

variable {perform}

@[simp] theorem turn_request : (turn perform request s).request = request := by
  unfold turn
  split <;> rfl

@[simp] theorem turn_before : (turn perform request s).before = s := by
  unfold turn
  split <;> rfl

theorem turn_of_ok {answer : Answer} (ran : perform request s = .ok answer s') :
    turn perform request s = ⟨request, s, .ok answer, s'⟩ := by
  rw [turn, ran]

theorem turn_of_error {error : ε} (ran : perform request s = .error error s') :
    turn perform request s = ⟨request, s, .error error, s'⟩ := by
  rw [turn, ran]

end Turns

/-! ### How a scan ends -/

section Ending

variable {octets rest : Octets} {error : Error} {α β : Type} {scan : Scan α} {made : α → β}

/-- What is made of a value is there if the value is. -/
theorem returned_eq_ok {value : β} : (return made (← scan) : Scan β) octets = .ok value rest ↔
    ∃ a, scan octets = .ok a rest ∧ made a = value := by
  simp only [bind_eq_ok, pure_eq_ok]
  constructor
  · rintro ⟨a, _, read, same, rfl⟩
    exact ⟨a, read, same⟩
  · rintro ⟨a, read, same⟩
    exact ⟨a, rest, read, same, rfl⟩

theorem returned_eq_error : (return made (← scan) : Scan β) octets = .error error rest ↔
    scan octets = .error error rest := by
  simp only [bind_eq_error, pure_eq_error, and_false, exists_false, or_false]

theorem fixed_eq_error {n : Nat} : fixed n octets = .error error rest ↔
    octets.length < n ∧ error = .invalidLength ∧ octets = rest := by
  unfold fixed
  split
  · next enough =>
    rw [List.length_take] at enough
    simp only [reduceCtorEq, false_iff]
    omega
  · next few =>
    rw [List.length_take] at few
    simp only [EStateM.Result.error.injEq, eq_comm, iff_and_self]
    omega

theorem take_eq_error {n : Nat} : take n octets = .error error rest ↔
    octets.length < n ∧ error = .invalidLength ∧ octets = rest := by
  rw [take, returned_eq_error, fixed_eq_error]

theorem number_eq_error {width : Nat} : number width octets = .error error rest ↔
    octets.length < width ∧ error = .invalidLength ∧ octets = rest := by
  rw [number, returned_eq_error, take_eq_error]

/-- A string with its length in front is missing octets of its length, or of its body. -/
theorem sized_eq_error {width : Nat} : sized width octets = .error error rest ↔
    error = .invalidLength ∧ (octets.length < width ∧ octets = rest ∨
      ∃ n < 256 ^ width, octets = Octets.bigEndian width n ++ rest ∧ rest.length < n) := by
  simp only [sized, bind_eq_error, number_eq_error, number_eq_ok, take_eq_error]
  constructor
  · rintro (⟨few, rfl, rfl⟩ | ⟨n, _, ⟨fits, rfl⟩, few, rfl, rfl⟩)
    · exact ⟨rfl, Or.inl ⟨few, rfl⟩⟩
    · exact ⟨rfl, Or.inr ⟨n, fits, rfl, few⟩⟩
  · rintro ⟨rfl, ⟨few, rfl⟩ | ⟨n, fits, rfl, few⟩⟩
    · exact Or.inl ⟨few, rfl, rfl⟩
    · exact Or.inr ⟨n, rest, ⟨fits, rfl⟩, few, rfl, rfl⟩

theorem finish_eq_error : finish octets = .error error rest ↔
    octets ≠ [] ∧ error = .trailingBytes ∧ octets = rest := by
  cases octets with
  | nil =>
    constructor
    · rintro ⟨⟩
    · rintro ⟨more, _⟩
      exact (more rfl).elim
  | cons octet octets =>
    change EStateM.Result.error Error.trailingBytes (octet :: octets) = _ ↔ _
    simp [eq_comm]

end Ending

/-! ### What a request comes to -/

/-- The octets that a request needs in any case. -/
def Request.least : Request → Nat
  | .take n => n
  | .octet => 1
  | .word => 2
  | .number width | .sized width => width
  | .remaining | .atEnd | .finish => 0

/-- The octets of the length in front of what is asked for, if it has one. -/
def Request.lengthWidth : Request → Nat
  | .sized width => width
  | _ => 0

/-- All that a request can come to: the octets that it consumes, how it ends, and what it leaves. -/
inductive Accounts : Request → Octets → Except Error Answer → Octets → Prop
  | take {n : Nat} {taken : Octets} (length : taken.length = n) (rest : Octets) :
    Accounts (.take n) taken (.ok (.octets taken)) rest
  | octet (octet : UInt8) (rest : Octets) : Accounts .octet [octet] (.ok (.octet octet)) rest
  | word (word : UInt16) (rest : Octets) :
    Accounts .word (Field.word word) (.ok (.word word)) rest
  | number {width n : Nat} (fits : n < 256 ^ width) (rest : Octets) :
    Accounts (.number width) (Octets.bigEndian width n) (.ok (.number n)) rest
  | sized {width : Nat} {body : Octets} (fits : body.length < 256 ^ width) (rest : Octets) :
    Accounts (.sized width) (Octets.bigEndian width body.length ++ body) (.ok (.octets body)) rest
  | remaining {n : Nat} {rest : Octets} (count : rest.length = n) :
    Accounts .remaining [] (.ok (.number n)) rest
  | atEnd {flag : Bool} {rest : Octets} (empty : rest.isEmpty = flag) :
    Accounts .atEnd [] (.ok (.flag flag)) rest
  | finish : Accounts .finish [] (.ok .nothing) []
  | tooFew {request : Request} {rest : Octets} (few : rest.length < request.least) :
    Accounts request [] (.error .invalidLength) rest
  | cutShort {width n : Nat} {rest : Octets} (fits : n < 256 ^ width) (few : rest.length < n) :
    Accounts (.sized width) (Octets.bigEndian width n) (.error .invalidLength) rest
  | leftOver {rest : Octets} (more : rest ≠ []) :
    Accounts .finish [] (.error .trailingBytes) rest

section Accounting

variable {request : Request} {octets consumed rest : Octets} {ended : Except Error Answer}

theorem accounts_of_ok {answer : Answer} (ran : request.scan octets = .ok answer rest) :
    ∃ consumed, octets = consumed ++ rest ∧ Accounts request consumed (.ok answer) rest := by
  cases request with
  | take n =>
    obtain ⟨taken, read, rfl⟩ := returned_eq_ok.mp ran
    obtain ⟨length, parts⟩ := take_eq_ok.mp read
    exact ⟨taken, parts, .take length rest⟩
  | octet =>
    obtain ⟨octet, read, rfl⟩ := returned_eq_ok.mp ran
    exact ⟨[octet], octet_eq_ok.mp read, .octet octet rest⟩
  | word =>
    obtain ⟨word, read, rfl⟩ := returned_eq_ok.mp ran
    exact ⟨Field.word word, word_eq_ok.mp read, .word word rest⟩
  | number width =>
    obtain ⟨n, read, rfl⟩ := returned_eq_ok.mp ran
    obtain ⟨fits, parts⟩ := number_eq_ok.mp read
    exact ⟨_, parts, .number fits rest⟩
  | sized width =>
    obtain ⟨body, read, rfl⟩ := returned_eq_ok.mp ran
    obtain ⟨fits, parts⟩ := sized_eq_ok.mp read
    exact ⟨_, parts, .sized fits rest⟩
  | remaining =>
    obtain ⟨n, read, rfl⟩ := returned_eq_ok.mp ran
    obtain ⟨left, found, rfl⟩ := returned_eq_ok.mp read
    obtain ⟨rfl, rfl⟩ := get_eq_ok.mp found
    exact ⟨[], rfl, .remaining rfl⟩
  | atEnd =>
    obtain ⟨flag, read, rfl⟩ := returned_eq_ok.mp ran
    obtain ⟨empty, rfl⟩ := atEnd_eq_ok.mp read
    exact ⟨[], rfl, .atEnd empty⟩
  | finish =>
    obtain ⟨_, read, rfl⟩ := returned_eq_ok.mp ran
    obtain ⟨rfl, rfl⟩ := finish_eq_ok.mp read
    exact ⟨[], rfl, .finish⟩

theorem accounts_of_error {error : Error} (ran : request.scan octets = .error error rest) :
    ∃ consumed, octets = consumed ++ rest ∧ Accounts request consumed (.error error) rest := by
  cases request with
  | take n =>
    obtain ⟨few, rfl, rfl⟩ := take_eq_error.mp (returned_eq_error.mp ran)
    exact ⟨[], rfl, .tooFew few⟩
  | octet =>
    obtain ⟨few, rfl, rfl⟩ :=
      number_eq_error.mp (returned_eq_error.mp (returned_eq_error.mp ran))
    exact ⟨[], rfl, .tooFew few⟩
  | word =>
    obtain ⟨few, rfl, rfl⟩ :=
      number_eq_error.mp (returned_eq_error.mp (returned_eq_error.mp ran))
    exact ⟨[], rfl, .tooFew few⟩
  | number width =>
    obtain ⟨few, rfl, rfl⟩ := number_eq_error.mp (returned_eq_error.mp ran)
    exact ⟨[], rfl, .tooFew few⟩
  | sized width =>
    obtain ⟨rfl, ⟨few, rfl⟩ | ⟨n, fits, parts, few⟩⟩ :=
      sized_eq_error.mp (returned_eq_error.mp ran)
    · exact ⟨[], rfl, .tooFew few⟩
    · exact ⟨_, parts, .cutShort fits few⟩
  | remaining | atEnd => cases ran
  | finish =>
    obtain ⟨more, rfl, rfl⟩ := finish_eq_error.mp (returned_eq_error.mp ran)
    exact ⟨[], rfl, .leftOver more⟩

/-- Every request takes what it consumes off the front, and accounts for it. -/
theorem turn_accounts (request : Request) (octets : Octets) : ∃ consumed,
    octets = consumed ++ (turn Request.scan request octets).after ∧
    Accounts request consumed (turn Request.scan request octets).ended
      (turn Request.scan request octets).after := by
  cases ran : request.scan octets with
  | ok answer rest =>
    rw [turn_of_ok ran]
    exact accounts_of_ok ran
  | error error rest =>
    rw [turn_of_error ran]
    exact accounts_of_error ran

/-- Of what is listed, everything can happen. -/
theorem Accounts.turn_eq (accounts : Accounts request consumed ended rest) :
    turn Request.scan request (consumed ++ rest) = ⟨request, consumed ++ rest, ended, rest⟩ := by
  cases accounts with
  | take length => exact turn_of_ok (bind_of_ok (take_eq_ok.mpr ⟨length, rfl⟩))
  | octet => exact turn_of_ok (bind_of_ok (octet_eq_ok.mpr rfl))
  | word => exact turn_of_ok (bind_of_ok (word_eq_ok.mpr rfl))
  | number fits => exact turn_of_ok (bind_of_ok (number_eq_ok.mpr ⟨fits, rfl⟩))
  | sized fits => exact turn_of_ok (bind_of_ok (sized_eq_ok.mpr ⟨fits, rfl⟩))
  | remaining count =>
    subst count
    rfl
  | atEnd empty =>
    subst empty
    rfl
  | finish => rfl
  | tooFew few =>
    apply turn_of_error
    cases request with
    | take n => exact bind_of_error (take_eq_error.mpr ⟨few, rfl, rfl⟩)
    | octet => exact bind_of_error (bind_of_error (number_eq_error.mpr ⟨few, rfl, rfl⟩))
    | word => exact bind_of_error (bind_of_error (number_eq_error.mpr ⟨few, rfl, rfl⟩))
    | number width => exact bind_of_error (number_eq_error.mpr ⟨few, rfl, rfl⟩)
    | sized width => exact bind_of_error (sized_eq_error.mpr ⟨rfl, Or.inl ⟨few, rfl⟩⟩)
    | remaining | atEnd | finish => exact (Nat.not_lt_zero _ few).elim
  | cutShort fits few =>
    exact turn_of_error (bind_of_error (sized_eq_error.mpr ⟨rfl, Or.inr ⟨_, fits, rfl, few⟩⟩))
  | leftOver more =>
    exact turn_of_error (bind_of_error (finish_eq_error.mpr ⟨more, rfl, rfl⟩))

/-- A request has one way only to be answered so. -/
theorem Accounts.consumed_unique {consumed' rest' : Octets} {answer : Answer}
    (here : Accounts request consumed (.ok answer) rest)
    (there : Accounts request consumed' (.ok answer) rest') : consumed = consumed' := by
  cases here <;> cases there <;> rfl

/-- What fails has consumed at most a length. -/
theorem Accounts.length_of_error {error : Error}
    (accounts : Accounts request consumed (.error error) rest) :
    consumed.length ≤ request.lengthWidth := by
  cases accounts with
  | tooFew | leftOver => exact Nat.zero_le _
  | cutShort => exact Nat.le_of_eq (Octets.length_bigEndian ..)

end Accounting

end Scan

/-! ### Fields, written and asked for -/

/-- A field to be written. -/
inductive Entry where
  | word (n : UInt16)
  | triple (n : Nat)
  | sized8 (body : Octets)
  | sized16 (body : Octets)
  | sized24 (body : Octets)
  deriving DecidableEq, Repr

namespace Entry

open Scan

/-- A number fits in its octets, and the length of a string in those in front of it. -/
def Fits : Entry → Prop
  | .word _ => True
  | .triple n => n ≤ 0xffffff
  | .sized8 body => body.length ≤ 0xff
  | .sized16 body => body.length ≤ 0xffff
  | .sized24 body => body.length ≤ 0xffffff

/-- The octets of a field. -/
def octets : Entry → Except Error Octets
  | .word n => .ok (Field.word n)
  | .triple n => Field.triple n
  | .sized8 body => .ok (Field.sized8 body)
  | .sized16 body => .ok (Field.sized16 body)
  | .sized24 body => Field.sized24 body

/-- A field is put behind what a buffer holds. -/
def put (buffer : Octets) (entry : Entry) : Except Error Octets :=
  return buffer ++ (← entry.octets)

/-- Fields are put one behind the other. -/
def putAll (entries : List Entry) (buffer : Octets) : Except Error Octets :=
  entries.foldlM put buffer

/-- The request that reads a field. -/
def request : Entry → Request
  | .word _ => .word
  | .triple _ => .number 3
  | .sized8 _ => .sized 1
  | .sized16 _ => .sized 2
  | .sized24 _ => .sized 3

/-- What a field reads as. -/
def answer : Entry → Answer
  | .word n => .word n
  | .triple n => .number n
  | .sized8 body | .sized16 body | .sized24 body => .octets body

variable {entry : Entry} {entries : List Entry}

/-- A field that fits is written, and its request consumes what was written to answer with it. -/
theorem exists_octets (fits : entry.Fits) : ∃ written, entry.octets = .ok written ∧
    ∀ rest, Accounts entry.request written (.ok entry.answer) rest := by
  cases entry with
  | word n => exact ⟨_, rfl, .word n⟩
  | triple n =>
    have small : n < 2 ^ 24 := Nat.lt_succ_of_le fits
    exact ⟨_, if_pos small, .number small⟩
  | sized8 body => exact ⟨_, rfl, .sized (Nat.lt_succ_of_le fits)⟩
  | sized16 body => exact ⟨_, rfl, .sized (Nat.lt_succ_of_le fits)⟩
  | sized24 body =>
    have short : body.length < 2 ^ 24 := Nat.lt_succ_of_le fits
    refine ⟨_, ?_, .sized short⟩
    rw [octets, Field.sized24, Field.triple, if_pos short]
    rfl

/-- A field is answered and a rest left exactly if the field was written in front of the rest. -/
theorem turn_iff_written {written octets rest : Octets}
    (accounts : ∀ rest, Accounts entry.request written (.ok entry.answer) rest) :
    ((turn Request.scan entry.request octets).ended = .ok entry.answer ∧
      (turn Request.scan entry.request octets).after = rest) ↔ octets = written ++ rest := by
  constructor
  · rintro ⟨answered, rfl⟩
    obtain ⟨consumed, parts, found⟩ := turn_accounts entry.request octets
    rw [answered] at found
    rw [(accounts []).consumed_unique found]
    exact parts
  · rintro rfl
    rw [(accounts rest).turn_eq]
    exact ⟨rfl, rfl⟩

/-- Fields that fit are written one behind the other. They are answered in turn and a tail is left
exactly where they were written in front of the tail. -/
theorem turns_iff_written (fits : ∀ entry ∈ entries, entry.Fits) : ∃ written,
    (∀ front, putAll entries front = .ok (front ++ written)) ∧
    ∀ octets tail, ((turns Request.scan (entries.map request) octets).map Turn.ended =
        entries.map (fun entry => .ok entry.answer) ∧
      stateAfter Request.scan (entries.map request) octets = tail) ↔
      octets = written ++ tail := by
  induction entries with
  | nil =>
    refine ⟨[], fun front => ?_, fun octets tail => ⟨And.right, fun same => ⟨rfl, same⟩⟩⟩
    rw [List.append_nil]
    rfl
  | cons entry entries ih =>
    obtain ⟨first, written, accounts⟩ := exists_octets (fits entry (List.mem_cons_self ..))
    obtain ⟨others, put, back⟩ := ih fun entry found => fits entry (List.mem_cons_of_mem _ found)
    refine ⟨first ++ others, fun front => ?_, fun octets tail => ?_⟩
    · rw [← List.append_assoc, ← put, putAll, List.foldlM_cons, Entry.put, written]
      rfl
    · simp only [List.map_cons, turns, List.cons.injEq, stateAfter, List.foldl_cons]
      constructor
      · rintro ⟨⟨answered, later⟩, left⟩
        have rest := (back _ tail).mp ⟨later, left⟩
        rw [List.append_assoc]
        exact (turn_iff_written accounts).mp ⟨answered, rest⟩
      · intro parts
        rw [List.append_assoc] at parts
        obtain ⟨answered, rest⟩ := (turn_iff_written accounts).mpr parts
        obtain ⟨later, left⟩ := (back _ tail).mpr rest
        exact ⟨⟨answered, later⟩, left⟩

end Entry

end TransportSecurity
