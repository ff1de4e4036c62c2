import TransportSecurity.Bytes.Field
import TransportSecurity.Proofs.Success

/-!
Operations that trap.

A slice beyond its string, a difference below zero, a copy between strings of different lengths and
a number too large for three octets have no result. The definitions of the library never meet one,
because `take`, `drop` and truncated subtraction always have a result; a machine on which these
operations trap stops there. Here they are written so that they stop with a `Trap`. A program over
them `Follows` one of the library if it does the same, failures included, and never traps.
-/

namespace TransportSecurity.Trapping

/-- An operation without a result. -/
inductive Trap where
  | outOfRange (place length : Nat)
  | underflow (minuend subtrahend : Nat)
  | lengthMismatch (target source : Nat)
  | tooLarge (n : Nat)
  deriving DecidableEq, Repr

/-- Why a program stops: a failure that it reports, or a trap. -/
inductive Halt where
  | error (error : Error)
  | trap (trap : Trap)
  deriving DecidableEq, Repr

/-- The octets of a string from `start` up to `stop`. -/
def slice (octets : Octets) (start stop : Nat) : Except Halt Octets :=
  if start ≤ stop ∧ stop ≤ octets.length then .ok ((octets.take stop).drop start)
  else .error (.trap (.outOfRange stop octets.length))

/-- The octet at a place. -/
def octetAt (octets : Octets) (place : Nat) : Except Halt UInt8 :=
  match octets[place]? with
  | some octet => .ok octet
  | none => .error (.trap (.outOfRange place octets.length))

/-- A string in two parts, the first of `length` octets. -/
def splitAt (octets : Octets) (length : Nat) : Except Halt (Octets × Octets) :=
  if length ≤ octets.length then .ok (octets.take length, octets.drop length)
  else .error (.trap (.outOfRange length octets.length))

/-- A difference. -/
def minus (m n : Nat) : Except Halt Nat :=
  if n ≤ m then .ok (m - n) else .error (.trap (.underflow m n))

/-- A string copied to a place for `n` octets. -/
def copied (n : Nat) (octets : Octets) : Except Halt (Fixed n) :=
  if same : octets.length = n then .ok ⟨octets, same⟩
  else .error (.trap (.lengthMismatch n octets.length))

/-- A string with the octets from `start` up to `stop` written over by others. -/
def overwritten (octets : Octets) (start stop : Nat) (others : Octets) : Except Halt Octets := do
  let old ← slice octets start stop
  let new ← copied old.length others
  return octets.take start ++ (new.val ++ octets.drop stop)

/-- The number in the first `width` octets of a string. -/
def numberOf (width : Nat) (octets : Octets) : Except Halt Nat :=
  return Octets.value (← slice octets 0 width)

/-- A number in three octets. -/
def triple (n : Nat) : Except Halt Octets :=
  if n < 2 ^ 24 then .ok (Octets.bigEndian 3 n) else .error (.trap (.tooLarge n))

/-- A string with its length in front, in three octets. -/
def sized24 (body : Octets) : Except Halt Octets := return (← triple body.length) ++ body

/-- After a part that has a result comes what is to be done with it. -/
theorem ok_bind {ε α β : Type} (value : α) (next : α → Except ε β) :
    ((.ok value : Except ε α) >>= next) = next value := rfl

theorem ofExcept_ok {ε σ α : Type} (value : α) :
    (ofExcept (.ok value) : EStateM ε σ α) = pure value := rfl

section Results

variable {octets others : Octets} {m n start stop : Nat}

theorem slice_eq (order : start ≤ stop) (within : stop ≤ octets.length) :
    slice octets start stop = .ok ((octets.take stop).drop start) := if_pos ⟨order, within⟩

theorem slice_add (within : start + n ≤ octets.length) :
    slice octets start (start + n) = .ok ((octets.drop start).take n) := by
  rw [slice_eq (Nat.le_add_right ..) within, List.take_drop, Nat.add_comm]

theorem slice_to_end (within : start ≤ octets.length) :
    slice octets start octets.length = .ok (octets.drop start) := by
  rw [slice_eq within (Nat.le_refl _), List.take_length]

theorem slice_from_start (within : stop ≤ octets.length) :
    slice octets 0 stop = .ok (octets.take stop) := by
  rw [slice_eq (Nat.zero_le _) within, List.drop_zero]

theorem splitAt_eq (within : n ≤ octets.length) :
    splitAt octets n = .ok (octets.take n, octets.drop n) := if_pos within

theorem minus_eq (enough : n ≤ m) : minus m n = .ok (m - n) := if_pos enough

theorem copied_eq (same : octets.length = n) : copied n octets = .ok ⟨octets, same⟩ := dif_pos same

theorem numberOf_eq (same : octets.length = n) : numberOf n octets = .ok octets.value := by
  rw [numberOf, slice_from_start (Nat.le_of_eq same.symm), ← same, List.take_length]
  rfl

theorem triple_eq (fits : n < 2 ^ 24) : triple n = .ok (Octets.bigEndian 3 n) := if_pos fits

/-- What is written over part of a string must be as long as that part. -/
theorem overwritten_eq (order : start ≤ stop) (within : stop ≤ octets.length)
    (same : others.length = stop - start) :
    overwritten octets start stop others =
      .ok (octets.take start ++ (others ++ octets.drop stop)) := by
  have place : ((octets.take stop).drop start).length = stop - start := by
    rw [List.length_drop, List.length_take, Nat.min_eq_left within]
  rw [overwritten, slice_eq order within, ok_bind, copied_eq (same.trans place.symm)]
  rfl

end Results

/-- A result of the library as one of a program that may trap. -/
def raised {α : Type} : Except Error α → Except Halt α
  | .ok value => .ok value
  | .error error => .error (.error error)

section Raised

variable {α β : Type}

@[simp] theorem raised_ok (value : α) : raised (.ok value) = .ok value := rfl

@[simp] theorem raised_error (error : Error) :
    raised (.error error : Except Error α) = .error (.error error) := rfl

@[simp] theorem raised_bind (first : Except Error α) (next : α → Except Error β) :
    raised (first >>= next) = raised first >>= fun value => raised (next value) := by
  cases first <;> rfl

theorem raised_eq_ok {result : Except Error α} {value : α} :
    raised result = .ok value ↔ result = .ok value := by
  cases result <;> simp [raised]

theorem raised_eq_error {result : Except Error α} {halt : Halt} :
    raised result = .error halt ↔ ∃ error, halt = .error error ∧ result = .error error := by
  cases result <;> simp [raised, eq_comm]

theorem sized24_eq {body : Octets} (short : body.length < 2 ^ 24) :
    sized24 body = raised (Field.sized24 body) := by
  rw [sized24, triple_eq short, Field.sized24, Field.triple, if_pos short]
  rfl

/-- A result is raised if its parts are; the second part may use the first. -/
theorem raised_of_bind {result : Except Halt α} {total : Except Error α} {next : α → Except Halt β}
    {next' : α → Except Error β} (first : result = raised total)
    (later : ∀ value, total = .ok value → next value = raised (next' value)) :
    (result >>= next) = raised (total >>= next') := by
  rw [first]
  cases total with
  | error error => rfl
  | ok value => exact later value rfl

theorem raised_of_ite {c : Prop} [Decidable c] {result result' : Except Halt α}
    {total total' : Except Error α} (first : c → result = raised total)
    (second : ¬c → result' = raised total') :
    (if c then result else result') = raised (if c then total else total') := by
  split
  · next holds => exact first holds
  · next fails => exact second fails

end Raised

/-- A program of the library among programs that may trap. -/
def lift {σ α : Type} (program : EStateM Error σ α) : EStateM Halt σ α := fun s =>
  match program s with
  | .ok value s => .ok value s
  | .error error s => .error (.error error) s

/-- Two programs end alike: both with the same value, or both with the same failure, and in related
states. -/
inductive Matches {σ τ α : Type} (related : σ → τ → Prop) :
    EStateM.Result Halt σ α → EStateM.Result Error τ α → Prop
  | ok {value : α} {s : σ} {t : τ} (states : related s t) :
    Matches related (.ok value s) (.ok value t)
  | error {error : Error} {s : σ} {t : τ} (states : related s t) :
    Matches related (.error (.error error) s) (.error error t)

/-- A program that may trap does from one state what a program of the library does from another. -/
def Follows {σ τ α : Type} (related : σ → τ → Prop) (program : EStateM Halt σ α)
    (total : EStateM Error τ α) (s : σ) (t : τ) : Prop :=
  Matches related (program s) (total t)

namespace Follows

variable {σ τ α β : Type} {related : σ → τ → Prop} {s : σ} {t : τ}

theorem pure (value : α) (states : related s t) : Follows related (pure value) (pure value) s t :=
  .ok states

theorem throw (error : Error) (states : related s t) :
    Follows related (throw (.error error) : EStateM Halt σ α) (throw error) s t := .error states

section

variable {program : EStateM Halt σ α} {total : EStateM Error τ α}

/-- If one succeeds, so does the other, with the same value. -/
theorem of_ok (follows : Follows related program total s t) {value : α} {s' : σ}
    (ran : program s = .ok value s') : ∃ t', total t = .ok value t' ∧ related s' t' := by
  unfold Follows at follows
  rw [ran] at follows
  generalize total t = result at follows ⊢
  cases follows with
  | ok states => exact ⟨_, rfl, states⟩

/-- It stops only at a failure of the other. -/
theorem of_error (follows : Follows related program total s t) {halt : Halt} {s' : σ}
    (ran : program s = .error halt s') :
    ∃ error t', halt = .error error ∧ total t = .error error t' ∧ related s' t' := by
  unfold Follows at follows
  rw [ran] at follows
  generalize total t = result at follows ⊢
  cases follows with
  | error states => exact ⟨_, _, rfl, rfl, states⟩

/-- Programs follow each other if their parts do; the second part may use how the first ended. -/
theorem bind {next : α → EStateM Halt σ β} {next' : α → EStateM Error τ β}
    (first : Follows related program total s t)
    (later : ∀ value s' t', total t = .ok value t' → related s' t' →
      Follows related (next value) (next' value) s' t') :
    Follows related (program >>= next) (total >>= next') s t := by
  cases ran : program s with
  | ok value s' =>
    obtain ⟨t', ended, states⟩ := first.of_ok ran
    have rest := later value s' t' ended states
    unfold Follows at rest ⊢
    rw [bind_of_ok ran, bind_of_ok ended]
    exact rest
  | error halt s' =>
    obtain ⟨error, t', rfl, ended, states⟩ := first.of_error ran
    unfold Follows
    rw [bind_of_error ran, bind_of_error ended]
    exact .error states

end

/-- A program that fails does nothing of what comes next. -/
theorem refuse {next : α → EStateM Halt σ β} {next' : α → EStateM Error τ β} (error : Error)
    (states : related s t) :
    Follows related (MonadExcept.throw (Halt.error error) >>= next)
      (MonadExcept.throw error >>= next') s t := .error states

theorem ite {c : Prop} [Decidable c] {program program' : EStateM Halt σ α}
    {total total' : EStateM Error τ α} (holds : c → Follows related program total s t)
    (fails : ¬c → Follows related program' total' s t) :
    Follows related (if c then program else program') (if c then total else total') s t := by
  split
  · next yes => exact holds yes
  · next no => exact fails no

theorem ofExcept {result : Except Halt α} {total : Except Error α} (same : result = raised total)
    (states : related s t) : Follows related (ofExcept result) (ofExcept total) s t := by
  rw [same]
  cases total with
  | ok value => exact .ok states
  | error error => exact .error states

end Follows

/-- A program that may trap does from a state what a program of the library does from there. -/
abbrev Agrees {σ α : Type} (program : EStateM Halt σ α) (total : EStateM Error σ α)
    (s : σ) : Prop :=
  Follows Eq program total s s

namespace Agrees

variable {σ α β : Type} {s : σ}

theorem pure (value : α) : Agrees (pure value) (pure value) s := Follows.pure value rfl

theorem throw (error : Error) :
    Agrees (throw (.error error) : EStateM Halt σ α) (throw error) s := Follows.throw error rfl

theorem refuse {next : α → EStateM Halt σ β} {next' : α → EStateM Error σ β} (error : Error) :
    Agrees (MonadExcept.throw (Halt.error error) >>= next)
      (MonadExcept.throw error >>= next') s := Follows.refuse error rfl

theorem ofExcept {result : Except Halt α} {total : Except Error α} (same : result = raised total) :
    Agrees (ofExcept result) (ofExcept total) s := Follows.ofExcept same rfl

theorem ite {c : Prop} [Decidable c] {program program' : EStateM Halt σ α}
    {total total' : EStateM Error σ α} (holds : c → Agrees program total s)
    (fails : ¬c → Agrees program' total' s) :
    Agrees (if c then program else program') (if c then total else total') s :=
  Follows.ite holds fails

theorem get : Agrees (get : EStateM Halt σ σ) get s := .ok rfl

theorem modify (change : σ → σ) :
    Agrees (modify change : EStateM Halt σ PUnit) (modify change) s := .ok rfl

/-- What a program of the library does, it does among programs that may trap. -/
theorem lift (total : EStateM Error σ α) : Agrees (lift total) total s := by
  unfold Agrees Follows Trapping.lift
  cases total s with
  | ok value s' => exact .ok rfl
  | error error s' => exact .error rfl

section

variable {program : EStateM Halt σ α} {total : EStateM Error σ α}

theorem eq_ok (agrees : Agrees program total s) {value : α} {s' : σ}
    (ended : total s = .ok value s') : program s = .ok value s' := by
  unfold Agrees Follows at agrees
  rw [ended] at agrees
  generalize program s = result at agrees ⊢
  cases agrees with
  | ok same => rw [same]

theorem eq_error (agrees : Agrees program total s) {error : Error} {s' : σ}
    (ended : total s = .error error s') : program s = .error (.error error) s' := by
  unfold Agrees Follows at agrees
  rw [ended] at agrees
  generalize program s = result at agrees ⊢
  cases agrees with
  | error same => rw [same]

theorem bind {next : α → EStateM Halt σ β} {next' : α → EStateM Error σ β}
    (first : Agrees program total s)
    (later : ∀ value s', total s = .ok value s' → Agrees (next value) (next' value) s') :
    Agrees (program >>= next) (total >>= next') s := by
  refine Follows.bind first fun value s' t' ended same => ?_
  subst same
  exact later value s' ended

end

end Agrees

end TransportSecurity.Trapping
