import TransportSecurity.Proofs.Bytes.Requests
import TransportSecurity.Proofs.Trapping.Reading

/-!
Whatever is asked for, by place.

A cursor answers requests as the octets behind it do, whatever they are and however they end
(`turn_inPlace`). Each request moves it forward within its buffer, over the octets that the request
accounts for (`Advances`). So from the beginning of a buffer all that was consumed, in order, is
what lies in front of the cursor (`turns_account_for_buffer`).
-/

namespace TransportSecurity.Trapping

open Scan

/-- A string with its length in front. A length of one octet is read as an octet. -/
def sizedInPlace (width : Nat) : Reader Octets :=
  if width = 1 then Reader.sized8 else Reader.sized width

/-- The reader that answers a request. -/
def inPlace : Request → Reader Answer
  | .take n => return .octets (← Reader.take n)
  | .octet => return .octet (← Reader.octet)
  | .word => return .word (← Reader.word)
  | .number width => return .number (← Reader.number width)
  | .sized width => return .octets (← sizedInPlace width)
  | .remaining => return .number (← Reader.remaining)
  | .atEnd => return .flag (← Reader.atEnd)
  | .finish => do
    Reader.finish
    return .nothing

/-! ### The octets behind the cursor -/

theorem Reads.remaining : Reads Reader.remaining Scan.remaining := by
  intro cursor octets holds
  unfold Follows
  rw [remaining_eq holds]
  exact .ok holds

theorem Reads.sizedInPlace (width : Nat) : Reads (sizedInPlace width) (Scan.sized width) := by
  unfold Trapping.sizedInPlace
  split
  · next single =>
    subst single
    exact Reads.sized8
  · exact Reads.sized width

theorem reads_inPlace (request : Request) : Reads (inPlace request) request.scan := by
  cases request with
  | take n => exact (Reads.take n).bind fun _ => .pure _
  | octet => exact Reads.octet.bind fun _ => .pure _
  | word => exact Reads.word.bind fun _ => .pure _
  | number width => exact (Reads.number width).bind fun _ => .pure _
  | sized width => exact (Reads.sizedInPlace width).bind fun _ => .pure _
  | remaining => exact Reads.remaining.bind fun _ => .pure _
  | atEnd => exact Reads.atEnd.bind fun _ => .pure _
  | finish => exact Reads.finish.bind fun _ => .pure _

/-! ### The buffer around it -/

/-- Wherever a reader ends, the buffer is the one that it began with. -/
def Keeps {α : Type} (reader : Reader α) : Prop :=
  ∀ cursor, (∀ value next, reader cursor = .ok value next → next.buffer = cursor.buffer) ∧
    ∀ halt next, reader cursor = .error halt next → next.buffer = cursor.buffer

namespace Keeps

variable {α β : Type}

theorem pure (value : α) : Keeps (Pure.pure value) := by
  refine fun cursor => ⟨fun value next ran => ?_, fun halt next ran => ?_⟩
  · obtain ⟨_, rfl⟩ := pure_eq_ok.mp ran
    rfl
  · exact (pure_eq_error.mp ran).elim

theorem throw (halt : Halt) : Keeps (throw halt : Reader α) := by
  refine fun cursor => ⟨fun value next ran => (throw_eq_ok.mp ran).elim, fun halt next ran => ?_⟩
  cases ran
  rfl

theorem ofExcept (result : Except Halt α) : Keeps (ofExcept result) := by
  cases result with
  | ok value => exact pure value
  | error halt => exact throw halt

theorem bind {reader : Reader α} {next : α → Reader β} (first : Keeps reader)
    (later : ∀ value, Keeps (next value)) : Keeps (reader >>= next) := by
  refine fun cursor => ⟨fun value last ran => ?_, fun halt last ran => ?_⟩
  · obtain ⟨a, between, read, ended⟩ := bind_eq_ok.mp ran
    exact ((later a between).1 _ _ ended).trans ((first cursor).1 _ _ read)
  · rcases bind_eq_error.mp ran with failed | ⟨a, between, read, ended⟩
    · exact (first cursor).2 _ _ failed
    · exact ((later a between).2 _ _ ended).trans ((first cursor).1 _ _ read)

theorem get : Keeps (get : Reader Cursor) := by
  refine fun cursor => ⟨fun value next ran => ?_, fun halt next ran => ?_⟩
  · obtain ⟨_, rfl⟩ := get_eq_ok.mp ran
    rfl
  · exact (get_eq_error.mp ran).elim

theorem remaining : Keeps Reader.remaining := get.bind fun _ => ofExcept _

theorem take (n : Nat) : Keeps (Reader.take n) := by
  refine fun cursor => ⟨fun value next ran => by rw [(take_eq_ok ran).1], fun halt next ran => ?_⟩
  rcases bind_eq_error.mp ran with failed | ⟨left, between, counted, failed⟩
  · exact (remaining cursor).2 _ _ failed
  · have kept := (remaining cursor).1 _ _ counted
    split at failed
    · cases failed
      exact kept
    · dsimp only at failed
      rw [get_bind] at failed
      cases sliced : slice between.buffer between.offset (between.offset + n) with
      | ok octets =>
        rw [sliced] at failed
        cases failed
      | error halt =>
        rw [sliced] at failed
        cases failed
        exact kept

theorem octet : Keeps Reader.octet := (take 1).bind fun _ => ofExcept _

theorem number (width : Nat) : Keeps (Reader.number width) := (take width).bind fun _ => ofExcept _

theorem sizedInPlace (width : Nat) : Keeps (sizedInPlace width) := by
  unfold Trapping.sizedInPlace
  split
  · exact octet.bind fun _ => take _
  · exact (number width).bind fun _ => take _

theorem atEnd : Keeps Reader.atEnd := remaining.bind fun _ => pure _

theorem finish : Keeps Reader.finish := atEnd.bind fun _ => by
  split
  · exact pure _
  · exact throw _

end Keeps

theorem keeps_inPlace (request : Request) : Keeps (inPlace request) := by
  cases request with
  | take n => exact (Keeps.take n).bind fun _ => .pure _
  | octet => exact Keeps.octet.bind fun _ => .pure _
  | word => exact ((Keeps.number 2).bind fun _ => .pure _).bind fun _ => .pure _
  | number width => exact (Keeps.number width).bind fun _ => .pure _
  | sized width => exact (Keeps.sizedInPlace width).bind fun _ => .pure _
  | remaining => exact Keeps.remaining.bind fun _ => .pure _
  | atEnd => exact Keeps.atEnd.bind fun _ => .pure _
  | finish => exact Keeps.finish.bind fun _ => .pure _

/-! ### One request and all of them -/

section Requests

variable {cursor : Cursor} {octets : Octets}

/-- From a place within its buffer a cursor answers a request as the octets behind it do. -/
theorem turn_inPlace (request : Request) (holds : cursor.Holds octets) :
    (turn inPlace request cursor).ended = raised (turn Request.scan request octets).ended ∧
      (turn inPlace request cursor).after.Holds (turn Request.scan request octets).after ∧
      (turn inPlace request cursor).after.buffer = cursor.buffer := by
  have follows := reads_inPlace request cursor octets holds
  cases ran : inPlace request cursor with
  | ok answer next =>
    obtain ⟨rest, answered, there⟩ := follows.of_ok ran
    rw [turn_of_ok ran, turn_of_ok answered]
    exact ⟨rfl, there, (keeps_inPlace request cursor).1 _ _ ran⟩
  | error halt next =>
    obtain ⟨error, rest, rfl, failed, there⟩ := follows.of_error ran
    rw [turn_of_error ran, turn_of_error failed]
    exact ⟨rfl, there, (keeps_inPlace request cursor).2 _ _ ran⟩

/-- The octets that the cursor has passed over. -/
def passed (turn : Turn Halt Cursor) : Octets :=
  (turn.before.buffer.take turn.after.offset).drop turn.before.offset

/-- A request that has moved the cursor forward within a buffer, over the octets that the request
accounts for. -/
structure Advances (buffer : Octets) (turn : Turn Halt Cursor) : Prop where
  same : turn.before.buffer = buffer ∧ turn.after.buffer = buffer
  forward : turn.before.offset ≤ turn.after.offset
  within : turn.after.offset ≤ buffer.length
  accounts : ∃ ended, turn.ended = raised ended ∧
    Accounts turn.request (passed turn) ended (buffer.drop turn.after.offset)

theorem turn_advances (request : Request) (inside : cursor.offset ≤ cursor.buffer.length) :
    Advances cursor.buffer (turn inPlace request cursor) := by
  obtain ⟨ended, ⟨within, behind⟩, same⟩ := turn_inPlace request ⟨inside, rfl⟩
  obtain ⟨consumed, parts, accounts⟩ := turn_accounts request (cursor.buffer.drop cursor.offset)
  rw [same] at within behind
  rw [← behind] at parts accounts
  have lengths := congrArg List.length parts
  rw [List.length_append, List.length_drop, List.length_drop] at lengths
  have between : passed (turn inPlace request cursor) = consumed := by
    rw [passed, turn_before, List.drop_take, parts]
    exact List.take_left' (by omega)
  refine ⟨⟨by rw [turn_before], same⟩, by rw [turn_before]; omega, within, _, ended, ?_⟩
  rw [turn_request, between]
  exact accounts

theorem Advances.take_append_passed {buffer : Octets} {turn : Turn Halt Cursor}
    (advances : Advances buffer turn) :
    buffer.take turn.before.offset ++ passed turn = buffer.take turn.after.offset := by
  have front : buffer.take turn.before.offset =
      (buffer.take turn.after.offset).take turn.before.offset := by
    rw [List.take_take, Nat.min_eq_left advances.forward]
  rw [passed, advances.same.1, front, List.take_append_drop]

/-- What fails has moved the cursor by the length in front of what was asked for at most. -/
theorem Advances.offset_of_error {buffer : Octets} {turn : Turn Halt Cursor} {halt : Halt}
    (advances : Advances buffer turn) (failed : turn.ended = .error halt) :
    turn.after.offset ≤ turn.before.offset + turn.request.lengthWidth := by
  obtain ⟨ended, same, accounts⟩ := advances.accounts
  obtain ⟨error, _, rfl⟩ := raised_eq_error.mp (same.symm.trans failed)
  have short := accounts.length_of_error
  have within := advances.within
  rw [passed, advances.same.1, List.length_drop, List.length_take] at short
  omega

/-- What requests come to that are made one after the other from a cursor with these octets behind
it. -/
structure Moves (requests : List Request) (cursor : Cursor) (octets : Octets) : Prop where
  same : (stateAfter inPlace requests cursor).buffer = cursor.buffer
  behind : (stateAfter inPlace requests cursor).Holds (stateAfter Request.scan requests octets)
  answers : (turns inPlace requests cursor).map Turn.ended =
    (turns Request.scan requests octets).map fun turn => raised turn.ended
  advances : ∀ turn ∈ turns inPlace requests cursor, Advances cursor.buffer turn
  consecutive : cursor.buffer.take cursor.offset ++
      (turns inPlace requests cursor).flatMap passed =
    cursor.buffer.take (stateAfter inPlace requests cursor).offset

/-- However many requests there are and however they end, each goes on where the one before has
stopped. -/
theorem moves_of_holds (requests : List Request) (holds : cursor.Holds octets) :
    Moves requests cursor octets := by
  induction requests generalizing cursor octets with
  | nil => exact ⟨rfl, holds, rfl, by simp [turns], List.append_nil _⟩
  | cons request requests ih =>
    obtain ⟨ended, there, kept⟩ := turn_inPlace request holds
    have first := turn_advances request holds.1
    have rest := ih there
    refine ⟨rest.same.trans kept, rest.behind, ?_, ?_, ?_⟩
    · rw [turns, turns, List.map_cons, List.map_cons, ended, rest.answers]
    · intro turn found
      rcases List.mem_cons.mp found with rfl | later
      · exact first
      · exact kept ▸ rest.advances turn later
    · have front := first.take_append_passed
      have back := rest.consecutive
      rw [turn_before] at front
      rw [kept] at back
      rw [turns, List.flatMap_cons, ← List.append_assoc, front]
      exact back

end Requests

/-- Fields that fit can be put one behind the other. The matching requests answer with them and
leave a tail exactly if what they are made of is what was put, with the tail behind it. And of any
buffer anything can be asked: the cursor stays within the buffer and moves forward over consecutive
slices of it, by what each request accounts for, which is at most the length in front of what was
asked for if the request fails. -/
theorem turns_account_for_buffer :
    (∀ entries : List Entry, (∀ entry ∈ entries, entry.Fits) → ∃ written,
      (∀ front, Entry.putAll entries front = .ok (front ++ written)) ∧
      ∀ octets tail,
        ((turns Request.scan (entries.map Entry.request) octets).map Turn.ended =
            entries.map (fun entry => .ok entry.answer) ∧
          stateAfter Request.scan (entries.map Entry.request) octets = tail) ↔
          octets = written ++ tail) ∧
    ∀ (buffer : Octets) (requests : List Request),
      (stateAfter inPlace requests ⟨buffer, 0⟩).buffer = buffer ∧
      (stateAfter inPlace requests ⟨buffer, 0⟩).offset ≤ buffer.length ∧
      buffer.drop (stateAfter inPlace requests ⟨buffer, 0⟩).offset =
        stateAfter Request.scan requests buffer ∧
      (turns inPlace requests ⟨buffer, 0⟩).map Turn.ended =
        (turns Request.scan requests buffer).map (fun turn => raised turn.ended) ∧
      (turns inPlace requests ⟨buffer, 0⟩).flatMap passed =
        buffer.take (stateAfter inPlace requests ⟨buffer, 0⟩).offset ∧
      ∀ turn ∈ turns inPlace requests ⟨buffer, 0⟩, Advances buffer turn ∧
        ∀ halt, turn.ended = .error halt →
          turn.after.offset ≤ turn.before.offset + turn.request.lengthWidth := by
  refine ⟨fun entries fits => Entry.turns_iff_written fits, fun buffer requests => ?_⟩
  obtain ⟨same, ⟨within, behind⟩, answers, advances, consecutive⟩ :=
    moves_of_holds requests (Cursor.holds_start buffer)
  rw [same] at within behind
  refine ⟨same, within, behind, answers, consecutive, fun turn found => ?_⟩
  exact ⟨advances turn found, fun halt failed => (advances turn found).offset_of_error failed⟩

/-- Fields of every kind, for a rehearsal. -/
def rehearsalEntries : List Entry :=
  [.sized16 [1, 2, 3], .sized24 [9, 9], .sized8 [], .word 0x0303, .triple 0xffffff]

/-- What they are written as. -/
def rehearsalOctets : Octets := [0, 3, 1, 2, 3, 0, 0, 2, 9, 9, 0, 3, 3, 0xff, 0xff, 0xff]

/-- Fields are put behind an octet that is there, and read back with an octet behind them. A length
in front of too little is all that is consumed. -/
theorem turns_account_for_buffer_rehearsal :
    (∀ entry ∈ rehearsalEntries, entry.Fits) ∧
    Entry.putAll rehearsalEntries [0x16] = .ok (0x16 :: rehearsalOctets) ∧
    (turns Request.scan (rehearsalEntries.map Entry.request) (rehearsalOctets ++ [7])).map
      Turn.ended = rehearsalEntries.map (fun entry => .ok entry.answer) ∧
    stateAfter Request.scan (rehearsalEntries.map Entry.request) (rehearsalOctets ++ [7]) = [7] ∧
    (turn inPlace (.sized 2) ⟨[0, 5, 0xaa, 0xbb], 0⟩).ended = .error (.error .invalidLength) ∧
    (turn inPlace (.sized 2) ⟨[0, 5, 0xaa, 0xbb], 0⟩).after.offset ≤ 2 := by
  obtain ⟨reading, asking⟩ := turns_account_for_buffer
  have fits : ∀ entry ∈ rehearsalEntries, entry.Fits := by
    simp [rehearsalEntries, Entry.Fits]
  obtain ⟨written, put, back⟩ := reading rehearsalEntries fits
  have spelled : written = rehearsalOctets := Except.ok.inj ((put []).symm.trans rfl)
  subst spelled
  obtain ⟨answered, left⟩ := (back (rehearsalOctets ++ [7]) [7]).mpr rfl
  have missing : (turn inPlace (.sized 2) ⟨[0, 5, 0xaa, 0xbb], 0⟩).ended =
      .error (.error .invalidLength) := rfl
  obtain ⟨-, -, -, -, -, each⟩ := asking [0, 5, 0xaa, 0xbb] [.sized 2]
  have atMost := (each _ (List.mem_singleton_self _)).2 _ missing
  exact ⟨fits, put [0x16], answered, left, missing, atMost⟩

end TransportSecurity.Trapping
