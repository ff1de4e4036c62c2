import TransportSecurity.Proofs.Message.Delimited

/-!
All the messages of a stream.

`messages` takes whole messages off a stream as long as there are any, by the lengths in their
headers. That is the one way to read the stream that the headers allow (`messages_eq_iff`), and it
is the same if the stream is read in two parts, the second behind what the first has left
(`messages_append`). So fragments that are collected one after the other hold the messages of the
fragments in a row (`gather_eq`).
-/

namespace TransportSecurity.Assembly

/-- The whole messages at the front of a stream, in order, and the octets of the message that is not
whole yet, or why that message is not waited for. -/
def messages (stream : Octets) : List Octets × Except Error Octets :=
  match _found : next? stream with
  | .ok (some (message, rest)) => (message :: (messages rest).1, (messages rest).2)
  | .ok none => ([], .ok stream)
  | .error error => ([], .error error)
termination_by stream.length
decreasing_by all_goals exact length_lt_of_next? _found

/-- The messages off fragments that come one after the other, each put behind the octets that were
left before it. -/
def gather (pending : Octets) : List Octets → List Octets × Except Error Octets
  | [] => ([], .ok pending)
  | fragment :: rest =>
    match messages (pending ++ fragment) with
    | (found, .ok left) => (found ++ (gather left rest).1, (gather left rest).2)
    | (found, .error error) => (found, .error error)

/-- How a stream is cut into messages by the lengths in their headers. -/
inductive Reading : Octets → List Octets → Except Error Octets → Prop
  | start {left : Octets} (short : left.length < Body.headerLength) : Reading left [] (.ok left)
  | part {code a b c : UInt8} {body : Octets} (short : Octets.value [a, b, c] ≤ maxLength)
    (missing : body.length < Octets.value [a, b, c]) :
    Reading (code :: a :: b :: c :: body) [] (.ok (code :: a :: b :: c :: body))
  | tooLong {code a b c : UInt8} {rest : Octets} (long : maxLength < Octets.value [a, b, c]) :
    Reading (code :: a :: b :: c :: rest) []
      (.error (.handshakeOverflow (Octets.value [a, b, c])))
  | message {code a b c : UInt8} {body rest : Octets} {found : List Octets}
    {ends : Except Error Octets} (short : Octets.value [a, b, c] ≤ maxLength)
    (length : body.length = Octets.value [a, b, c]) (later : Reading rest found ends) :
    Reading (code :: a :: b :: c :: (body ++ rest)) ((code :: a :: b :: c :: body) :: found) ends

variable {stream message rest left : Octets} {found : List Octets} {error : Error}

theorem next?_of_start (short : stream.length < Body.headerLength) : next? stream = .ok none := by
  unfold next?
  split
  · simp only [List.length_cons, Body.headerLength] at short
    omega
  · rfl

/-- Once the header of a message is there, its length decides. -/
theorem next?_cons (code a b c : UInt8) (tail : Octets) : next? (code :: a :: b :: c :: tail) =
    if maxLength < Octets.value [a, b, c] then
      .error (.handshakeOverflow (Octets.value [a, b, c]))
    else if tail.length < Octets.value [a, b, c] then .ok none
    else .ok (some (code :: a :: b :: c :: tail.take (Octets.value [a, b, c]),
      tail.drop (Octets.value [a, b, c]))) := by
  have taken : (code :: a :: b :: c :: tail).take (Body.headerLength + Octets.value [a, b, c]) =
      code :: a :: b :: c :: tail.take (Octets.value [a, b, c]) := by
    rw [Body.headerLength, Nat.add_comm]
    simp only [List.take_succ_cons]
  have dropped : (code :: a :: b :: c :: tail).drop (Body.headerLength + Octets.value [a, b, c]) =
      tail.drop (Octets.value [a, b, c]) := by
    rw [Body.headerLength, Nat.add_comm]
    simp only [List.drop_succ_cons]
  have missing : (code :: a :: b :: c :: tail.take (Octets.value [a, b, c])).length <
      Body.headerLength + Octets.value [a, b, c] ↔ tail.length < Octets.value [a, b, c] := by
    simp only [List.length_cons, List.length_take, Body.headerLength]
    omega
  simp only [next?, taken, dropped, missing]

/-- Either the header of the next message is not all there, or it is. -/
theorem short_or_header (stream : Octets) : stream.length < Body.headerLength ∨
    ∃ code a b c tail, stream = code :: a :: b :: c :: tail := by
  match stream with
  | code :: a :: b :: c :: tail => exact Or.inr ⟨code, a, b, c, tail, rfl⟩
  | [] | [_] | [_, _] | [_, _, _] => exact Or.inl (by simp [Body.headerLength])

theorem reading_of_nothing (nothing : next? stream = .ok none) :
    Reading stream [] (.ok stream) := by
  obtain short | ⟨code, a, b, c, tail, rfl⟩ := short_or_header stream
  · exact .start short
  · rw [next?_cons] at nothing
    split at nothing
    · cases nothing
    · next short =>
      split at nothing
      · next missing => exact .part (Nat.le_of_not_lt short) missing
      · cases nothing

theorem reading_of_error (refused : next? stream = .error error) :
    Reading stream [] (.error error) := by
  obtain short | ⟨code, a, b, c, tail, rfl⟩ := short_or_header stream
  · cases (next?_of_start short).symm.trans refused
  · rw [next?_cons] at refused
    split at refused
    · next long =>
      cases refused
      exact .tooLong long
    · split at refused <;> cases refused

theorem reading_of_found {ends : Except Error Octets}
    (yields : next? stream = .ok (some (message, rest))) (later : Reading rest found ends) :
    Reading stream (message :: found) ends := by
  obtain short | ⟨code, a, b, c, tail, rfl⟩ := short_or_header stream
  · cases (next?_of_start short).symm.trans yields
  · rw [next?_cons] at yields
    split at yields
    · cases yields
    · next short =>
      split at yields
      · cases yields
      · next enough =>
        cases yields
        have length : (tail.take (Octets.value [a, b, c])).length = Octets.value [a, b, c] :=
          List.length_take_of_le (Nat.le_of_not_lt enough)
        have message := @Reading.message code _ _ _ _ _ _ _ (Nat.le_of_not_lt short) length later
        rwa [List.take_append_drop] at message

/-- A stream yields a message exactly if it begins with a whole one that is not too long. -/
theorem next?_eq_some_iff : next? stream = .ok (some (message, rest)) ↔
    Message.IsWhole message ∧ message.length ≤ Body.headerLength + maxLength ∧
      stream = message ++ rest := by
  constructor
  · intro yields
    refine ⟨isWhole_of_next? yields, ?_, (next?_eq_some yields).1.symm⟩
    unfold next? at yields
    split at yields
    · dsimp only at yields
      split at yields
      · cases yields
      · split at yields
        · cases yields
        · cases yields
          rw [List.length_take]
          omega
    · cases yields
  · rintro ⟨whole, short, rfl⟩
    exact next?_append whole short

/-- A message that is too long is not waited for, and the error says how long its body is. -/
theorem next?_of_long (whole : Message.IsWhole message)
    (long : Body.headerLength + maxLength < message.length) (rest : Octets) :
    next? (message ++ rest) =
      .error (.handshakeOverflow (message.length - Body.headerLength)) := by
  obtain ⟨code, body, fits, rfl⟩ := whole
  have digits : (Octets.bigEndian 3 body.length).length = 3 := Octets.length_bigEndian ..
  have value : Octets.value (Octets.bigEndian 3 body.length) = body.length :=
    Octets.value_bigEndian_of_lt fits
  generalize Octets.bigEndian 3 body.length = length at digits value long ⊢
  match length, digits with
  | [a, b, c], _ =>
    simp only [List.cons_append, List.nil_append, List.length_cons, Body.headerLength] at long ⊢
    rw [next?_cons, value, if_pos (by omega)]
    rfl

/-- A message that is not waited for is not waited for whatever follows it. -/
theorem next?_append_of_error (refused : next? stream = .error error) (more : Octets) :
    next? (stream ++ more) = .error error := by
  unfold next? at refused
  split at refused
  · next code a b c tail =>
    dsimp only at refused
    split at refused
    · next long =>
      simp only [List.cons_append, next?, if_pos long]
      exact refused
    · split at refused <;> cases refused
  · cases refused

theorem messages_of_nothing (nothing : next? stream = .ok none) :
    messages stream = ([], .ok stream) := by
  rw [messages]
  split
  · next yields => cases nothing.symm.trans yields
  · rfl
  · next refused => cases nothing.symm.trans refused

theorem messages_of_error (refused : next? stream = .error error) :
    messages stream = ([], .error error) := by
  rw [messages]
  split
  · next yields => cases refused.symm.trans yields
  · next nothing => cases refused.symm.trans nothing
  · next again =>
    cases refused.symm.trans again
    rfl

theorem messages_of_found (yields : next? stream = .ok (some (message, rest))) :
    messages stream = (message :: (messages rest).1, (messages rest).2) := by
  rw [messages]
  split
  · next again =>
    cases yields.symm.trans again
    rfl
  · next nothing => cases yields.symm.trans nothing
  · next refused => cases yields.symm.trans refused

/-- A whole message at the front that is not too long is the first. -/
theorem messages_of_front (whole : Message.IsWhole message)
    (short : message.length ≤ Body.headerLength + maxLength) (rest : Octets) :
    messages (message ++ rest) = (message :: (messages rest).1, (messages rest).2) :=
  messages_of_found (next?_append whole short)

/-- A stream is read as the lengths in its headers say. -/
theorem messages_eq_iff {ends : Except Error Octets} :
    messages stream = (found, ends) ↔ Reading stream found ends := by
  constructor
  · intro read
    fun_induction messages stream generalizing found with
    | case1 stream message rest yields ih =>
      obtain ⟨rfl, rfl⟩ := Prod.mk.inj read
      exact reading_of_found yields (ih rfl)
    | case2 stream nothing =>
      cases read
      exact reading_of_nothing nothing
    | case3 stream error refused =>
      cases read
      exact reading_of_error refused
  · intro reading
    induction reading with
    | start short => exact messages_of_nothing (next?_of_start short)
    | part short missing =>
      refine messages_of_nothing ?_
      rw [next?_cons, if_neg (by omega), if_pos missing]
    | tooLong long =>
      refine messages_of_error ?_
      rw [next?_cons, if_pos long]
    | @message code a b c body rest found ends short length later ih =>
      have yields : next? (code :: a :: b :: c :: (body ++ rest)) =
          .ok (some (code :: a :: b :: c :: body, rest)) := by
        rw [next?_cons, if_neg (by omega), if_neg (by rw [List.length_append]; omega),
          List.take_left' length, List.drop_left' length]
      rw [messages_of_found yields, ih]

/-- What is left of a stream waits for more. -/
theorem next?_of_messages (read : messages stream = (found, .ok left)) : next? left = .ok none := by
  fun_induction messages stream generalizing found with
  | case1 stream message rest yields ih => exact ih (Prod.ext rfl (Prod.mk.inj read).2)
  | case2 stream nothing =>
    cases read
    exact nothing
  | case3 stream error refused => cases read

/-- The messages of a stream and what is left of it make up the stream. -/
theorem flatten_of_messages (read : messages stream = (found, .ok left)) :
    stream = found.flatten ++ left := by
  fun_induction messages stream generalizing found with
  | case1 stream message rest yields ih =>
    obtain ⟨rfl, ends⟩ := Prod.mk.inj read
    rw [List.flatten_cons, List.append_assoc, ← ih (Prod.ext rfl ends)]
    exact (next?_eq_some yields).1.symm
  | case2 stream nothing =>
    cases read
    rfl
  | case3 stream error refused => cases read

/-- A whole message that is not too long is read as itself. -/
theorem messages_of_whole (whole : Message.IsWhole message)
    (short : message.length ≤ Body.headerLength + maxLength) :
    messages message = ([message], .ok []) := by
  have read := messages_of_front whole short []
  rwa [List.append_nil, @messages_of_nothing [] rfl] at read

/-- A stream is read in two parts, the second behind what the first has left. -/
theorem messages_append (stream more : Octets) : messages (stream ++ more) =
    match messages stream with
    | (found, .ok left) => (found ++ (messages (left ++ more)).1, (messages (left ++ more)).2)
    | (found, .error error) => (found, .error error) := by
  fun_induction messages stream with
  | case1 stream message rest yields ih =>
    obtain ⟨whole, short, rfl⟩ := next?_eq_some_iff.mp yields
    have first := next?_eq_some_iff.mpr ⟨whole, short, List.append_assoc message rest more⟩
    rw [messages_of_found first, ih]
    generalize messages rest = read
    obtain ⟨found, left | error⟩ := read <;> rfl
  | case2 stream nothing => rfl
  | case3 stream error refused => exact messages_of_error (next?_append_of_error refused more)

/-- However octets are cut into fragments, the fragments hold the messages of the octets. -/
theorem gather_eq {pending : Octets} (waits : next? pending = .ok none) (fragments : List Octets) :
    gather pending fragments = messages (pending ++ fragments.flatten) := by
  induction fragments generalizing pending with
  | nil =>
    rw [List.flatten_nil, List.append_nil, messages_of_nothing waits]
    rfl
  | cons fragment fragments ih =>
    rw [List.flatten_cons, ← List.append_assoc, messages_append, gather]
    cases read : messages (pending ++ fragment) with
    | mk found ends =>
      cases ends with
      | error error => rfl
      | ok left =>
        dsimp only
        rw [ih (next?_of_messages read)]

end TransportSecurity.Assembly
