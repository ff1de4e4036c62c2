import TransportSecurity.Proofs.Bytes.Reading
import TransportSecurity.Handshake.Assembly

/-!
Messages delimit themselves.

Whatever is encoded, decoded or taken off a stream is a `Message.IsWhole`: a type, the length of the
body, and the body. So a row of messages can be cut in one way only (`flatten_inj`), and whole
messages at the front of a stream are taken off it one by one (`next?_append`).
-/

namespace TransportSecurity

namespace Message

/-- Octets that are one message: a type, the length of the body in three octets, and the body. -/
def IsWhole (message : Octets) : Prop :=
  ∃ code body, body.length < 2 ^ 24 ∧
    message = code :: (Octets.bigEndian 3 body.length ++ body)

theorem IsWhole.ne_nil {message : Octets} (whole : IsWhole message) : message ≠ [] := by
  obtain ⟨code, body, _, rfl⟩ := whole
  simp

/-- Of two messages at the front of the same octets, both are the same. -/
theorem IsWhole.append_inj {a b restA restB : Octets} (ha : IsWhole a) (hb : IsWhole b)
    (same : a ++ restA = b ++ restB) : a = b ∧ restA = restB := by
  obtain ⟨codeA, bodyA, fitsA, rfl⟩ := ha
  obtain ⟨codeB, bodyB, fitsB, rfl⟩ := hb
  rw [List.cons_append, List.cons_append, List.append_assoc, List.append_assoc] at same
  obtain ⟨code, same⟩ := List.cons.inj same
  obtain ⟨lengths, same⟩ := List.append_inj same (by simp)
  have length : bodyA.length = bodyB.length := Octets.bigEndian_inj fitsA fitsB lengths
  obtain ⟨body, rest⟩ := List.append_inj same length
  subst code body
  exact ⟨rfl, rest⟩

/-- A row of messages can be cut in one way only. -/
theorem flatten_inj : ∀ {a b : List Octets}, (∀ m ∈ a, IsWhole m) → (∀ m ∈ b, IsWhole m) →
    a.flatten = b.flatten → a = b
  | [], [], _, _, _ => rfl
  | [], m :: _, _, hb, same => by
    have nonempty := (hb m (List.mem_cons_self ..)).ne_nil
    simp [nonempty] at same
  | m :: _, [], ha, _, same => by
    have nonempty := (ha m (List.mem_cons_self ..)).ne_nil
    simp [nonempty] at same
  | m :: a, n :: b, ha, hb, same => by
    rw [List.flatten_cons, List.flatten_cons] at same
    obtain ⟨rfl, rest⟩ :=
      (ha m (List.mem_cons_self ..)).append_inj (hb n (List.mem_cons_self ..)) same
    rw [flatten_inj (fun m h => ha m (List.mem_cons_of_mem _ h))
      (fun m h => hb m (List.mem_cons_of_mem _ h)) rest]

end Message

namespace Body

variable {Content : Type} [Body Content]

/-- Encoding puts the type and the length in front of what the body is written as. -/
theorem encode_eq_ok {content : Content} {message : Octets} : encode content = .ok message ↔
    ∃ body, write content = .ok body ∧ body.length < 2 ^ 24 ∧
      message = (type Content).code :: (Octets.bigEndian 3 body.length ++ body) := by
  simp only [encode, Field.sized24, Field.triple, except_bind_eq_ok, except_pure_eq_ok]
  constructor
  · rintro ⟨body, written, _, ⟨length, sized, rfl⟩, rfl⟩
    split at sized
    · next fits =>
      cases sized
      exact ⟨body, written, fits, rfl⟩
    · cases sized
  · rintro ⟨body, written, fits, rfl⟩
    exact ⟨body, written, _, ⟨_, if_pos fits, rfl⟩, rfl⟩

theorem isWhole_of_encode {content : Content} {message : Octets}
    (encoded : encode content = .ok message) : Message.IsWhole message := by
  obtain ⟨body, _, fits, rfl⟩ := encode_eq_ok.mp encoded
  exact ⟨_, body, fits, rfl⟩

/-- A message is its body and four octets. -/
theorem length_of_encode {content : Content} {body message : Octets}
    (written : write content = .ok body) (encoded : encode content = .ok message) :
    message.length = headerLength + body.length := by
  obtain ⟨other, same, _, rfl⟩ := encode_eq_ok.mp encoded
  obtain rfl : body = other := Except.ok.inj (written.symm.trans same)
  rw [List.length_cons, List.length_append, Octets.length_bigEndian, headerLength]
  omega

/-- A body too long for a message is not encoded. -/
theorem encode_of_long {content : Content} {body : Octets} (written : write content = .ok body)
    (long : 0xffffff < body.length) : encode content = .error (.fieldOverflow body.length) := by
  have unfit : ¬body.length < 2 ^ 24 := by omega
  rw [encode, written]
  change Field.sized24 body >>= _ = _
  rw [Field.sized24, Field.triple, if_neg unfit]
  rfl

/-- Decoding takes one whole message of its type and reads all of the body. -/
theorem decode_eq_ok {content : Content} {message : Octets} :
    decode Content message = .ok content ↔ ∃ body, body.length < 2 ^ 24 ∧
      message = (type Content).code :: (Octets.bigEndian 3 body.length ++ body) ∧
      scan body = .ok content [] := by
  simp only [decode, Scan.whole_eq_ok, bind_eq_ok, Scan.octet_eq_ok, ite_eq_ok, throw_eq_ok,
    Scan.nested_eq_ok, List.append_nil]
  constructor
  · rintro ⟨code, _, rfl, ⟨_, _, _, impossible, _⟩ | ⟨same, body, fits, rfl, read⟩⟩
    · exact impossible.elim
    · rw [Decidable.not_not.mp same]
      exact ⟨body, fits, rfl, read⟩
  · rintro ⟨body, fits, rfl, read⟩
    exact ⟨_, _, rfl, Or.inr ⟨Decidable.not_not.mpr rfl, body, fits, rfl, read⟩⟩

theorem isWhole_of_decode {content : Content} {message : Octets}
    (decoded : decode Content message = .ok content) : Message.IsWhole message := by
  obtain ⟨body, fits, rfl, _⟩ := decode_eq_ok.mp decoded
  exact ⟨_, body, fits, rfl⟩

/-- What is encoded and decoded as one message is written and read as one body. -/
theorem scan_of_write {sent received : Content} {message : Octets}
    (encoded : encode sent = .ok message) (decoded : decode Content message = .ok received) :
    ∃ body, write sent = .ok body ∧ scan body = .ok received [] := by
  obtain ⟨body, written, fits, rfl⟩ := encode_eq_ok.mp encoded
  obtain ⟨other, fits', same, read⟩ := decode_eq_ok.mp decoded
  obtain ⟨lengths, rest⟩ := List.append_inj (List.cons.inj same).2 (by simp)
  rw [← rest] at read
  exact ⟨body, written, read⟩

/-- A message is decoded to what it encodes, if its body is read back. -/
theorem decode_encode {content : Content} {message : Octets}
    (readsBack : ∀ body, write content = .ok body → scan body = .ok content [])
    (encoded : encode content = .ok message) : decode Content message = .ok content := by
  obtain ⟨body, written, fits, rfl⟩ := encode_eq_ok.mp encoded
  exact decode_eq_ok.mpr ⟨body, fits, rfl, readsBack body written⟩

end Body

namespace MessageType

/-- The type of a message is the one it was encoded or decoded as. -/
theorem ofMessage_eq_ok {message : Octets} {type : MessageType} :
    ofMessage message = .ok type ↔ ∃ rest, message = type.code :: rest := by
  cases message with
  | nil => simp [ofMessage]
  | cons code rest =>
    have found := @ofCode?_eq_some_iff code type
    simp only [ofMessage, List.cons.injEq]
    constructor
    · intro h
      split at h
      · next known =>
        cases h
        exact ⟨rest, (found.mp known).symm, rfl⟩
      · cases h
    · rintro ⟨_, rfl, rfl⟩
      rw [found.mpr rfl]

end MessageType

namespace Assembly

/-- A whole message at the front is taken off, unless it is longer than what is waited for. -/
theorem next?_append {message rest : Octets} (whole : Message.IsWhole message)
    (short : message.length ≤ Body.headerLength + maxLength) :
    next? (message ++ rest) = .ok (some (message, rest)) := by
  obtain ⟨code, body, fits, rfl⟩ := whole
  have digits : (Octets.bigEndian 3 body.length).length = 3 := Octets.length_bigEndian ..
  match length : Octets.bigEndian 3 body.length, digits with
  | [a, b, c], _ =>
    have value : Octets.value [a, b, c] = body.length := by
      rw [← length]
      exact Octets.value_bigEndian_of_lt fits
    rw [length] at short
    simp only [List.length_cons, List.length_append, List.length_nil, Body.headerLength] at short
    have taken : (code :: a :: b :: c :: (body ++ rest)).take (Body.headerLength + body.length) =
        code :: a :: b :: c :: body := by
      rw [Body.headerLength, Nat.add_comm]
      simp
    have dropped : (code :: a :: b :: c :: (body ++ rest)).drop (Body.headerLength + body.length) =
        rest := by
      rw [Body.headerLength, Nat.add_comm]
      simp
    have within : ¬ maxLength < body.length := by omega
    have enough : ¬ (code :: a :: b :: c :: body).length < Body.headerLength + body.length := by
      simp only [List.length_cons, Body.headerLength]
      omega
    simp only [List.cons_append, List.nil_append, next?, value, taken, dropped, within, enough,
      if_false]

/-- A part of a message is waited for, unless the message is longer than what is waited for. -/
theorem next?_of_part {part rest : Octets} (whole : Message.IsWhole (part ++ rest))
    (short : (part ++ rest).length ≤ Body.headerLength + maxLength) (more : rest ≠ []) :
    next? part = .ok none := by
  have positive := List.length_pos_iff.mpr more
  unfold next?
  split
  · next code a b c tail =>
    obtain ⟨other, body, fits, same⟩ := whole
    have value : Octets.value (Octets.bigEndian 3 body.length) = body.length :=
      Octets.value_bigEndian_of_lt fits
    have digits : (Octets.bigEndian 3 body.length).length = 3 := Octets.length_bigEndian ..
    generalize Octets.bigEndian 3 body.length = length at value digits same
    match length, digits with
    | [x, y, z], _ =>
      simp only [List.cons_append, List.nil_append, List.cons.injEq] at same
      obtain ⟨_, rfl, rfl, rfl, content⟩ := same
      have total : tail.length + rest.length = body.length := by
        rw [← content, List.length_append]
      simp only [List.cons_append, List.length_append, List.length_cons, Body.headerLength]
        at short
      have unfinished : ((code :: a :: b :: c :: tail).take (Body.headerLength + body.length)).length
          < Body.headerLength + body.length := by
        rw [List.length_take]
        simp only [List.length_cons, Body.headerLength]
        omega
      rw [value]
      dsimp only
      rw [if_neg (by omega), if_pos unfinished]
  · rfl

/-- What is taken off is a whole message. -/
theorem isWhole_of_next? {pending message rest : Octets}
    (found : next? pending = .ok (some (message, rest))) : Message.IsWhole message := by
  unfold next? at found
  split at found
  · next code a b c tail =>
    dsimp only at found
    split at found
    · cases found
    · split at found
      · cases found
      · next enough =>
        cases found
        have spelled := Octets.bigEndian_value [a, b, c]
        have fits : Octets.value [a, b, c] < 256 ^ 3 := Octets.value_lt [a, b, c]
        refine ⟨code, tail.take (Octets.value [a, b, c]), ?_, ?_⟩
        · rw [List.length_take]
          omega
        · have full : (tail.take (Octets.value [a, b, c])).length = Octets.value [a, b, c] := by
            simp only [List.length_take, List.length_cons, Body.headerLength] at enough ⊢
            omega
          rw [full]
          change Octets.bigEndian 3 _ = _ at spelled
          rw [spelled, Body.headerLength, Nat.add_comm]
          simp
  · cases found

end Assembly

end TransportSecurity
