import TransportSecurity.Proofs.Record.Opened
import TransportSecurity.Proofs.Session.Shape

/-!
A flight as the other end takes it.

An end sends a flight as messages cut into records without regard to where a message ends. If an
endpoint takes the messages one after the other (`Follows`), then it takes these records, and what
it asks to send is the same (`takes_of_follows`). The announcement and the proof come in records of
their own.
-/

namespace TransportSecurity

namespace Endpoint

variable {G : Type} [Entropy G]

/-- A handshake that goes on, with the other end still in the clear. -/
def InClear (e : Endpoint G) : Prop := e.stage = .handshaking ∧ e.receiveProtected = false

/-- An endpoint takes messages in the clear, one after the other, and asks to send something. -/
inductive Follows : Endpoint G → List Octets → Octets → Endpoint G → Prop
  | nil {e : Endpoint G} : Follows e [] [] e
  | cons {e f g : Endpoint G} {message answer more : Octets} {rest : List Octets}
    (whole : Message.IsWhole message)
    (short : message.length ≤ Body.headerLength + Assembly.maxLength)
    (answers : Answers message e answer f) (clear : f.InClear) (later : Follows f rest more g) :
    Follows e (message :: rest) (answer ++ more) g

variable {e f : Endpoint G} {messages : List Octets} {answer pending back : Octets}

/-- A single message is taken by its handler. -/
theorem Follows.one {message : Octets} (whole : Message.IsWhole message)
    (short : message.length ≤ Body.headerLength + Assembly.maxLength)
    (answers : Answers message e answer f) (clear : f.InClear) : Follows e [message] answer f := by
  rw [← List.append_nil answer]
  exact .cons whole short answers clear .nil

theorem Follows.append {g : Endpoint G} {later : List Octets} {more : Octets}
    (follows : Follows e messages answer f) (goesOn : Follows f later more g) :
    Follows e (messages ++ later) (answer ++ more) g := by
  induction follows with
  | nil => exact goesOn
  | cons whole short answers clear _ ih =>
    rw [List.append_assoc]
    exact .cons whole short answers clear (ih goesOn)

/-- Of octets that end in the middle of messages, the whole ones are taken and the rest waits. -/
theorem collects_of_follows {records : Octets} (follows : Follows e messages answer f)
    (clear : e.InClear) (arrives : pending ++ back = messages.flatten) :
    ∃ rest answered more left g, answer = answered ++ more ∧
      Collects records pending e (.continued (records ++ answered)) left g ∧
      Follows g rest more f ∧ g.InClear ∧ left ++ back = rest.flatten ∧
      (back = [] → rest = []) := by
  induction follows generalizing pending records with
  | nil =>
    obtain ⟨rfl, rfl⟩ := List.append_eq_nil_iff.mp arrives
    refine ⟨[], [], [], [], _, rfl, ?_, .nil, clear, rfl, fun _ => rfl⟩
    rw [List.append_nil]
    exact .waits rfl
  | @cons e f g message answer more rest whole short answers running later ih =>
    rw [List.flatten_cons] at arrives
    by_cases arrived : message.length ≤ pending.length
    · -- the first message is there, and the rest is taken by induction
      have begins : pending.take message.length = message := by
        rw [← List.take_append_of_le_length arrived, arrives, List.take_left]
      have remains : pending.drop message.length ++ back = rest.flatten := by
        rw [← List.drop_append_of_le_length arrived, arrives, List.drop_left]
      have found := @Assembly.next?_append message (pending.drop message.length) whole short
      have spelled : message ++ pending.drop message.length = pending := by
        conv => lhs; arg 1; rw [← begins]
        exact List.take_append_drop ..
      rw [spelled] at found
      obtain ⟨rest, answered, more, left, g, rfl, collects, follows, still, tail, isOver⟩ :=
        @ih _ (records ++ answer) running remains
      refine ⟨rest, answer ++ answered, more, left, g, (List.append_assoc ..).symm, ?_, follows,
        still, tail, isOver⟩
      rw [← List.append_assoc]
      refine .goesOn found (receiveMessage_eq_ok.mpr answers) ?_ collects
      rw [running.1]
      exact Stage.noConfusion
    · -- only a part of the first message is there
      have inside : pending.length ≤ message.length := by omega
      have begins : pending = message.take pending.length := by
        have front : (message ++ rest.flatten).take pending.length =
            message.take pending.length := List.take_append_of_le_length inside
        rw [← front, ← arrives, List.take_left]
      have split : pending ++ message.drop pending.length = message := by
        conv => lhs; arg 1; rw [begins]
        exact List.take_append_drop ..
      have lacks : message.drop pending.length ≠ [] := by
        refine List.length_pos_iff.mp ?_
        rw [List.length_drop]
        omega
      have waits : Assembly.next? pending = .ok none := by
        rw [← split] at whole short
        exact Assembly.next?_of_part whole short lacks
      refine ⟨message :: rest, [], answer ++ more, pending, e, rfl, ?_,
        .cons whole short answers running later, clear, arrives, ?_⟩
      · rw [List.append_nil]
        exact .waits waits
      · rintro rfl
        rw [List.append_nil] at arrives
        rw [arrives, List.length_append] at arrived
        omega

omit [Entropy G] in
/-- As long as the other end is in the clear, a record is opened by taking off its header. -/
theorem open?_plainRecord {type : ContentType} {piece : Octets} (clear : e.receiveProtected = false)
    (short : piece.length ≤ Record.maxPiece) :
    open? (.ofLength type piece.length) (Record.plainRecord type piece) e = .ok piece e := by
  refine open?_eq_ok.mpr (Or.inr ⟨?_, Nat.le_trans short (by decide),
    Record.drop_plainRecord type piece, rfl⟩)
  rw [clear]
  rfl

/-- Messages that an endpoint takes are taken in whatever records they come. -/
theorem takes_of_follows {pieces : List Octets} (follows : Follows e messages answer f)
    (clear : e.InClear) (small : ∀ piece ∈ pieces, piece.length ≤ Record.maxPiece)
    (arrives : pending ++ pieces.flatten = messages.flatten) (isOver : pieces = [] → messages = []) :
    ∃ script, Handled.stream script = pieces.flatMap (Record.plainRecord .handshake) ∧
      Handled.answers script = answer ∧ Handled.contents script = [] ∧ Handled.Open script ∧
      Takes e pending script f [] ∧ f.InClear := by
  induction pieces generalizing e messages answer pending with
  | nil =>
    cases isOver rfl
    cases follows
    obtain ⟨rfl, _⟩ := List.append_eq_nil_iff.mp arrives
    exact ⟨[], rfl, rfl, rfl, Handled.open_nil, .nil, clear⟩
  | cons piece pieces ih =>
    obtain ⟨fits, smaller⟩ := List.forall_mem_cons.mp small
    rw [List.flatten_cons, ← List.append_assoc] at arrives
    obtain ⟨rest, answered, more, left, g, rfl, collects, later, still, tail, last⟩ :=
      @collects_of_follows G _ e f messages answer (pending ++ piece) pieces.flatten [] follows clear
        arrives
    have whole : Record.IsWhole (.ofLength .handshake piece.length)
        (Record.plainRecord .handshake piece) :=
      Record.isWhole_plainRecord (Nat.le_trans fits (by decide))
    have opened := @open?_plainRecord _ _ .handshake _ clear.2 fits
    have unfinished : e.stage ≠ .established := by
      rw [clear.1]
      exact Stage.noConfusion
    have handled := receiveRecord_eq_ok.mpr (.messages rfl opened unfinished collects)
    obtain ⟨script, spelled, asked, quiet, goesOn, takes, ends⟩ :=
      ih later still smaller tail fun nothing => last (by rw [nothing]; rfl)
    refine ⟨⟨_, _, .continued answered⟩ :: script, ?_, ?_, quiet,
      (Handled.open_cons_iff ..).mpr ⟨rfl, goesOn⟩, .cons whole handled takes, ends⟩
    · rw [Handled.stream_cons, spelled, List.flatMap_cons]
    · rw [Handled.answers_cons, asked]
      rfl

/-- A flight in the clear is taken as the messages it was made of. -/
theorem takes_encodePlain (follows : Follows e messages answer f) (clear : e.InClear) :
    ∃ script, Handled.stream script = Record.encodePlain .handshake messages.flatten ∧
      Handled.answers script = answer ∧ Handled.contents script = [] ∧ Handled.Open script ∧
      Takes e [] script f [] ∧ f.InClear := by
  refine takes_of_follows follows clear (fun _ => Record.length_le_of_mem_pieces) ?_ ?_
  · rw [List.nil_append, Record.pieces_flatten]
  · intro nothing
    exact (Record.pieces_ne_nil _ nothing).elim

omit [Entropy G] in
/-- The announcement as a record. -/
theorem encodePlain_change : Record.encodePlain .changeCipherSpec ChangeCipherSpec.payload =
    Record.plainRecord .changeCipherSpec ChangeCipherSpec.payload := by
  rw [Record.encodePlain_eq, Record.pieces_of_short (by decide)]
  exact List.flatMap_singleton ..

/-- The announcement is taken by a role that waits for it. -/
theorem takes_change {role : Role} (clear : e.InClear) (known : e.secrets.isSome)
    (changes : Changes e.role role) :
    Takes e [] [⟨.ofLength .changeCipherSpec 1,
        Record.plainRecord .changeCipherSpec ChangeCipherSpec.payload, .continued []⟩]
      { e with receiveProtected := true, receiveNumber := 0, role } [] := by
  have whole := @Record.isWhole_plainRecord .changeCipherSpec ChangeCipherSpec.payload (by decide)
  have opened :=
    @open?_plainRecord _ _ .changeCipherSpec ChangeCipherSpec.payload clear.2 (by decide)
  exact .cons whole (receiveRecord_eq_ok.mpr (.change rfl opened rfl rfl
    (receiveChange_eq_ok.mpr ⟨known, role, changes, rfl⟩))) .nil

/-- A proof in a protected record is taken and ends the handshake. -/
theorem takes_proof {H : Type} [Entropy H] {sealer after : Record.Sealer H} {secrets : Secrets}
    {message record : Octets} (running : e.stage = .handshaking) (change : e.receiveProtected = true)
    (known : e.secrets = some secrets) (number : e.receiveNumber = sealer.number)
    (made : Record.protectPiece (secrets.keys.writer e.role.side.peer) .handshake message sealer =
      .ok record after)
    (whole : Message.IsWhole message) (short : message.length ≤ Record.maxPiece)
    (answers : Answers message { e with receiveNumber := after.number } answer f)
    (isOver : f.stage = .established) :
    Takes e [] [⟨Record.protectedHeader (secrets.keys.writer e.role.side.peer) .handshake message,
      record, .complete answer⟩] f [] := by
  obtain ⟨isRecord, opens⟩ := Record.unprotect_protectPiece short made
  rw [← number] at opens
  have unfinished : e.stage ≠ .established := by
    rw [running]
    exact Stage.noConfusion
  have found := @Assembly.next?_append message [] whole (Nat.le_trans short (by decide))
  rw [List.append_nil] at found
  refine .cons isRecord (receiveRecord_eq_ok.mpr ?_) .nil
  exact .messages rfl (open?_eq_ok.mpr (Or.inl ⟨secrets, _, known, change, rfl, opens, rfl⟩))
    unfinished (.completes found (receiveMessage_eq_ok.mpr answers) isOver)

end Endpoint

end TransportSecurity
