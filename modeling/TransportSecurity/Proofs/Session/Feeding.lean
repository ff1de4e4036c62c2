import TransportSecurity.Proofs.Session.Reachable

/-!
A stream in pieces.

Records that an endpoint takes are taken whatever pieces their octets come in: each call takes the
records that are whole by then (`receive_of_takes`), and what they ask for and hand out adds up
(`receiveAll_of_takes`).
-/

namespace TransportSecurity

namespace Outcome

/-- What outcomes ask to send, in a row. -/
def answers (outcomes : List Outcome) : Octets := outcomes.flatMap answer

/-- What outcomes hand out, in a row. -/
def contents (outcomes : List Outcome) : Octets := outcomes.flatMap content

@[simp] theorem content_waiting (records data : Octets) : (waiting records data).content = data := by
  unfold waiting
  split
  · rfl
  · next nothing =>
    rw [Bool.not_eq_true, Bool.not_eq_false', List.isEmpty_iff] at nothing
    rw [nothing]
    split <;> rfl

theorem answer_waiting (records : Octets) : (waiting records []).answer = records := by
  unfold waiting
  rw [if_neg (by decide)]
  split
  · rfl
  · next nothing =>
    rw [Bool.not_eq_true, Bool.not_eq_false', List.isEmpty_iff] at nothing
    rw [nothing]
    rfl

end Outcome

namespace Handled

/-- Records of which none but the last ends the handshake. -/
inductive Closing : List Handled → Prop
  | isOpen {script : List Handled} (opened : Open script) : Closing script
  | ends {front : List Handled} {last : Handled} (opened : Open front)
    (ends : last.progress.ends = true) : Closing (front ++ [last])

theorem open_append_iff {a b : List Handled} : Open (a ++ b) ↔ Open a ∧ Open b := by
  simp only [Open, List.forall_mem_append]

/-- Records that either hand out nothing, or neither ask to send anything nor end the handshake. -/
def Apart (script : List Handled) : Prop :=
  contents script = [] ∨ answers script = [] ∧ Open script

/-- What is waited for with is what was asked to send. -/
theorem Apart.answer_waiting {script : List Handled} (apart : Apart script) :
    (Outcome.waiting (answers script) (contents script)).answer = answers script := by
  rcases apart with silent | ⟨quiet, _⟩
  · rw [silent, Outcome.answer_waiting]
  · rw [quiet]
    unfold Outcome.waiting
    split <;> rfl

theorem Apart.split {a b : List Handled} (apart : Apart (a ++ b)) : Apart a ∧ Apart b := by
  rw [Apart, contents_append, answers_append] at apart
  rcases apart with silent | ⟨quiet, opened⟩
  · obtain ⟨first, second⟩ := List.append_eq_nil_iff.mp silent
    exact ⟨Or.inl first, Or.inl second⟩
  · obtain ⟨first, second⟩ := List.append_eq_nil_iff.mp quiet
    obtain ⟨openFirst, openSecond⟩ := open_append_iff.mp opened
    exact ⟨Or.inr ⟨first, openFirst⟩, Or.inr ⟨second, openSecond⟩⟩

/-- Before the last record none ends the handshake. -/
theorem Closing.split {a b : List Handled} (closing : Closing (a ++ b)) :
    (Open a ∨ b = []) ∧ Closing b := by
  generalize same : a ++ b = script at closing
  rcases closing with ⟨opened⟩ | ⟨opened, ends⟩
  · rw [← same] at opened
    obtain ⟨first, second⟩ := open_append_iff.mp opened
    exact ⟨Or.inl first, .isOpen second⟩
  · rcases List.eq_nil_or_concat b with rfl | ⟨front, last, rfl⟩
    · exact ⟨Or.inr rfl, .isOpen open_nil⟩
    · rw [List.concat_eq_append, ← List.append_assoc] at same
      obtain ⟨rfl, lasts⟩ := List.append_inj' same rfl
      obtain ⟨first, second⟩ := open_append_iff.mp opened
      rw [← (List.cons.inj lasts).1] at ends
      rw [List.concat_eq_append]
      exact ⟨Or.inl first, .ends second ends⟩

end Handled

namespace Session

open Handled

variable {G : Type} [Entropy G]

/-- Takes octets in pieces, one after the other. -/
def receiveAll (session : Session G) : List Octets → List Outcome × Session G
  | [] => ([], session)
  | octets :: rest =>
    let (outcome, next) := session.receive octets
    let (outcomes, last) := next.receiveAll rest
    (outcome :: outcomes, last)

theorem receiveAll_cons (session : Session G) (octets : Octets) (rest : List Octets) :
    session.receiveAll (octets :: rest) =
      ((session.receive octets).1 :: ((session.receive octets).2.receiveAll rest).1,
        ((session.receive octets).2.receiveAll rest).2) := rfl

omit [Entropy G] in
/-- A session that stops still hands out the data from before. -/
theorem content_stop (session : Session G) (error : Error) (data : Octets) :
    (session.stop error data).1.content = data := by
  simp only [stop]
  split
  · next nothing => exact (List.isEmpty_iff.mp nothing).symm
  · rfl

variable {session : Session G} {script : List Handled} {last : Endpoint G} {unfinished : Octets}

/-- What is drained if all that arrived are records that an endpoint takes, and a part of another. -/
theorem drain_of_closing (session : Session G) {inbox : Octets}
    (takes : Endpoint.Takes session.endpoint session.pending script last unfinished)
    (closing : Closing script)
    (apart : Apart script)
    (arrived : session.inbox = stream script ++ inbox) (waits : Record.next? inbox = .ok none) :
    ∃ outcome, drain [] [] session =
        (outcome, { session with endpoint := last, inbox, pending := unfinished }) ∧
      outcome.answer = answers script ∧ outcome.content = contents script := by
  rcases closing with ⟨opened⟩ | @⟨front, handled, opened, ends⟩
  · refine ⟨Outcome.waiting (answers script) (contents script), ?_, apart.answer_waiting,
      Outcome.content_waiting ..⟩
    rw [drain_of_takes takes opened arrived]
    exact drain_of_nothing waits
  · -- the last record ends the handshake, and nothing is handed out before
    have silent : contents (front ++ [handled]) = [] := by
      rcases apart with silent | ⟨_, opened⟩
      · exact silent
      · have goesOn := opened handled (by simp)
        cases goesOn.symm.trans ends
    obtain ⟨endpoint, pending, before, after⟩ := takes.split
    obtain ⟨header, record, progress⟩ := handled
    rcases after with _ | ⟨whole, handled, _ | _⟩
    cases progress with
    | continued => cases ends
    | data => cases ends
    | complete answer =>
      refine ⟨.handshakeComplete (answers front ++ answer), ?_, ?_, silent.symm⟩
      · rw [stream_append, List.append_assoc] at arrived
        rw [drain_of_takes before opened arrived]
        refine drain_of_completes whole handled ?_
        rw [stream_cons, stream_nil, List.append_nil]
      · rw [answers_append, answers_cons, answers_nil, List.append_nil]
        rfl

/-- A call takes the records that are whole by then. -/
theorem receive_of_takes
    (active : session.endpoint.stage = .handshaking ∨ session.endpoint.stage = .established)
    (takes : Endpoint.Takes session.endpoint session.pending script last unfinished)
    (closing : Closing script)
    (apart : Apart script) {octets back : Octets}
    (arrives : session.inbox ++ octets ++ back = stream script) :
    ∃ outcome done rest endpoint inbox pending, script = done ++ rest ∧
      Endpoint.Takes session.endpoint session.pending done endpoint pending ∧
      Endpoint.Takes endpoint pending rest last unfinished ∧
      session.receive octets = (outcome, { session with endpoint, inbox, pending }) ∧
      outcome.answer = answers done ∧ outcome.content = contents done ∧
      inbox ++ back = stream rest ∧ (back = [] → rest = []) := by
  obtain ⟨done, left, rest, rfl, cut, tail, waits, finished⟩ := stream_cut takes.whole arrives
  obtain ⟨endpoint, pending, before, after⟩ := takes.split
  have first : Closing done := by
    rcases closing.split.1 with opened | rfl
    · exact .isOpen opened
    · rwa [List.append_nil] at closing
  rw [receive_eq_drain active]
  obtain ⟨outcome, drained, answer, content⟩ :=
    drain_of_closing { session with inbox := session.inbox ++ octets } before first apart.split.1
      cut waits
  exact ⟨outcome, done, rest, endpoint, left, pending, rfl, before, after, drained, answer, content,
    tail, finished⟩

/-- Records that are taken are taken whatever pieces they arrive in. -/
theorem receiveAll_of_takes {reads : List Octets} (sound : session.endpoint.Sound)
    (active : session.endpoint.stage = .handshaking ∨ session.endpoint.stage = .established)
    (takes : Endpoint.Takes session.endpoint session.pending script last unfinished)
    (closing : Closing script)
    (apart : Apart script)
    (arrives : session.inbox ++ reads.flatten = stream script)
    (finished : reads.flatten = [] → script = []) :
    Outcome.answers (session.receiveAll reads).1 = answers script ∧
      Outcome.contents (session.receiveAll reads).1 = contents script ∧
      (session.receiveAll reads).2 =
        { session with endpoint := last, inbox := [], pending := unfinished } := by
  induction reads generalizing session script with
  | nil =>
    cases finished rfl
    cases takes
    refine ⟨rfl, rfl, ?_⟩
    have nothing : session.inbox = [] := (List.append_eq_nil_iff.mp arrives).1
    rw [receiveAll, ← nothing]
  | cons octets reads ih =>
    rw [List.flatten_cons, ← List.append_assoc] at arrives
    obtain ⟨outcome, done, rest, endpoint, inbox, pending, rfl, before, after, received, answer,
      content, tail, isOver⟩ := receive_of_takes active takes closing apart arrives
    obtain ⟨answers, contents, ends⟩ :=
      @ih { session with endpoint, inbox, pending } rest (before.sound sound)
        (before.active sound active) after closing.split.2 apart.split.2 tail isOver
    rw [receiveAll_cons, received]
    refine ⟨?_, ?_, ends⟩
    · rw [answers_append, ← answer, ← answers]
      rfl
    · rw [contents_append, ← content, ← contents]
      rfl

end Session

end TransportSecurity
