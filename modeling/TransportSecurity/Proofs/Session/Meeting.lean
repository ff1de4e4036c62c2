import TransportSecurity.Proofs.Session.Binding
import TransportSecurity.Proofs.Session.Failing
import TransportSecurity.Proofs.Session.Packing

/-!
What a call comes to in which a message is handed to the endpoint.

A message that the endpoint refuses fails the call and the session, wherever in the call it comes
(`Session.Meets.refused`). What the endpoint answers to a message that it takes is part of what the
call returns to be sent, behind what was answered before, unless the call fails later on
(`Session.Meets.answered`). A message that fills a record of its own is all that a call has to take
(`Session.receive_of_fragment`).
-/

namespace TransportSecurity

namespace Endpoint

variable {G : Type} [Entropy G] {e f g : Endpoint G} {p q r pending message : Octets}

/-- An endpoint that refuses a message refuses the octets in which it comes to the message. -/
theorem Hands.refused {error : Error} (hands : Hands pending e message f)
    (refused : receiveMessage message f = .error error g) (records : Octets) :
    receiveMessages records pending e = .error error g := by
  induction hands generalizing records with
  | now found => rw [receiveMessages_of_found found, bind_of_error refused]
  | later found took unfinished hands ih =>
    rw [receiveMessages_of_found found, bind_of_ok took, get_bind, if_neg unfinished]
    exact ih refused _

/-- What is to be sent already goes first. -/
theorem Collects.isPrefix {records left : Octets} {progress : Progress}
    (collects : Collects records pending e progress left f) : records <+: progress.answer := by
  induction collects with
  | waits nothing => exact List.prefix_rfl
  | completes found took isOver => exact List.prefix_append ..
  | goesOn found took unfinished later ih => exact (List.prefix_append ..).trans ih

/-- What is kept is kept up to a message that is handed to an endpoint, and what the endpoint
answers to this message goes behind what it answered before. -/
theorem Hands.answered {holds : Octets → Endpoint G → Prop} (kept : Kept holds) {said : Octets}
    (hands : Hands pending e message f) (sound : e.Sound) (before : holds said e) :
    ∃ earlier, holds (said ++ earlier) f ∧
      ∀ {records answer left : Octets} {progress : Progress} {last : Endpoint G},
        receiveMessage message f = .ok answer g →
        Collects records pending e progress left last →
        records ++ (earlier ++ answer) <+: progress.answer := by
  induction hands generalizing said with
  | now found =>
    refine ⟨[], by rwa [List.append_nil], fun took collects => ?_⟩
    cases collects with
    | waits nothing => cases found.symm.trans nothing
    | completes found' took' isOver =>
      cases found.symm.trans found'
      cases took.symm.trans took'
      exact List.prefix_rfl
    | goesOn found' took' unfinished later =>
      cases found.symm.trans found'
      cases took.symm.trans took'
      exact later.isPrefix
  | @later _ _ _ answer _ _ _ _ found first unfinished hands ih =>
    have answers := receiveMessage_eq_ok.mp first
    obtain ⟨earlier, holds, goesOn⟩ :=
      ih (advances_answers sound answers).2 (kept.answered sound before answers)
    refine ⟨answer ++ earlier, by rwa [← List.append_assoc], fun took collects => ?_⟩
    cases collects with
    | waits nothing => cases found.symm.trans nothing
    | completes found' first' isOver =>
      cases found.symm.trans found'
      cases first.symm.trans first'
      exact (unfinished isOver).elim
    | goesOn found' first' unfinished' later =>
      cases found.symm.trans found'
      cases first.symm.trans first'
      have after := goesOn took later
      rwa [List.append_assoc, ← List.append_assoc answer] at after

/-- A stream that is one message is taken with the message. -/
theorem receiveStream_of_message {answer : Octets} (whole : Message.IsWhole message)
    (short : message.length ≤ Body.headerLength + Assembly.maxLength)
    (took : receiveMessage message e = .ok answer f) :
    receiveStream message e = .ok (answer, []) f := by
  rw [receiveStream, Assembly.messages_of_whole whole short]
  simp only [receiveRow, receiveInTurn, bind_assoc, pure_bind, ofExcept, List.append_nil]
  rw [bind_of_ok took]
  rfl

omit [Entropy G] in
/-- An endpoint does not rest during its handshake with a whole record in front of it. -/
theorem not_rests_of_whole {header : Record.Header} {record rest : Octets}
    (running : e.stage = .handshaking) (whole : Record.IsWhole header record) :
    ¬(Record.next? (record ++ rest) = .ok none ∨ e.stage = .established) := by
  rintro (nothing | isOver)
  · cases nothing.symm.trans (Record.next?_eq_some_iff.mpr ⟨whole, rfl⟩)
  · cases running.symm.trans isOver

/-- On one stream an endpoint that goes on takes at least the records that it takes before it
answers something. -/
theorem Takes.exists_next {script other : List Handled} {header : Record.Header}
    {record rest left : Octets} (takes : Takes e p script f q) (sound : e.Sound)
    (running : e.stage = .handshaking) (opened : Handled.Open script)
    (whole : Record.IsWhole header record) (also : Takes e p other g r)
    (same : Handled.stream other ++ left = Handled.stream script ++ (record ++ rest))
    (rests : Record.next? left = .ok none ∨ g.stage = .established) :
    ∃ progress s h more, receiveRecord header record q f = .ok (progress, s) h ∧
      other = script ++ ⟨header, record, progress⟩ :: more := by
  induction takes generalizing other with
  | nil =>
    cases also with
    | nil =>
      rw [Handled.stream_nil, List.nil_append, List.nil_append] at same
      rw [same] at rests
      exact (not_rests_of_whole running whole rests).elim
    | cons isWhole handled later =>
      rw [Handled.stream_cons, List.append_assoc] at same
      obtain ⟨rfl, rfl, _⟩ := isWhole.append_inj whole same
      exact ⟨_, _, _, _, handled, rfl⟩
  | cons first handled later ih =>
    cases also with
    | nil =>
      rw [Handled.stream_nil, List.nil_append, Handled.stream_cons, List.append_assoc] at same
      rw [same] at rests
      exact (not_rests_of_whole running first rests).elim
    | cons first' handled' later' =>
      rw [Handled.stream_cons, Handled.stream_cons, List.append_assoc, List.append_assoc] at same
      obtain ⟨rfl, rfl, tails⟩ := first'.append_inj first same
      cases handled.symm.trans handled'
      have handles := receiveRecord_eq_ok.mp handled
      obtain ⟨goesOn, opened⟩ := (Handled.open_cons_iff ..).mp opened
      have still := (ends_handles sound running handles).resolve_left fun ends =>
        Bool.false_ne_true (goesOn.symm.trans ends.1)
      obtain ⟨progress, s, h, more, taken, rfl⟩ :=
        ih (sound_handles sound handles) still.2 opened later' tails
      exact ⟨progress, s, h, more, taken, rfl⟩

end Endpoint

namespace Session

open Endpoint Handled

variable {G : Type} [Entropy G] {session : Session G} {octets message : Octets} {e f : Endpoint G}

/-- Messages are met while the handshake goes on. -/
theorem Meets.running (meets : session.Meets octets message e) (orderly : session.Orderly) :
    session.endpoint.stage = .handshaking := by
  obtain ⟨active, _, _, _, _, _, _, _, _, _, takes, _, _, _, opens, unfinished, _⟩ := meets
  refine active.resolve_right fun isOver => unfinished ?_
  obtain ⟨_, rfl⟩ := open?_frame opens
  exact (takes.stays_over orderly.endpoint isOver).1

/-- Wherever in a call a message comes that the endpoint refuses, the call fails with its error. -/
theorem Meets.refused {error : Error} (meets : session.Meets octets message e)
    (orderly : session.Orderly) (refused : receiveMessage message e = .error error f) :
    session.receive octets = (.failed ({ session with endpoint := f }.fail error).1,
      ({ session with endpoint := f }.fail error).2) := by
  have running := meets.running orderly
  obtain ⟨active, script, g, pending, header, record, rest, content, h, arrived, takes, opened,
    whole, type, opens, unfinished, hands⟩ := meets
  have refuses : Refuses g pending (record ++ rest) error f := by
    refine .refused (Record.next?_eq_some_iff.mpr ⟨whole, rfl⟩) ?_
    rw [receiveRecord, bind_of_ok opens, type]
    dsimp only
    rw [get_bind, if_neg unfinished]
    exact hands.refused refused []
  rw [receive_of_refuses active arrived takes opened refuses,
    takes.silent orderly.endpoint running opened, stop_nil]

/-- What is kept from the beginning of a call is kept up to a message that it meets, and what the
endpoint answers to this message goes behind what it answered before, unless the call fails. -/
theorem Meets.answered {holds : Octets → Endpoint G → Prop} (kept : Kept holds)
    (meets : session.Meets octets message e) (orderly : session.Orderly)
    (before : holds [] session.endpoint) : ∃ said, holds said e ∧
      ∀ {answer : Octets}, receiveMessage message e = .ok answer f →
        (session.receive octets).1.failure? = none →
        said ++ answer <+: (session.receive octets).1.answer := by
  have running := meets.running orderly
  obtain ⟨active, script, g, pending, header, record, rest, content, h, arrived, takes, opened,
    whole, type, opens, unfinished, hands⟩ := meets
  have filled := kept.takes takes orderly.endpoint before
  obtain ⟨number, rfl⟩ := open?_frame opens
  obtain ⟨earlier, holds, goesOn⟩ := hands.answered (g := f) kept
    (by exact takes.sound orderly.endpoint) (kept.opened number filled)
  rw [List.nil_append] at holds
  refine ⟨_, holds, fun took fine => ?_⟩
  have reads := reads_receive orderly.endpoint active octets
  generalize session.receive octets = result at reads fine ⊢
  cases reads with
  | goesOn arrived' takes' rests answer content fine =>
    obtain ⟨progress, s, k, more, handled, rfl⟩ := takes.exists_next orderly.endpoint running opened
      whole takes' (arrived'.symm.trans arrived) (rests.imp_right fun ends => ends.2.1)
    rw [answer, answers_append, answers_cons, List.append_assoc]
    refine (List.prefix_append_right_inj _).mpr ?_
    cases receiveRecord_eq_ok.mp handled with
    | change type' => cases type.symm.trans type'
    | data type' => cases type.symm.trans type'
    | messages _ opens' _ collects =>
      cases opens.symm.trans opens'
      exact (goesOn took collects).trans (List.prefix_append ..)
  | fails arrived' takes' opened' refuses =>
    rw [takes'.silent orderly.endpoint running opened', stop_nil] at fine
    cases fine

variable {fragment : Fragment}

/-- A message that fills a record of its own is handed to an endpoint that has collected nothing. -/
theorem meets_of_fragment (clear : session.endpoint.InClear) (inbox : session.inbox = [])
    (pending : session.pending = []) (whole : Message.IsWhole fragment.payload) :
    session.Meets fragment.record fragment.payload session.endpoint := by
  have found := @Assembly.next?_append fragment.payload [] whole
    (Nat.le_trans fragment.short (by decide))
  refine ⟨Or.inl clear.1, [], session.endpoint, [], fragment.header, fragment.record, [],
    fragment.payload, session.endpoint, ?_, ?_, open_nil, fragment.isWhole, rfl, ?_, ?_, ?_⟩
  · rw [inbox, List.append_nil]
    rfl
  · rw [pending]
    exact .nil
  · refine open?_eq_ok.mpr (Or.inr ⟨?_, fragment.short, fragment.drop_record, rfl⟩)
    rw [clear.2]
    rfl
  · rw [clear.1]
    exact Stage.noConfusion
  · rw [List.append_nil] at found
    exact .now found

/-- A message that fills a record of its own is all that a session with empty buffers has to
take. -/
theorem receive_of_fragment {answer : Octets} (sound : session.endpoint.Sound)
    (clear : session.endpoint.InClear) (inbox : session.inbox = []) (pending : session.pending = [])
    (whole : Message.IsWhole fragment.payload)
    (took : receiveMessage fragment.payload session.endpoint = .ok answer f) :
    session.receive fragment.record =
      (Outcome.waiting answer [], { session with endpoint := f }) := by
  have handled : receiveRecord fragment.header fragment.record session.pending session.endpoint =
      .ok (.continued answer, []) f := by
    have took := receiveStream_of_message whole (Nat.le_trans fragment.short (by decide)) took
    rw [receiveRecord_of_clear sound clear rfl fragment.short, fragment.drop_record, pending,
      List.nil_append, bind_of_ok took]
    rfl
  have takes : Takes session.endpoint session.pending
      [⟨fragment.header, fragment.record, .continued answer⟩] f [] :=
    .cons fragment.isWhole handled .nil
  have arrived : session.inbox ++ fragment.record =
      stream [⟨fragment.header, fragment.record, .continued answer⟩] ++ [] := by
    rw [inbox, stream_cons, stream_nil, List.append_nil, List.append_nil]
    rfl
  have drained : drain answer [] { session with endpoint := f, inbox := [], pending := [] } =
      (Outcome.waiting answer [], { session with endpoint := f, inbox := [], pending := [] }) :=
    drain_of_nothing rfl
  rw [receive_eq_drain (Or.inl clear.1), drain_of_takes (by exact takes)
    ((open_cons_iff ..).mpr ⟨rfl, open_nil⟩) (by exact arrived), answers_cons, answers_nil,
    List.append_nil]
  refine drained.trans ?_
  rw [inbox, pending]

end Session

end TransportSecurity
