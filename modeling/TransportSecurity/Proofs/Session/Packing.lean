import TransportSecurity.Proofs.Message.Collecting
import TransportSecurity.Proofs.Session.AtOnce
import TransportSecurity.Proofs.Session.Pieces

/-!
Handshake messages however they are packed into records.

As long as the other end is in the clear, what an endpoint makes of a record is what it makes of the
messages in it, one after the other (`receiveRecord_of_clear`), and it does not matter where in the
stream of messages a record ends (`receiveStream_append`). So a session takes exactly the messages
of the stream, whatever records and whatever calls bring it (`receiveAll_eq_of_payload_eq`).
-/

namespace TransportSecurity

namespace Endpoint

variable {G : Type} [Entropy G]

/-- Takes messages one after the other; the answer is what to send. -/
def receiveInTurn : List Octets → Step G Octets
  | [] => return []
  | message :: rest => do
    let answer ← receiveMessage message
    let more ← receiveInTurn rest
    return answer ++ more

/-- Takes messages one after the other up to where their stream ends: in octets of a message that is
not whole yet, which go with the answer, or in an error. -/
def receiveRow (messages : List Octets) (ends : Except Error Octets) :
    Step G (Octets × Octets) := do
  let answer ← receiveInTurn messages
  let left ← ofExcept ends
  return (answer, left)

/-- Takes the messages of a stream one after the other. -/
def receiveStream (stream : Octets) : Step G (Octets × Octets) :=
  receiveRow (Assembly.messages stream).1 (Assembly.messages stream).2

theorem receiveInTurn_append (first second : List Octets) :
    (receiveInTurn (first ++ second) : Step G Octets) = (do
      let answer ← receiveInTurn first
      let more ← receiveInTurn second
      return answer ++ more) := by
  induction first with
  | nil => simp [receiveInTurn]
  | cons message first ih =>
    simp only [List.cons_append, receiveInTurn, ih, bind_assoc, pure_bind, List.append_assoc]

/-- A stream is taken in two parts, the second behind what the first has left. -/
theorem receiveStream_append (stream more : Octets) :
    (receiveStream (stream ++ more) : Step G (Octets × Octets)) = (do
      let (answer, left) ← receiveStream stream
      let (later, last) ← receiveStream (left ++ more)
      return (answer ++ later, last)) := by
  unfold receiveStream receiveRow
  rw [Assembly.messages_append]
  cases Assembly.messages stream with
  | mk found ends =>
    cases ends with
    | ok left =>
      simp only [receiveInTurn_append, bind_assoc, pure_bind, ofExcept]
    | error error =>
      simp only [bind_assoc, ofExcept]
      rfl

variable {e f : Endpoint G}

theorem receiveInTurn_cons {g : Endpoint G} {message answer more : Octets} {rest : List Octets}
    (took : receiveMessage message e = .ok answer f)
    (later : receiveInTurn rest f = .ok more g) :
    receiveInTurn (message :: rest) e = .ok (answer ++ more) g := by
  rw [receiveInTurn, bind_of_ok took, bind_of_ok later]
  rfl

theorem receiveInTurn_singleton {message answer : Octets}
    (took : receiveMessage message e = .ok answer f) :
    receiveInTurn [message] e = .ok answer f := by
  have taken := @receiveInTurn_cons _ _ _ _ _ _ _ _ [] took rfl
  rwa [List.append_nil] at taken

/-- Messages that are taken come before those behind them. -/
theorem receiveRow_append {front rest : List Octets} {answer : Octets}
    (taken : receiveInTurn front e = .ok answer f)
    (ends : Except Error Octets) : receiveRow (front ++ rest) ends e = (do
      let (more, left) ← receiveRow rest ends
      return (answer ++ more, left) : Step G (Octets × Octets)) f := by
  simp only [receiveRow, receiveInTurn_append, bind_assoc, pure_bind]
  rw [bind_of_ok taken]

/-- A message that is taken in the clear leaves the other end in the clear. -/
theorem clear_answers {message answer : Octets} (sound : e.Sound) (clear : e.InClear)
    (answers : Answers message e answer f) : f.Sound ∧ f.InClear := by
  obtain ⟨advances, after⟩ := advances_answers sound answers
  refine ⟨after, ?_⟩
  have receives := clear.2
  rw [sound.receives] at receives
  rw [InClear, after.stage, after.receives]
  generalize e.role = role at advances receives
  generalize f.role = next at advances
  cases advances with
  | serverHello => exact ⟨rfl, rfl⟩
  | certificates => exact ⟨rfl, rfl⟩
  | serverHelloDone => exact ⟨rfl, rfl⟩
  | serverFinished => cases receives
  | clientHello => exact ⟨rfl, rfl⟩
  | clientKeyExchange => exact ⟨rfl, rfl⟩
  | clientFinished => cases receives

theorem clear_receiveInTurn {messages : List Octets} {answer : Octets} (sound : e.Sound)
    (clear : e.InClear) (took : receiveInTurn messages e = .ok answer f) :
    f.Sound ∧ f.InClear := by
  induction messages generalizing e answer with
  | nil =>
    obtain ⟨_, rfl⟩ := pure_eq_ok.mp took
    exact ⟨sound, clear⟩
  | cons message messages ih =>
    simp only [receiveInTurn, bind_eq_ok, receiveMessage_eq_ok, pure_eq_ok] at took
    obtain ⟨_, g, answers, _, _, later, _, rfl⟩ := took
    obtain ⟨sound, clear⟩ := clear_answers sound clear answers
    exact ih sound clear later

/-- What is left of a stream that is taken in the clear waits for more, in the clear. -/
theorem clear_receiveStream {stream answer left : Octets} (sound : e.Sound) (clear : e.InClear)
    (took : receiveStream stream e = .ok (answer, left) f) :
    f.Sound ∧ f.InClear ∧ Assembly.next? left = .ok none := by
  simp only [receiveStream, receiveRow, bind_eq_ok, ofExcept_eq_ok, pure_eq_ok, Prod.mk.injEq]
    at took
  obtain ⟨_, g, taken, _, _, ⟨ends, rfl⟩, ⟨rfl, rfl⟩, rfl⟩ := took
  obtain ⟨sound, clear⟩ := clear_receiveInTurn sound clear taken
  exact ⟨sound, clear, Assembly.next?_of_messages (Prod.ext rfl ends)⟩

theorem receiveMessages_of_refused {records pending : Octets} {error : Error}
    (refused : Assembly.next? pending = .error error) :
    (receiveMessages records pending : Step G (Progress × Octets)) = throw error := by
  rw [receiveMessages]
  split
  · next again =>
    cases refused.symm.trans again
    rfl
  · next nothing => cases refused.symm.trans nothing
  · next found => cases refused.symm.trans found

/-- In the clear no message ends the handshake, so the messages collected are taken in turn. -/
theorem receiveMessages_of_clear (records pending : Octets) (sound : e.Sound) (clear : e.InClear) :
    receiveMessages records pending e = (do
      let (answer, left) ← receiveStream pending
      return (.continued (records ++ answer), left) : Step G (Progress × Octets)) e := by
  fun_induction Assembly.messages pending generalizing e records with
  | case1 pending message rest found ih =>
    rw [receiveMessages_of_found found, receiveStream, Assembly.messages_of_found found]
    simp only [receiveRow, receiveInTurn, bind_assoc, pure_bind]
    cases took : receiveMessage message e with
    | error error failing => rw [bind_of_error took, bind_of_error took]
    | ok answer next =>
      obtain ⟨sound, clear⟩ := clear_answers sound clear (receiveMessage_eq_ok.mp took)
      have unfinished : next.stage ≠ .established := by
        rw [clear.1]
        exact Stage.noConfusion
      rw [bind_of_ok took, bind_of_ok took, get_bind, if_neg unfinished, ih _ sound clear]
      simp only [receiveStream, receiveRow, bind_assoc, pure_bind, List.append_assoc]
  | case2 pending nothing =>
    rw [receiveMessages_of_nothing nothing, receiveStream, Assembly.messages_of_nothing nothing]
    simp only [receiveRow, receiveInTurn, ofExcept, pure_bind, List.append_nil]
  | case3 pending error refused =>
    rw [receiveMessages_of_refused refused, receiveStream, Assembly.messages_of_error refused]
    simp only [receiveRow, receiveInTurn, ofExcept, bind_assoc, pure_bind]
    rfl

/-- In the clear the content of a record of messages is all that follows its header, and the
messages are taken behind what is collected already. -/
theorem receiveRecord_of_clear {header : Record.Header} {record pending : Octets} (sound : e.Sound)
    (clear : e.InClear) (type : header.type = .handshake)
    (short : header.length ≤ Record.maxFragment) :
    receiveRecord header record pending e = (do
      let (answer, left) ← receiveStream (pending ++ record.drop Record.headerLength)
      return (.continued answer, left) : Step G (Progress × Octets)) e := by
  have opened : open? header record e = .ok (record.drop Record.headerLength) e := by
    refine open?_eq_ok.mpr (Or.inr ⟨?_, short, rfl, rfl⟩)
    rw [clear.2]
    rfl
  have unfinished : e.stage ≠ .established := by
    rw [clear.1]
    exact Stage.noConfusion
  rw [receiveRecord, bind_of_ok opened, type]
  dsimp only
  rw [get_bind, if_neg unfinished]
  exact receiveMessages_of_clear [] _ sound clear

theorem waits_collects {records pending left : Octets} {progress : Progress}
    (collects : Collects records pending e progress left f) : Assembly.next? left = .ok none := by
  induction collects with
  | waits nothing => exact nothing
  | completes => rfl
  | goesOn found took unfinished later ih => exact ih

/-- Octets collected for a message are never a whole one. -/
theorem Takes.collecting {p q : Octets} {script : List Handled} (takes : Takes e p script f q)
    (before : Assembly.next? p = .ok none) : Assembly.next? q = .ok none := by
  induction takes with
  | nil => exact before
  | cons whole handled later ih =>
    refine ih ?_
    cases receiveRecord_eq_ok.mp handled with
    | change => exact before
    | data => exact before
    | messages type opened unfinished collects => exact waits_collects collects

end Endpoint

/-- A record of handshake messages in the clear. -/
structure Fragment where
  version : Version
  payload : Octets
  known : version.major = 3 ∧ version.minor ≤ 3
  short : payload.length ≤ Record.maxFragment

namespace Fragment

/-- The header over a fragment. -/
def header (fragment : Fragment) : Record.Header :=
  ⟨.handshake, fragment.version, fragment.payload.length⟩

/-- A fragment as it arrives. -/
def record (fragment : Fragment) : Octets := fragment.header.encode ++ fragment.payload

theorem isWhole (fragment : Fragment) : Record.IsWhole fragment.header fragment.record :=
  Record.isWhole_encode ⟨fragment.known, Nat.le_trans fragment.short (by decide)⟩ rfl

theorem drop_record (fragment : Fragment) :
    fragment.record.drop Record.headerLength = fragment.payload :=
  List.drop_left' (Record.Header.length_encode _)

/-- Pieces that are short enough are the payloads of fragments. -/
theorem exists_of_pieces {pieces : List Octets}
    (short : ∀ piece ∈ pieces, piece.length ≤ Record.maxPiece) : ∃ fragments : List Fragment,
      fragments.flatMap record = pieces.flatMap (Record.plainRecord .handshake) ∧
        fragments.flatMap payload = pieces.flatten := by
  induction pieces with
  | nil => exact ⟨[], rfl, rfl⟩
  | cons piece pieces ih =>
    obtain ⟨fits, short⟩ := List.forall_mem_cons.mp short
    obtain ⟨fragments, records, payloads⟩ := ih short
    refine ⟨⟨.current, piece, ⟨rfl, Nat.le_refl 3⟩, Nat.le_trans fits (by decide)⟩ :: fragments,
      ?_, ?_⟩
    · rw [List.flatMap_cons, List.flatMap_cons, records]
      rfl
    · rw [List.flatMap_cons, List.flatten_cons, payloads]

end Fragment

namespace Session

open Endpoint Handled

variable {G : Type} [Entropy G] {session : Session G}

theorem collecting_of_performs {after : Session G} {call : Call} {reply : Reply}
    (before : Assembly.next? session.pending = .ok none)
    (performs : Performs session call reply after) : Assembly.next? after.pending = .ok none := by
  cases performs with
  | starts fresh begins => exact before
  | cannotStart fresh failed => rfl
  | started begun => exact before
  | notStarted fresh => exact before
  | reads active arrived takes rests => exact takes.collecting before
  | cannotRead script active arrived takes opened refuses =>
    simp only [stop]
    split <;> rfl
  | sends isOver sent => exact before
  | cannotSend isOver failed => exact before
  | notEstablished unfinished => exact before

/-- A session in use has taken all messages that are whole. -/
theorem Reachable.collecting (reachable : session.Reachable) :
    Assembly.next? session.pending = .ok none := by
  refine reachable.induct ?_ ?_ ?_
  · intro session made
    rcases made with ⟨made⟩ | ⟨made⟩
    · obtain ⟨_, _, rfl⟩ := client_eq_ok.mp made
      rfl
    · obtain ⟨_, _, rfl⟩ := server_eq_ok.mp made
      rfl
  · intro session reachable before call
    by_cases failed : session.endpoint.stage = .failed
    · rcases perform_of_failed failed call with refused | ⟨_, _, reported⟩
      · rw [refused]
        exact before
      · rw [reported]
        exact before
    · have orderly := reachable.orderly.resolve_right failed
      exact collecting_of_performs before (orderly.performs call)
  · intro session _ _
    rfl

/-- What a session comes to on a stream, given what its endpoint makes of the messages in it. -/
inductive Yields (session : Session G) (octets : Octets) :
    EStateM.Result Error (Endpoint G) (Octets × Octets) → Prop
  | handled {script : List Handled} {endpoint : Endpoint G} {left : Octets} (opened : Open script)
    (comes : ComesTo session octets script none
      { session with endpoint, inbox := [], pending := left }) :
    Yields session octets (.ok (answers script, left) endpoint)
  | failed {script : List Handled} {endpoint : Endpoint G} {error : Error} (opened : Open script)
    (comes : ComesTo session octets script (some ({ session with endpoint }.fail error).1)
      ({ session with endpoint }.fail error).2) :
    Yields session octets (.error error endpoint)

/-- Records of messages in the clear come to what the messages in them do. -/
theorem yields_of_fragments (sound : session.endpoint.Sound) (clear : session.endpoint.InClear)
    (waits : Assembly.next? session.pending = .ok none) (fragments : List Fragment) :
    session.Yields (fragments.flatMap Fragment.record)
      (receiveStream (session.pending ++ fragments.flatMap Fragment.payload) session.endpoint) := by
  induction fragments generalizing session with
  | nil =>
    have nothing : receiveStream session.pending session.endpoint =
        .ok ([], session.pending) session.endpoint := by
      rw [receiveStream, Assembly.messages_of_nothing waits]
      rfl
    have comes : ComesTo session [] [] none { session with inbox := [] } := .waits rfl .nil rfl
    rw [List.flatMap_nil, List.flatMap_nil, List.append_nil, nothing]
    exact .handled open_nil comes
  | cons fragment fragments ih =>
    have taken := @receiveRecord_of_clear _ _ session.endpoint fragment.header fragment.record
      session.pending sound clear rfl fragment.short
    rw [fragment.drop_record] at taken
    rw [List.flatMap_cons, List.flatMap_cons, ← List.append_assoc, receiveStream_append]
    cases first : receiveStream (session.pending ++ fragment.payload) session.endpoint with
    | error error failing =>
      rw [bind_of_error first] at taken
      rw [bind_of_error first]
      have found := Record.next?_eq_some_iff.mpr
        ⟨fragment.isWhole, Eq.refl (fragment.record ++ fragments.flatMap Fragment.record)⟩
      have comes := ComesTo.fails (List.nil_append _).symm .nil (.refused found taken)
      exact .failed open_nil comes
    | ok result next =>
      obtain ⟨answer, left⟩ := result
      obtain ⟨sound, clear, waits⟩ := clear_receiveStream sound clear first
      rw [bind_of_ok first] at taken
      rw [bind_of_ok first]
      have takes : Takes session.endpoint session.pending
          [⟨fragment.header, fragment.record, .continued answer⟩] next left :=
        .cons fragment.isWhole taken .nil
      have later :=
        @ih { session with endpoint := next, inbox := [], pending := left } sound clear waits
      have arrived : fragment.record ++ fragments.flatMap Fragment.record =
          stream [⟨fragment.header, fragment.record, .continued answer⟩] ++
            fragments.flatMap Fragment.record := by
        rw [stream_cons, stream_nil, List.append_nil]
      rw [arrived]
      dsimp only at later ⊢
      cases rest : receiveStream (left ++ fragments.flatMap Fragment.payload) next with
      | error error failing =>
        rw [rest] at later
        rw [bind_of_error rest]
        cases later with
        | failed opened comes =>
          exact .failed ((open_cons_iff ..).mpr ⟨rfl, opened⟩) (comes.prepend takes)
      | ok result last =>
        rw [rest] at later
        rw [bind_of_ok rest]
        cases later with
        | @handled script _ _ opened comes =>
          have goesOn : Open (⟨fragment.header, fragment.record, .continued answer⟩ :: script) :=
            (open_cons_iff ..).mpr ⟨rfl, opened⟩
          exact .handled goesOn (comes.prepend takes)

/-- While the handshake goes on, calls that bring a stream report what it comes to, each failure at
once. -/
theorem receiveAll_of_comesTo {reads : List Octets} {script : List Handled}
    {failure : Option Failure} {last : Session G} (ready : session.Ready)
    (running : session.endpoint.stage = .handshaking) (opened : Open script)
    (comes : ComesTo session (session.inbox ++ reads.flatten) script failure last) :
    Outcome.firstFailure? (session.receiveAll reads).1 = failure ∧
      (session.receiveAll reads).2 = last ∧
      (failure = none → Outcome.answers (session.receiveAll reads).1 = answers script) := by
  induction reads generalizing session script with
  | nil =>
    rw [List.flatten_nil, List.append_nil] at comes
    have idle : ComesTo session session.inbox [] none session :=
      .waits rfl .nil (ready.waits running)
    obtain ⟨rfl, rfl, rfl⟩ := idle.unique comes
    exact ⟨rfl, rfl, fun _ => rfl⟩
  | cons octets reads ih =>
    rw [List.flatten_cons, ← List.append_assoc] at comes
    rw [receiveAll_cons]
    have receives := receives_receive ready.active octets
    generalize session.receive octets = result at receives ⊢
    cases receives with
    | @waits done endpoint inbox pending arrived takes opened' nothing =>
      have next := ready.goesOn takes (Or.inl nothing)
      obtain ⟨later, failure', comes', _⟩ := comesTo_of_receiveAll next reads
      have all := comes'.prepend takes
      rw [← List.append_assoc, ← arrived] at all
      obtain ⟨rfl, rfl, rfl⟩ := comes.unique all
      obtain ⟨_, opened⟩ := open_append_iff.mp opened
      obtain ⟨first, same, answer⟩ :=
        ih next (takes.running ready.sound running opened') opened comes'
      rw [takes.silent ready.sound running opened']
      refine ⟨?_, same, fun fine => ?_⟩
      · rw [Outcome.firstFailure?_cons, Outcome.failure?_waiting]
        exact first
      · rw [Outcome.answers_cons, Outcome.answer_waiting, answer fine, answers_append]
    | @completes done closing endpoint inbox pending arrived takes opened' ends =>
      -- records that leave the handshake going on do not end it
      have isOver := (takes.completes ready.sound ready.active ends).2.1
      have next : Ready { session with endpoint, inbox, pending } :=
        ready.goesOn takes (Or.inr ⟨running, isOver, by simp⟩)
      obtain ⟨later, failure', comes', _⟩ := comesTo_of_receiveAll next reads
      have all := comes'.prepend takes
      rw [← List.append_assoc, ← arrived] at all
      obtain ⟨rfl, _, _⟩ := comes.unique all
      have goesOn := opened closing (by simp)
      cases goesOn.symm.trans ends
    | @stops done endpoint failing inbox pending error arrived takes opened' refuses =>
      have fails := ComesTo.fails arrived takes refuses
      obtain ⟨rfl, rfl, rfl⟩ := comes.unique (fails.append_of_fails reads.flatten)
      rw [takes.silent ready.sound running opened', stop_nil]
      refine ⟨rfl, ?_, fun fine => by cases fine⟩
      rcases eq_or_ne reads [] with rfl | more
      · rfl
      · rw [((receiveAll_of_failed (failed_of_fail ..) reads).2 more).2]
        change { ({ session with endpoint := failing }.fail error).2 with deferred := none } = _
        rw [← ready.deferred]
        rfl

/-- What calls have told of a stream of messages, given what the endpoint makes of the messages: it
has taken them and keeps what is not whole yet, or it has failed on one of them. -/
inductive Tells (session : Session G) :
    EStateM.Result Error (Endpoint G) (Octets × Octets) → List Outcome × Session G → Prop
  | handled {answer left : Octets} {endpoint : Endpoint G} {outcomes : List Outcome}
    (fine : Outcome.firstFailure? outcomes = none) (answers : Outcome.answers outcomes = answer) :
    Tells session (.ok (answer, left) endpoint)
      (outcomes, { session with endpoint, inbox := [], pending := left })
  | failed {error : Error} {endpoint : Endpoint G} {outcomes : List Outcome}
    (first : Outcome.firstFailure? outcomes = some ({ session with endpoint }.fail error).1) :
    Tells session (.error error endpoint) (outcomes, ({ session with endpoint }.fail error).2)

/-- However messages are packed into records in the clear and however these arrive, calls tell what
the endpoint makes of the messages in a row. -/
theorem tells_of_fragments (ready : session.Ready) (clear : session.endpoint.InClear)
    (waits : Assembly.next? session.pending = .ok none) {reads : List Octets}
    {fragments : List Fragment}
    (arrived : session.inbox ++ reads.flatten = fragments.flatMap Fragment.record) :
    session.Tells
      (receiveStream (session.pending ++ fragments.flatMap Fragment.payload) session.endpoint)
      (session.receiveAll reads) := by
  have yields := yields_of_fragments ready.sound clear waits fragments
  rw [← arrived] at yields
  generalize receiveStream (session.pending ++ fragments.flatMap Fragment.payload)
    session.endpoint = result at yields ⊢
  cases yields with
  | handled opened comes =>
    obtain ⟨fine, last, answers⟩ := receiveAll_of_comesTo ready clear.1 opened comes
    generalize session.receiveAll reads = told at fine last answers ⊢
    obtain ⟨outcomes, _⟩ := told
    cases last
    exact .handled fine (answers rfl)
  | failed opened comes =>
    obtain ⟨first, last, _⟩ := receiveAll_of_comesTo ready clear.1 opened comes
    generalize session.receiveAll reads = told at first last ⊢
    obtain ⟨outcomes, _⟩ := told
    cases last
    exact .failed first

/-- A session that has collected nothing takes the messages in pieces that fill a record each. -/
theorem tells_of_pieces (ready : session.Ready)
    (clear : session.endpoint.InClear) (inbox : session.inbox = []) (pending : session.pending = [])
    {pieces reads : List Octets} (small : ∀ piece ∈ pieces, piece.length ≤ Record.maxPiece)
    (arrived : reads.flatten = pieces.flatMap (Record.plainRecord .handshake)) :
    session.Tells (receiveStream pieces.flatten session.endpoint) (session.receiveAll reads) := by
  obtain ⟨fragments, records, payloads⟩ := Fragment.exists_of_pieces small
  have tells := @tells_of_fragments _ _ session ready clear (by rw [pending]; rfl) reads fragments
    (by rw [inbox, arrived, records]; rfl)
  rwa [pending, payloads] at tells

omit [Entropy G] in
theorem Tells.unique {result : EStateM.Result Error (Endpoint G) (Octets × Octets)}
    {told other : List Outcome × Session G} (tells : session.Tells result told)
    (also : session.Tells result other) : told.2 = other.2 ∧
      Outcome.firstFailure? told.1 = Outcome.firstFailure? other.1 ∧
      (Outcome.firstFailure? told.1 = none → Outcome.answers told.1 = Outcome.answers other.1) := by
  cases tells with
  | handled fine answers =>
    cases also with
    | handled fine' answers' =>
      exact ⟨rfl, fine.trans fine'.symm, fun _ => answers.trans answers'.symm⟩
  | failed first =>
    cases also with
    | failed first' =>
      refine ⟨rfl, first.trans first'.symm, fun fine => ?_⟩
      cases first.symm.trans fine

/-- While the other end is in the clear, it does not matter into which records it packs its
handshake messages, nor how the records arrive: for the same messages in a row the session after
them, what it has answered and the failure it has reported are the same. It takes the messages that
the lengths in their headers tell apart, behind what it has collected before, in order, up to the
first that fails, and what is not a whole message yet it keeps. -/
theorem receiveAll_eq_of_payload_eq (reachable : session.Reachable)
    (running : session.endpoint.stage = .handshaking)
    (clear : session.endpoint.receiveProtected = false) {reads others : List Octets}
    {fragments repacked : List Fragment}
    (arrived : session.inbox ++ reads.flatten = fragments.flatMap Fragment.record)
    (alsoArrived : session.inbox ++ others.flatten = repacked.flatMap Fragment.record)
    (same : fragments.flatMap Fragment.payload = repacked.flatMap Fragment.payload) :
    (session.receiveAll reads).2 = (session.receiveAll others).2 ∧
      Outcome.firstFailure? (session.receiveAll reads).1 =
        Outcome.firstFailure? (session.receiveAll others).1 ∧
      (Outcome.firstFailure? (session.receiveAll reads).1 = none →
        Outcome.answers (session.receiveAll reads).1 =
          Outcome.answers (session.receiveAll others).1) ∧
      ∃ messages ends,
        Assembly.Reading (session.pending ++ fragments.flatMap Fragment.payload) messages ends ∧
        session.Tells (receiveRow messages ends session.endpoint) (session.receiveAll reads) := by
  have ready := reachable.ready (Or.inl running)
  have tells := tells_of_fragments ready ⟨running, clear⟩ reachable.collecting arrived
  have also := tells_of_fragments ready ⟨running, clear⟩ reachable.collecting alsoArrived
  rw [← same] at also
  obtain ⟨last, first, answers⟩ := tells.unique also
  exact ⟨last, first, answers, _, _, Assembly.messages_eq_iff.mp rfl, tells⟩

/-- The rehearsed server returns its flight also if each octet of the client's hello comes in a
record of its own. -/
theorem receiveAll_eq_of_payload_eq_rehearsal : ∃ (message flight : Octets)
    (fragments repacked : List Fragment),
    Rehearsal.client.start.1 = .ok (Record.encodePlain .handshake message) ∧ flight ≠ [] ∧
    Rehearsal.server.start.2.Reachable ∧
    Rehearsal.server.start.2.endpoint.stage = .handshaking ∧
    Rehearsal.server.start.2.endpoint.receiveProtected = false ∧
    Rehearsal.server.start.2.inbox ++ [Record.encodePlain .handshake message].flatten =
      fragments.flatMap Fragment.record ∧
    Rehearsal.server.start.2.inbox ++
        (message.map fun octet => Record.plainRecord .handshake [octet]).flatten =
      repacked.flatMap Fragment.record ∧
    fragments.flatMap Fragment.payload = repacked.flatMap Fragment.payload ∧
    Outcome.firstFailure? (Rehearsal.server.start.2.receiveAll
      (message.map fun octet => Record.plainRecord .handshake [octet])).1 = none ∧
    Outcome.answers (Rehearsal.server.start.2.receiveAll
      (message.map fun octet => Record.plainRecord .handshake [octet])).1 = flight := by
  obtain ⟨_, _, made⟩ := Rehearsal.pairing.serverMade
  have reachable : Rehearsal.server.start.2.Reachable := ⟨_, .server made, .start .refl⟩
  have starts := server_start made
  obtain ⟨_, supplied⟩ := Rehearsal.pairing.exists_supplied
  obtain ⟨message, _, _, clientStarts, _⟩ := supplied.exists_start
  obtain ⟨hello, flight, _, sent, some, returned, _⟩ := Rehearsal.pairing.exists_flight
  rw [clientStarts] at sent
  cases sent
  obtain ⟨fragments, records, payloads⟩ :=
    @Fragment.exists_of_pieces (Record.pieces message) fun _ => Record.length_le_of_mem_pieces
  obtain ⟨repacked, singles, octets⟩ :=
    @Fragment.exists_of_pieces (message.map fun octet => [octet]) (by simp [Record.maxPiece])
  rw [← Record.encodePlain_eq] at records
  rw [Record.pieces_flatten] at payloads
  have whole : (message.map fun octet => [octet]).flatten = message := by
    rw [← List.flatMap_def, List.flatMap_singleton']
  have running : Rehearsal.server.start.2.endpoint.stage = .handshaking := by rw [starts]
  have clear : Rehearsal.server.start.2.endpoint.receiveProtected = false := by rw [starts]
  have arrived : Rehearsal.server.start.2.inbox ++
      [Record.encodePlain .handshake message].flatten = fragments.flatMap Fragment.record := by
    rw [starts, List.flatten_singleton, records]
    rfl
  have alsoArrived : Rehearsal.server.start.2.inbox ++
      (message.map fun octet => Record.plainRecord .handshake [octet]).flatten =
        repacked.flatMap Fragment.record := by
    rw [starts, singles, List.flatMap_map, ← List.flatMap_def]
    rfl
  have same := payloads.trans (whole.symm.trans octets.symm)
  obtain ⟨_, first, answers, _⟩ :=
    receiveAll_eq_of_payload_eq reachable running clear arrived alsoArrived same
  rw [receiveAll_cons, returned] at first answers
  refine ⟨message, flight, fragments, repacked, by rw [clientStarts], some, reachable, running,
    clear, arrived, alsoArrived, same, first.symm, (answers rfl).symm.trans ?_⟩
  exact List.append_nil _

end Session

end TransportSecurity
