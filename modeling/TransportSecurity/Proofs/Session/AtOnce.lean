import TransportSecurity.Proofs.Session.Emission
import TransportSecurity.Proofs.Session.Pieces

/-!
A handshake that fails, in pieces and at once.

Records before the one that fails a handshake may have asked to send something. A session that is
given one record at a time hands out what they ask for; a session that is given all of them at once
reports the failure alone, and what they asked for is lost (`receive_flatten_of_failed`). Only once
the handshake is over is nothing lost: the call returns at its end, and the failure comes later.

`Breaks` says which of the two is the case, and the induction over the reads (`breaks_of_failed`)
keeps what has been emitted so far equal to what the records so far asked for.
-/

namespace TransportSecurity

namespace Outcome

/-- What outcomes return to be sent, apart from alerts. -/
def emissions (outcomes : List Outcome) : Octets :=
  outcomes.flatMap fun outcome => (Reply.received outcome).emitted

theorem emissions_cons (outcome : Outcome) (outcomes : List Outcome) :
    emissions (outcome :: outcomes) = (Reply.received outcome).emitted ++ emissions outcomes := rfl

theorem emitted_waiting (records : Octets) :
    (Reply.received (waiting records [])).emitted = records := by
  rw [Reply.emitted_received (failure?_waiting ..), answer_waiting]

theorem firstFailure?_append (outcomes more : List Outcome) :
    firstFailure? (outcomes ++ more) = (firstFailure? outcomes).or (firstFailure? more) :=
  List.findSome?_append

end Outcome

namespace Session

open Endpoint Handled

variable {G : Type} [Entropy G] {session : Session G}

theorem receiveAll_append (session : Session G) (reads more : List Octets) :
    session.receiveAll (reads ++ more) =
      ((session.receiveAll reads).1 ++ ((session.receiveAll reads).2.receiveAll more).1,
        ((session.receiveAll reads).2.receiveAll more).2) := by
  induction reads generalizing session with
  | nil => rfl
  | cons octets reads ih => rw [List.cons_append, receiveAll_cons, ih, receiveAll_cons]; rfl

/-- A session whose handshake is over, or that has failed, returns nothing to be sent. -/
theorem emitted_receive_of_over
    (finished : session.endpoint.Sound ∧ session.endpoint.stage = .established ∨
      session.endpoint.stage = .failed) (octets : Octets) :
    (Reply.received (session.receive octets).1).emitted = [] := by
  rcases finished with ⟨sound, isOver⟩ | failed
  · have receives := receives_receive (Or.inr isOver) octets
    generalize session.receive octets = result at receives ⊢
    cases receives with
    | waits arrived takes opened nothing =>
      have apart := takes.apart sound (Or.inr isOver) opened
      rw [Reply.emitted_received (Outcome.failure?_waiting ..), apart.answer_waiting,
        takes.quiet sound isOver]
    | completes arrived takes opened ends =>
      obtain ⟨running, _⟩ := takes.completes sound (Or.inr isOver) ends
      cases running.symm.trans isOver
    | stops arrived takes opened refuses => exact emitted_stop ..
  · rw [receive_of_failed failed]
    rfl

theorem emissions_of_over
    (finished : session.endpoint.Sound ∧ session.endpoint.stage = .established ∨
      session.endpoint.stage = .failed) (reads : List Octets) :
    Outcome.emissions (session.receiveAll reads).1 = [] := by
  induction reads generalizing session with
  | nil => rfl
  | cons octets reads ih =>
    rw [receiveAll_cons, Outcome.emissions_cons, emitted_receive_of_over finished, ih, List.append_nil]
    rcases finished with ⟨sound, isOver⟩ | failed
    · exact (receive_of_over sound isOver octets).2
    · exact Or.inr (failed_receive failed octets)

theorem never_of_failed (failed : session.endpoint.stage = .failed) (reads : List Octets) :
    ∀ outcome ∈ (session.receiveAll reads).1, outcome.completes = false := by
  induction reads generalizing session with
  | nil => exact fun _ => nofun
  | cons octets reads ih =>
    rw [receiveAll_cons, receive_of_failed failed]
    refine List.forall_mem_cons.mpr ⟨rfl, ih ?_⟩
    rw [endpoint_takeFailure]
    exact failed

/-- How a running handshake fails on a stream, and what outcomes had been told by then: no record
before the failing one ends the handshake, or one of them does, and by then all that the records up
to it asked for was returned. -/
inductive Breaks (session : Session G) (octets : Octets) (outcomes : List Outcome)
    (failure : Failure) : Prop
  | unfinished {script : List Handled} {endpoint failing : Endpoint G} {inbox pending : Octets}
    {error : Error} (arrived : session.inbox ++ octets = stream script ++ inbox)
    (takes : Takes session.endpoint session.pending script endpoint pending)
    (opened : Open script) (refuses : Refuses endpoint pending inbox error failing)
    (fails : ({ session with endpoint := failing }.fail error).1 = failure)
    (never : ∀ outcome ∈ outcomes, outcome.completes = false)
  | completed {script : List Handled} {last : Handled} {endpoint : Endpoint G}
    {inbox pending : Octets}
    (arrived : session.inbox ++ octets = stream (script ++ [last]) ++ inbox)
    (takes : Takes session.endpoint session.pending (script ++ [last]) endpoint pending)
    (opened : Open script) (ends : last.progress.ends = true)
    (once : ∃ outcome ∈ outcomes, outcome.completes = true)
    (emits : Outcome.emissions outcomes = answers (script ++ [last]))

/-- Records that leave a handshake going on, and what was returned for them, come first. -/
theorem Breaks.prepend {octets more inbox pending : Octets} {outcomes : List Outcome}
    {failure : Failure} {endpoint : Endpoint G} {done : List Handled}
    (sound : session.endpoint.Sound) (running : session.endpoint.stage = .handshaking)
    (arrived : session.inbox ++ octets = stream done ++ inbox)
    (takes : Takes session.endpoint session.pending done endpoint pending) (opened : Open done)
    (breaks : Breaks { session with endpoint, inbox, pending } more outcomes failure) :
    Breaks session (octets ++ more)
      (Outcome.waiting (answers done) (contents done) :: outcomes) failure := by
  have joined {rest : List Handled} {left : Octets} (later : inbox ++ more = stream rest ++ left) :
      session.inbox ++ (octets ++ more) = stream (done ++ rest) ++ left := by
    rw [← List.append_assoc, arrived, List.append_assoc, later, stream_append, List.append_assoc]
  cases breaks with
  | unfinished later takes' opened' refuses fails never =>
    exact .unfinished (joined later) (takes.append takes') (open_append_iff.mpr ⟨opened, opened'⟩)
      refuses fails (List.forall_mem_cons.mpr ⟨Outcome.completes_waiting .., never⟩)
  | @completed script last _ _ _ later takes' opened' ends once emits =>
    obtain ⟨outcome, among, completes⟩ := once
    have whole := joined later
    have taken := takes.append takes'
    rw [← List.append_assoc done] at whole taken
    refine .completed whole taken (open_append_iff.mpr ⟨opened, opened'⟩) ends
      ⟨outcome, List.mem_cons_of_mem _ among, completes⟩ ?_
    rw [takes.silent sound running opened, Outcome.emissions_cons, Outcome.emitted_waiting, emits,
      ← answers_append, List.append_assoc]

/-- Reads that fail a running handshake break it. -/
theorem breaks_of_failed (sound : session.endpoint.Sound)
    (running : session.endpoint.stage = .handshaking) {reads : List Octets} {failure : Failure}
    (failed : Outcome.firstFailure? (session.receiveAll reads).1 = some failure) :
    Breaks session reads.flatten (session.receiveAll reads).1 failure := by
  induction reads generalizing session with
  | nil => cases failed
  | cons octets reads ih =>
    rw [receiveAll_cons] at failed ⊢
    rw [Outcome.firstFailure?_cons] at failed
    rw [List.flatten_cons]
    have receives := receives_receive (Or.inl running) octets
    generalize session.receive octets = result at receives failed ⊢
    cases receives with
    | waits arrived takes opened nothing =>
      rw [Outcome.failure?_waiting] at failed
      exact (ih (takes.sound sound) (takes.running sound running opened) failed).prepend sound
        running arrived takes opened
    | @completes script last endpoint inbox pending arrived takes opened ends =>
      obtain ⟨_, isOver, _⟩ := takes.completes sound (Or.inl running) ends
      have whole : session.inbox ++ (octets ++ reads.flatten) =
          stream (script ++ [last]) ++ (inbox ++ reads.flatten) := by
        rw [← List.append_assoc, arrived, List.append_assoc]
      refine .completed whole takes opened ends ⟨_, List.mem_cons_self .., rfl⟩ ?_
      rw [Outcome.emissions_cons, emissions_of_over (Or.inl ⟨takes.sound sound, isOver⟩),
        List.append_nil]
      rfl
    | @stops script endpoint failing inbox pending error arrived takes opened refuses =>
      have whole : session.inbox ++ (octets ++ reads.flatten) =
          stream script ++ (inbox ++ reads.flatten) := by
        rw [← List.append_assoc, arrived, List.append_assoc]
      rw [takes.silent sound running opened, stop_nil] at failed ⊢
      refine .unfinished whole takes opened (refuses.append _) (Option.some.inj failed) ?_
      refine List.forall_mem_cons.mpr ⟨rfl, ?_⟩
      have stopped := failed_of_fail { session with endpoint := failing } error
      generalize ({ session with endpoint := failing }.fail error).2 = wiped at stopped ⊢
      exact never_of_failed stopped reads

/-- A call that brings the end of a handshake returns there, with all that the records up to it ask
for. -/
theorem receive_of_completes {octets inbox pending : Octets} {script : List Handled}
    {last : Handled} {endpoint : Endpoint G} (running : session.endpoint.stage = .handshaking)
    (arrived : session.inbox ++ octets = stream (script ++ [last]) ++ inbox)
    (takes : Takes session.endpoint session.pending (script ++ [last]) endpoint pending)
    (opened : Open script) (ends : last.progress.ends = true) :
    session.receive octets = (.handshakeComplete (answers (script ++ [last])),
      { session with endpoint, inbox, pending }) := by
  obtain ⟨before, collected, front, closing⟩ := takes.split
  obtain ⟨header, record, progress⟩ := last
  rcases closing with _ | ⟨whole, handled, _ | _⟩
  rw [stream_append, stream_cons, stream_nil, List.append_nil, List.append_assoc] at arrived
  cases progress with
  | continued => cases ends
  | data => cases ends
  | complete answer =>
    rw [receive_eq_drain (Or.inl running), drain_of_takes (by exact front) opened arrived,
      drain_of_completes whole handled rfl, answers_append, answers_cons, answers_nil,
      List.append_nil]
    rfl

section Failed

variable {reads : List Octets} {failure : Failure}

/-- A stream that fails a handshake before its end is only told to have failed, if it comes at
once. -/
theorem receive_of_never (reachable : session.Reachable)
    (running : session.endpoint.stage = .handshaking)
    (failed : Outcome.firstFailure? (session.receiveAll reads).1 = some failure)
    (never : ∀ outcome ∈ (session.receiveAll reads).1, outcome.completes = false) :
    (session.receive reads.flatten).1 = .failed failure ∧
      ∀ calls, ∀ reply ∈ ((session.receive reads.flatten).2.performAll calls).1, reply.IsEmpty := by
  have sound := (reachable.ready (Or.inl running)).sound
  cases breaks_of_failed sound running failed with
  | @unfinished script endpoint failing inbox pending error arrived takes opened refuses fails =>
    have stops := receive_of_refuses (Or.inl running) arrived takes opened refuses
    rw [takes.silent sound running opened, stop_nil, fails] at stops
    have stopped : (session.perform (.receive reads.flatten)).2.endpoint.stage = .failed := by
      rw [perform, stops]
      rfl
    exact ⟨congrArg Prod.fst stops,
      fun calls => ((reachable.perform (.receive reads.flatten)).allEmpty stopped calls).2⟩
  | completed _ _ _ _ once _ =>
    obtain ⟨outcome, among, completes⟩ := once
    cases completes.symm.trans (never outcome among)

/-- A stream that fails after the end of a handshake is told up to this end, if it comes at once, and
its failure by the next calls. -/
theorem receive_of_once (reachable : session.Reachable)
    (running : session.endpoint.stage = .handshaking)
    (failed : Outcome.firstFailure? (session.receiveAll reads).1 = some failure)
    (once : ∃ outcome ∈ (session.receiveAll reads).1, outcome.completes = true) :
    (session.receive reads.flatten).1 =
        .handshakeComplete (Outcome.emissions (session.receiveAll reads).1) ∧
      Outcome.firstFailure? ((session.receive reads.flatten).2.receiveAll [[], []]).1 =
        some failure := by
  have ready := reachable.ready (Or.inl running)
  cases breaks_of_failed ready.sound running failed with
  | unfinished _ _ _ _ _ never =>
    obtain ⟨outcome, among, completes⟩ := once
    cases completes.symm.trans (never outcome among)
  | completed arrived takes opened ends _ emits =>
    have returns := receive_of_completes running arrived takes opened ends
    refine ⟨by rw [returns, emits], ?_⟩
    -- the stream comes to one failure, in pieces and at once
    obtain ⟨script, first, comes, reports⟩ := comesTo_of_receiveAll ready reads
    obtain ⟨_, first', comes', reports'⟩ := comesTo_of_receiveAll ready [reads.flatten]
    rw [List.flatten_singleton] at comes'
    obtain ⟨rfl, rfl, _⟩ := comes.unique comes'
    have inPieces := reports.failure
    rw [receiveAll_append, Outcome.firstFailure?_append, failed] at inPieces
    have atOnce := reports'.failure
    rw [List.singleton_append, receiveAll_cons, Outcome.firstFailure?_cons, returns, ← inPieces]
      at atOnce
    rw [returns]
    exact atOnce

/-- Reads that fail a running handshake, and the same octets in one call. If no read ends the
handshake, the one call reports their failure and nothing else, and no later call returns or hands
out anything: what the reads returned to be sent is lost. If a read ends the handshake, the one call
returns all that the reads returned, and the calls after it report their failure. -/
theorem receive_flatten_of_failed (reachable : session.Reachable)
    (running : session.endpoint.stage = .handshaking)
    (failed : Outcome.firstFailure? (session.receiveAll reads).1 = some failure) :
    (∀ outcome ∈ (session.receiveAll reads).1, outcome.completes = false) ∧
      (session.receive reads.flatten).1 = .failed failure ∧
      (∀ calls, ∀ reply ∈ ((session.receive reads.flatten).2.performAll calls).1, reply.IsEmpty) ∨
    (∃ outcome ∈ (session.receiveAll reads).1, outcome.completes = true) ∧
      (session.receive reads.flatten).1 =
        .handshakeComplete (Outcome.emissions (session.receiveAll reads).1) ∧
      Outcome.firstFailure? ((session.receive reads.flatten).2.receiveAll [[], []]).1 =
        some failure := by
  by_cases once : ∃ outcome ∈ (session.receiveAll reads).1, outcome.completes = true
  · exact Or.inr ⟨once, receive_of_once reachable running failed once⟩
  · have never : ∀ outcome ∈ (session.receiveAll reads).1, outcome.completes = false := by
      intro outcome among
      exact Bool.eq_false_iff.mpr fun completes => once ⟨outcome, among, completes⟩
    exact Or.inl ⟨never, receive_of_never reachable running failed never⟩

end Failed

end Session

open Session Endpoint Handled Network

section Early

variable {G H : Type} [Entropy G] [Entropy H]

/-- As long as the other end is in the clear, data is refused. -/
theorem Endpoint.receiveRecord_of_early {e : Endpoint G} (clear : e.InClear) {piece : Octets}
    (short : piece.length ≤ Record.maxPiece) (pending : Octets) :
    receiveRecord (.ofLength .applicationData piece.length)
        (Record.plainRecord .applicationData piece) pending e =
      .error (.unexpectedMessage "application data before handshake completion") e := by
  rw [receiveRecord, bind_of_ok (open?_plainRecord clear.2 short)]
  change ((get : Step G (Endpoint G)) >>= _) e = _
  rw [get_bind, clear.1]
  rfl

/-- A server that has started returns its flight for the hello of a client that it can agree with,
and goes on with the other end still in the clear. -/
theorem Pairing.exists_flight {clientSettings : ClientSettings} {serverSettings : ServerSettings}
    {client : Session G} {server : Session H}
    (pairing : Pairing clientSettings serverSettings client server) :
    ∃ hello flight answered, client.start.1 = .ok hello ∧ flight ≠ [] ∧
      server.start.2.receive hello = (.output flight, { endpoint := answered }) ∧
      answered.InClear := by
  obtain ⟨_, supplied⟩ := pairing.exists_supplied
  obtain ⟨hello, e, f, clientStarts, serverStarts, _, ⟨serverClear, _⟩, ⟨handshake⟩⟩ :=
    supplied.exists_start
  obtain ⟨script, spelled, asked, quiet, opened, takes, clear⟩ :=
    takes_encodePlain handshake.answers serverClear
  rw [List.flatten_singleton] at spelled
  have some : answers script ≠ [] := by
    rw [asked, Record.encodePlain_eq]
    obtain ⟨piece, rest, pieces⟩ := List.exists_cons_of_ne_nil (Record.pieces_ne_nil
      (handshake.serverHello ++ (handshake.certificates ++ handshake.helloDone)))
    rw [pieces]
    exact List.cons_ne_nil _ _
  refine ⟨_, answers script, handshake.answered, by rw [clientStarts], some, ?_, clear⟩
  have arrived : ([] : Octets) ++ Record.encodePlain .handshake hello = stream script ++ [] := by
    rw [spelled, List.append_nil, List.nil_append]
  rw [serverStarts, receive_eq_drain (Or.inl serverClear.1),
    drain_of_takes (by exact takes) opened arrived, quiet, drain_of_nothing rfl]
  unfold Outcome.waiting
  rw [if_neg (by decide), List.nil_append, if_pos (by simpa using some)]

end Early

namespace Rehearsal

/-- A record of data that comes before its time. -/
def early : Octets := Record.plainRecord .applicationData [0x41]

/-- The rehearsed server returns its flight for the hello and then fails, if data follows too
early. -/
theorem exists_early : server.start.2.Reachable ∧ server.start.2.endpoint.stage = .handshaking ∧
    ∃ hello flight failure, client.start.1 = .ok hello ∧ flight ≠ [] ∧
      (server.start.2.receiveAll [hello, early]).1 = [.output flight, .failed failure] ∧
      failure.error = .unexpectedMessage "application data before handshake completion" := by
  obtain ⟨_, _, made⟩ := pairing.serverMade
  obtain ⟨hello, flight, answered, sent, some, returned, clear⟩ := pairing.exists_flight
  have running : server.start.2.endpoint.stage = .handshaking := by
    rw [server_start made]
  have whole : Record.IsWhole (.ofLength .applicationData 1) early :=
    @Record.isWhole_plainRecord .applicationData [0x41] (by decide)
  have refuses : Refuses answered [] early _ answered :=
    .refused (Record.next?_eq_some_iff.mpr ⟨whole, (List.append_nil early).symm⟩)
      (receiveRecord_of_early clear (by decide) [])
  have stops := @receive_of_refuses _ _ { endpoint := answered } early early [] [] answered _ _
    (Or.inl clear.1) rfl .nil open_nil refuses
  rw [contents_nil, stop_nil] at stops
  have told : (server.start.2.receiveAll [hello, early]).1 =
      [(server.start.2.receive hello).1, ((server.start.2.receive hello).2.receive early).1] := rfl
  rw [returned, stops] at told
  exact ⟨⟨_, .server made, .start .refl⟩, running, hello, flight, _, sent, some, told, rfl⟩

end Rehearsal

/-- Early data in a call of its own fails the rehearsed server after its flight was returned; at once
with the hello it fails the server alone. -/
theorem Session.receive_flatten_of_failed_rehearsal :
    Rehearsal.server.start.2.Reachable ∧
    Rehearsal.server.start.2.endpoint.stage = .handshaking ∧ ∃ hello flight failure,
      (Rehearsal.server.start.2.receiveAll [hello, Rehearsal.early]).1 =
        [.output flight, .failed failure] ∧
      Outcome.firstFailure? (Rehearsal.server.start.2.receiveAll [hello, Rehearsal.early]).1 =
        some failure ∧
      (Rehearsal.server.start.2.receive [hello, Rehearsal.early].flatten).1 = .failed failure := by
  obtain ⟨reachable, running, hello, flight, failure, _, _, told, _⟩ := Rehearsal.exists_early
  have failed : Outcome.firstFailure?
      (Rehearsal.server.start.2.receiveAll [hello, Rehearsal.early]).1 = some failure := by
    rw [told]
    rfl
  refine ⟨reachable, running, hello, flight, failure, told, failed, ?_⟩
  rcases receive_flatten_of_failed reachable running failed with
    ⟨_, atOnce, _⟩ | ⟨⟨outcome, among, completes⟩, _⟩
  · exact atOnce
  · rw [told] at among
    rcases List.mem_cons.mp among with rfl | among
    · cases completes
    · rw [List.mem_singleton.mp among] at completes
      cases completes

/-- The rehearsed server has a flight for the client's hello, and returns it if the hello comes by
itself. If early data comes with the hello in one call, the flight is returned by no call. -/
theorem Session.flight_lost_at_once : ∃ hello flight failure, Rehearsal.client.start.1 = .ok hello ∧
    flight ≠ [] ∧
    (Rehearsal.server.start.2.receiveAll [hello, Rehearsal.early]).1 =
      [.output flight, .failed failure] ∧
    (Rehearsal.server.start.2.receive (hello ++ Rehearsal.early)).1 = .failed failure ∧
    ∀ calls, ∀ reply ∈ ((Rehearsal.server.start.2.receive
      (hello ++ Rehearsal.early)).2.performAll calls).1, reply.emitted = [] := by
  obtain ⟨reachable, running, hello, flight, failure, sent, some, told, _⟩ := Rehearsal.exists_early
  obtain ⟨atOnce, later⟩ := @receive_of_never _ _ _ [hello, Rehearsal.early] failure reachable
    running (by rw [told]; rfl) (by rw [told]; simp [Outcome.completes])
  rw [List.flatten_cons, List.flatten_singleton] at atOnce later
  exact ⟨hello, flight, failure, sent, some, told, atOnce,
    fun calls reply among => (later calls reply among).emitted⟩

end TransportSecurity
