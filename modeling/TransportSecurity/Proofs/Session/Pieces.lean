import TransportSecurity.Proofs.Session.Calls
import TransportSecurity.Proofs.Session.Completion

/-!
A stream means the same however it is cut.

`ComesTo` says what a session makes of a stream apart from the calls that bring it: the records it
takes, the failure they end in, if any, and the session after it. There is only one such reading
(`ComesTo.unique`), and every way to bring the stream in pieces, followed by two calls that bring
nothing, comes to it (`comesTo_of_receiveAll`). One of these two makes up for the call that returned
early at the end of the handshake, and the other asks for a failure that waits behind data.
-/

namespace TransportSecurity

namespace Outcome

/-- The first failure that outcomes report. -/
def firstFailure? (outcomes : List Outcome) : Option Failure := outcomes.findSome? failure?

theorem firstFailure?_cons (outcome : Outcome) (outcomes : List Outcome) :
    firstFailure? (outcome :: outcomes) = outcome.failure?.or (firstFailure? outcomes) := by
  rw [firstFailure?, List.findSome?_cons]
  cases outcome.failure? <;> rfl

theorem answers_cons (outcome : Outcome) (outcomes : List Outcome) :
    answers (outcome :: outcomes) = outcome.answer ++ answers outcomes := rfl

theorem contents_cons (outcome : Outcome) (outcomes : List Outcome) :
    contents (outcome :: outcomes) = outcome.content ++ contents outcomes := rfl

end Outcome

namespace Session

open Endpoint Handled

variable {G : Type} [Entropy G]

/-- What a session makes of a stream: it takes records until it waits for more or cannot go on. -/
inductive ComesTo (session : Session G) (octets : Octets) :
    List Handled → Option Failure → Session G → Prop
  | waits {script : List Handled} {endpoint : Endpoint G} {inbox pending : Octets}
    (arrived : octets = stream script ++ inbox)
    (takes : Takes session.endpoint session.pending script endpoint pending)
    (nothing : Record.next? inbox = .ok none) :
    ComesTo session octets script none { session with endpoint, inbox, pending }
  | fails {script : List Handled} {endpoint failing : Endpoint G} {inbox pending : Octets}
    {error : Error} (arrived : octets = stream script ++ inbox)
    (takes : Takes session.endpoint session.pending script endpoint pending)
    (refuses : Refuses endpoint pending inbox error failing) :
    ComesTo session octets script (some ({ session with endpoint := failing }.fail error).1)
      ({ session with endpoint := failing }.fail error).2

namespace ComesTo

variable {session last last' : Session G} {octets : Octets} {script script' : List Handled}
  {failure failure' : Option Failure}

/-- The records that are taken are at the front of the stream. -/
theorem exists_takes (comes : ComesTo session octets script failure last) :
    ∃ endpoint pending rest, Takes session.endpoint session.pending script endpoint pending ∧
      octets = stream script ++ rest := by
  cases comes with
  | waits arrived takes nothing => exact ⟨_, _, _, takes, arrived⟩
  | fails arrived takes refuses => exact ⟨_, _, _, takes, arrived⟩

/-- A stream that fails a session does so whatever follows it. -/
theorem append_of_fails {failure : Failure}
    (comes : ComesTo session octets script (some failure) last) (more : Octets) :
    ComesTo session (octets ++ more) script (some failure) last := by
  cases comes with
  | fails arrived takes refuses =>
    refine .fails ?_ takes (refuses.append more)
    rw [arrived, List.append_assoc]

/-- A stream is read in one way only. -/
theorem unique (comes : ComesTo session octets script failure last)
    (also : ComesTo session octets script' failure' last') :
    script = script' ∧ failure = failure' ∧ last = last' := by
  cases comes with
  | waits arrived takes nothing =>
    cases also with
    | waits arrived' takes' nothing' =>
      obtain ⟨rfl, rfl, rfl, rfl⟩ :=
        takes.unique takes' (Or.inl nothing) (Or.inl nothing') (arrived.symm.trans arrived')
      exact ⟨rfl, rfl, rfl⟩
    | fails arrived' takes' refuses =>
      obtain ⟨rfl, rfl, rfl, rfl⟩ := takes.unique takes' (Or.inl nothing)
        (Or.inr ⟨_, _, refuses⟩) (arrived.symm.trans arrived')
      exact (refuses.not_waiting nothing).elim
  | fails arrived takes refuses =>
    cases also with
    | waits arrived' takes' nothing =>
      obtain ⟨rfl, rfl, rfl, rfl⟩ := takes.unique takes' (Or.inr ⟨_, _, refuses⟩)
        (Or.inl nothing) (arrived.symm.trans arrived')
      exact (refuses.not_waiting nothing).elim
    | fails arrived' takes' refuses' =>
      obtain ⟨rfl, rfl, rfl, rfl⟩ := takes.unique takes' (Or.inr ⟨_, _, refuses⟩)
        (Or.inr ⟨_, _, refuses'⟩) (arrived.symm.trans arrived')
      obtain ⟨rfl, rfl⟩ := refuses.unique refuses'
      exact ⟨rfl, rfl, rfl⟩

/-- A stream that leaves a session waiting does not fail it. -/
theorem not_fails (waits : ComesTo session octets script none last) :
    ¬∃ script failure last, ComesTo session octets script (some failure) last := by
  rintro ⟨_, _, _, fails⟩
  obtain ⟨_, impossible, _⟩ := waits.unique fails
  cases impossible

/-- Records that are taken first come first. -/
theorem prepend {endpoint : Endpoint G} {inbox pending : Octets} {done : List Handled}
    (takes : Takes session.endpoint session.pending done endpoint pending)
    (comes : ComesTo { session with endpoint, inbox, pending } octets script failure last) :
    ComesTo session (stream done ++ octets) (done ++ script) failure last := by
  cases comes with
  | waits arrived later nothing =>
    refine .waits ?_ (takes.append later) nothing
    rw [arrived, stream_append, List.append_assoc]
  | fails arrived later refuses =>
    refine .fails ?_ (takes.append later) refuses
    rw [arrived, stream_append, List.append_assoc]

end ComesTo

/-- A session that is taking octets: while its handshake goes on, it has taken all records that are
whole. -/
structure Ready (session : Session G) : Prop where
  sound : session.endpoint.Sound
  active : session.endpoint.stage = .handshaking ∨ session.endpoint.stage = .established
  deferred : session.deferred = none
  waits : session.endpoint.stage = .handshaking → Record.next? session.inbox = .ok none

/-- A call that does not fail leaves a session that goes on taking octets. -/
theorem Ready.goesOn {session : Session G} (ready : session.Ready) {script : List Handled}
    {endpoint : Endpoint G} {inbox pending : Octets}
    (takes : Takes session.endpoint session.pending script endpoint pending)
    (rests : Record.next? inbox = .ok none ∨
      session.endpoint.stage = .handshaking ∧ endpoint.stage = .established ∧ script ≠ []) :
    Ready { session with endpoint, inbox, pending } := by
  refine ⟨takes.sound ready.sound, takes.active ready.sound ready.active, ready.deferred, ?_⟩
  intro running
  rcases rests with nothing | ⟨_, isOver, _⟩
  · exact nothing
  · cases running.symm.trans isOver

theorem waits_of_performs {session after : Session G} {call : Call} {reply : Reply}
    (orderly : session.Orderly)
    (before : session.endpoint.stage = .handshaking → Record.next? session.inbox = .ok none)
    (performs : Performs session call reply after) (running : after.endpoint.stage = .handshaking) :
    Record.next? after.inbox = .ok none := by
  cases performs with
  | starts fresh begins =>
    dsimp only
    rw [(orderly.fresh fresh).1]
    rfl
  | cannotStart fresh failed => cases running
  | started begun => exact before running
  | notStarted fresh => exact before running
  | reads active arrived takes rests =>
    refine rests.resolve_right fun isOver => ?_
    cases running.symm.trans isOver
  | cannotRead script active arrived takes opened refuses =>
    cases (failed_of_stop ..).symm.trans running
  | sends isOver sent =>
    obtain ⟨_, _, rfl⟩ := encode_frame sent
    exact before running
  | cannotSend isOver failed =>
    obtain ⟨_, _, rfl⟩ := encode_frame_of_error failed
    exact before running
  | notEstablished unfinished => exact before running

/-- While its handshake goes on, a session in use has taken all records that are whole. -/
theorem Reachable.waits {session : Session G} (reachable : session.Reachable) :
    session.endpoint.stage = .handshaking → Record.next? session.inbox = .ok none := by
  refine reachable.induct ?_ ?_ ?_
  · intro session made running
    have fresh := (blank_of_made made).idle
    rw [(orderly_of_made made).endpoint.stage, ← fresh, Role.shape_idle] at running
    cases running
  · intro session reachable before call running
    by_cases failed : session.endpoint.stage = .failed
    · cases (failed_perform failed call).symm.trans running
    · have orderly := reachable.orderly.resolve_right failed
      exact waits_of_performs orderly before (orderly.performs call) running
  · intro session _ _ running
    cases running

theorem Reachable.ready {session : Session G} (reachable : session.Reachable)
    (active : session.endpoint.stage = .handshaking ∨ session.endpoint.stage = .established) :
    session.Ready := by
  have notFailed : session.endpoint.stage ≠ .failed := by
    intro failed
    simp [failed] at active
  have orderly := reachable.orderly.resolve_right notFailed
  exact ⟨orderly.endpoint, active, orderly.deferred, reachable.waits⟩

/-- A session that waits for more learns nothing from a call that brings nothing. -/
theorem receive_of_waiting {session : Session G}
    (active : session.endpoint.stage = .handshaking ∨ session.endpoint.stage = .established)
    (nothing : Record.next? session.inbox = .ok none) :
    session.receive [] = (.needMoreData, session) := by
  rw [receive_eq_drain active, List.append_nil]
  exact drain_of_nothing nothing

/-- A failed session reports the failure that waits, and hands out nothing. -/
theorem receiveAll_of_failed {session : Session G} (failed : session.endpoint.stage = .failed)
    (reads : List Octets) : Outcome.contents (session.receiveAll reads).1 = [] ∧ (reads ≠ [] →
      Outcome.firstFailure? (session.receiveAll reads).1 = some session.takeFailure.1 ∧
      (session.receiveAll reads).2 = { session with deferred := none }) := by
  induction reads generalizing session with
  | nil => exact ⟨rfl, fun some => (some rfl).elim⟩
  | cons octets reads ih =>
    have still : session.takeFailure.2.endpoint.stage = .failed := by
      rw [endpoint_takeFailure]
      exact failed
    have taken : session.takeFailure.2 = { session with deferred := none } := by
      unfold takeFailure
      split
      · rfl
      · next nothing => rw [← nothing]
    obtain ⟨silent, reported⟩ := ih still
    rw [receiveAll_cons, receive_of_failed failed]
    refine ⟨silent, fun _ => ⟨rfl, ?_⟩⟩
    rcases reads with _ | ⟨next, reads⟩
    · exact taken
    · rw [(reported (by simp)).2, taken]

/-- Once a session stops, its failure is the first that is reported, and the data from before is
handed out. -/
theorem receiveAll_of_stop {session : Session G} (deferred : session.deferred = none)
    (error : Error) (data : Octets) {reads : List Octets} (more : reads ≠ []) :
    Outcome.contents ((session.stop error data).1 ::
        ((session.stop error data).2.receiveAll reads).1) = data ∧
      Outcome.firstFailure? ((session.stop error data).1 ::
        ((session.stop error data).2.receiveAll reads).1) = some (session.fail error).1 ∧
      ((session.stop error data).2.receiveAll reads).2 = (session.fail error).2 := by
  have failed : (session.stop error data).2.endpoint.stage = .failed := failed_of_stop ..
  obtain ⟨silent, reported⟩ := receiveAll_of_failed failed reads
  obtain ⟨first, last⟩ := reported more
  have nothing : (session.fail error).2.deferred = none := deferred
  rw [Outcome.contents_cons, content_stop, silent, List.append_nil, Outcome.firstFailure?_cons,
    first, last]
  refine ⟨rfl, ?_, ?_⟩
  · simp only [stop]
    split <;> rfl
  · simp only [stop]
    split <;> rw [← nothing]

/-- What calls report is what their stream comes to. -/
structure Reports (outcomes : List Outcome) (script : List Handled) (first : Option Failure) :
    Prop where
  content : Outcome.contents outcomes = contents script
  failure : Outcome.firstFailure? outcomes = first
  answer : first = none → Outcome.answers outcomes = answers script

/-- However a stream is cut, with two more calls that bring nothing the session reports what the
stream comes to. -/
theorem comesTo_of_receiveAll {session : Session G} (ready : session.Ready) (reads : List Octets) :
    ∃ script failure, ComesTo session (session.inbox ++ reads.flatten) script failure
        (session.receiveAll (reads ++ [[], []])).2 ∧
      Reports (session.receiveAll (reads ++ [[], []])).1 script failure := by
  induction reads generalizing session with
  | nil =>
    rw [List.nil_append, List.flatten_nil, receiveAll_cons]
    have reads := reads_receive ready.sound ready.active []
    generalize session.receive [] = result at reads ⊢
    cases reads with
    | @goesOn script endpoint inbox pending outcome arrived takes rests answer content fine =>
      -- nothing new has arrived, so this call did not end the handshake
      have nothing : Record.next? inbox = .ok none := by
        refine rests.resolve_right ?_
        rintro ⟨running, _, nonempty⟩
        obtain ⟨handled, script, rfl⟩ := List.exists_cons_of_ne_nil nonempty
        have found : Record.next? session.inbox = .ok (some (handled.header, handled.record,
            stream script ++ inbox)) := by
          refine Record.next?_eq_some_iff.mpr ⟨takes.whole _ (List.mem_cons_self ..), ?_⟩
          rw [← List.append_nil session.inbox, arrived, stream_cons, List.append_assoc]
        cases (ready.waits running).symm.trans found
      have idle : Session.receive { session with endpoint, inbox, pending } [] =
          (.needMoreData, { session with endpoint, inbox, pending }) :=
        receive_of_waiting (takes.active ready.sound ready.active) nothing
      dsimp only
      rw [receiveAll_cons, idle]
      refine ⟨script, none, .waits arrived takes nothing, ?_, ?_, fun _ => ?_⟩
      · rw [Outcome.contents_cons, content]
        exact List.append_nil _
      · rw [Outcome.firstFailure?_cons, fine]
        rfl
      · rw [Outcome.answers_cons, answer]
        exact List.append_nil _
    | @fails script endpoint failing inbox pending error arrived takes opened refuses =>
      obtain ⟨content, failure, last⟩ := @receiveAll_of_stop _ _
        { session with endpoint := failing } ready.deferred error (Handled.contents script) [[]]
        (by simp)
      refine ⟨script, _, ?_, content, failure, fun fine => by cases fine⟩
      dsimp only at last ⊢
      rw [last]
      exact .fails arrived takes refuses
  | cons octets reads ih =>
    rw [List.cons_append, receiveAll_cons, List.flatten_cons, ← List.append_assoc]
    have first := reads_receive ready.sound ready.active octets
    generalize session.receive octets = result at first ⊢
    cases first with
    | @goesOn done endpoint inbox pending outcome arrived takes rests answer content fine =>
      obtain ⟨script, failure, comes, reports⟩ := ih (ready.goesOn takes rests)
      refine ⟨done ++ script, failure, ?_, ?_, ?_, fun fine' => ?_⟩
      · rw [arrived, List.append_assoc]
        exact comes.prepend takes
      · rw [Outcome.contents_cons, content, reports.content, contents_append]
      · rw [Outcome.firstFailure?_cons, fine, reports.failure]
        rfl
      · rw [Outcome.answers_cons, answer, reports.answer fine', answers_append]
    | @fails script endpoint failing inbox pending error arrived takes opened refuses =>
      obtain ⟨content, failure, last⟩ := @receiveAll_of_stop _ _
        { session with endpoint := failing } ready.deferred error (Handled.contents script)
        (reads ++ [[], []]) (by simp)
      refine ⟨script, _, ?_, content, failure, fun fine => by cases fine⟩
      dsimp only at last ⊢
      rw [last]
      refine .fails ?_ takes (refuses.append reads.flatten)
      rw [arrived, List.append_assoc]

/-- A session in use makes the same of a stream however it is cut into pieces, if two calls that
bring nothing follow: what it hands out, the first failure it reports and the session after it are
the same, and without a failure what it asks to send is the same too. -/
theorem receiveAll_eq_of_flatten_eq {session : Session G} (reachable : session.Reachable)
    (active : session.endpoint.stage = .handshaking ∨ session.endpoint.stage = .established)
    {reads others : List Octets} (same : reads.flatten = others.flatten) :
    Outcome.contents (session.receiveAll (reads ++ [[], []])).1 =
        Outcome.contents (session.receiveAll (others ++ [[], []])).1 ∧
      Outcome.firstFailure? (session.receiveAll (reads ++ [[], []])).1 =
        Outcome.firstFailure? (session.receiveAll (others ++ [[], []])).1 ∧
      (session.receiveAll (reads ++ [[], []])).2 = (session.receiveAll (others ++ [[], []])).2 ∧
      (Outcome.firstFailure? (session.receiveAll (reads ++ [[], []])).1 = none →
        Outcome.answers (session.receiveAll (reads ++ [[], []])).1 =
          Outcome.answers (session.receiveAll (others ++ [[], []])).1) := by
  obtain ⟨script, failure, comes, reports⟩ := comesTo_of_receiveAll (reachable.ready active) reads
  obtain ⟨script', failure', comes', reports'⟩ :=
    comesTo_of_receiveAll (reachable.ready active) others
  rw [← same] at comes'
  obtain ⟨rfl, rfl, last⟩ := comes.unique comes'
  refine ⟨reports.content.trans reports'.content.symm,
    reports.failure.trans reports'.failure.symm, last, ?_⟩
  intro fine
  rw [reports.failure] at fine
  exact (reports.answer fine).trans (reports'.answer fine).symm

/-- A rehearsed handshake comes to its end also if the server reads octet by octet. -/
theorem receiveAll_eq_of_flatten_eq_rehearsal : ∃ octets : Octets,
    Rehearsal.server.start.2.Reachable ∧ Rehearsal.server.start.2.endpoint.stage = .handshaking ∧
      (octets.map fun octet => [octet]).flatten = [octets].flatten ∧
      (Rehearsal.server.start.2.receiveAll
        ((octets.map fun octet => [octet]) ++ [[], []])).2.isEstablished := by
  obtain ⟨_, _, server, _, octets, _, rfl, _, ⟨inbox, _⟩, agree, _⟩ :=
    Rehearsal.pairing.exists_agreed
  obtain ⟨_, _, made⟩ := Rehearsal.pairing.serverMade
  have reachable : Rehearsal.server.start.2.Reachable := ⟨_, .server made, .start .refl⟩
  have running : Rehearsal.server.start.2.endpoint.stage = .handshaking := by
    rw [server_start made]
  have pieces : (octets.map fun octet => [octet]).flatten = [octets].flatten := by
    rw [List.flatten_singleton, ← List.flatMap_def, List.flatMap_singleton']
  obtain ⟨_, _, same, _⟩ := receiveAll_eq_of_flatten_eq reachable (Or.inl running) pieces
  have idle := receive_of_waiting (Or.inr agree.serverOver) (by rw [inbox]; rfl)
  refine ⟨octets, reachable, running, pieces, ?_⟩
  rw [same, List.singleton_append, receiveAll_cons, receiveAll_cons, idle, receiveAll_cons, idle]
  exact decide_eq_true agree.serverOver

end Session

end TransportSecurity
