import TransportSecurity.Proofs.Session.Feeding

/-!
What one call that takes octets comes to.

A session with a running or finished handshake either takes all whole records that have arrived, or
takes some and cannot go on (`reads_receive`). What it cannot go on with stays so whatever follows
(`Refuses.append`), and an endpoint gets to only one point on a stream (`Takes.unique`).
-/

namespace TransportSecurity

namespace Record

variable {octets : Octets}

theorem Header.ofFront?_append (long : headerLength ≤ octets.length) (more : Octets) :
    ofFront? (octets ++ more) = ofFront? octets := by
  simp only [ofFront?, List.take_append_of_le_length long]

/-- Octets that are no record are none whatever follows them. -/
theorem next?_append_of_error {error : Error} (found : next? octets = .error error)
    (more : Octets) : next? (octets ++ more) = .error error := by
  have long : headerLength ≤ octets.length := by
    refine Nat.le_of_not_lt fun short => ?_
    rw [next?, Header.ofFront?_of_short short] at found
    cases found
  unfold next? at found ⊢
  rw [Header.ofFront?_append long]
  split at found
  · exact found
  · cases found
  · dsimp only at found
    split at found <;> cases found

end Record

namespace Outcome

/-- The failure that an outcome reports. -/
def failure? : Outcome → Option Failure
  | .failed failure => some failure
  | _ => none

theorem failure?_waiting (records data : Octets) : (waiting records data).failure? = none := by
  unfold waiting
  split
  · rfl
  · split <;> rfl

end Outcome

namespace Endpoint

variable {G : Type} [Entropy G] {e f g : Endpoint G} {p q r inbox left : Octets}
  {script other : List Handled} {error : Error}

/-- An endpoint cannot go on with the octets that wait: they are no record, or their first record is
refused. -/
inductive Refuses (e : Endpoint G) (pending inbox : Octets) : Error → Endpoint G → Prop
  | malformed {error : Error} (found : Record.next? inbox = .error error) :
    Refuses e pending inbox error e
  | refused {header : Record.Header} {record rest : Octets} {error : Error} {f : Endpoint G}
    (found : Record.next? inbox = .ok (some (header, record, rest)))
    (refused : receiveRecord header record pending e = .error error f) :
    Refuses e pending inbox error f

namespace Refuses

/-- What is refused is refused whatever follows it. -/
theorem append (refuses : Refuses e p inbox error f) (more : Octets) :
    Refuses e p (inbox ++ more) error f := by
  cases refuses with
  | malformed found => exact .malformed (Record.next?_append_of_error found more)
  | refused found refused =>
    obtain ⟨whole, rfl⟩ := Record.next?_eq_some_iff.mp found
    exact .refused (Record.next?_eq_some_iff.mpr ⟨whole, List.append_assoc ..⟩) refused

theorem unique {second : Error} (refuses : Refuses e p inbox error f)
    (also : Refuses e p inbox second g) : error = second ∧ f = g := by
  cases refuses with
  | malformed found =>
    cases also with
    | malformed again =>
      cases found.symm.trans again
      exact ⟨rfl, rfl⟩
    | refused again _ => cases found.symm.trans again
  | refused found refused =>
    cases also with
    | malformed again => cases found.symm.trans again
    | refused again also =>
      cases found.symm.trans again
      cases refused.symm.trans also
      exact ⟨rfl, rfl⟩

theorem not_waiting (refuses : Refuses e p inbox error f) : Record.next? inbox ≠ .ok none := by
  intro nothing
  cases refuses with
  | malformed found => cases found.symm.trans nothing
  | refused found _ => cases found.symm.trans nothing

end Refuses

/-- An endpoint can take no record of the octets that wait. -/
def Stops (e : Endpoint G) (pending inbox : Octets) : Prop :=
  Record.next? inbox = .ok none ∨ ∃ error f, Refuses e pending inbox error f

theorem Stops.not_takes {header : Record.Header} {record : Octets} {progress : Progress}
    (stops : Stops e p (record ++ left)) (whole : Record.IsWhole header record) :
    receiveRecord header record p e ≠ .ok (progress, q) f := by
  intro handled
  have found : Record.next? (record ++ left) = .ok (some (header, record, left)) :=
    Record.next?_eq_some_iff.mpr ⟨whole, rfl⟩
  rcases stops with nothing | ⟨error, f, ⟨malformed⟩ | ⟨again, refused⟩⟩
  · cases found.symm.trans nothing
  · cases found.symm.trans malformed
  · cases found.symm.trans again
    cases handled.symm.trans refused

/-- On one stream an endpoint takes the same records until it stops. -/
theorem Takes.unique (takes : Takes e p script f q) (also : Takes e p other g r)
    (stops : Stops f q inbox) (alsoStops : Stops g r left)
    (same : Handled.stream script ++ inbox = Handled.stream other ++ left) :
    script = other ∧ f = g ∧ q = r ∧ inbox = left := by
  induction takes generalizing other with
  | nil =>
    cases also with
    | nil => exact ⟨rfl, rfl, rfl, same⟩
    | cons whole handled later =>
      rw [Handled.stream_nil, List.nil_append, Handled.stream_cons, List.append_assoc] at same
      rw [same] at stops
      exact (stops.not_takes whole handled).elim
  | cons whole handled later ih =>
    cases also with
    | nil =>
      rw [Handled.stream_nil, List.nil_append, Handled.stream_cons, List.append_assoc] at same
      rw [← same] at alsoStops
      exact (alsoStops.not_takes whole handled).elim
    | cons whole' handled' later' =>
      rw [Handled.stream_cons, Handled.stream_cons, List.append_assoc, List.append_assoc] at same
      obtain ⟨rfl, rfl, tails⟩ := whole.append_inj whole' same
      cases handled.symm.trans handled'
      obtain ⟨rfl, rfl, rfl, rfl⟩ := ih later' stops tails
      exact ⟨rfl, rfl, rfl, rfl⟩

/-- Messages hand out nothing. -/
theorem content_collects {records pending left : Octets} {progress : Progress}
    (collects : Collects records pending e progress left f) : progress.content = [] := by
  induction collects with
  | waits nothing => rfl
  | completes found took isOver => rfl
  | goesOn found took unfinished later ih => exact ih

/-- Before the end of its handshake an endpoint hands out nothing. -/
theorem content_handles {header : Record.Header} {record pending left : Octets}
    {progress : Progress} (running : e.stage = .handshaking)
    (handles : Handles header record pending e progress left f) : progress.content = [] := by
  cases handles with
  | change => rfl
  | data type opened isOver =>
    obtain ⟨_, rfl⟩ := open?_frame opened
    cases running.symm.trans isOver
  | messages type opened unfinished collects => exact content_collects collects

theorem Takes.silent (takes : Takes e p script f q) (sound : e.Sound)
    (running : e.stage = .handshaking) (opened : Handled.Open script) :
    Handled.contents script = [] := by
  induction takes with
  | nil => rfl
  | cons whole handled later ih =>
    have handles := receiveRecord_eq_ok.mp handled
    obtain ⟨goesOn, opened⟩ := (Handled.open_cons_iff ..).mp opened
    rw [Handled.contents_cons, content_handles running handles, List.nil_append]
    rcases ends_handles sound running handles with ⟨ends, _⟩ | ⟨_, still⟩
    · cases goesOn.symm.trans ends
    · exact ih (sound_handles sound handles) still opened

/-- After the end of its handshake an endpoint answers nothing. -/
theorem Takes.quiet (takes : Takes e p script f q) (sound : e.Sound)
    (isOver : e.stage = .established) : Handled.answers script = [] := by
  induction takes with
  | nil => rfl
  | cons whole handled later ih =>
    have handles := receiveRecord_eq_ok.mp handled
    obtain ⟨_, _, _, _, _, _, rfl, _, rfl⟩ := handles_established sound isOver handles
    exact ih (sound_handles sound handles) isOver

/-- The record that ends a handshake is taken while the handshake goes on. -/
theorem running_of_ends {e f : Endpoint G} {header : Record.Header}
    {record pending left : Octets} {progress : Progress} (sound : e.Sound)
    (active : e.stage = .handshaking ∨ e.stage = .established)
    (handles : Handles header record pending e progress left f) (ends : progress.ends = true) :
    e.stage = .handshaking ∧ f.stage = .established := by
  rcases active with running | isOver
  · rcases ends_handles sound running handles with ⟨_, isOver⟩ | ⟨goesOn, _⟩
    · exact ⟨running, isOver⟩
    · cases goesOn.symm.trans ends
  · obtain ⟨_, _, _, _, _, _, rfl, _⟩ := handles_established sound isOver handles
    cases ends

/-- Records of which the last ends the handshake are taken while it goes on, and the last of them
hands out nothing. -/
theorem Takes.completes {last : Handled} (takes : Takes e p (script ++ [last]) f q)
    (sound : e.Sound) (active : e.stage = .handshaking ∨ e.stage = .established)
    (ends : last.progress.ends = true) :
    e.stage = .handshaking ∧ f.stage = .established ∧ last.progress.content = [] := by
  obtain ⟨endpoint, pending, before, _ | ⟨_, handled, _ | _⟩⟩ := takes.split
  have handles := receiveRecord_eq_ok.mp handled
  obtain ⟨running, isOver⟩ :=
    running_of_ends (before.sound sound) (before.active sound active) handles ends
  refine ⟨active.resolve_right fun already => ?_, isOver, content_handles running handles⟩
  cases running.symm.trans (before.stays_over sound already).1

theorem Takes.apart (takes : Takes e p script f q) (sound : e.Sound)
    (active : e.stage = .handshaking ∨ e.stage = .established) (opened : Handled.Open script) :
    Handled.Apart script := by
  rcases active with running | isOver
  · exact Or.inl (takes.silent sound running opened)
  · exact Or.inr ⟨takes.quiet sound isOver, opened⟩

end Endpoint

namespace Session

open Endpoint Handled

variable {G : Type}

/-- Without data a failure is reported at once. -/
theorem stop_nil (session : Session G) (error : Error) :
    session.stop error [] = (.failed (session.fail error).1, (session.fail error).2) := rfl

/-- Data goes first and the failure waits. -/
theorem stop_of_ne_nil (session : Session G) (error : Error) {data : Octets} (some : data ≠ []) :
    session.stop error data = (.applicationData data,
      { (session.fail error).2 with deferred := .some (session.fail error).1 }) := by
  unfold stop
  dsimp only
  rw [if_neg (mt List.isEmpty_iff.mp some)]

variable [Entropy G]

/-- How a call that takes octets ends: no whole record is left, or the last record taken ended the
handshake, or the endpoint cannot go on. -/
inductive Receives (session : Session G) (octets : Octets) : Outcome × Session G → Prop
  | waits {script : List Handled} {endpoint : Endpoint G} {inbox pending : Octets}
    (arrived : session.inbox ++ octets = stream script ++ inbox)
    (takes : Takes session.endpoint session.pending script endpoint pending)
    (opened : Open script) (nothing : Record.next? inbox = .ok none) :
    Receives session octets (Outcome.waiting (answers script) (contents script),
      { session with endpoint, inbox, pending })
  | completes {script : List Handled} {last : Handled} {endpoint : Endpoint G}
    {inbox pending : Octets} (arrived : session.inbox ++ octets = stream (script ++ [last]) ++ inbox)
    (takes : Takes session.endpoint session.pending (script ++ [last]) endpoint pending)
    (opened : Open script) (ends : last.progress.ends = true) :
    Receives session octets (.handshakeComplete (answers (script ++ [last])),
      { session with endpoint, inbox, pending })
  | stops {script : List Handled} {endpoint failing : Endpoint G} {inbox pending : Octets}
    {error : Error} (arrived : session.inbox ++ octets = stream script ++ inbox)
    (takes : Takes session.endpoint session.pending script endpoint pending)
    (opened : Open script) (refuses : Refuses endpoint pending inbox error failing) :
    Receives session octets ({ session with endpoint := failing }.stop error (contents script))

/-- Every call of a session that is neither new nor failed ends in one of these ways. -/
theorem receives_receive {session : Session G}
    (active : session.endpoint.stage = .handshaking ∨ session.endpoint.stage = .established)
    (octets : Octets) : session.Receives octets (session.receive octets) := by
  rw [receive_eq_drain active]
  obtain ⟨script, endpoint, inbox, pending, arrived, takes, opened, ended⟩ :=
    drain_takes [] [] { session with inbox := session.inbox ++ octets }
  generalize drain [] [] { session with inbox := session.inbox ++ octets } = result at ended ⊢
  rw [List.nil_append, List.nil_append] at ended
  cases ended with
  | waits nothing => exact .waits arrived takes opened nothing
  | @completes header record rest answer left last found handled =>
    obtain ⟨whole, same⟩ := Record.next?_eq_some_iff.mp found
    have all : session.inbox ++ octets =
        stream (script ++ [⟨header, record, .complete answer⟩]) ++ rest := by
      dsimp only at same arrived
      rw [arrived, same, stream_append, stream_cons, stream_nil, List.append_nil,
        List.append_assoc]
    have said : answers script ++ answer =
        answers (script ++ [⟨header, record, .complete answer⟩]) := by
      rw [answers_append, answers_cons, answers_nil, List.append_nil]
      rfl
    rw [said]
    exact .completes all (takes.append (.cons whole handled .nil)) opened rfl
  | malformed found => exact .stops arrived takes opened (.malformed found)
  | refused found refused => exact .stops arrived takes opened (.refused found refused)

/-- What a call that takes octets comes to: either all whole records are taken, at least up to the
end of the handshake, or after some records the endpoint cannot go on. -/
inductive Reads (session : Session G) (octets : Octets) : Outcome × Session G → Prop
  | goesOn {script : List Handled} {endpoint : Endpoint G} {inbox pending : Octets}
    {outcome : Outcome} (arrived : session.inbox ++ octets = stream script ++ inbox)
    (takes : Takes session.endpoint session.pending script endpoint pending)
    (rests : Record.next? inbox = .ok none ∨
      session.endpoint.stage = .handshaking ∧ endpoint.stage = .established ∧ script ≠ [])
    (answer : outcome.answer = answers script) (content : outcome.content = contents script)
    (fine : outcome.failure? = none) :
    Reads session octets (outcome, { session with endpoint, inbox, pending })
  | fails {script : List Handled} {endpoint failing : Endpoint G} {inbox pending : Octets}
    {error : Error} (arrived : session.inbox ++ octets = stream script ++ inbox)
    (takes : Takes session.endpoint session.pending script endpoint pending)
    (opened : Open script) (refuses : Refuses endpoint pending inbox error failing) :
    Reads session octets ({ session with endpoint := failing }.stop error (contents script))

/-- Every call of a session that is neither new nor failed reads. -/
theorem reads_receive {session : Session G} (sound : session.endpoint.Sound)
    (active : session.endpoint.stage = .handshaking ∨ session.endpoint.stage = .established)
    (octets : Octets) : session.Reads octets (session.receive octets) := by
  have receives := receives_receive active octets
  generalize session.receive octets = result at receives ⊢
  cases receives with
  | waits arrived takes opened nothing =>
    exact .goesOn arrived takes (Or.inl nothing) (takes.apart sound active opened).answer_waiting
      (Outcome.content_waiting ..) (Outcome.failure?_waiting ..)
  | completes arrived takes opened ends =>
    obtain ⟨running, isOver, content⟩ := takes.completes sound active ends
    obtain ⟨_, _, before, _⟩ := takes.split
    refine .goesOn arrived takes (Or.inr ⟨running, isOver, by simp⟩) rfl ?_ rfl
    rw [contents_append, before.silent sound running opened, contents_cons, content]
    rfl
  | stops arrived takes opened refuses => exact .fails arrived takes opened refuses

end Session

end TransportSecurity
