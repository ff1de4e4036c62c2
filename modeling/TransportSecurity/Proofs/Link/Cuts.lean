import TransportSecurity.Proofs.Link.Farewell

/-!
Connections whose transport cuts a stream in different ways.

What a handshake and the reads after it come to does not depend on how the transport cuts the
stream, but for one case (`handshake_of_delivers`): a failure that follows the handshake at once, the
other end's farewell included, is told by the reads if it arrives by itself, and by the handshake if
it arrives with the handshake's last octet (`handshake_depends_on_cut`).
-/

namespace TransportSecurity

namespace Connection

open Session Handled Endpoint

variable {G : Type} [Entropy G]

/-- How much of a stream it takes to fail a session, if the stream fails it at all. -/
theorem exists_cause (session : Session G) (stream : Octets) : ∃ cause, ∀ n ≤ stream.length,
    cause ≤ n ↔
      ∃ script failure last, ComesTo session (stream.take n) script (some failure) last := by
  classical
  by_cases fails : ∃ n, ∃ script failure last,
      ComesTo session (stream.take n) script (some failure) last
  · refine ⟨Nat.find fails, fun n _ => ⟨fun enough => ?_, fun found => Nat.find_min' fails found⟩⟩
    obtain ⟨script, failure, last, comes⟩ := Nat.find_spec fails
    have more := comes.append_of_fails ((stream.take n).drop (Nat.find fails))
    have front := List.take_append_drop (Nat.find fails) (stream.take n)
    rw [List.take_take, Nat.min_eq_left enough] at front
    rw [front] at more
    exact ⟨script, failure, last, more⟩
  · refine ⟨stream.length + 1, fun n short => ⟨fun enough => ?_, fun found => ?_⟩⟩
    · omega
    · exact (fails ⟨n, found⟩).elim

/-- The records that a session takes are no cause of a failure. -/
theorem length_lt_of_takes {session : Session G} {stream rest pending : Octets}
    {script : List Handled} {endpoint : Endpoint G} {cause : Nat}
    (takes : Takes session.endpoint session.pending script endpoint pending)
    (arrived : stream = Handled.stream script ++ rest)
    (causes : ∀ n ≤ stream.length, cause ≤ n ↔
      ∃ script failure last, ComesTo session (stream.take n) script (some failure) last) :
    (Handled.stream script).length < cause := by
  refine Nat.lt_of_not_le fun early => ?_
  have short : (Handled.stream script).length ≤ stream.length := by
    rw [arrived, List.length_append]
    exact Nat.le_add_right ..
  have fails := (causes _ short).mp early
  rw [arrived, List.take_left] at fails
  have waits := ComesTo.waits (List.append_nil _).symm takes rfl
  exact waits.not_fails fails

/-- A handshake and the reads after it come to the same however the transport cuts the stream of
the other end, but for one case. A failure, the other end's farewell included, that follows the
handshake without data between is told by the reads only if its cause arrives after the read that
brings the end of the handshake; if its cause has arrived by then, the handshake reports it. -/
theorem handshake_of_delivers {session : Session G} (reachable : session.Reachable)
    (ending : Error) (stream : Octets) :
    (∃ error, ∀ (T : Type) [Transport T] (transport : T) (reads : List Octets),
      Delivers ending reads transport → reads.flatten = stream →
      ∃ after, handshake ⟨transport, session, []⟩ = .error error after) ∨
    ∃ front back data ends cause, stream = front ++ back ∧ front.length < cause ∧
      ∀ (T : Type) [Transport T] (transport : T) (reads : List Octets),
        Delivers ending reads transport → reads.flatten = stream →
        if data = [] ∧ cause ≤ arrivedBy reads front.length then
          ∃ error after, handshake ⟨transport, session, []⟩ = .error error after ∧ ends = error.told
        else
          ∃ after, handshake ⟨transport, session, []⟩ = .ok () after ∧ ReadsOut after data ends := by
  match started : session.start with
  | (.error error, after) =>
    refine Or.inl ⟨error, ?_⟩
    intro T _ transport reads _ _
    exact ⟨_, handshake_of_start_error started⟩
  | (.ok records, begun) =>
    obtain ⟨ready, running, owed, empty⟩ := reachable.ready_of_start started
    obtain ⟨script, failure, comes, _⟩ := comesTo_of_receiveAll ready [stream]
    rw [empty, List.nil_append, List.flatten_singleton] at comes
    have same : ∀ (T : Type) [Transport T] (transport : T) (reads : List Octets),
        Delivers ending reads transport → reads.flatten = stream →
        Runs ending begun reads (⟨transport, session, []⟩ : Connection T G) script failure := by
      rintro T _ transport reads delivers rfl
      obtain ⟨_, _, _, comes', runs⟩ := exists_runs (c := ⟨transport, session, []⟩) started rfl
        ready running owed empty delivers
      obtain ⟨rfl, rfl, _⟩ := comes.unique comes'
      exact runs
    rcases open_or_ends script with opened | ⟨front, closing, back, rfl, opened, ends⟩
    · -- the stream does not complete the handshake
      refine Or.inl ⟨failure.elim ending Failure.error, ?_⟩
      intro T _ transport reads delivers whole
      cases same T transport reads delivers whole with
      | fails opened' failed => exact ⟨_, failed⟩
      | readsOut opened' ends => cases (opened _ (by simp)).symm.trans ends
      | reports opened' ends => cases (opened _ (by simp)).symm.trans ends
    · -- one of its records does
      obtain ⟨cause, causes⟩ := exists_cause begun stream
      obtain ⟨_, _, rest, takes, arrived⟩ := comes.exists_takes
      rw [List.append_cons] at takes arrived
      obtain ⟨_, _, takes, _⟩ := takes.split
      rw [stream_append, List.append_assoc] at arrived
      refine Or.inr ⟨_, _, contents back, conclusion ending failure, cause, arrived,
        length_lt_of_takes takes arrived causes, ?_⟩
      rintro T _ transport reads delivers rfl
      exact (same T transport reads delivers rfl).of_completes opened ends
        (causes _ (arrivedBy_le ..))

/-- In a rehearsal whose farewell comes by itself the handshake succeeds, and reads follow it. -/
theorem handshake_of_delivers_rehearsal : Rehearsal.client.Reachable ∧ ∃ (reads : List Octets)
    (after : Connection Tape Reproducible) (data : Octets) (ends : Except Error Unit),
    Delivers .connectionClosed reads (⟨reads⟩ : Tape) ∧
      handshake ⟨⟨reads⟩, Rehearsal.client, []⟩ = .ok () after ∧ ReadsOut after data ends := by
  obtain ⟨front, last, results⟩ := Rehearsal.exists_farewell
  have delivers := Tape.delivers_singles front [[last], closeNotify]
    (by simp [closeNotify_eq, room])
  have apart := results Tape _ [] [closeNotify] delivers (by simp)
  rw [if_pos (by rw [closeNotify_eq]; decide)] at apart
  obtain ⟨after, _, completed, _⟩ := apart
  refine ⟨Rehearsal.client_reachable, ?_⟩
  rcases handshake_of_delivers Rehearsal.client_reachable .connectionClosed
    (front.map ([·]) ++ [[last], closeNotify]).flatten with
    ⟨_, fails⟩ | ⟨_, _, data, ends, _, _, _, comes⟩
  · obtain ⟨_, failed⟩ := fails Tape _ _ delivers rfl
    cases completed.symm.trans failed
  · have result := comes Tape _ _ delivers rfl
    split at result
    · obtain ⟨_, _, failed, _⟩ := result
      cases completed.symm.trans failed
    · obtain ⟨_, again, readsOut⟩ := result
      cases completed.symm.trans again
      exact ⟨_, _, data, ends, delivers, completed, readsOut⟩

/-- Two ways to cut one stream. In the first the farewell comes by itself, and the reader is told of
it. In the second it comes with the last octet of the handshake, and the handshake fails. -/
theorem handshake_depends_on_cut : ∃ reads others : List Octets, reads.flatten = others.flatten ∧
    Delivers .connectionClosed reads (⟨reads⟩ : Tape) ∧
    Delivers .connectionClosed others (⟨others⟩ : Tape) ∧
    (∃ after last, handshake ⟨(⟨reads⟩ : Tape), Rehearsal.client, []⟩ = .ok () after ∧
      read after = .ok [] last) ∧
    ∃ after, handshake ⟨(⟨others⟩ : Tape), Rehearsal.client, []⟩ =
      .error (.alertReceived .warning .closeNotify) after := by
  obtain ⟨front, last, results⟩ := Rehearsal.exists_farewell
  have apart := Tape.delivers_singles front [[last], closeNotify]
    (by simp [closeNotify_eq, room])
  have joined := Tape.delivers_singles front [last :: closeNotify]
    (by simp [closeNotify_eq, room])
  refine ⟨_, _, by simp, apart, joined, ?_, ?_⟩
  · have result := results Tape _ [] [closeNotify] apart (by simp)
    rwa [if_pos (by rw [closeNotify_eq]; decide)] at result
  · have result := results Tape _ closeNotify [] joined (by simp)
    rwa [if_neg (Nat.lt_irrefl _)] at result

end Connection

end TransportSecurity
