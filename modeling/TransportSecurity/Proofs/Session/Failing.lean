import TransportSecurity.Proofs.Session.OneWay
import TransportSecurity.Proofs.Session.Refusals

/-!
Failure is clean, final and reported once.

A session that fails forgets everything at once (`Wiped`) and does nothing for any call after that.
What it failed for (`FailsFor`) is the error of the call that failed, or, if this call handed out
data from before the failure, of the first call after it that brings octets (`reportOnce`). Every
other call only learns that the session has failed (`failure_reported_once`).
-/

namespace TransportSecurity

namespace Reply

/-- A reply that only says that a call was refused. -/
structure IsEmpty (reply : Reply) : Prop where
  refused : reply.error?.isSome = true
  emitted : reply.emitted = []
  delivered : reply.delivered = []
  alert : reply.alert? = none

theorem isEmpty_refusal (call : Call) : call.refusal.IsEmpty := by
  cases call <;> exact ⟨rfl, rfl, rfl, rfl⟩

/-- The replies to calls of a failed session that has not reported its failure yet. -/
def reportOnce (error : Error) : List Call → List Reply
  | [] => []
  | .receive _ :: calls => .received (.failed ⟨error, none⟩) :: calls.map Call.refusal
  | call :: calls => call.refusal :: reportOnce error calls

end Reply

namespace Session

open Endpoint Handled

variable {G : Type}

/-- A session that has failed and has forgotten everything. -/
structure Wiped (session : Session G) : Prop where
  failed : session.endpoint.stage = .failed
  transcript : session.endpoint.transcript = none
  secrets : session.endpoint.secrets = none
  clientRandom : session.endpoint.clientRandom = none
  serverRandom : session.endpoint.serverRandom = none
  inbox : session.inbox = []
  pending : session.pending = []

theorem wiped_fail (session : Session G) (error : Error) : (session.fail error).2.Wiped :=
  ⟨rfl, rfl, rfl, rfl, rfl, rfl, rfl⟩

theorem wiped_stop (session : Session G) (error : Error) (data : Octets) :
    (session.stop error data).2.Wiped := by
  by_cases nothing : data = []
  · rw [nothing]
    exact wiped_fail session error
  · rw [stop_of_ne_nil session error nothing]
    exact ⟨rfl, rfl, rfl, rfl, rfl, rfl, rfl⟩

variable [Entropy G] {session : Session G}

/-- What a call fails for, and the data that it had taken before. -/
inductive FailsFor (session : Session G) : Call → Octets → Error → Prop
  | starting {error : Error} {endpoint : Endpoint G}
    (failed : startHandshake { session.endpoint with
      stage := .handshaking
      transcript := some Transcript.empty } = .error error endpoint) :
    FailsFor session .start [] error
  | reading {octets inbox pending : Octets} {script : List Handled} {endpoint failing : Endpoint G}
    {error : Error} (arrived : session.inbox ++ octets = stream script ++ inbox)
    (takes : Takes session.endpoint session.pending script endpoint pending)
    (refuses : Refuses endpoint pending inbox error failing) :
    FailsFor session (.receive octets) (contents script) error

/-- A failed session stays failed and empty, and what it replies is empty, if no alert goes with the
failure that waits. -/
theorem Wiped.perform (wiped : session.Wiped)
    (silent : ∀ failure ∈ session.deferred, failure.alert = none) (call : Call) :
    (session.perform call).1.IsEmpty ∧ (session.perform call).2.Wiped ∧
      ∀ failure ∈ (session.perform call).2.deferred, failure.alert = none := by
  rcases perform_of_failed wiped.failed call with refused | ⟨failure, waits, reported⟩
  · rw [refused]
    exact ⟨Reply.isEmpty_refusal call, wiped, silent⟩
  · rw [reported]
    refine ⟨⟨rfl, rfl, rfl, silent failure waits⟩, ?_, fun _ => nofun⟩
    exact ⟨wiped.failed, wiped.transcript, wiped.secrets, wiped.clientRandom, wiped.serverRandom,
      wiped.inbox, wiped.pending⟩

/-- A failed session with nothing to report refuses whatever it is asked for. -/
theorem performAll_of_refused (failed : session.endpoint.stage = .failed)
    (nothing : session.deferred = none) (calls : List Call) :
    session.performAll calls = (calls.map Call.refusal, session) := by
  induction calls with
  | nil => rfl
  | cons call calls ih =>
    rw [performAll_cons, perform_of_refused failed (Or.inl nothing), ih, List.map_cons]

/-- A failure that waits is reported to the first call that brings octets. -/
theorem performAll_of_deferred (failed : session.endpoint.stage = .failed) {error : Error}
    (waits : session.deferred = some ⟨error, none⟩) (calls : List Call) :
    (session.performAll calls).1 = Reply.reportOnce error calls := by
  induction calls with
  | nil => rfl
  | cons call calls ih =>
    rw [performAll_cons]
    cases call with
    | start =>
      rw [perform_of_refused failed (Or.inr rfl), ih]
      rfl
    | send data =>
      rw [perform_of_refused failed (Or.inr rfl), ih]
      rfl
    | receive octets =>
      rw [perform_of_deferred failed waits]
      dsimp only
      rw [performAll_of_refused (by exact failed) rfl]
      rfl

/-- A call that makes a session fail has failed for something, and either says so itself or leaves
it to be reported. -/
theorem failsFor_of_performs {call : Call} {reply : Reply} {after : Session G}
    (orderly : session.Orderly) (performs : Performs session call reply after)
    (failed : after.endpoint.stage = .failed) :
    after.Wiped ∧ ∃ data error, FailsFor session call data error ∧
      (data = [] → reply.error? = some error ∧ after.deferred = none) ∧
      (data ≠ [] → reply = .received (.applicationData data) ∧
        ∃ alert, after.deferred = some ⟨error, alert⟩) := by
  have stays {sendNumber : UInt64} {source : G} {endpoint : Endpoint G}
      (same : { session.endpoint with sendNumber, source } = endpoint) :
      endpoint.stage ≠ .failed := by
    rw [← same]
    exact orderly.not_failed
  cases performs with
  | starts fresh begins =>
    obtain ⟨_, running⟩ := running_of_begins orderly.endpoint fresh begins
    cases failed.symm.trans running
  | cannotStart fresh cause =>
    exact ⟨wiped_fail .., _, _, .starting cause, fun _ => ⟨rfl, orderly.deferred⟩,
      fun some => (some rfl).elim⟩
  | started begun => exact (orderly.not_failed failed).elim
  | notStarted fresh => exact (orderly.not_failed failed).elim
  | reads active arrived takes =>
    rcases takes.active orderly.endpoint active with running | isOver
    · cases failed.symm.trans running
    · cases failed.symm.trans isOver
  | cannotRead script active arrived takes opened refuses =>
    refine ⟨wiped_stop .., _, _, .reading arrived takes refuses, ?_, ?_⟩
    · intro nothing
      rw [nothing, stop_nil]
      exact ⟨rfl, orderly.deferred⟩
    · intro some
      rw [stop_of_ne_nil _ _ some]
      exact ⟨rfl, _, rfl⟩
  | sends isOver sent =>
    obtain ⟨_, _, same⟩ := encode_frame sent
    exact (stays same failed).elim
  | cannotSend isOver cause =>
    obtain ⟨_, _, same⟩ := encode_frame_of_error cause
    exact (stays same failed).elim
  | notEstablished unfinished => exact (orderly.not_failed failed).elim

/-- Every failed session in use has forgotten everything. -/
theorem Reachable.wiped (reachable : session.Reachable)
    (failed : session.endpoint.stage = .failed) : session.Wiped := by
  revert failed
  refine reachable.induct ?_ ?_ ?_
  · intro session made failed
    exact ((orderly_of_made made).not_failed failed).elim
  · intro session reachable before call failed
    by_cases already : session.endpoint.stage = .failed
    · have silent := fun failure waits => (reachable.defersOnly failure waits).2
      exact ((before already).perform silent call).2.1
    · have orderly := reachable.orderly.resolve_right already
      exact (failsFor_of_performs orderly (orderly.performs call) failed).1
  · intro session _ _ failed
    cases failed

/-- Whatever is asked of a failed session in use, it only says that it has failed. -/
theorem Reachable.isEmpty (reachable : session.Reachable)
    (failed : session.endpoint.stage = .failed) (call : Call) :
    (session.perform call).1.IsEmpty ∧ (session.perform call).2.Wiped := by
  have silent := fun failure waits => (reachable.defersOnly failure waits).2
  obtain ⟨empty, wiped, _⟩ := (reachable.wiped failed).perform silent call
  exact ⟨empty, wiped⟩

/-- Calls leave a failed session in use as empty as it is. -/
theorem Reachable.allEmpty (reachable : session.Reachable)
    (failed : session.endpoint.stage = .failed) (calls : List Call) :
    (session.performAll calls).2.Wiped ∧
      ∀ reply ∈ (session.performAll calls).1, reply.IsEmpty := by
  induction calls generalizing session with
  | nil => exact ⟨reachable.wiped failed, fun _ => nofun⟩
  | cons call calls ih =>
    obtain ⟨first, wiped⟩ := reachable.isEmpty failed call
    obtain ⟨last, later⟩ := ih (reachable.perform call) wiped.failed
    exact ⟨last, List.forall_mem_cons.mpr ⟨first, later⟩⟩

/-- No call fails because the session has failed, if it has not. -/
theorem FailsFor.ne_sessionFailed {call : Call} {data : Octets} {error : Error}
    (fails : FailsFor session call data error) (sound : session.endpoint.Sound)
    (coherent : session.endpoint.Coherent) : error ≠ .sessionFailed := by
  rintro rfl
  cases fails with
  | starting failed => cases foresees_startHandshake rfl _ _ failed
  | reading arrived takes refuses =>
    rcases (takes.refusal sound coherent refuses).1 with foreseen | ⟨_, _, _, _, other⟩
    · cases foreseen
    · cases other

/-- A call that makes a session in use fail leaves nothing of it, and whatever is called after that
leaves it so, sends nothing and hands out nothing. What made it fail is reported by the call itself,
or, if this handed out data, by the first later one that brings octets, and by no other. -/
theorem failure_reported_once (reachable : session.Reachable) (call : Call)
    (notFailed : session.endpoint.stage ≠ .failed)
    (fails : (session.perform call).2.endpoint.stage = .failed) :
    (∀ calls, ((session.perform call).2.performAll calls).2.Wiped ∧
      ∀ reply ∈ ((session.perform call).2.performAll calls).1, reply.IsEmpty) ∧
    ∃ data error, FailsFor session call data error ∧ error ≠ .sessionFailed ∧
      (data = [] → (session.perform call).1.error? = some error ∧
        ∀ calls, ((session.perform call).2.performAll calls).1 = calls.map Call.refusal) ∧
      (data ≠ [] → (session.perform call).1 = .received (.applicationData data) ∧
        ∀ calls, ((session.perform call).2.performAll calls).1 = Reply.reportOnce error calls) := by
  obtain ⟨orderly, coherent⟩ := reachable.coherent notFailed
  obtain ⟨_, data, error, cause, atOnce, later⟩ :=
    failsFor_of_performs orderly (orderly.performs call) fails
  refine ⟨(reachable.perform call).allEmpty fails, data, error, cause,
    cause.ne_sessionFailed orderly.endpoint coherent, ?_, ?_⟩
  · intro nothing
    obtain ⟨reported, nothing⟩ := atOnce nothing
    refine ⟨reported, ?_⟩
    intro calls
    rw [performAll_of_refused fails nothing]
  · intro some
    obtain ⟨handed, alert, waits⟩ := later some
    -- no alert goes with a failure that waits
    cases ((reachable.perform call).defersOnly _ waits).2
    exact ⟨handed, performAll_of_deferred fails waits⟩

/-- A call fails if the octets that it brings do. -/
theorem receive_of_refuses {octets inbox pending : Octets} {script : List Handled}
    {endpoint failing : Endpoint G} {error : Error}
    (active : session.endpoint.stage = .handshaking ∨ session.endpoint.stage = .established)
    (arrived : session.inbox ++ octets = stream script ++ inbox)
    (takes : Takes session.endpoint session.pending script endpoint pending) (opened : Open script)
    (refuses : Refuses endpoint pending inbox error failing) :
    session.receive octets = { session with endpoint := failing }.stop error (contents script) := by
  have whole : ({ session with inbox := session.inbox ++ octets } : Session G).inbox =
      stream script ++ inbox := arrived
  rw [receive_eq_drain active, drain_of_takes (by exact takes) opened whole, List.nil_append,
    List.nil_append]
  cases refuses with
  | malformed found =>
    rw [drain]
    split
    · next other =>
      cases other.symm.trans found
      rfl
    · next other => cases other.symm.trans found
    · next other => cases other.symm.trans found
  | refused found refused =>
    rw [drain_of_found found, refused]
    rfl

/-- After a rehearsed handshake the server reads what the client wrote and then something that is no
record: it hands out the data, refuses to write, says what failed and then only that it has. -/
theorem failure_reported_once_rehearsal : ∃ session : Session Reproducible, ∃ octets,
    session.Reachable ∧ session.endpoint.stage ≠ .failed ∧
      (session.perform (.receive octets)).2.endpoint.stage = .failed ∧
      (session.perform (.receive octets)).1 =
        .received (.applicationData (KeySchedule.ascii "ping")) ∧
      ∃ error, error ≠ .sessionFailed ∧
        ((session.perform (.receive octets)).2.performAll
          [.send [], .receive [], .receive []]).1 =
          [.answered (.error .sessionFailed), .received (.failed ⟨error, none⟩),
            .received (.failed ⟨.sessionFailed, none⟩)] := by
  obtain ⟨_, writer, session, toClient, toServer, rfl, rfl, _, ⟨inbox, pending⟩, agree, able, _⟩ :=
    Rehearsal.pairing.exists_agreed
  obtain ⟨_, _, clientMade⟩ := Rehearsal.pairing.clientMade
  obtain ⟨_, _, serverMade⟩ := Rehearsal.pairing.serverMade
  have writes : (Rehearsal.client.start.2.receive toClient).2.Reachable :=
    ⟨_, .client clientMade, .receive (.start .refl) toClient⟩
  have reachable : (Rehearsal.server.start.2.receive toServer).2.Reachable :=
    ⟨_, .server serverMade, .receive (.start .refl) toServer⟩
  generalize (Rehearsal.client.start.2.receive toClient).2 = writer at *
  generalize (Rehearsal.server.start.2.receive toServer).2 = session at *
  obtain ⟨keys, writeKeys, readKeys⟩ := agree.forth
  have isOver := agree.serverOver
  have writing := writes.orderly_of_established agree.clientOver
  have reading := reachable.orderly_of_established isOver
  obtain ⟨records, after, sent, _⟩ := exists_send writing agree.clientOver able.served
    (by decide : (KeySchedule.ascii "ping").length ≤ _) (by rw [agree.numbers.1]; decide)
  obtain ⟨secrets, sealer, known, made, rfl⟩ := (send_eq_ok writing agree.clientOver).mp sent
  rw [Endpoint.writeKeys?, known] at writeKeys
  cases writeKeys
  obtain ⟨shared, readable, sameKeys⟩ := Option.map_eq_some_iff.mp readKeys
  obtain ⟨script, spelled, read, _, opened, takes⟩ := takes_of_protectPieces isOver
    readable (reading.endpoint.established isOver).2.2.2 sameKeys
    (agree.numbers.2.2.2.trans agree.numbers.1.symm) (fun _ => Record.length_le_of_mem_pieces) made
  rw [Record.pieces_flatten] at read
  have arrived : session.inbox ++ (records ++ [0, 0, 0, 0, 0]) =
      stream script ++ [0, 0, 0, 0, 0] := by
    rw [inbox, spelled, List.nil_append]
  have malformed : Record.next? [0, 0, 0, 0, 0] = .error (.unknownContentType 0) := by decide
  have stops := receive_of_refuses (Or.inr isOver) arrived (by rwa [pending]) opened
    (.malformed malformed)
  rw [read, stop_of_ne_nil _ _ (by decide)] at stops
  have handed : (session.perform (.receive (records ++ [0, 0, 0, 0, 0]))).1 =
      .received (.applicationData (KeySchedule.ascii "ping")) := by
    rw [perform, stops]
  have notFailed : session.endpoint.stage ≠ .failed := by
    intro failed
    cases isOver.symm.trans failed
  have fails : (session.perform (.receive (records ++ [0, 0, 0, 0, 0]))).2.endpoint.stage =
      .failed := by
    rw [perform, stops]
    rfl
  obtain ⟨_, data, error, _, other, atOnce, later⟩ :=
    failure_reported_once reachable _ notFailed fails
  have some : data ≠ [] := by
    intro nothing
    cases (congrArg Reply.error? handed).symm.trans (atOnce nothing).1
  exact ⟨session, _, reachable, notFailed, fails, handed, error, other, (later some).2 _⟩

end Session

end TransportSecurity
