import TransportSecurity.Link.Connection
import TransportSecurity.Proofs.Session.Outcomes

/-!
Connections over a transport that delivers one stream.

`Delivers` says what a transport brings: some reads, in a row, and then an end. What a connection
hands out of them until its reads come to an end is `ReadsOut`. From the end of the handshake on
that depends on the stream alone (`readsOut_of_over`): it is what the session makes of the stream,
with the other end's farewell told from a failure.
-/

namespace TransportSecurity

variable {T G : Type} [Transport T]

/-- Everything can be sent, and what is left to be delivered comes read by read. After it receiving
ends, with an error or with the other end's close. -/
structure Steady (ending : Error) (holds : List Octets → T → Prop) : Prop where
  send : ∀ {reads transport} (octets : Octets), holds reads transport →
    ∃ after, Transport.send octets transport = .ok () after ∧ holds reads after
  receive : ∀ {read reads transport}, holds (read :: reads) transport →
    ∃ after, Transport.receive Connection.room transport = .ok read after ∧ holds reads after
  ends : ∀ {transport}, holds [] transport →
    (∃ after, Transport.receive Connection.room transport = .error ending after) ∨
      ending = .connectionClosed ∧
        ∃ after, Transport.receive Connection.room transport = .ok [] after

/-- A transport delivers these reads, none of them empty or too large, and then ends. -/
def Delivers (ending : Error) (reads : List Octets) (transport : T) : Prop :=
  (∀ read ∈ reads, read ≠ [] ∧ read.length ≤ Connection.room) ∧
    ∃ holds : List Octets → T → Prop, Steady ending holds ∧ holds reads transport

/-- What a reader is told of an error: the other end's farewell is none. -/
def Error.told (error : Error) : Except Error Unit :=
  if error = .alertReceived .warning .closeNotify then .ok () else .error error

/-- How the reads from a stream end: as the session failed, or else as the stream ends. -/
def conclusion (ending : Error) : Option Failure → Except Error Unit
  | none => .error ending
  | some failure => failure.error.told

namespace Connection

variable [Entropy G]

/-- What reads come to, one after the other: all the data, and then the other end's farewell or an
error. -/
inductive ReadsOut : Connection T G → Octets → Except Error Unit → Prop
  | farewell {c after : Connection T G} (done : read c = .ok [] after) : ReadsOut c [] (.ok ())
  | fails {c after : Connection T G} {error : Error} (failed : read c = .error error after) :
    ReadsOut c [] (.error error)
  | goesOn {c after : Connection T G} {data rest : Octets} {ends : Except Error Unit}
    (got : read c = .ok data after) (some : data ≠ []) (later : ReadsOut after rest ends) :
    ReadsOut c (data ++ rest) ends

section Steps

variable {c : Connection T G} {octets : Octets} {transport : T}

/-- What a read brings to a handshake. -/
theorem completeHandshake_of_read
    (received : Transport.receive room c.transport = .ok octets transport)
    (some : octets ≠ []) (answers : Nat) : completeHandshake answers c =
      match c.session.receive octets with
      | (.needMoreData, session) => completeHandshake answers { c with transport, session }
      | (.output records, session) =>
        match answers with
        | 0 => .error .handshakeIncomplete { c with transport, session }
        | answers + 1 =>
          match send records { c with transport, session } with
          | .ok () connection => completeHandshake answers connection
          | .error error connection => .error error connection
      | (.handshakeComplete records, session) => sendSome records { c with transport, session }
      | (.applicationData _, session) =>
        .error (.unexpectedMessage "application data during handshake")
          { c with transport, session }
      | (.failed failure, session) => report failure { c with transport, session } := by
  obtain ⟨first, rest, rfl⟩ := List.exists_cons_of_ne_nil some
  rw [completeHandshake]
  split
  · next other => cases other.symm.trans received
  · next other => cases other.symm.trans received
  · next other =>
    cases other.symm.trans received
    obtain ⟨outcome, session⟩ := c.session.receive (first :: rest)
    cases outcome with
    | output records => cases answers <;> rfl
    | needMoreData | handshakeComplete records | applicationData data | failed failure => rfl

theorem completeHandshake_of_error {error : Error}
    (failed : Transport.receive room c.transport = .error error transport) (answers : Nat) :
    completeHandshake answers c = .error error { c with transport } := by
  rw [completeHandshake]
  split
  · next other =>
    cases other.symm.trans failed
    rfl
  · next other => cases other.symm.trans failed
  · next other => cases other.symm.trans failed

theorem completeHandshake_of_closed
    (closed : Transport.receive room c.transport = .ok [] transport) (answers : Nat) :
    completeHandshake answers c = .error .connectionClosed { c with transport } := by
  rw [completeHandshake]
  split
  · next other => cases other.symm.trans closed
  · next other =>
    cases other.symm.trans closed
    rfl
  · next other => cases other.symm.trans closed

/-- What a read brings to a connection that waits for data. -/
theorem awaitData_of_read (received : Transport.receive room c.transport = .ok octets transport)
    (some : octets ≠ []) : awaitData c =
      match c.session.receive octets with
      | (.needMoreData, session) => awaitData { c with transport, session }
      | (.applicationData data, session) => .ok data { c with transport, session }
      | (.failed failure, session) => conclude failure { c with transport, session }
      | (_, session) =>
        .error (.unexpectedMessage "handshake output after completion")
          { c with transport, session } := by
  obtain ⟨first, rest, rfl⟩ := List.exists_cons_of_ne_nil some
  rw [awaitData]
  split
  · next other => cases other.symm.trans received
  · next other => cases other.symm.trans received
  · next other =>
    cases other.symm.trans received
    obtain ⟨outcome, session⟩ := c.session.receive (first :: rest)
    cases outcome <;> rfl

theorem awaitData_of_error {error : Error}
    (failed : Transport.receive room c.transport = .error error transport) :
    awaitData c = .error error { c with transport } := by
  rw [awaitData]
  split
  · next other =>
    cases other.symm.trans failed
    rfl
  · next other => cases other.symm.trans failed
  · next other => cases other.symm.trans failed

theorem awaitData_of_closed (closed : Transport.receive room c.transport = .ok [] transport) :
    awaitData c = .error .connectionClosed { c with transport } := by
  rw [awaitData]
  split
  · next other => cases other.symm.trans closed
  · next other =>
    cases other.symm.trans closed
    rfl
  · next other => cases other.symm.trans closed

omit [Entropy G] in
/-- Whether or not the alert can be sent, it is the failure that is reported. -/
theorem exists_report (α : Type) (failure : Failure) (c : Connection T G) :
    ∃ after,
      (report failure : EStateM Error (Connection T G) α) c = .error failure.error after := by
  unfold report
  split
  · exact ⟨_, rfl⟩
  · split <;> exact ⟨_, rfl⟩

/-- Data that is at hand is read first. -/
theorem read_of_unread (some : c.unread ≠ []) : read c = .ok c.unread { c with unread := [] } := by
  unfold read
  rw [get_bind, if_pos (by simpa using some)]
  rfl

theorem read_of_failed (nothing : c.unread = []) (failed : c.session.endpoint.stage = .failed) :
    read c = conclude c.session.takeFailure.1 { c with session := c.session.takeFailure.2 } := by
  unfold read
  rw [get_bind, if_neg (by simp [nothing]), if_pos failed]
  rfl

theorem read_of_over (nothing : c.unread = []) (isOver : c.session.endpoint.stage = .established) :
    read c = awaitData c := by
  unfold read
  rw [get_bind, if_neg (by simp [nothing]), if_neg (by simp [isOver])]

/-- Reads end with what a failure means to a reader. -/
theorem readsOut_of_conclude {after : Connection T G} {failure : Failure}
    (last : read c = conclude failure after) : ReadsOut c [] failure.error.told := by
  unfold conclude at last
  unfold Error.told
  split at last
  · next farewell =>
    rw [if_pos farewell]
    exact .farewell last
  · next unfriendly =>
    rw [if_neg unfriendly]
    obtain ⟨_, reported⟩ := exists_report Octets failure after
    exact .fails (last.trans reported)

theorem ReadsOut.of_read_eq {d : Connection T G} {data : Octets} {ends : Except Error Unit}
    (same : read c = read d) (readsOut : ReadsOut d data ends) : ReadsOut c data ends := by
  cases readsOut with
  | farewell done => exact .farewell (same.trans done)
  | fails failed => exact .fails (same.trans failed)
  | goesOn got some later => exact .goesOn (same.trans got) some later

/-- Data at hand comes before all other. -/
theorem ReadsOut.of_unread {data rest : Octets} {ends : Except Error Unit} (held : c.unread = data)
    (later : ReadsOut { c with unread := [] } rest ends) : ReadsOut c (data ++ rest) ends := by
  subst held
  by_cases nothing : c.unread = []
  · rw [nothing]
    refine later.of_read_eq ?_
    rw [← nothing]
  · exact .goesOn (read_of_unread nothing) nothing later

omit [Entropy G] in
/-- Sending may have nothing to send. -/
theorem exists_sendSome {ending : Error} {holds : List Octets → T → Prop}
    (steady : Steady ending holds) {reads : List Octets} (held : holds reads c.transport)
    (records : Octets) : ∃ transport,
      sendSome records c = .ok () { c with transport } ∧ holds reads transport := by
  unfold sendSome
  cases records with
  | nil => exact ⟨c.transport, rfl, held⟩
  | cons first rest =>
    obtain ⟨transport, sent, held⟩ := steady.send (first :: rest) held
    refine ⟨transport, ?_, held⟩
    change send (first :: rest) c = _
    rw [send, sent]

/-- Once all has been delivered a handshake that goes on is told how the stream ends. -/
theorem exists_completeHandshake_of_nil {ending : Error} {holds : List Octets → T → Prop}
    (steady : Steady ending holds) (held : holds [] c.transport) (answers : Nat) :
    ∃ after, completeHandshake answers c = .error ending after := by
  rcases steady.ends held with ⟨_, failed⟩ | ⟨rfl, _, closed⟩
  · exact ⟨_, completeHandshake_of_error failed answers⟩
  · exact ⟨_, completeHandshake_of_closed closed answers⟩

/-- Once all has been delivered a connection is told how the stream ends. -/
theorem exists_read_of_nil {ending : Error} {holds : List Octets → T → Prop}
    (steady : Steady ending holds) (held : holds [] c.transport) (nothing : c.unread = [])
    (isOver : c.session.endpoint.stage = .established) : ∃ after, read c = .error ending after := by
  rw [read_of_over nothing isOver]
  rcases steady.ends held with ⟨_, failed⟩ | ⟨rfl, _, closed⟩
  · exact ⟨_, awaitData_of_error failed⟩
  · exact ⟨_, awaitData_of_closed closed⟩

/-- The failure that waits behind data is what the next read is told. -/
theorem readsOut_of_deferred {failure : Failure} (failed : c.session.endpoint.stage = .failed)
    (deferred : c.session.deferred = some failure) (nothing : c.unread = []) :
    ReadsOut c [] failure.error.told := by
  have last := read_of_failed nothing failed
  rw [Session.takeFailure, deferred] at last
  exact readsOut_of_conclude last

/-- What a connection does once its handshake is complete: records that came with the end are
handled too. -/
def finish (c : Connection T G) : EStateM.Result Error (Connection T G) Unit :=
  match c.session.receive [] with
  | (.applicationData data, session) => .ok () { c with session, unread := c.unread ++ data }
  | (.failed failure, session) => report failure { c with session }
  | (_, session) => .ok () { c with session }

/-- What a handshake comes to once data can be exchanged. -/
theorem handshake_of_completed {c d e : Connection T G} {records : Octets} {session : Session G}
    (started : c.session.start = (.ok records, session))
    (sent : sendSome records { c with session } = .ok () d)
    (completed : completeHandshake maxAnswers d = .ok () e) : handshake c = finish e := by
  have begins : withSession Session.start c = .ok (.ok records) { c with session } := by
    unfold withSession
    rw [started]
  have trails : withSession (·.receive []) e =
      .ok (e.session.receive []).1 { e with session := (e.session.receive []).2 } := rfl
  unfold handshake finish
  rw [bind_of_ok begins, bind_of_ok (ofExcept_eq_ok.mpr ⟨rfl, rfl⟩), bind_of_ok sent,
    bind_of_ok completed, bind_of_ok trails]
  generalize e.session.receive [] = result
  obtain ⟨outcome, session⟩ := result
  cases outcome <;> rfl

theorem handshake_of_error {c d e : Connection T G} {records : Octets} {session : Session G}
    {error : Error} (started : c.session.start = (.ok records, session))
    (sent : sendSome records { c with session } = .ok () d)
    (failed : completeHandshake maxAnswers d = .error error e) : handshake c = .error error e := by
  have begins : withSession Session.start c = .ok (.ok records) { c with session } := by
    unfold withSession
    rw [started]
  unfold handshake
  rw [bind_of_ok begins, bind_of_ok (ofExcept_eq_ok.mpr ⟨rfl, rfl⟩), bind_of_ok sent,
    bind_of_error failed]

theorem handshake_of_start_error {c : Connection T G} {session : Session G} {error : Error}
    (failed : c.session.start = (.error error, session)) :
    handshake c = .error error { c with session } := by
  have begins : withSession Session.start c = .ok (.error error) { c with session } := by
    unfold withSession
    rw [failed]
  unfold handshake
  rw [bind_of_ok begins, bind_of_error (ofExcept_eq_error.mpr ⟨rfl, rfl⟩)]

end Steps

open Session Handled Endpoint

/-- What is handed out after the end of the handshake is what the session makes of the rest of the
stream. -/
theorem readsOut_of_over {ending : Error} {holds : List Octets → T → Prop}
    (steady : Steady ending holds) {reads : List Octets} (some : ∀ read ∈ reads, read ≠ [])
    {c : Connection T G} (held : holds reads c.transport) (nothing : c.unread = [])
    (idle : c.session.Idle) :
    ∃ script failure last,
      ComesTo c.session (c.session.inbox ++ reads.flatten) script failure last ∧
        ReadsOut c (contents script) (conclusion ending failure) := by
  induction reads generalizing c with
  | nil =>
    obtain ⟨_, ended⟩ := exists_read_of_nil steady held nothing idle.isOver
    exact ⟨[], none, _, .waits (List.append_nil _) .nil idle.nothing, .fails ended⟩
  | cons octets reads ih =>
    obtain ⟨first, others⟩ := List.forall_mem_cons.mp some
    obtain ⟨transport, received, held⟩ := steady.receive held
    have begins := read_of_over nothing idle.isOver
    rw [awaitData_of_read received first] at begins
    have makes := makes_receive idle.ready idle.isOver octets
    generalize c.session.receive octets = result at begins makes
    rw [List.flatten_cons, ← List.append_assoc]
    cases makes with
    | @goesOn script session later comes =>
      obtain ⟨more, failure, last, rest, readsOut⟩ :=
        @ih others { c with transport, session } held nothing later
      refine ⟨script ++ more, failure, last, comes.trans rest, ?_⟩
      rw [contents_append]
      by_cases silent : contents script = []
      · rw [silent] at begins ⊢
        refine readsOut.of_read_eq (begins.trans ?_)
        exact Eq.symm (read_of_over nothing later.isOver)
      · rw [Outcome.waiting_of_ne_nil silent] at begins
        exact .goesOn begins silent readsOut
    | @fails script failure session failed deferred comes silent =>
      refine ⟨script, _, session, comes.append_of_fails reads.flatten, ?_⟩
      rw [silent]
      exact readsOut_of_conclude begins
    | @defers script failure session failed comes data =>
      refine ⟨script, _, session, comes.append_of_fails reads.flatten, ?_⟩
      rw [← List.append_nil (contents script)]
      exact .goesOn begins data (readsOut_of_deferred failed rfl nothing)

end Connection

end TransportSecurity
