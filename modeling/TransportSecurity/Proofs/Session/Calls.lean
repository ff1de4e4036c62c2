import TransportSecurity.Proofs.Session.Reads

/-!
Sessions as those who use them see them.

A session is used by calls (`Call`), each of which returns a `Reply`, and may be reset in between
(`Request`). `Performs` lists all that a call can make of a session that has not failed, so that
what holds of every run needs one case for each line, and what holds of endpoints and is kept by all
that they do holds in every run (`Invariant.reachable`). A failed session refuses every call
(`perform_of_refused`) and only reports, once, the failure that waits (`perform_of_deferred`).
-/

namespace TransportSecurity

/-- What a session can be asked to do. -/
inductive Call where
  | start
  | receive (octets : Octets)
  | send (data : Octets)

/-- All that a session is asked for in use: calls, the farewell, and to begin again. -/
inductive Request where
  | call (call : Call)
  | closeNotify
  | reset

/-- What a call returns: records to send or an error, or what octets led to. -/
inductive Reply where
  | answered (result : Except Error Octets)
  | received (outcome : Outcome)

namespace Reply

/-- What a call returns to be sent, apart from an alert. -/
def emitted : Reply → Octets
  | .answered (.ok records) => records
  | .answered (.error _) => []
  | .received (.output records) => records
  | .received (.handshakeComplete records) => records
  | .received _ => []

/-- What a call hands out. -/
def delivered : Reply → Octets
  | .answered _ => []
  | .received outcome => outcome.content

/-- The error that a call returns. -/
def error? : Reply → Option Error
  | .answered (.ok _) => none
  | .answered (.error error) => some error
  | .received outcome => outcome.failure?.map Failure.error

/-- The alert that a call returns with an error. -/
def alert? : Reply → Option Octets
  | .answered _ => none
  | .received outcome => outcome.failure?.bind Failure.alert

/-- Without a failure an outcome asks to send what a call returns to be sent. -/
theorem emitted_received {outcome : Outcome} (fine : outcome.failure? = none) :
    (received outcome).emitted = outcome.answer := by
  cases outcome with
  | failed failure => cases fine
  | needMoreData => rfl
  | output records => rfl
  | handshakeComplete records => rfl
  | applicationData data => rfl

end Reply

/-- How a failed session refuses a call. -/
def Call.refusal : Call → Reply
  | .start => .answered (.error .sessionFailed)
  | .receive _ => .received (.failed ⟨.sessionFailed, none⟩)
  | .send _ => .answered (.error .sessionFailed)

/-- Whether a call brings octets from the other end. -/
def Call.isReceive : Call → Bool
  | .receive _ => true
  | _ => false

/-- An endpoint has not begun a handshake: no suite is settled, and no keys are kept from before. -/
structure Endpoint.Blank {G : Type} (e : Endpoint G) : Prop where
  idle : e.role.idle = e.role
  suite : e.suite = Suite.unprotected
  secrets : e.secrets = none
  serverKey : e.serverKey = none

namespace Session

open Endpoint Handled

variable {G : Type} [Entropy G]

/-- Makes a call. -/
def perform (session : Session G) : Call → Reply × Session G
  | .start => (.answered session.start.1, session.start.2)
  | .receive octets => (.received (session.receive octets).1, (session.receive octets).2)
  | .send data => (.answered (session.send data).1, (session.send data).2)

theorem perform_of_send {session after : Session G} {data : Octets} {result : Except Error Octets}
    (sent : session.send data = (result, after)) :
    session.perform (.send data) = (.answered result, after) := by
  rw [perform, sent]

/-- Makes calls, one after the other. -/
def performAll (session : Session G) : List Call → List Reply × Session G
  | [] => ([], session)
  | call :: calls =>
    let (reply, next) := session.perform call
    let (replies, last) := next.performAll calls
    (reply :: replies, last)

theorem performAll_cons (session : Session G) (call : Call) (calls : List Call) :
    session.performAll (call :: calls) =
      ((session.perform call).1 :: ((session.perform call).2.performAll calls).1,
        ((session.perform call).2.performAll calls).2) := rfl

theorem performAll_append (session : Session G) (before after : List Call) :
    session.performAll (before ++ after) =
      ((session.performAll before).1 ++ ((session.performAll before).2.performAll after).1,
        ((session.performAll before).2.performAll after).2) := by
  induction before generalizing session with
  | nil => rfl
  | cons call before ih => rw [List.cons_append, performAll_cons, ih, performAll_cons]; rfl

theorem Becomes.perform {first session : Session G} (before : first.Becomes session) (call : Call) :
    first.Becomes (session.perform call).2 := by
  cases call with
  | start => exact .start before
  | receive octets => exact .receive before octets
  | send data => exact .send before data

theorem Reachable.perform {session : Session G} (reachable : session.Reachable) (call : Call) :
    (session.perform call).2.Reachable := by
  obtain ⟨first, made, becomes⟩ := reachable
  exact ⟨first, made, becomes.perform call⟩

theorem Reachable.performAll {session : Session G} (reachable : session.Reachable)
    (calls : List Call) : (session.performAll calls).2.Reachable := by
  induction calls generalizing session with
  | nil => exact reachable
  | cons call calls ih => exact ih (reachable.perform call)

/-- Serves a request; a reset returns nothing. -/
def serve (session : Session G) : Request → Option Reply × Session G
  | .call call => (some (session.perform call).1, (session.perform call).2)
  | .closeNotify => (some (.answered (.ok closeNotify)), session)
  | .reset => (none, session.reset)

/-- Serves requests, one after the other. -/
def serveAll (session : Session G) : List Request → List (Option Reply) × Session G
  | [] => ([], session)
  | request :: requests =>
    let (reply, next) := session.serve request
    let (replies, last) := next.serveAll requests
    (reply :: replies, last)

theorem Becomes.serve {first session : Session G} (before : first.Becomes session)
    (request : Request) : first.Becomes (session.serve request).2 := by
  cases request with
  | call call => exact before.perform call
  | closeNotify => exact before
  | reset => exact .reset before

theorem Reachable.serve {session : Session G} (reachable : session.Reachable) (request : Request) :
    (session.serve request).2.Reachable := by
  obtain ⟨first, made, becomes⟩ := reachable
  exact ⟨first, made, becomes.serve request⟩

/-- What is true of sessions as they are made and kept by calls and resets is true of every session
in use. -/
@[elab_as_elim]
theorem Reachable.induct {holds : Session G → Prop} {session : Session G}
    (reachable : session.Reachable) (made : ∀ session, Made session → holds session)
    (call : ∀ session : Session G, session.Reachable → holds session → ∀ call,
      holds (session.perform call).2)
    (reset : ∀ session : Session G, session.Reachable → holds session → holds session.reset) :
    holds session := by
  obtain ⟨first, origin, becomes⟩ := reachable
  induction becomes with
  | refl => exact made first origin
  | start before ih => exact call _ ⟨first, origin, before⟩ ih .start
  | receive before octets ih => exact call _ ⟨first, origin, before⟩ ih (.receive octets)
  | send before data ih => exact call _ ⟨first, origin, before⟩ ih (.send data)
  | reset before ih => exact reset _ ⟨first, origin, before⟩ ih

/-- All that a call makes of a session that has not failed. -/
inductive Performs (session : Session G) : Call → Reply → Session G → Prop
  | starts {records : Octets} {endpoint : Endpoint G}
    (fresh : session.endpoint.stage = .initial)
    (begins : Begins { session.endpoint with
      stage := .handshaking
      transcript := some Transcript.empty } records endpoint) :
    Performs session .start (.answered (.ok records)) { session with endpoint }
  | cannotStart {error : Error} {endpoint : Endpoint G}
    (fresh : session.endpoint.stage = .initial)
    (failed : startHandshake { session.endpoint with
      stage := .handshaking
      transcript := some Transcript.empty } = .error error endpoint) :
    Performs session .start (.answered (.error error)) ({ session with endpoint }.fail error).2
  | started (begun : session.endpoint.stage ≠ .initial) :
    Performs session .start (.answered (.error (.invalidState "session already started"))) session
  | notStarted {octets : Octets} (fresh : session.endpoint.stage = .initial) :
    Performs session (.receive octets)
      (.received (.failed ⟨.invalidState "session not started", none⟩)) session
  | reads {octets inbox pending : Octets} {outcome : Outcome} {script : List Handled}
    {endpoint : Endpoint G}
    (active : session.endpoint.stage = .handshaking ∨ session.endpoint.stage = .established)
    (arrived : session.inbox ++ octets = stream script ++ inbox)
    (takes : Takes session.endpoint session.pending script endpoint pending)
    (rests : Record.next? inbox = .ok none ∨ endpoint.stage = .established)
    (answer : outcome.answer = answers script) (fine : outcome.failure? = none) :
    Performs session (.receive octets) (.received outcome) { session with endpoint, inbox, pending }
  | cannotRead {octets inbox pending : Octets} {endpoint failing : Endpoint G} {error : Error}
    (script : List Handled)
    (active : session.endpoint.stage = .handshaking ∨ session.endpoint.stage = .established)
    (arrived : session.inbox ++ octets = stream script ++ inbox)
    (takes : Takes session.endpoint session.pending script endpoint pending)
    (opened : Open script) (refuses : Refuses endpoint pending inbox error failing) :
    Performs session (.receive octets)
      (.received ({ session with endpoint := failing }.stop error (contents script)).1)
      ({ session with endpoint := failing }.stop error (contents script)).2
  | sends {data records : Octets} {endpoint : Endpoint G}
    (isOver : session.endpoint.stage = .established)
    (sent : encode .applicationData data session.endpoint = .ok records endpoint) :
    Performs session (.send data) (.answered (.ok records)) { session with endpoint }
  | cannotSend {data : Octets} {error : Error} {endpoint : Endpoint G}
    (isOver : session.endpoint.stage = .established)
    (failed : encode .applicationData data session.endpoint = .error error endpoint) :
    Performs session (.send data) (.answered (.error error)) { session with endpoint }
  | notEstablished {data : Octets} (unfinished : session.endpoint.stage ≠ .established) :
    Performs session (.send data) (.answered (.error .handshakeIncomplete)) session

variable {session : Session G}

theorem performs_start (notFailed : session.endpoint.stage ≠ .failed) :
    Performs session .start (.answered session.start.1) session.start.2 := by
  unfold start
  split
  · next fresh =>
    unfold act
    dsimp only
    cases begun : startHandshake { session.endpoint with
        stage := .handshaking
        transcript := some Transcript.empty } with
    | ok records endpoint => exact .starts fresh (startHandshake_eq_ok.mp begun)
    | error error endpoint => exact .cannotStart fresh begun
  · next failed => exact (notFailed failed).elim
  · next notFresh _ => exact .started notFresh

theorem performs_send (notFailed : session.endpoint.stage ≠ .failed) (data : Octets) :
    Performs session (.send data) (.answered (session.send data).1) (session.send data).2 := by
  unfold send
  split
  · next isOver =>
    unfold act
    cases sent : encode .applicationData data session.endpoint with
    | ok records endpoint => exact .sends isOver sent
    | error error endpoint => exact .cannotSend isOver sent
  · next failed => exact (notFailed failed).elim
  · next unfinished _ => exact .notEstablished unfinished

/-- Every call of a session that has not failed is one of those listed. -/
theorem Orderly.performs (orderly : session.Orderly) (call : Call) :
    Performs session call (session.perform call).1 (session.perform call).2 := by
  cases call with
  | start => exact performs_start orderly.not_failed
  | send data => exact performs_send orderly.not_failed data
  | receive octets =>
    by_cases fresh : session.endpoint.stage = .initial
    · have refused : session.receive octets =
          (.failed ⟨.invalidState "session not started", none⟩, session) := by
        unfold Session.receive
        rw [fresh]
      unfold Session.perform
      dsimp only
      rw [refused]
      exact .notStarted fresh
    · have active := orderly.active fresh
      have reads := reads_receive orderly.endpoint active octets
      unfold Session.perform
      dsimp only
      generalize session.receive octets = result at reads ⊢
      cases reads with
      | goesOn arrived takes rests answer content fine =>
        exact .reads active arrived takes (rests.imp_right fun ends => ends.2.1) answer fine
      | fails arrived takes opened refuses =>
        exact .cannotRead _ active arrived takes opened refuses

/-- A failed session with nothing to report refuses every call. -/
theorem perform_of_refused (failed : session.endpoint.stage = .failed) {call : Call}
    (nothing : session.deferred = none ∨ call.isReceive = false) :
    session.perform call = (call.refusal, session) := by
  cases call with
  | start =>
    unfold Session.perform start
    rw [failed]
    rfl
  | send data =>
    unfold Session.perform send
    rw [failed]
    rfl
  | receive octets =>
    rcases nothing with nothing | impossible
    · unfold Session.perform
      dsimp only
      rw [receive_of_failed failed, takeFailure, nothing]
      rfl
    · cases impossible

/-- The first call that brings octets is told of the failure that waits. -/
theorem perform_of_deferred (failed : session.endpoint.stage = .failed) {failure : Failure}
    (waits : session.deferred = some failure) (octets : Octets) :
    session.perform (.receive octets) =
      (.received (.failed failure), { session with deferred := none }) := by
  unfold Session.perform
  dsimp only
  rw [receive_of_failed failed, takeFailure, waits]

/-- A call of a failed session is refused, or reports the failure that waits. -/
theorem perform_of_failed (failed : session.endpoint.stage = .failed) (call : Call) :
    session.perform call = (call.refusal, session) ∨ ∃ failure, session.deferred = some failure ∧
      session.perform call = (.received (.failed failure), { session with deferred := none }) := by
  cases waits : session.deferred with
  | none => exact Or.inl (perform_of_refused failed (Or.inl waits))
  | some failure =>
    cases call with
    | start => exact Or.inl (perform_of_refused failed (Or.inr rfl))
    | send data => exact Or.inl (perform_of_refused failed (Or.inr rfl))
    | receive octets => exact Or.inr ⟨failure, rfl, perform_of_deferred failed waits octets⟩

/-- A call leaves a failed session failed. -/
theorem failed_perform (failed : session.endpoint.stage = .failed) (call : Call) :
    (session.perform call).2.endpoint.stage = .failed := by
  rcases perform_of_failed failed call with refused | ⟨_, _, reported⟩
  · rw [refused]
    exact failed
  · rw [reported]
    exact failed

omit [Entropy G] in
/-- A session that was made has not begun a handshake. -/
theorem blank_of_made {session : Session G} (made : Made session) : session.endpoint.Blank := by
  rcases made with ⟨made⟩ | ⟨made⟩
  · obtain ⟨_, _, rfl⟩ := client_eq_ok.mp made
    exact ⟨rfl, rfl, rfl, rfl⟩
  · obtain ⟨_, _, rfl⟩ := server_eq_ok.mp made
    exact ⟨rfl, rfl, rfl, rfl⟩

omit [Entropy G] in
theorem blank_reset (session : Session G) : session.reset.endpoint.Blank :=
  ⟨Role.idle_idle _, rfl, rfl, rfl⟩

/-- What holds of endpoints that wait to begin a handshake and is kept by all that they do. -/
structure Invariant (holds : Endpoint G → Prop) : Prop where
  blank : ∀ {session : Session G}, session.Reachable → session.endpoint.Blank →
    holds session.endpoint
  begun : ∀ {e f : Endpoint G} {records : Octets}, e.Sound → e.stage = .initial → holds e →
    Begins { e with stage := .handshaking, transcript := some Transcript.empty } records f → holds f
  taken : Kept fun _ (e : Endpoint G) => holds e
  encoded : ∀ {e : Endpoint G} (sendNumber : UInt64) (source : G), holds e →
    holds { e with sendNumber, source }

theorem Invariant.performs {holds : Endpoint G → Prop} (invariant : Invariant holds)
    {after : Session G} {call : Call} {reply : Reply} (orderly : session.Orderly)
    (before : holds session.endpoint) (performs : Performs session call reply after)
    (notFailed : after.endpoint.stage ≠ .failed) : holds after.endpoint := by
  cases performs with
  | starts fresh begins => exact invariant.begun orderly.endpoint fresh before begins
  | cannotStart fresh failed => exact (notFailed rfl).elim
  | started begun => exact before
  | notStarted fresh => exact before
  | reads active arrived takes =>
    exact invariant.taken.takes (s := []) takes orderly.endpoint before
  | cannotRead script active arrived takes opened refuses =>
    exact (notFailed (failed_of_stop ..)).elim
  | sends isOver sent =>
    obtain ⟨sendNumber, source, rfl⟩ := encode_frame sent
    exact invariant.encoded sendNumber source before
  | cannotSend isOver failed =>
    obtain ⟨sendNumber, source, rfl⟩ := encode_frame_of_error failed
    exact invariant.encoded sendNumber source before
  | notEstablished unfinished => exact before

/-- An invariant holds of the endpoint of every session in use that has not failed. -/
theorem Invariant.reachable {holds : Endpoint G → Prop} (invariant : Invariant holds)
    (reachable : session.Reachable) (notFailed : session.endpoint.stage ≠ .failed) :
    holds session.endpoint := by
  revert notFailed
  refine reachable.induct ?_ ?_ ?_
  · intro session made _
    exact invariant.blank ⟨session, made, .refl⟩ (blank_of_made made)
  · intro session reachable before call active
    have notFailed : session.endpoint.stage ≠ .failed :=
      fun failed => active (failed_perform failed call)
    have orderly := reachable.orderly.resolve_right notFailed
    exact invariant.performs orderly (before notFailed) (orderly.performs call) active
  · intro session reachable _ _
    obtain ⟨first, made, becomes⟩ := reachable
    exact invariant.blank ⟨first, made, .reset becomes⟩ (blank_reset _)

end Session

end TransportSecurity
