import TransportSecurity.Link.Transport
import TransportSecurity.Session.Basic

/-!
A session tied to a transport: what the session wants to send is sent, and what the transport
delivers is fed to the session.

`handshake` runs until data can be exchanged, `write` and `read` exchange it, and `close` says that
no more will follow. A failed session is reported with its own error, whether or not the alert about
it could be sent.
-/

namespace TransportSecurity

/-- A session, its transport, and data that arrived with the end of the handshake. -/
structure Connection (T G : Type) where
  transport : T
  session : Session G
  unread : Octets := []

namespace Connection

variable {T G : Type} [Transport T] [Entropy G]

/-- The most octets received at once. -/
def room : Nat := 18 * 1024

/-- The most flights that a handshake answers: the hello of one end, the key exchange of the other.
The last flight ends the handshake. -/
def maxAnswers : Nat := 2

/-- Sends octets. -/
def send (octets : Octets) : EStateM Error (Connection T G) Unit := fun connection =>
  match Transport.send octets connection.transport with
  | .ok () transport => .ok () { connection with transport }
  | .error error transport => .error error { connection with transport }

/-- Sends octets if there are any. -/
def sendSome (octets : Octets) : EStateM Error (Connection T G) Unit :=
  unless octets.isEmpty do send octets

/-- Does something with the session. -/
def withSession {α : Type} (action : Session G → α × Session G) :
    EStateM Error (Connection T G) α := fun connection =>
  let (value, session) := action connection.session
  .ok value { connection with session }

/-- Reports a failure of the session, after an attempt to send the alert about it. -/
def report {α : Type} (failure : Failure) : EStateM Error (Connection T G) α := fun connection =>
  match failure.alert with
  | none => .error failure.error connection
  | some alert =>
    match Transport.send alert connection.transport with
    | .ok () transport => .error failure.error { connection with transport }
    | .error _ transport => .error failure.error { connection with transport }

/-- Feeds the session until the handshake is complete. -/
def completeHandshake (answers : Nat) : EStateM Error (Connection T G) Unit := fun connection =>
  match _received : Transport.receive room connection.transport with
  | .error error transport => .error error { connection with transport }
  | .ok [] transport => .error .connectionClosed { connection with transport }
  | .ok (first :: rest) transport =>
    let (outcome, session) := connection.session.receive (first :: rest)
    let connection := { connection with transport, session }
    match outcome with
    | .needMoreData => completeHandshake answers connection
    | .output records =>
      match answers with
      | 0 => .error .handshakeIncomplete connection
      | answers + 1 =>
        match send records connection with
        | .ok () connection => completeHandshake answers connection
        | .error error connection => .error error connection
    | .handshakeComplete records => sendSome records connection
    | .applicationData _ =>
      .error (.unexpectedMessage "application data during handshake") connection
    | .failed failure => report failure connection
termination_by connection => (answers, Transport.supply connection.transport)
decreasing_by
  · exact .right _ (Transport.supply_lt _received (by simp))
  · exact .left _ _ (Nat.lt_succ_self _)

/-- Runs the handshake. Records that came with its end are handled too, and data in them is kept for
the first read. -/
def handshake : EStateM Error (Connection T G) Unit := do
  let started ← withSession Session.start
  sendSome (← ofExcept started)
  completeHandshake maxAnswers
  match ← withSession (·.receive []) with
  | .applicationData data => modify fun c => { c with unread := c.unread ++ data }
  | .failed failure => report failure
  | _ => return

/-- Sends data. -/
def write (data : Octets) : EStateM Error (Connection T G) Unit := do
  let records ← withSession (·.send data)
  send (← ofExcept records)

/-- What a failure of the session means to a reader: the other end's farewell is the end of the
data, and anything else is an error. -/
def conclude (failure : Failure) : EStateM Error (Connection T G) Octets :=
  if failure.error = .alertReceived .warning .closeNotify then return [] else report failure

/-- Feeds the session until there is data. -/
def awaitData : EStateM Error (Connection T G) Octets := fun connection =>
  match _received : Transport.receive room connection.transport with
  | .error error transport => .error error { connection with transport }
  | .ok [] transport => .error .connectionClosed { connection with transport }
  | .ok (first :: rest) transport =>
    let (outcome, session) := connection.session.receive (first :: rest)
    let connection := { connection with transport, session }
    match outcome with
    | .needMoreData => awaitData connection
    | .applicationData data => .ok data connection
    | .failed failure => conclude failure connection
    | .output _ | .handshakeComplete _ =>
      .error (.unexpectedMessage "handshake output after completion") connection
termination_by connection => Transport.supply connection.transport
decreasing_by exact Transport.supply_lt _received (by simp)

/-- The next data, or none once the other end has said farewell. A failure that waits to be reported
comes before anything new is received. -/
def read : EStateM Error (Connection T G) Octets := do
  let connection ← get
  if !connection.unread.isEmpty then
    set { connection with unread := [] }
    return connection.unread
  if connection.session.endpoint.stage = .failed then
    conclude (← withSession Session.takeFailure)
  else awaitData

/-- Resets the session, and then says farewell. -/
def close : EStateM Error (Connection T G) Unit := do
  modify fun c => { c with session := c.session.reset }
  send Session.closeNotify

end Connection

end TransportSecurity
