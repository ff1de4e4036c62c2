import TransportSecurity.Alert.Wire
import TransportSecurity.Handshake.Assembly
import TransportSecurity.Record.Framing
import TransportSecurity.Session.Client
import TransportSecurity.Session.Server

/-!
TLS sessions: an endpoint, the octets that wait for the rest of a record or a message, and a failure
that waits to be reported.

`Session.start` begins a handshake, `Session.receive` takes octets from the other end in any pieces,
`Session.send` protects data. A session that has failed keeps no secrets and does nothing more
until it is reset. Data that came before the cause of a failure is still handed out, and the failure
follows at the next call.
-/

namespace TransportSecurity

/-- A failure as it is reported, with the records that tell the other end, if they can be sent. -/
structure Failure where
  error : Error
  alert : Option Octets
  deriving DecidableEq

/-- What octets from the other end led to. -/
inductive Outcome where
  | needMoreData
  | output (records : Octets)
  | handshakeComplete (records : Octets)
  | applicationData (data : Octets)
  | failed (failure : Failure)
  deriving DecidableEq

/-- One end of a connection with its buffers. -/
structure Session (G : Type) where
  endpoint : Endpoint G
  inbox : Octets := []
  pending : Octets := []
  deferred : Option Failure := none

/-- What one record led to. -/
inductive Progress where
  | continued (records : Octets)
  | data (content : Octets)
  | complete (records : Octets)

namespace Endpoint

variable {G : Type} [Entropy G]

/-- Begins the role's part of the handshake; the answer is what to send. -/
def startHandshake : Step G Octets := do
  match (← get).role with
  | .client settings _ => Client.sendHello settings
  | .server settings _ => Server.await settings

/-- Does with a whole handshake message what the role asks for; the answer is what to send. -/
def receiveMessage (message : Octets) : Step G Octets := do
  let role := (← get).role
  let type ← ofExcept (MessageType.ofMessage message)
  match role with
  | .client settings phase => Client.receive settings phase type message
  | .server settings phase => Server.receive settings phase type message

/-- The other end has changed to protected records. -/
def receiveChange : Step G Unit := do
  match (← get).role with
  | .client settings phase => Client.receiveChange settings phase
  | .server settings phase => Server.receiveChange settings phase

/-- The content of a record, its protection removed. An alert of two octets is always in the
clear. -/
def open? (header : Record.Header) (record : Octets) : Step G Octets := do
  let endpoint ← get
  let clear := header.type = .alert && header.length = 2
  match endpoint.readKeys?, endpoint.receiveProtected && !clear with
  | some keys, true =>
    let (content, number) ← ofExcept (Record.unprotect keys endpoint.receiveNumber record)
    modify ({ · with receiveNumber := number })
    return content
  | none, true => throw (.cipher "receive keys missing")
  | _, false =>
    if Record.maxFragment < header.length then throw (.recordOverflow header.length)
    return record.drop Record.headerLength

/-- Handles the whole messages among the octets collected; the answer goes with the octets of the
message that is not whole yet. `records` is what is to be sent already. -/
def receiveMessages (records pending : Octets) : Step G (Progress × Octets) :=
  match _found : Assembly.next? pending with
  | .error error => throw error
  | .ok none => return (.continued records, pending)
  | .ok (some (message, rest)) => do
    let answer ← receiveMessage message
    if (← get).stage = .established then
      if rest.isEmpty then return (.complete (records ++ answer), rest)
      else throw (.unexpectedMessage "handshake message after Finished")
    else receiveMessages (records ++ answer) rest
termination_by pending.length
decreasing_by exact Assembly.length_lt_of_next? _found

/-- Handles a whole record, given the octets collected for a message that is not whole yet; the
answer goes with the octets collected after it. -/
def receiveRecord (header : Record.Header) (record pending : Octets) :
    Step G (Progress × Octets) := do
  let content ← open? header record
  match header.type with
  | .changeCipherSpec =>
    ofExcept (ChangeCipherSpec.check content)
    unless pending.isEmpty do
      throw (.unexpectedMessage "change cipher spec inside a handshake message")
    receiveChange
    return (.continued [], pending)
  | .alert =>
    let alert ← ofExcept (Scan.whole Alert.scan content)
    throw (.alertReceived alert.level alert.description)
  | .applicationData =>
    unless (← get).stage = .established do
      throw (.unexpectedMessage "application data before handshake completion")
    return (.data content, pending)
  | .handshake =>
    if (← get).stage = .established then
      throw (.unexpectedMessage "renegotiation is not supported")
    receiveMessages [] (pending ++ content)

/-- The records that tell the other end about an error. They go out in the clear, so there are none
once this end has changed to protected records. -/
def alertRecords (endpoint : Endpoint G) (error : Error) : Option Octets :=
  match error.alert?, endpoint.sendProtected with
  | some description, false =>
    some (Record.encodePlain .alert (Alert.fatal description).encode)
  | _, _ => none

end Endpoint

namespace Session

variable {G : Type}

/-- The session of a client. -/
def client (settings : ClientSettings) (source : G) : Except Error (Session G) := do
  Suite.check settings.suites
  return { endpoint := { role := .client settings .idle, source } }

/-- The session of a server. -/
def server (settings : ServerSettings) (source : G) : Except Error (Session G) := do
  Suite.check settings.suites
  return { endpoint := { role := .server settings .idle, source } }

/-- Forgets all secrets and everything collected. -/
def wipe (session : Session G) : Session G :=
  { session with
    endpoint := { session.endpoint with
      transcript := none
      secrets := none
      clientRandom := none
      serverRandom := none }
    inbox := []
    pending := [] }

/-- Goes back to the beginning, with the source of random octets as it is. -/
def reset (session : Session G) : Session G :=
  let session := session.wipe
  { session with
    endpoint := { session.endpoint with
      role := session.endpoint.role.idle
      stage := .initial
      suite := Suite.unprotected
      sendProtected := false
      receiveProtected := false
      sendNumber := 0
      receiveNumber := 0
      serverKey := none }
    deferred := none }

/-- Fails for good: the failure to report, and the session without its secrets. -/
def fail (session : Session G) (error : Error) : Failure × Session G :=
  let wiped := session.wipe
  (⟨error, session.endpoint.alertRecords error⟩,
    { wiped with endpoint := { wiped.endpoint with stage := .failed } })

/-- The records that say no more data will follow. -/
def closeNotify : Octets := Record.encodePlain .alert Alert.closeNotify.encode

/-- Whether data can be exchanged. -/
def isEstablished (session : Session G) : Bool := session.endpoint.stage = .established

/-- Does something with the endpoint and leaves the buffers alone. -/
def act {α : Type} (session : Session G) (step : Step G α) : Except Error α × Session G :=
  match step session.endpoint with
  | .ok value endpoint => (.ok value, { session with endpoint })
  | .error error endpoint => (.error error, { session with endpoint })

variable [Entropy G]

/-- Begins a handshake; the answer is what to send. -/
def start (session : Session G) : Except Error Octets × Session G :=
  match session.endpoint.stage with
  | .initial =>
    let endpoint :=
      { session.endpoint with stage := .handshaking, transcript := some Transcript.empty }
    match { session with endpoint }.act Endpoint.startHandshake with
    | (.ok records, session) => (.ok records, session)
    | (.error error, session) => (.error error, (session.fail error).2)
  | .failed => (.error .sessionFailed, session)
  | _ => (.error (.invalidState "session already started"), session)

/-- Fails for good after some data was handed out in the same call: the data goes first and the
failure waits. -/
def stop (session : Session G) (error : Error) (data : Octets) : Outcome × Session G :=
  let (failure, session) := session.fail error
  if data.isEmpty then (.failed failure, session)
  else (.applicationData data, { session with deferred := some failure })

/-- Handles the whole records in the inbox. `records` is what is to be sent already, and `data` what
is to be handed out. -/
def drain (records data : Octets) (session : Session G) : Outcome × Session G :=
  match _found : Record.next? session.inbox with
  | .error error => session.stop error data
  | .ok none =>
    if !data.isEmpty then (.applicationData data, session)
    else if !records.isEmpty then (.output records, session)
    else (.needMoreData, session)
  | .ok (some (header, record, inbox)) =>
    match Endpoint.receiveRecord header record session.pending session.endpoint with
    | .ok (.continued answer, pending) endpoint =>
      drain (records ++ answer) data { session with endpoint, inbox, pending }
    | .ok (.data content, pending) endpoint =>
      drain records (data ++ content) { session with endpoint, inbox, pending }
    | .ok (.complete answer, pending) endpoint =>
      (.handshakeComplete (records ++ answer), { session with endpoint, inbox, pending })
    | .error error endpoint => { session with endpoint, inbox }.stop error data
termination_by session.inbox.length
decreasing_by all_goals exact Record.length_lt_of_next? _found

/-- What a failed session reports: the failure that waits, once, and then only that it failed. -/
def takeFailure (session : Session G) : Failure × Session G :=
  match session.deferred with
  | some failure => (failure, { session with deferred := none })
  | none => (⟨.sessionFailed, none⟩, session)

/-- Takes octets from the other end. -/
def receive (session : Session G) (octets : Octets) : Outcome × Session G :=
  match session.endpoint.stage with
  | .failed =>
    let (failure, session) := session.takeFailure
    (.failed failure, session)
  | .initial => (.failed ⟨.invalidState "session not started", none⟩, session)
  | _ => drain [] [] { session with inbox := session.inbox ++ octets }

/-- Protects data; the answer is what to send. -/
def send (session : Session G) (data : Octets) : Except Error Octets × Session G :=
  match session.endpoint.stage with
  | .established => session.act (Endpoint.encode .applicationData data)
  | .failed => (.error .sessionFailed, session)
  | _ => (.error .handshakeIncomplete, session)

end Session

end TransportSecurity
