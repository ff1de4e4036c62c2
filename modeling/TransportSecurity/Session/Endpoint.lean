import TransportSecurity.Handshake.ChangeCipherSpec
import TransportSecurity.Handshake.Transcript
import TransportSecurity.Message.Hello
import TransportSecurity.Record.Protection
import TransportSecurity.Settings

/-!
One end of a connection, apart from the octets that wait in its buffers.

An `Endpoint` knows its role and how far that role's handshake has come, what has been agreed on,
and which directions are protected. What it does is written as `Step`s: a step may change the
endpoint and then still fail, and the changes stay.
-/

namespace TransportSecurity

/-- How far a session has come. -/
inductive Stage where | initial | handshaking | established | failed
  deriving DecidableEq, Repr

/-- What a client waits for. -/
inductive ClientPhase where
  | idle | serverHello | certificate | serverHelloDone | changeCipherSpec | finished | done
  deriving DecidableEq, Repr

/-- What a server waits for. -/
inductive ServerPhase where
  | idle | clientHello | clientKeyExchange | changeCipherSpec | finished | done
  deriving DecidableEq, Repr

/-- The two roles, each with what was decided beforehand and what it waits for. -/
inductive Role where
  | client (settings : ClientSettings) (phase : ClientPhase)
  | server (settings : ServerSettings) (phase : ServerPhase)

/-- The end of a connection that a role takes. -/
def Role.side : Role → End
  | .client .. => .client
  | .server .. => .server

/-- A role that waits for nothing yet. -/
def Role.idle : Role → Role
  | .client settings _ => .client settings .idle
  | .server settings _ => .server settings .idle

/-- What both ends know and nobody else does. The two parts are one value because they only ever
come and go together: `Endpoint.installSecrets` derives both before it keeps either, and
`Session.wipe` forgets both. The keys of each direction are read off the block by the role's side,
which never changes (`Endpoint.writeKeys?`, `Endpoint.readKeys?`), so they are there exactly when
the block is. -/
structure Secrets where
  master : Octets
  keys : KeyBlock
  deriving DecidableEq

/-- One end of a connection. A client keeps the public key of the server's certificate. -/
structure Endpoint (G : Type) where
  role : Role
  stage : Stage := .initial
  suite : Suite := Suite.unprotected
  sendProtected : Bool := false
  receiveProtected : Bool := false
  sendNumber : UInt64 := 0
  receiveNumber : UInt64 := 0
  transcript : Option Transcript := none
  clientRandom : Option Random := none
  serverRandom : Option Random := none
  secrets : Option Secrets := none
  serverKey : Option Rsa.PublicKey := none
  source : G

/-- Something an endpoint does, which may fail. -/
abbrev Step (G : Type) := EStateM Error (Endpoint G)

namespace Endpoint

variable {G : Type}

/-- The keys under which this end sends. -/
def writeKeys? (endpoint : Endpoint G) : Option WriteKeys :=
  endpoint.secrets.map fun secrets => secrets.keys.writer endpoint.role.side

/-- The keys under which the other end sends. -/
def readKeys? (endpoint : Endpoint G) : Option WriteKeys :=
  endpoint.secrets.map fun secrets => secrets.keys.writer endpoint.role.side.peer

/-- Sets the phase of a client. -/
def enterClient (settings : ClientSettings) (phase : ClientPhase) : Step G Unit :=
  modify ({ · with role := .client settings phase })

/-- Sets the phase of a server. -/
def enterServer (settings : ServerSettings) (phase : ServerPhase) : Step G Unit :=
  modify ({ · with role := .server settings phase })

/-- The transcript of the handshake that is going on. -/
def currentTranscript : Step G Transcript := do
  let some transcript := (← get).transcript | throw .noHandshake
  return transcript

/-- Adds a message to the transcript. -/
def record (slot : Slot) (message : Octets) : Step G Unit := do
  let transcript ← ofExcept ((← currentTranscript).record slot message)
  modify ({ · with transcript := some transcript })

/-- The master secret. -/
def masterSecret : Step G Octets := do
  let some secrets := (← get).secrets | throw .keysMissing
  return secrets.master

/-- The proof that an end sends in its Finished message, for the transcript as it is now. -/
def proof (side : End) : Step G Octets := do
  let hash := (← currentTranscript).hash
  return KeySchedule.verifyData (KeySchedule.finishedLabel side) hash (← masterSecret)

/-- Derives the secrets from a pre-master secret, for the suite and the randoms agreed on. -/
def installSecrets (preMaster : Octets) : Step G Unit := do
  let endpoint ← get
  let parameters ← ofExcept endpoint.suite.parameters
  let (some client, some server) := (endpoint.clientRandom, endpoint.serverRandom)
    | throw (.unexpectedMessage "hello randoms missing")
  let master := KeySchedule.master preMaster client.val server.val
  let keys ← ofExcept (KeyBlock.derive parameters master server.val client.val)
  modify ({ · with secrets := some ⟨master, keys⟩ })

/-- From now on sends protected records, numbered from zero. -/
def protectSending : Step G Unit := do
  if (← get).secrets.isNone then throw .changeBeforeKeys
  modify ({ · with sendProtected := true, sendNumber := 0 })

/-- From now on receives protected records, numbered from zero. -/
def protectReceiving : Step G Unit := do
  if (← get).secrets.isNone then throw .changeBeforeKeys
  modify ({ · with receiveProtected := true, receiveNumber := 0 })

/-- Ends the handshake with success. -/
def establish : Step G Unit := modify ({ · with stage := .established, transcript := none })

/-- Does something with this end's source of random octets. -/
def withSource {α : Type} (action : EStateM Error G α) : Step G α := fun endpoint =>
  match action endpoint.source with
  | .ok value source => .ok value { endpoint with source }
  | .error error source => .error error { endpoint with source }

/-- Does something with this end's record numbers and source of random octets. -/
def withSealer {α : Type} (action : EStateM Error (Record.Sealer G) α) : Step G α :=
  fun endpoint =>
    match action ⟨endpoint.sendNumber, endpoint.source⟩ with
    | .ok value sealer =>
      .ok value { endpoint with sendNumber := sealer.number, source := sealer.source }
    | .error error sealer =>
      .error error { endpoint with sendNumber := sealer.number, source := sealer.source }

variable [Entropy G]

/-- A payload as records, protected if this end has changed to protected records. -/
def encode (type : ContentType) (payload : Octets) : Step G Octets := do
  let endpoint ← get
  match endpoint.writeKeys?, endpoint.sendProtected with
  | some keys, true => withSealer (Record.protect keys type payload)
  | _, _ => return Record.encodePlain type payload

/-- The record that announces protected records. -/
def encodeChange : Step G Octets := encode .changeCipherSpec ChangeCipherSpec.payload

end Endpoint

end TransportSecurity
