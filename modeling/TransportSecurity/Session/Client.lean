import TransportSecurity.Message.Exchange
import TransportSecurity.Session.Endpoint

/-!
What a client does with each message of the handshake.

The pre-master secret is encrypted with the key of the certificate that was accepted before. A
client that has none does not go on.
-/

namespace TransportSecurity.Client

open Endpoint

variable {G : Type} [Entropy G]

/-- Sends the hello. -/
def sendHello (settings : ClientSettings) : Step G Octets := do
  let random ← withSource Random.draw
  let message ← ofExcept (Body.encode (ClientHello.offering random settings.suites))
  modify ({ · with clientRandom := some random })
  record .clientHello message
  enterClient settings .serverHello
  encode .handshake message

/-- Checks the server's choice, and keeps it. -/
def receiveHello (settings : ClientSettings) (message : Octets) : Step G Unit := do
  let hello ← ofExcept (Body.decode ServerHello message)
  if hello.version ≠ .current then
    throw (.unsupportedVersion hello.version.major hello.version.minor)
  unless settings.suites.contains hello.suite do throw (.unsupportedSuite hello.suite)
  record .serverHello message
  modify ({ · with suite := hello.suite, serverRandom := some hello.random })
  enterClient settings .certificate

/-- Checks the server's key against the key it must have, if that is known. -/
def receiveCertificate (settings : ClientSettings) (message : Octets) : Step G Unit := do
  let certificates ← ofExcept (Body.decode Certificates message)
  let leaf :: _ := certificates.list
    | throw (.certificateRejected "server sent no certificate")
  let (octets, key) ← ofExcept (Certificate.rsaKey leaf)
  if settings.pin.any fun pin => !Octets.same pin octets then
    throw (.certificateRejected "server public key does not match pin")
  record .serverCertificate message
  modify ({ · with serverKey := some key })
  enterClient settings .serverHelloDone

/-- Sends the pre-master secret under the server's key, and changes to protected records. -/
def sendExchange (message : Octets) : Step G Octets := do
  let _ ← ofExcept (Body.decode ServerHelloDone message)
  record .serverHelloDone message
  let random ← withSource (Entropy.demand (KeySchedule.preMasterLength - 2))
  let preMaster := Version.current.encode ++ random.val
  let some key := (← get).serverKey | throw (.unexpectedMessage "server certificate missing")
  let encrypted ← withSource (Rsa.encrypt key preMaster)
  installSecrets preMaster
  let exchange ← ofExcept (Body.encode (ClientKeyExchange.mk encrypted))
  record .clientKeyExchange exchange
  let exchangeRecords ← encode .handshake exchange
  let changeRecord ← encodeChange
  protectSending
  return exchangeRecords ++ changeRecord

/-- Proves to have seen the handshake so far. -/
def sendFinished (settings : ClientSettings) : Step G Octets := do
  let finished ← ofExcept (Body.encode (Finished.mk (← proof .client)))
  record .clientFinished finished
  let finishedRecords ← encode .handshake finished
  enterClient settings .changeCipherSpec
  return finishedRecords

/-- Answers the end of the server's flight with all that the client still has to send. -/
def receiveHelloDone (settings : ClientSettings) (message : Octets) : Step G Octets := do
  let exchangeRecords ← sendExchange message
  let finishedRecords ← sendFinished settings
  return exchangeRecords ++ finishedRecords

/-- Checks the server's proof, and ends the handshake. -/
def receiveFinished (settings : ClientSettings) (message : Octets) : Step G Unit := do
  let finished ← ofExcept (Body.decode Finished message)
  unless Octets.same (← proof .server) finished.verifyData do throw .finishedMismatch
  enterClient settings .done
  establish

/-- Does with a message what its type and the phase ask for; the answer is what to send. -/
def receive (settings : ClientSettings) (phase : ClientPhase) (type : MessageType)
    (message : Octets) : Step G Octets :=
  match phase, type with
  | .serverHello, .serverHello => do receiveHello settings message; return []
  | .certificate, .certificates => do receiveCertificate settings message; return []
  | .serverHelloDone, .serverHelloDone => receiveHelloDone settings message
  | .finished, .finished => do receiveFinished settings message; return []
  | _, _ => throw .outOfTurn

/-- The server has changed to protected records. -/
def receiveChange (settings : ClientSettings) (phase : ClientPhase) : Step G Unit :=
  match phase with
  | .changeCipherSpec => do
    protectReceiving
    enterClient settings .finished
  | _ => throw (.unexpectedMessage "unexpected change cipher spec")

end TransportSecurity.Client
