import TransportSecurity.Message.Exchange
import TransportSecurity.Session.Endpoint

/-!
What a server does with each message of the handshake.
-/

namespace TransportSecurity.Server

open Endpoint

variable {G : Type} [Entropy G]

/-- Waits for a client. -/
def await (settings : ServerSettings) : Step G Octets := do
  enterServer settings .clientHello
  return []

/-- Checks what the client offers, chooses a suite, and sends the hello, the certificates and the
end of the flight. -/
def receiveHello (settings : ServerSettings) (message : Octets) : Step G Octets := do
  let hello ← ofExcept (Body.decode ClientHello message)
  unless hello.version.atLeast .current do
    throw (.unsupportedVersion hello.version.major hello.version.minor)
  unless hello.offersNull do throw .invalidCompression
  let some suite := Suite.choose? settings.suites hello.suites | throw .noSharedSuite
  record .clientHello message
  modify ({ · with suite, clientRandom := some hello.random })
  let random ← withSource Random.draw
  modify ({ · with serverRandom := some random })
  let serverHello ← ofExcept (Body.encode (ServerHello.choosing random suite))
  let certificates ← ofExcept (Body.encode (Certificates.mk settings.identity.certificateList))
  let helloDone ← ofExcept (Body.encode ServerHelloDone.mk)
  record .serverHello serverHello
  record .serverCertificate certificates
  record .serverHelloDone helloDone
  enterServer settings .clientKeyExchange
  encode .handshake (serverHello ++ (certificates ++ helloDone))

/-- Decrypts the pre-master secret. -/
def receiveKeyExchange (settings : ServerSettings) (message : Octets) : Step G Unit := do
  let exchange ← ofExcept (Body.decode ClientKeyExchange message)
  let preMaster ← ofExcept (settings.identity.decryptPreMaster exchange.encrypted)
  record .clientKeyExchange message
  installSecrets preMaster
  enterServer settings .changeCipherSpec

/-- Checks the client's proof, changes to protected records, sends a proof in turn, and ends the
handshake. -/
def receiveFinished (settings : ServerSettings) (message : Octets) : Step G Octets := do
  let finished ← ofExcept (Body.decode Finished message)
  unless Octets.same (← proof .client) finished.verifyData do throw .finishedMismatch
  record .clientFinished message
  let changeRecord ← encodeChange
  protectSending
  let answer ← ofExcept (Body.encode (Finished.mk (← proof .server)))
  let answerRecords ← encode .handshake answer
  enterServer settings .done
  establish
  return changeRecord ++ answerRecords

/-- Does with a message what its type and the phase ask for; the answer is what to send. -/
def receive (settings : ServerSettings) (phase : ServerPhase) (type : MessageType)
    (message : Octets) : Step G Octets :=
  match phase, type with
  | .clientHello, .clientHello => receiveHello settings message
  | .clientKeyExchange, .clientKeyExchange => do receiveKeyExchange settings message; return []
  | .finished, .finished => receiveFinished settings message
  | _, _ => throw .outOfTurn

/-- The client has changed to protected records. -/
def receiveChange (settings : ServerSettings) (phase : ServerPhase) : Step G Unit :=
  match phase with
  | .changeCipherSpec => do
    protectReceiving
    enterServer settings .finished
  | _ => throw (.unexpectedMessage "unexpected change cipher spec")

end TransportSecurity.Server
