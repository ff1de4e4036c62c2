import TransportSecurity.Alert.Basic

/-!
What can go wrong, as causes.

Every operation of the library fails with an `Error`. The wording of a cause is `Error.message`, its
class `Error.kind`, and the alert that reports it to the other end, if any does, `Error.alert?`.
-/

namespace TransportSecurity

/-- The cause of a failure. -/
inductive Error where
  | invalidLength
  | trailingBytes
  | unknownContentType (code : UInt8)
  | unsupportedVersion (major minor : UInt8)
  | recordOverflow (length : Nat)
  | handshakeOverflow (length : Nat)
  | invalidAlert
  | invalidChangeCipherSpec
  | lengthOutOfRange
  | integrity (reason : String)
  | decryptionFailed
  | finishedMismatch
  | cipher (reason : String)
  | unexpectedMessage (reason : String)
  | unknownHandshakeType (code : UInt8)
  | unsupportedSuite (suite : UInt16)
  | noSharedSuite
  | invalidCompression
  | certificateRejected (reason : String)
  | alertReceived (level : AlertLevel) (description : AlertDescription)
  | handshakeIncomplete
  | sessionFailed
  | invalidState (reason : String)
  | configuration (reason : String)
  | privateKey (reason : String)
  | entropyExhausted
  | connectionClosed
  | transport (reason : String)
  | fieldOverflow (length : Nat)
  deriving DecidableEq, Repr

/-- The class of a cause: malformed input, failed cryptography, a message out of turn, no common
ground, the other end's alert, or something on this end. -/
inductive ErrorKind where | framing | crypto | sequence | negotiation | alert | local
  deriving DecidableEq, Repr

namespace Error

/-- The digits of a suite's code in base sixteen, always four of them. -/
def suiteDigits (suite : UInt16) : String :=
  let n := suite.toNat
  String.ofList [(n / 4096 % 16).digitChar, (n / 256 % 16).digitChar, (n / 16 % 16).digitChar,
    (n % 16).digitChar]

/-- How a cause is worded. -/
def message : Error → String
  | invalidLength => "invalid length"
  | trailingBytes => "message has trailing bytes"
  | unknownContentType code => "Invalid content type: " ++ toString code.toNat
  | unsupportedVersion major minor =>
    "Unsupported protocol version " ++ toString major.toNat ++ "." ++ toString minor.toNat
  | recordOverflow length => "record of " ++ toString length ++ " bytes exceeds the maximum"
  | handshakeOverflow length =>
    "handshake message of " ++ toString length ++ " bytes exceeds the maximum"
  | invalidAlert => "Invalid alert."
  | invalidChangeCipherSpec => "Invalid change cipher spec."
  | lengthOutOfRange => "number too large to fit in target type"
  | integrity reason => "Cryptographic integrity error: " ++ reason
  | decryptionFailed => "decryption failed"
  | finishedMismatch => "Finished verify data mismatch"
  | cipher reason => "Cipher error: " ++ reason
  | unexpectedMessage reason => "Unexpected message: " ++ reason
  | unknownHandshakeType code => "Invalid handshake type: " ++ toString code.toNat
  | unsupportedSuite suite => "Cipher not supported: 0x" ++ suiteDigits suite
  | noSharedSuite => "no mutually supported cipher suite"
  | invalidCompression => "Invalid compression method."
  | certificateRejected reason => "Certificate rejected: " ++ reason
  | alertReceived level description =>
    "Received " ++ level.name ++ " alert: " ++ description.name
  | handshakeIncomplete => "handshake is not complete"
  | sessionFailed => "session has failed and must be reset or discarded"
  | invalidState reason => "Invalid session state: " ++ reason
  | configuration reason => "Invalid configuration: " ++ reason
  | privateKey reason => "Private key error: " ++ reason
  | entropyExhausted => "Random generator failed"
  | connectionClosed => "connection closed by peer"
  | transport reason => reason
  | fieldOverflow length => "field of " ++ toString length ++ " bytes exceeds its length prefix"

/-- The class a cause belongs to. -/
def kind : Error → ErrorKind
  | invalidLength | trailingBytes | unknownContentType _ | unsupportedVersion _ _
  | recordOverflow _ | handshakeOverflow _ | invalidAlert | invalidChangeCipherSpec
  | lengthOutOfRange => .framing
  | integrity _ | decryptionFailed | finishedMismatch | cipher _ => .crypto
  | unexpectedMessage _ | unknownHandshakeType _ => .sequence
  | unsupportedSuite _ | noSharedSuite | invalidCompression | certificateRejected _ => .negotiation
  | alertReceived _ _ => .alert
  | handshakeIncomplete | sessionFailed | invalidState _ | configuration _ | privateKey _
  | entropyExhausted | connectionClosed | transport _ | fieldOverflow _ => .local

/-- The fatal alert that reports a cause to the other end. Some causes have an alert of their own,
the others the one of their class; what happened on this end alone is not reported. -/
def alert? (error : Error) : Option AlertDescription :=
  match error with
  | unsupportedVersion _ _ => some .protocolVersion
  | recordOverflow _ => some .recordOverflow
  | finishedMismatch => some .decryptError
  | integrity _ => some .badRecordMac
  | decryptionFailed => some .decryptionFailed
  | cipher _ | entropyExhausted => some .internalError
  | _ =>
    match error.kind with
    | .framing => some .decodeError
    | .sequence => some .unexpectedMessage
    | .negotiation => some .handshakeFailure
    | _ => none

/-- A record whose protection does not hold, whatever is wrong with it. -/
def badRecordMac : Error := integrity "bad record mac"

/-- No record may be sent or accepted past the last sequence number. -/
def sequenceExhausted : Error := cipher "sequence number exhausted"

/-- A handshake message that its place in the handshake does not allow. -/
def outOfTurn : Error := unexpectedMessage "unexpected handshake message"

/-- A transcript slot filled before or after its turn. -/
def outOfOrder : Error := unexpectedMessage "handshake message out of order"

/-- Something that needs a running handshake, without one. -/
def noHandshake : Error := unexpectedMessage "no handshake in progress"

/-- Something that needs the master secret, before there is one. -/
def keysMissing : Error := unexpectedMessage "keys not yet derived"

/-- A change of cipher with no cipher to change to. -/
def changeBeforeKeys : Error := unexpectedMessage "change cipher spec before key exchange"

end Error

end TransportSecurity
