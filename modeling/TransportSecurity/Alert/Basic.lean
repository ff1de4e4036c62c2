/-!
Alerts: the two octets by which one end tells the other what went wrong, or that it is done.

Levels and descriptions are closed lists of codes; a code outside them names nothing
(`ofCode?_eq_some_iff`).
-/

namespace TransportSecurity

/-- How serious an alert is. -/
inductive AlertLevel where | warning | fatal
  deriving DecidableEq, Repr

/-- What an alert is about. -/
inductive AlertDescription where
  | closeNotify | unexpectedMessage | badRecordMac | decryptionFailed | recordOverflow
  | decompressionFailure | handshakeFailure | noCertificate | badCertificate
  | unsupportedCertificate | certificateRevoked | certificateExpired | certificateUnknown
  | illegalParameter | unknownAuthority | accessDenied | decodeError | decryptError
  | exportRestriction | protocolVersion | insufficientSecurity | internalError | userCanceled
  | noRenegotiation | unsupportedExtension
  deriving DecidableEq, Repr

namespace AlertLevel

/-- The octet that stands for a level. -/
def code : AlertLevel → UInt8
  | .warning => 1
  | .fatal => 2

/-- Every level. -/
def all : List AlertLevel := [.warning, .fatal]

/-- The level an octet stands for. -/
def ofCode? (code : UInt8) : Option AlertLevel := all.find? (·.code = code)

/-- The name by which messages mention a level. -/
def name : AlertLevel → String
  | .warning => "Warning"
  | .fatal => "Fatal"

theorem ofCode?_eq_some_iff {code : UInt8} {level : AlertLevel} :
    ofCode? code = some level ↔ level.code = code := by
  constructor
  · intro h
    simpa using List.find?_some h
  · rintro rfl
    cases level <;> rfl

end AlertLevel

namespace AlertDescription

/-- The octet that stands for a description. -/
def code : AlertDescription → UInt8
  | .closeNotify => 0
  | .unexpectedMessage => 10
  | .badRecordMac => 20
  | .decryptionFailed => 21
  | .recordOverflow => 22
  | .decompressionFailure => 30
  | .handshakeFailure => 40
  | .noCertificate => 41
  | .badCertificate => 42
  | .unsupportedCertificate => 43
  | .certificateRevoked => 44
  | .certificateExpired => 45
  | .certificateUnknown => 46
  | .illegalParameter => 47
  | .unknownAuthority => 48
  | .accessDenied => 49
  | .decodeError => 50
  | .decryptError => 51
  | .exportRestriction => 60
  | .protocolVersion => 70
  | .insufficientSecurity => 71
  | .internalError => 80
  | .userCanceled => 90
  | .noRenegotiation => 100
  | .unsupportedExtension => 110

/-- Every description, in the order of their codes. -/
def all : List AlertDescription :=
  [.closeNotify, .unexpectedMessage, .badRecordMac, .decryptionFailed, .recordOverflow,
    .decompressionFailure, .handshakeFailure, .noCertificate, .badCertificate,
    .unsupportedCertificate, .certificateRevoked, .certificateExpired, .certificateUnknown,
    .illegalParameter, .unknownAuthority, .accessDenied, .decodeError, .decryptError,
    .exportRestriction, .protocolVersion, .insufficientSecurity, .internalError, .userCanceled,
    .noRenegotiation, .unsupportedExtension]

/-- The description an octet stands for. -/
def ofCode? (code : UInt8) : Option AlertDescription := all.find? (·.code = code)

/-- The name by which messages mention a description; the three codes that must no longer be sent
are marked as reserved. -/
def name : AlertDescription → String
  | .closeNotify => "CloseNotify"
  | .unexpectedMessage => "UnexpectedMessage"
  | .badRecordMac => "BadRecordMac"
  | .decryptionFailed => "DecryptionFailedRESERVED"
  | .recordOverflow => "RecordOverflow"
  | .decompressionFailure => "DecompressionFailure"
  | .handshakeFailure => "HandshakeFailure"
  | .noCertificate => "NoCertificateRESERVED"
  | .badCertificate => "BadCertificate"
  | .unsupportedCertificate => "UnsupportedCertificate"
  | .certificateRevoked => "CertificateRevoked"
  | .certificateExpired => "CertificateExpired"
  | .certificateUnknown => "CertificateUnknown"
  | .illegalParameter => "IllegalParameter"
  | .unknownAuthority => "UnknownCa"
  | .accessDenied => "AccessDenied"
  | .decodeError => "DecodeError"
  | .decryptError => "DecryptError"
  | .exportRestriction => "ExportRestrictionRESERVED"
  | .protocolVersion => "ProtocolVersion"
  | .insufficientSecurity => "InsufficientSecurity"
  | .internalError => "InternalError"
  | .userCanceled => "UserCanceled"
  | .noRenegotiation => "NoRenegotiation"
  | .unsupportedExtension => "UnsupportedExtension"

theorem ofCode?_eq_some_iff {code : UInt8} {description : AlertDescription} :
    ofCode? code = some description ↔ description.code = code := by
  constructor
  · intro h
    simpa using List.find?_some h
  · rintro rfl
    cases description <;> rfl

end AlertDescription

/-- A level and what the alert is about. -/
structure Alert where
  level : AlertLevel
  description : AlertDescription
  deriving DecidableEq, Repr

namespace Alert

/-- The alert that ends a session because of an error. -/
def fatal (description : AlertDescription) : Alert := ⟨.fatal, description⟩

/-- The alert that says no more data will follow. -/
def closeNotify : Alert := ⟨.warning, .closeNotify⟩

end Alert

end TransportSecurity
