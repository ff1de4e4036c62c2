import TransportSecurity.Alert.Basic
import TransportSecurity.Bytes.Scan

/-!
The two octets of an alert.
-/

namespace TransportSecurity.Alert

/-- An alert as it is sent. -/
def encode (alert : Alert) : Octets := [alert.level.code, alert.description.code]

/-- Reads an alert; a level or description that is not on the lists is refused. -/
def scan : Scan Alert := do
  let some level := AlertLevel.ofCode? (← Scan.octet) | throw .invalidAlert
  let some description := AlertDescription.ofCode? (← Scan.octet) | throw .invalidAlert
  return ⟨level, description⟩

end TransportSecurity.Alert
