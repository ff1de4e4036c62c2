import TransportSecurity.Bytes.Basic
import TransportSecurity.Error

/-!
The announcement that records from now on are protected: a payload of one octet.
-/

namespace TransportSecurity.ChangeCipherSpec

/-- The only payload there is. -/
def payload : Octets := [1]

/-- Fails for any other payload. -/
def check (received : Octets) : Except Error Unit :=
  if received = payload then .ok () else .error .invalidChangeCipherSpec

end TransportSecurity.ChangeCipherSpec
