import TransportSecurity.KeySchedule
import TransportSecurity.Message.Body

/-!
The messages after the hellos: certificates, the end of the server's flight, the encrypted
pre-master secret, and the proof that ends the handshake.
-/

namespace TransportSecurity

/-- A chain of certificates, the sender's own first. -/
structure Certificates where
  list : List Octets
  deriving DecidableEq

namespace Certificates

/-- Certificates in a row, each with its length in three octets. -/
def writeEntries : List Octets → Except Error Octets
  | [] => return []
  | certificate :: rest => return (← Field.sized24 certificate) ++ (← writeEntries rest)

/-- The certificates in a row of entries; an entry may not be empty. -/
def readEntries : Octets → Except Error (List Octets)
  | [] => return []
  | a :: b :: c :: rest =>
    let length := Octets.value [a, b, c]
    let certificate := rest.take length
    if certificate.length < length ∨ length = 0 then .error .invalidLength
    else return certificate :: (← readEntries (rest.drop length))
  | _ => .error .invalidLength
termination_by octets => octets.length
decreasing_by
  simp only [List.length_drop, List.length_cons]
  omega

/-- The octets of the entries of a chain. -/
def entriesLength : List Octets → Nat
  | [] => 0
  | certificate :: list => 3 + certificate.length + entriesLength list

/-- What the length prefixes leave room for: no entry is empty, and the body fits a message. -/
structure WellFormed (certificates : Certificates) : Prop where
  nonempty : ∀ certificate ∈ certificates.list, certificate ≠ []
  fits : 3 + entriesLength certificates.list < 2 ^ 24

instance : Body Certificates where
  type := .certificates
  write certificates :=
    return (← Field.triple (entriesLength certificates.list)) ++ (← writeEntries certificates.list)
  scan := do return ⟨← ofExcept (readEntries (← Scan.sized 3))⟩

end Certificates

/-- The end of the server's first flight. -/
structure ServerHelloDone where
  deriving DecidableEq

instance : Body ServerHelloDone where
  type := .serverHelloDone
  write _ := return []
  scan := return {}

/-- The pre-master secret, encrypted for the server. -/
structure ClientKeyExchange where
  encrypted : Octets
  deriving DecidableEq

namespace ClientKeyExchange

/-- What the length prefix leaves room for. -/
def WellFormed (exchange : ClientKeyExchange) : Prop := exchange.encrypted.length ≤ 65535

instance : Body ClientKeyExchange where
  type := .clientKeyExchange
  write exchange := return Field.sized16 exchange.encrypted
  scan := return ⟨← Scan.sized 2⟩

end ClientKeyExchange

/-- The proof that its sender saw the same handshake. -/
structure Finished where
  verifyData : Octets
  deriving DecidableEq

namespace Finished

/-- A proof has one length. -/
def WellFormed (finished : Finished) : Prop :=
  finished.verifyData.length = KeySchedule.verifyLength

instance : Body Finished where
  type := .finished
  write finished := return finished.verifyData
  scan := return ⟨← Scan.take KeySchedule.verifyLength⟩

end Finished

end TransportSecurity
