import TransportSecurity.Certificate.PublicKey
import TransportSecurity.Error
import TransportSecurity.KeySchedule
import TransportSecurity.Message.Exchange
import TransportSecurity.Record.Header
import TransportSecurity.Rsa.Encryption

/-!
Who a server is: its certificate, the chain behind it, and the private key that goes with it.

An `Identity` is made by `Identity.ofDer`, which checks that key and certificate belong together.
`decryptPreMaster` fails in one way only, so that its caller learns nothing from a bad ciphertext.
-/

namespace TransportSecurity

namespace Certificate

/-- The octets of the public key in a certificate. -/
def publicKey (certificate : Octets) : Except Error Octets :=
  match publicKey? certificate with
  | some key => .ok key
  | none => .error (.certificateRejected "malformed certificate")

/-- The public key in a certificate, as octets and as an RSA key. -/
def rsaKey (certificate : Octets) : Except Error (Octets × Rsa.PublicKey) := do
  let octets ← publicKey certificate
  match Rsa.PublicKey.ofDer? octets with
  | some key => return (octets, key)
  | none => throw (.certificateRejected "certificate key is not RSA")

end Certificate

/-- A certificate, the chain behind it, the octets of its public key, and the private key. The number
that is offered to blind each ciphertext, `blinding`, is outside the control of both ends. -/
structure Identity where
  certificate : Octets
  chain : List Octets
  publicKey : Octets
  privateKey : Rsa.PrivateKey
  blinding : Octets → Nat

namespace Identity

/-- The most octets that the entries of a certificate list may take. -/
def maxListLength : Nat := 0xffffff

/-- The certificate and the chain behind it, in the order in which they are sent. -/
def certificateList (identity : Identity) : List Octets := identity.certificate :: identity.chain

/-- Fails if the certificates take too many octets. -/
def checkLength (identity : Identity) : Except Error Unit :=
  if Certificates.entriesLength identity.certificateList ≤ maxListLength ∧
      identity.certificate.length ≤ maxListLength then .ok ()
  else .error (.configuration "certificate chain too long")

/-- The identity of a certificate and the private key that belongs to it, bare or wrapped. -/
def ofDer (certificate key : Octets) (blinding : Octets → Nat := fun _ => 2) :
    Except Error Identity := do
  let (publicKey, rsaKey) ← Certificate.rsaKey certificate
  let some privateKey := Rsa.PrivateKey.ofDer? key
    | throw (.privateKey "key is neither PKCS#1 nor PKCS#8 RSA DER")
  if privateKey.publicKey ≠ rsaKey then throw (.privateKey "key does not match certificate")
  let identity : Identity := ⟨certificate, [], publicKey, privateKey, blinding⟩
  identity.checkLength
  return identity

/-- The identity with a chain behind its certificate. -/
def withChain (identity : Identity) (chain : List Octets) : Except Error Identity := do
  if chain.any List.isEmpty then throw (.configuration "empty certificate in chain")
  let identity := { identity with chain }
  identity.checkLength
  return identity

/-- The pre-master secret in a client's key exchange. A ciphertext that does not decrypt, and one
that decrypts to something else, fail alike. -/
def decryptPreMaster (identity : Identity) (ciphertext : Octets) : Except Error Octets :=
  match Rsa.decrypt? identity.privateKey (identity.blinding ciphertext) ciphertext with
  | some secret =>
    if secret.length = KeySchedule.preMasterLength ∧ secret.take 2 = Version.current.encode then
      .ok secret
    else .error .decryptionFailed
  | none => .error .decryptionFailed

end Identity

end TransportSecurity
