import TransportSecurity.Digest.Hmac

/-!
The key schedule: from a shared secret to the keys of both directions.

`expand` is the pseudorandom function of the protocol. Each secret is cut from its output under a
label of its own: the master secret, the block that all record keys are sliced from, and the proof
that a Finished message carries.
-/

namespace TransportSecurity

/-- One of the two ends of a connection. -/
inductive End where | client | server
  deriving DecidableEq, Repr

/-- The other end. -/
def End.peer : End → End
  | .client => .server
  | .server => .client

/-- The keys that protect one direction. -/
structure WriteKeys where
  mac : MacAlgorithm
  macKey : Octets
  cipherKey : Octets
  deriving DecidableEq, Repr

/-- The keys of both directions. -/
structure KeyBlock where
  mac : MacAlgorithm
  clientMacKey : Octets
  serverMacKey : Octets
  clientCipherKey : Octets
  serverCipherKey : Octets
  deriving DecidableEq, Repr

namespace KeySchedule

/-- The octets in a pre-master secret. -/
def preMasterLength : Nat := 48

/-- The octets in a master secret. -/
def masterLength : Nat := 48

/-- The octets expanded for a key block, enough for every suite. -/
def keyBlockLength : Nat := 256

/-- The octets in the proof of a Finished message. -/
def verifyLength : Nat := 12

/-- The octets of a text of ASCII characters. -/
def ascii (text : String) : Octets := text.toList.map fun c => UInt8.ofNat c.toNat

def masterLabel : Octets := ascii "master secret"
def keyBlockLabel : Octets := ascii "key expansion"

/-- The label of the proof that an end sends in its Finished message. -/
def finishedLabel : End → Octets
  | .client => ascii "client finished"
  | .server => ascii "server finished"

/-- `n` tags of the seed in a row, each behind a chain value that is the tag of the one before. -/
def expandBlocks (secret seed : Octets) : Nat → Octets → Octets
  | 0, _ => []
  | n + 1, link =>
    sha256.tagOfTwo secret link seed ++ expandBlocks secret seed n (sha256.tag secret link)

/-- `length` octets expanded from a secret and a seed. -/
def expandSeed (secret seed : Octets) (length : Nat) : Octets :=
  (expandBlocks secret seed ((length + 31) / 32) (sha256.tag secret seed)).take length

/-- `length` octets expanded from a secret, a label and a seed. -/
def expand (secret label seed : Octets) (length : Nat) : Octets :=
  expandSeed secret (label ++ seed) length

/-- The master secret of a pre-master secret and the randoms of both hellos. -/
def master (preMaster clientRandom serverRandom : Octets) : Octets :=
  expand preMaster masterLabel (clientRandom ++ serverRandom) masterLength

/-- The octets that the record keys are sliced from. -/
def keyMaterial (master serverRandom clientRandom : Octets) : Octets :=
  expand master keyBlockLabel (serverRandom ++ clientRandom) keyBlockLength

/-- The digest of handshake messages. -/
def handshakeHash (messages : Octets) : Octets := sha256.hash messages

/-- The proof that its sender saw the handshake with this hash and knows the master secret. -/
def verifyData (label handshakeHash master : Octets) : Octets :=
  expand master label handshakeHash verifyLength

theorem length_expandBlocks (secret seed : Octets) (n : Nat) (link : Octets) :
    (expandBlocks secret seed n link).length = 32 * n := by
  induction n generalizing link with
  | zero => rfl
  | succ n ih =>
    have tag : (sha256.tagOfTwo secret link seed).length = 32 := length_sha256 _
    rw [expandBlocks, List.length_append, ih, tag, Nat.mul_succ, Nat.add_comm]

@[simp] theorem length_expandSeed (secret seed : Octets) (length : Nat) :
    (expandSeed secret seed length).length = length := by
  rw [expandSeed, List.length_take, length_expandBlocks]
  omega

@[simp] theorem length_expand (secret label seed : Octets) (length : Nat) :
    (expand secret label seed length).length = length := length_expandSeed ..

end KeySchedule

namespace WriteKeys

/-- The length of a tag under these keys. -/
def macLength (keys : WriteKeys) : Nat := keys.mac.length

end WriteKeys

namespace KeyBlock

/-- Slices key material in its fixed order: the keys of the two digests, then those of the two
ciphers, the client's before the server's. -/
def ofMaterial (parameters : SuiteParameters) (material : Octets) : Except Error KeyBlock :=
  if material.length < parameters.keyMaterialLength then .error (.cipher "key block too short")
  else
    let afterClientMac := material.drop parameters.macKeyLength
    let afterMacs := afterClientMac.drop parameters.macKeyLength
    .ok {
      mac := parameters.mac
      clientMacKey := material.take parameters.macKeyLength
      serverMacKey := afterClientMac.take parameters.macKeyLength
      clientCipherKey := afterMacs.take parameters.cipherKeyLength
      serverCipherKey := (afterMacs.drop parameters.cipherKeyLength).take parameters.cipherKeyLength
    }

/-- The key block of a master secret and the randoms of both hellos. -/
def derive (parameters : SuiteParameters) (master serverRandom clientRandom : Octets) :
    Except Error KeyBlock :=
  ofMaterial parameters (KeySchedule.keyMaterial master serverRandom clientRandom)

/-- The keys under which an end sends. -/
def writer (block : KeyBlock) : End → WriteKeys
  | .client => ⟨block.mac, block.clientMacKey, block.clientCipherKey⟩
  | .server => ⟨block.mac, block.serverMacKey, block.serverCipherKey⟩

/-- All keys in the order in which they were sliced. -/
def octets (block : KeyBlock) : Octets :=
  block.clientMacKey ++ block.serverMacKey ++ block.clientCipherKey ++ block.serverCipherKey

end KeyBlock

end TransportSecurity
