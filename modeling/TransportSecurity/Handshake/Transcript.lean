import TransportSecurity.Error
import TransportSecurity.KeySchedule

/-!
The transcript: the handshake messages so far, as they were sent or received.

It has a slot for each message that a Finished message vouches for, and the slots are filled in
order. So the number of messages says which slots are filled, and `record` needs no more than that.
-/

namespace TransportSecurity

/-- The messages that a Finished message vouches for. -/
inductive Slot where
  | clientHello | serverHello | serverCertificate | serverHelloDone | clientKeyExchange
  | clientFinished
  deriving DecidableEq, Repr

/-- The slots in the order of the protocol. -/
def Slot.all : List Slot :=
  [.clientHello, .serverHello, .serverCertificate, .serverHelloDone, .clientKeyExchange,
    .clientFinished]

/-- The messages in the slots filled so far. -/
structure Transcript where
  messages : List Octets
  deriving DecidableEq

namespace Transcript

/-- No message yet. -/
def empty : Transcript := ⟨[]⟩

/-- Fills a slot, which must be the next one. -/
def record (transcript : Transcript) (slot : Slot) (message : Octets) : Except Error Transcript :=
  if Slot.all[transcript.messages.length]? = some slot then
    .ok ⟨transcript.messages ++ [message]⟩
  else .error .outOfOrder

/-- The digest of all messages, taken in one after the other. -/
def hash (transcript : Transcript) : Octets :=
  sha256.finish (transcript.messages.foldl sha256.absorb sha256.begin)

theorem foldl_absorb (messages : List Octets) (running : Running Sha256.State) (first : Octets) :
    messages.foldl sha256.absorb (sha256.absorb running first) =
      sha256.absorb running (first ++ messages.flatten) := by
  induction messages generalizing first with
  | nil => simp
  | cons message messages ih =>
    rw [List.foldl_cons, ← BlockDigest.absorb_append, ih, List.flatten_cons, List.append_assoc]

/-- The digest of a transcript is the digest of its messages in a row. -/
theorem hash_eq (transcript : Transcript) :
    transcript.hash = KeySchedule.handshakeHash transcript.messages.flatten := by
  have begun : sha256.absorb sha256.begin [] = sha256.begin := by
    simp [BlockDigest.absorb, BlockDigest.begin, BlockDigest.mixBlocks, BlockDigest.blockLength]
  rw [hash, ← begun, foldl_absorb, List.nil_append, KeySchedule.handshakeHash, BlockDigest.hash]

end Transcript

end TransportSecurity
