import TransportSecurity.Digest.Sha1
import TransportSecurity.Digest.Sha256
import TransportSecurity.Suite

/-!
Keyed digests: a digest of the message under an inner pad of the key, digested again under an outer
pad.

As with plain digests the message may come in pieces: `tagOfTwo_eq` says that a tag over two pieces
is the tag over both together.
-/

namespace TransportSecurity

namespace BlockDigest

variable {State : Type} (digest : BlockDigest State)

/-- A key brought to the length of a block: digested first if it is longer, then filled with
zeros. -/
def blockKey (key : Octets) : Octets :=
  let short := if key.length ≤ blockLength then key else digest.hash key
  short ++ List.replicate (blockLength - short.length) 0

/-- The inner digest of a message still to come. -/
def beginKeyed (key : Octets) : Running State :=
  digest.absorb digest.begin ((digest.blockKey key).map (· ^^^ 0x36))

/-- The tag, from the inner digest of the whole message. -/
def finishKeyed (key : Octets) (inner : Running State) : Octets :=
  digest.hash ((digest.blockKey key).map (· ^^^ 0x5c) ++ digest.finish inner)

/-- The tag of a message. -/
def tag (key message : Octets) : Octets :=
  digest.finishKeyed key (digest.absorb (digest.beginKeyed key) message)

/-- The tag of a message that comes in two pieces. -/
def tagOfTwo (key front back : Octets) : Octets :=
  digest.finishKeyed key (digest.absorb (digest.absorb (digest.beginKeyed key) front) back)

theorem tagOfTwo_eq (key front back : Octets) :
    digest.tagOfTwo key front back = digest.tag key (front ++ back) := by
  rw [tagOfTwo, tag, absorb_append]

end BlockDigest

namespace MacAlgorithm

/-- The tag of a message under a key. -/
def tag : MacAlgorithm → Octets → Octets → Octets
  | .hmacSha1 => sha1.tag
  | .hmacSha256 => sha256.tag

/-- The tag of a message that comes in two pieces. -/
def tagOfTwo : MacAlgorithm → Octets → Octets → Octets → Octets
  | .hmacSha1 => sha1.tagOfTwo
  | .hmacSha256 => sha256.tagOfTwo

theorem tagOfTwo_eq (mac : MacAlgorithm) (key front back : Octets) :
    mac.tagOfTwo key front back = mac.tag key (front ++ back) := by
  cases mac
  · exact sha1.tagOfTwo_eq key front back
  · exact sha256.tagOfTwo_eq key front back

@[simp] theorem length_tag (mac : MacAlgorithm) (key message : Octets) :
    (mac.tag key message).length = mac.length := by
  cases mac <;> rfl

end MacAlgorithm

end TransportSecurity
