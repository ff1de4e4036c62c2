import TransportSecurity.Digest.Running
import TransportSecurity.Digest.Words

/-!
SHA-256. Every digest is 32 octets (`length_sha256`).
-/

namespace TransportSecurity

namespace Sha256

open Words

/-- The eight words that a block is mixed into. -/
structure State where
  (a b c d e f g h : UInt32)

/-- The first 32 bits of the fractions of the cube roots of the first 64 primes. -/
def roundConstants : List UInt32 :=
  [0x428a2f98, 0x71374491, 0xb5c0fbcf, 0xe9b5dba5, 0x3956c25b, 0x59f111f1,
    0x923f82a4, 0xab1c5ed5, 0xd807aa98, 0x12835b01, 0x243185be, 0x550c7dc3,
    0x72be5d74, 0x80deb1fe, 0x9bdc06a7, 0xc19bf174, 0xe49b69c1, 0xefbe4786,
    0x0fc19dc6, 0x240ca1cc, 0x2de92c6f, 0x4a7484aa, 0x5cb0a9dc, 0x76f988da,
    0x983e5152, 0xa831c66d, 0xb00327c8, 0xbf597fc7, 0xc6e00bf3, 0xd5a79147,
    0x06ca6351, 0x14292967, 0x27b70a85, 0x2e1b2138, 0x4d2c6dfc, 0x53380d13,
    0x650a7354, 0x766a0abb, 0x81c2c92e, 0x92722c85, 0xa2bfe8a1, 0xa81a664b,
    0xc24b8b70, 0xc76c51a3, 0xd192e819, 0xd6990624, 0xf40e3585, 0x106aa070,
    0x19a4c116, 0x1e376c08, 0x2748774c, 0x34b0bcb5, 0x391c0cb3, 0x4ed8aa4a,
    0x5b9cca4f, 0x682e6ff3, 0x748f82ee, 0x78a5636f, 0x84c87814, 0x8cc70208,
    0x90befffa, 0xa4506ceb, 0xbef9a3f7, 0xc67178f2]

/-- The first 32 bits of the fractions of the square roots of the first eight primes. -/
def start : State :=
  ⟨0x6a09e667, 0xbb67ae85, 0x3c6ef372, 0xa54ff53a, 0x510e527f, 0x9b05688c, 0x1f83d9ab, 0x5be0cd19⟩

/-- The word that follows sixteen words of a block. -/
def nextWord (window : List UInt32) : UInt32 :=
  let far := window.getD 1 0
  let near := window.getD 14 0
  (turnRight near 17 ^^^ turnRight near 19 ^^^ near >>> 10) + window.getD 9 0 +
    (turnRight far 7 ^^^ turnRight far 18 ^^^ far >>> 3) + window.getD 0 0

/-- One round, with the constant and the block's word of that round. -/
def round (s : State) (term : UInt32 × UInt32) : State :=
  let heavy := s.h + (turnRight s.e 6 ^^^ turnRight s.e 11 ^^^ turnRight s.e 25) +
    choice s.e s.f s.g + term.1 + term.2
  let light := (turnRight s.a 2 ^^^ turnRight s.a 13 ^^^ turnRight s.a 22) + majority s.a s.b s.c
  ⟨heavy + light, s.a, s.b, s.c, s.d + heavy, s.e, s.f, s.g⟩

/-- Mixes a block in: 64 rounds, and the words before them added. -/
def mix (s : State) (block : Octets) : State :=
  let r := (roundConstants.zip (expand nextWord 48 (ofOctets block))).foldl round s
  ⟨s.a + r.a, s.b + r.b, s.c + r.c, s.d + r.d, s.e + r.e, s.f + r.f, s.g + r.g, s.h + r.h⟩

/-- The octets of the eight words. -/
def output (s : State) : Octets :=
  octets s.a ++ octets s.b ++ octets s.c ++ octets s.d ++ octets s.e ++ octets s.f ++ octets s.g ++
    octets s.h

end Sha256

/-- SHA-256 as a block digest. -/
def sha256 : BlockDigest Sha256.State := ⟨Sha256.start, Sha256.mix, Sha256.output⟩

theorem length_finish_sha256 (running : Running Sha256.State) :
    (sha256.finish running).length = 32 := rfl

theorem length_sha256 (octets : Octets) : (sha256.hash octets).length = 32 := rfl

end TransportSecurity
