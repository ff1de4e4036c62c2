import TransportSecurity.Digest.Running
import TransportSecurity.Digest.Words

/-!
SHA-1, for the suites that still ask for it. Every digest is 20 octets (`length_sha1`).
-/

namespace TransportSecurity

namespace Sha1

open Words

/-- The five words that a block is mixed into. -/
structure State where
  (a b c d e : UInt32)

/-- What a stretch of twenty rounds does alike: how it joins three words, and its constant. -/
structure Stretch where
  join : UInt32 → UInt32 → UInt32 → UInt32
  constant : UInt32

/-- The four stretches of twenty rounds. -/
def stretches : List Stretch :=
  List.replicate 20 ⟨choice, 0x5a827999⟩ ++ List.replicate 20 ⟨parity, 0x6ed9eba1⟩ ++
    List.replicate 20 ⟨majority, 0x8f1bbcdc⟩ ++ List.replicate 20 ⟨parity, 0xca62c1d6⟩

def start : State := ⟨0x67452301, 0xefcdab89, 0x98badcfe, 0x10325476, 0xc3d2e1f0⟩

/-- The word that follows sixteen words of a block. -/
def nextWord (window : List UInt32) : UInt32 :=
  turnLeft (window.getD 13 0 ^^^ window.getD 8 0 ^^^ window.getD 2 0 ^^^ window.getD 0 0) 1

/-- One round, with its stretch and the block's word of that round. -/
def round (s : State) (term : Stretch × UInt32) : State :=
  ⟨turnLeft s.a 5 + term.1.join s.b s.c s.d + s.e + term.1.constant + term.2, s.a,
    turnLeft s.b 30, s.c, s.d⟩

/-- Mixes a block in: 80 rounds, and the words before them added. -/
def mix (s : State) (block : Octets) : State :=
  let r := (stretches.zip (expand nextWord 64 (ofOctets block))).foldl round s
  ⟨s.a + r.a, s.b + r.b, s.c + r.c, s.d + r.d, s.e + r.e⟩

/-- The octets of the five words. -/
def output (s : State) : Octets :=
  octets s.a ++ octets s.b ++ octets s.c ++ octets s.d ++ octets s.e

end Sha1

/-- SHA-1 as a block digest. -/
def sha1 : BlockDigest Sha1.State := ⟨Sha1.start, Sha1.mix, Sha1.output⟩

theorem length_finish_sha1 (running : Running Sha1.State) : (sha1.finish running).length = 20 := rfl

theorem length_sha1 (octets : Octets) : (sha1.hash octets).length = 20 := rfl

end TransportSecurity
