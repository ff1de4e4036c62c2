import TransportSecurity.Entropy.Basic
import TransportSecurity.Error
import TransportSecurity.Rsa.Key
import TransportSecurity.Rsa.Modular

/-!
RSA encryption of short messages.

A message is padded to the size of the modulus: two marking octets, at least eight random octets
that are not zero, a zero, and the message. `unpad?_pad` says that a padded message is found again.
A ciphertext is decrypted by the factors of the modulus; `root_mod_firstFactor` and
`root_mod_secondFactor` say what is found under each.
-/

namespace TransportSecurity.Rsa

/-- The octets that padding takes at least. -/
def minPadding : Nat := 11

/-- A message behind its padding. -/
def pad (filler message : Octets) : Octets := 0 :: 2 :: (filler ++ 0 :: message)

/-- The message behind padding that is in order. -/
def unpad? (padded : Octets) : Option Octets :=
  match padded with
  | first :: second :: rest =>
    let filler := rest.takeWhile (· ≠ 0)
    if first = 0 ∧ second = 2 ∧ 8 ≤ filler.length ∧ filler.length < rest.length then
      some (rest.drop (filler.length + 1))
    else none
  | _ => none

theorem takeWhile_append_zero (filler rest : Octets) (nonzero : ∀ octet ∈ filler, octet ≠ 0) :
    (filler ++ 0 :: rest).takeWhile (· ≠ 0) = filler := by
  induction filler with
  | nil => simp
  | cons octet filler ih =>
    have head : octet ≠ 0 := nonzero octet (List.mem_cons_self ..)
    have tail := ih fun o h => nonzero o (List.mem_cons_of_mem _ h)
    simpa [head] using tail

/-- Padding can be told from the message. -/
theorem unpad?_pad {filler message : Octets} (long : 8 ≤ filler.length)
    (nonzero : ∀ octet ∈ filler, octet ≠ 0) : unpad? (pad filler message) = some message := by
  have found := takeWhile_append_zero filler message nonzero
  simp only [unpad?, pad, found]
  simp [long]

section Encryption

variable {G : Type} [Entropy G]

/-- Replaces zeros, from left to right, by further octets drawn until one is not zero. -/
def fillZeros : Octets → G → Octets × G
  | [], source => ([], source)
  | octet :: rest, source =>
    let (octet, source) := if octet = 0 then Entropy.drawNonzero source else (octet, source)
    let (rest, source) := fillZeros rest source
    (octet :: rest, source)

/-- Encrypts a message that is at least `minPadding` shorter than the modulus. -/
def encrypt (key : PublicKey) (message : Octets) : EStateM Error G Octets := do
  if key.size < message.length + minPadding then throw (.cipher "RSA encryption failed")
  let (drawn, source) := Entropy.draw (key.size - 3 - message.length) (← get)
  let (filler, source) := fillZeros drawn.val source
  set source
  let padded := Octets.value (pad filler message)
  return Octets.bigEndian key.size (powMod padded key.exponent key.modulus)

end Encryption

namespace PrivateKey

/-- The number that a ciphertext's number comes from, found under each factor apart. Factors with a
common divisor cannot be joined, and then it is found under the modulus. -/
def root (key : PrivateKey) (c : Nat) : Nat :=
  let (p, q) := (key.firstFactor, key.secondFactor)
  if Nat.gcd p q = 1 then
    join p q (powMod c (key.exponent % (p - 1)) p) (powMod c (key.exponent % (q - 1)) q)
  else powMod c key.exponent key.publicKey.modulus

/-- Under its first factor a number is raised to what the exponent leaves for that factor. -/
theorem root_mod_firstFactor (key : PrivateKey) (c : Nat) (hp : 0 < key.firstFactor)
    (hq : 0 < key.secondFactor) (coprime : Nat.gcd key.firstFactor key.secondFactor = 1) :
    key.root c % key.firstFactor =
      c ^ (key.exponent % (key.firstFactor - 1)) % key.firstFactor := by
  simp only [root, coprime, if_true]
  rw [join_mod_left _ _ hp hq coprime, powMod_eq, Nat.mod_mod]

/-- Under its second factor likewise. -/
theorem root_mod_secondFactor (key : PrivateKey) (c : Nat) (hp : 0 < key.firstFactor)
    (hq : 0 < key.secondFactor) (coprime : Nat.gcd key.firstFactor key.secondFactor = 1) :
    key.root c % key.secondFactor =
      c ^ (key.exponent % (key.secondFactor - 1)) % key.secondFactor := by
  simp only [root, coprime, if_true]
  rw [join_mod_right _ _ hp hq, powMod_eq, Nat.mod_mod]

/-- The number that a ciphertext's number comes from, found without showing the ciphertext to those
who watch: it is multiplied by what another number encrypts to, and the result is divided by that
number. -/
def blindRoot (key : PrivateKey) (blind c : Nat) : Nat :=
  let modulus := key.publicKey.modulus
  let hidden := c * powMod blind key.publicKey.exponent modulus % modulus
  key.root hidden * inverse blind modulus % modulus

end PrivateKey

/-- The number that blinds: the one that is offered if it can be divided by, and else one. -/
def PublicKey.blind (key : PublicKey) (offered : Nat) : Nat :=
  if Nat.gcd offered key.modulus = 1 then offered else 1

/-- Decrypts a message, blinded by a number that is offered. The ciphertext may be of any length as
long as its number is below the modulus, and nothing is taken for decrypted that does not encrypt
back. With factors that are not prime it may depend on the number offered whether that is so. -/
def decrypt? (key : PrivateKey) (offered : Nat) (ciphertext : Octets) : Option Octets :=
  let modulus := key.publicKey.modulus
  let c := Octets.value ciphertext
  if c < modulus ∧ minPadding ≤ key.publicKey.size then
    let m := key.blindRoot (key.publicKey.blind offered) c
    if powMod m key.publicKey.exponent modulus = c then
      unpad? (Octets.bigEndian key.publicKey.size m)
    else none
  else none

end TransportSecurity.Rsa
