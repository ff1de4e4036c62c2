import Mathlib.Data.Finite.Prod
import TransportSecurity.BlockCipher.Chaining
import TransportSecurity.Proofs.Success

/-!
Encryption inverts decryption as well.

That decryption gives back what was encrypted makes encryption one-to-one, and there are only
finitely many blocks, so every block is some block's encryption (`encrypt_decrypt`). Hence a string
of whole blocks is decrypted by one plaintext only, the one that it is the encryption of
(`decryptOctets_eq_ok`).
-/

namespace TransportSecurity.Aes

instance finiteOctet : Finite UInt8 := Finite.of_injective UInt8.toFin fun _ _ => UInt8.toFin_inj.mp

instance finiteColumn : Finite Column :=
  Finite.of_injective (fun x : Column => (x.a, x.b, x.c, x.d)) fun x y same => by
    cases x
    cases y
    simpa using same

instance finiteBlock : Finite Block :=
  Finite.of_injective (fun x : Block => (x.first, x.second, x.third, x.fourth)) fun x y same => by
    cases x
    cases y
    simpa using same

variable {key start plaintext ciphertext : Octets}

/-- Under any round keys encryption gives back what was decrypted. -/
theorem encrypt_decrypt (keys : RoundKeys) (x : Block) : encrypt keys (decrypt keys x) = x := by
  have injective : Function.Injective (encrypt keys) :=
    Function.LeftInverse.injective (decrypt_encrypt keys)
  obtain ⟨plain, rfl⟩ := Finite.surjective_of_injective injective x
  rw [decrypt_encrypt]

theorem encryptBlocks_decryptBlocks (keys : RoundKeys) (previous : Block) (blocks : List Block) :
    encryptBlocks keys previous (decryptBlocks keys previous blocks) = blocks := by
  induction blocks generalizing previous with
  | nil => rfl
  | cons cipher rest ih =>
    simp only [decryptBlocks, encryptBlocks, Block.add_add, encrypt_decrypt, ih]

theorem length_decryptBlocks (keys : RoundKeys) (previous : Block) (blocks : List Block) :
    (decryptBlocks keys previous blocks).length = blocks.length := by
  induction blocks generalizing previous with
  | nil => rfl
  | cons cipher rest ih => rw [decryptBlocks, List.length_cons, List.length_cons, ih]

/-- A plaintext decrypts from the octets that it encrypts to, and from no others. -/
theorem decryptOctets_eq_ok : decryptOctets key start ciphertext = .ok plaintext ↔
    encryptOctets key start plaintext = .ok ciphertext := by
  constructor
  · intro decrypted
    simp only [decryptOctets, except_bind_eq_ok, except_ite_eq_ok, except_throw_eq_ok, false_and,
      exists_false, and_false, false_or, Decidable.not_not, except_pure_eq_ok] at decrypted
    obtain ⟨⟨keys, previous⟩, ready, whole, rfl⟩ := decrypted
    have length : (octetsOf (decryptBlocks keys previous (blocksOf ciphertext))).length =
        ciphertext.length := by
      rw [length_octetsOf, length_decryptBlocks, length_blocksOf whole]
    rw [encryptOctets, if_neg (by rw [length]; exact Decidable.not_not.mpr whole), ready]
    refine congrArg Except.ok ?_
    rw [blocksOf_octetsOf, encryptBlocks_decryptBlocks, octetsOf_blocksOf whole]
  · exact fun encrypted => (decryptOctets_encryptOctets encrypted).1

end TransportSecurity.Aes
