import TransportSecurity.BlockCipher.Aes
import TransportSecurity.Error

/-!
AES over strings of whole blocks, each block added to the ciphertext block before it.

`decryptOctets_encryptOctets` says that decryption inverts encryption under every key and starting
block of the right lengths.
-/

namespace TransportSecurity.Aes

/-- Encrypts blocks in a row, the first added to `previous`. -/
def encryptBlocks (keys : RoundKeys) (previous : Block) : List Block → List Block
  | [] => []
  | plain :: rest =>
    let cipher := encrypt keys (plain.add previous)
    cipher :: encryptBlocks keys cipher rest

/-- Decrypts blocks in a row. -/
def decryptBlocks (keys : RoundKeys) (previous : Block) : List Block → List Block
  | [] => []
  | cipher :: rest => (decrypt keys cipher).add previous :: decryptBlocks keys cipher rest

/-- The blocks of a string; octets short of a block at the end are left out. -/
def blocksOf : Octets → List Block
  | a :: b :: c :: d :: e :: f :: g :: h :: i :: j :: k :: l :: m :: n :: o :: p :: rest =>
    ⟨⟨a, b, c, d⟩, ⟨e, f, g, h⟩, ⟨i, j, k, l⟩, ⟨m, n, o, p⟩⟩ :: blocksOf rest
  | _ => []

/-- The octets of blocks in a row. -/
def octetsOf (blocks : List Block) : Octets := blocks.flatMap Block.octets

/-- The round keys and the starting block, if key and starting block have the right lengths. -/
def setUp (key start : Octets) : Except Error (RoundKeys × Block) :=
  if key.length = 16 ∨ key.length = 32 then
    if start.length = blockLength then .ok (RoundKeys.ofKey key, Block.ofOctets start)
    else .error (.cipher "invalid key or iv length")
  else .error (.cipher "invalid key length")

/-- Encrypts a string of whole blocks. -/
def encryptOctets (key start plaintext : Octets) : Except Error Octets := do
  if plaintext.length % blockLength ≠ 0 then throw (.cipher "plaintext is not block aligned")
  let (keys, previous) ← setUp key start
  return octetsOf (encryptBlocks keys previous (blocksOf plaintext))

/-- Decrypts a string of whole blocks. -/
def decryptOctets (key start ciphertext : Octets) : Except Error Octets := do
  let (keys, previous) ← setUp key start
  if ciphertext.length % blockLength ≠ 0 then throw .badRecordMac
  return octetsOf (decryptBlocks keys previous (blocksOf ciphertext))

/-- Whole blocks are encrypted if the key and the starting block have the right lengths. -/
theorem encryptOctets_eq_ok {key start plaintext : Octets}
    (usable : key.length = 16 ∨ key.length = 32) (block : start.length = blockLength)
    (whole : plaintext.length % blockLength = 0) :
    ∃ ciphertext, encryptOctets key start plaintext = .ok ciphertext := by
  have ready : setUp key start = .ok (RoundKeys.ofKey key, Block.ofOctets start) := by
    rw [setUp, if_pos usable, if_pos block]
  refine ⟨octetsOf (encryptBlocks (RoundKeys.ofKey key) (Block.ofOctets start)
    (blocksOf plaintext)), ?_⟩
  rw [encryptOctets, if_neg (Decidable.not_not.mpr whole), ready]
  rfl

theorem decryptBlocks_encryptBlocks (keys : RoundKeys) (previous : Block) (blocks : List Block) :
    decryptBlocks keys previous (encryptBlocks keys previous blocks) = blocks := by
  induction blocks generalizing previous with
  | nil => rfl
  | cons plain rest ih => simp [encryptBlocks, decryptBlocks, decrypt_encrypt, Block.add_add, ih]

theorem length_encryptBlocks (keys : RoundKeys) (previous : Block) (blocks : List Block) :
    (encryptBlocks keys previous blocks).length = blocks.length := by
  induction blocks generalizing previous with
  | nil => rfl
  | cons plain rest ih => simp [encryptBlocks, ih]

theorem blocksOf_octets_append (block : Block) (rest : Octets) :
    blocksOf (block.octets ++ rest) = block :: blocksOf rest := rfl

theorem blocksOf_octetsOf (blocks : List Block) : blocksOf (octetsOf blocks) = blocks := by
  induction blocks with
  | nil => rfl
  | cons block rest ih =>
    rw [octetsOf, List.flatMap_cons, blocksOf_octets_append, ← octetsOf, ih]

theorem length_octetsOf (blocks : List Block) :
    (octetsOf blocks).length = blockLength * blocks.length := by
  induction blocks with
  | nil => rfl
  | cons block rest ih =>
    rw [octetsOf, List.flatMap_cons, List.length_append, ← octetsOf, ih, Block.length_octets,
      List.length_cons, Nat.mul_succ, Nat.add_comm]

theorem octetsOf_blocksOf {octets : Octets} (whole : octets.length % blockLength = 0) :
    octetsOf (blocksOf octets) = octets := by
  fun_induction blocksOf octets with
  | case1 a b c d e f g h i j k l m n o p rest ih =>
    have shorter : rest.length % blockLength = 0 := by
      simp only [List.length_cons, blockLength] at whole ⊢
      omega
    rw [octetsOf, List.flatMap_cons, ← octetsOf, ih shorter]
    rfl
  | case2 octets short =>
    match octets, short, whole with
    | [], _, _ => rfl
    | [_], _, h | [_, _], _, h | [_, _, _], _, h | [_, _, _, _], _, h | [_, _, _, _, _], _, h
    | [_, _, _, _, _, _], _, h | [_, _, _, _, _, _, _], _, h | [_, _, _, _, _, _, _, _], _, h
    | [_, _, _, _, _, _, _, _, _], _, h | [_, _, _, _, _, _, _, _, _, _], _, h
    | [_, _, _, _, _, _, _, _, _, _, _], _, h | [_, _, _, _, _, _, _, _, _, _, _, _], _, h
    | [_, _, _, _, _, _, _, _, _, _, _, _, _], _, h
    | [_, _, _, _, _, _, _, _, _, _, _, _, _, _], _, h
    | [_, _, _, _, _, _, _, _, _, _, _, _, _, _, _], _, h => simp [blockLength] at h
    | a :: b :: c :: d :: e :: f :: g :: h :: i :: j :: k :: l :: m :: n :: o :: p :: rest,
      short, _ => exact absurd rfl (short a b c d e f g h i j k l m n o p rest)

theorem length_blocksOf {octets : Octets} (whole : octets.length % blockLength = 0) :
    blockLength * (blocksOf octets).length = octets.length := by
  rw [← length_octetsOf, octetsOf_blocksOf whole]

/-- Decryption inverts encryption, and what encryption yields is as long as the plaintext. -/
theorem decryptOctets_encryptOctets {key start plaintext ciphertext : Octets}
    (encrypted : encryptOctets key start plaintext = .ok ciphertext) :
    decryptOctets key start ciphertext = .ok plaintext ∧
      ciphertext.length = plaintext.length := by
  unfold encryptOctets at encrypted
  by_cases whole : plaintext.length % blockLength = 0
  · cases ready : setUp key start with
    | error error => simp [whole, ready, bind, Except.bind] at encrypted
    | ok pair =>
      obtain ⟨keys, previous⟩ := pair
      simp only [whole, ready, bind, Except.bind, pure, Except.pure, ne_eq, not_true_eq_false,
        if_false, Except.ok.injEq] at encrypted
      subst encrypted
      have length : (octetsOf (encryptBlocks keys previous (blocksOf plaintext))).length =
          plaintext.length := by
        rw [length_octetsOf, length_encryptBlocks, length_blocksOf whole]
      refine ⟨?_, length⟩
      simp only [decryptOctets, ready, bind, Except.bind, length, whole, pure, Except.pure,
        ne_eq, not_true_eq_false, if_false, blocksOf_octetsOf, decryptBlocks_encryptBlocks,
        octetsOf_blocksOf whole]
  · simp [whole, throw, throwThe, MonadExceptOf.throw, bind, Except.bind] at encrypted

end TransportSecurity.Aes
