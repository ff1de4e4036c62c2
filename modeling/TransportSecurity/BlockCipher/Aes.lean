import TransportSecurity.BlockCipher.Aes.Block

/-!
AES with keys of 16 or 32 octets.

A key is spread into a key for each round; encryption runs the rounds, decryption undoes them from
the last to the first. `decrypt_encrypt` says that under any round keys at all nothing is lost.
-/

namespace TransportSecurity.Aes

/-- The keys of the rounds: one before the first round, one after each full round, and one after the
last round, which does not mix. -/
structure RoundKeys where
  first : Block
  middle : List Block
  last : Block

namespace RoundKeys

/-- Adds to each column of a group its new left neighbour, `left` for the first. In a group of eight
the neighbour of the fifth is replaced octet by octet before. -/
def chain : Nat → Column → List Column → List Column
  | _, _, [] => []
  | place, left, column :: rest =>
    let left := if place = 4 then left.map Aes.substitute else left
    let fresh := column.add left
    fresh :: chain (place + 1) fresh rest

/-- The group of columns that follows a group, `constant` being the constant of the step. -/
def nextGroup (constant : UInt8) (group : List Column) : List Column :=
  let last := group.getLastD ⟨0, 0, 0, 0⟩
  chain 0 ((last.rotate.map Aes.substitute).add ⟨constant, 0, 0, 0⟩) group

/-- A group of columns and the `n` groups after it. The constant doubles at each step. -/
def groups : Nat → UInt8 → List Column → List Column
  | 0, _, group => group
  | n + 1, constant, group => group ++ groups n (double constant) (nextGroup constant group)

/-- The columns of a string of octets, four octets each. -/
def columns : Octets → List Column
  | a :: b :: c :: d :: rest => ⟨a, b, c, d⟩ :: columns rest
  | _ => []

/-- The blocks of a row of columns, four columns each. -/
def blocks : List Column → List Block
  | a :: b :: c :: d :: rest => ⟨a, b, c, d⟩ :: blocks rest
  | _ => []

/-- Round keys of a row of blocks. -/
def ofBlocks (keys : List Block) : RoundKeys :=
  let zero := Block.ofOctets []
  ⟨keys.headD zero, keys.tail.dropLast, keys.getLastD zero⟩

/-- The round keys of a key: a key of `n` columns makes for `n + 6` rounds. -/
def ofKey (key : Octets) : RoundKeys :=
  let start := columns key
  ofBlocks ((blocks (groups 10 1 start)).take (start.length + 7))

end RoundKeys

/-- One full round. -/
def round (x key : Block) : Block := ((x.substitute.shift).map Column.mix).add key

/-- Undoes `round`. -/
def unround (key x : Block) : Block := (((x.add key).map Column.unmix).unshift).restore

/-- Encrypts one block. -/
def encrypt (keys : RoundKeys) (x : Block) : Block :=
  (keys.middle.foldl round (x.add keys.first)).substitute.shift.add keys.last

/-- Decrypts one block. -/
def decrypt (keys : RoundKeys) (x : Block) : Block :=
  (keys.middle.foldr unround (x.add keys.last).unshift.restore).add keys.first

theorem Block.add_add (x key : Block) : (x.add key).add key = x := by
  simp only [add, Column.add, UInt8.xor_assoc, UInt8.xor_self, UInt8.xor_zero]

theorem Block.unmix_mix (x : Block) : (x.map Column.mix).map Column.unmix = x := by
  simp [map, Column.unmix_mix]

theorem unround_round (x key : Block) : unround key (round x key) = x := by
  rw [unround, round, Block.add_add, Block.unmix_mix, Block.unshift_shift, Block.restore_substitute]

theorem foldr_unround_foldl_round (keys : List Block) (x : Block) :
    keys.foldr unround (keys.foldl round x) = x := by
  induction keys generalizing x with
  | nil => rfl
  | cons key keys ih => rw [List.foldl_cons, List.foldr_cons, ih, unround_round]

/-- Decryption inverts encryption. -/
theorem decrypt_encrypt (keys : RoundKeys) (x : Block) : decrypt keys (encrypt keys x) = x := by
  rw [decrypt, encrypt, Block.add_add, Block.unshift_shift, Block.restore_substitute,
    foldr_unround_foldl_round, Block.add_add]

end TransportSecurity.Aes
