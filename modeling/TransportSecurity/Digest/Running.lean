import TransportSecurity.Bytes.Basic

/-!
Digests that take their input block by block.

A digest of this family mixes blocks of 64 octets into a state, one after the other, and at the end
pads the last one with the length of all. `Running` holds the state between two pieces of input, so
that input can come in pieces; `absorb_append` says that the pieces do not matter.
-/

namespace TransportSecurity

/-- What tells one block digest from another. -/
structure BlockDigest (State : Type) where
  start : State
  mix : State → Octets → State
  output : State → Octets

/-- The octets in a block. -/
def BlockDigest.blockLength : Nat := 64

/-- A digest under way: the state after the whole blocks so far, the octets that do not yet fill a
block, and how many octets there were in all. -/
structure Running (State : Type) where
  state : State
  partialBlock : Octets
  total : Nat

namespace BlockDigest

variable {State : Type} (digest : BlockDigest State)

/-- Mixes in the whole blocks at the front; what is left is shorter than a block. -/
def mixBlocks (state : State) (octets : Octets) : State × Octets :=
  let block := octets.take blockLength
  if block.length = blockLength then mixBlocks (digest.mix state block) (octets.drop blockLength)
  else (state, octets)
termination_by octets.length
decreasing_by
  rename_i full
  simp only [block, blockLength, List.length_take, List.length_drop] at *
  omega

/-- A digest of nothing yet. -/
def begin : Running State := ⟨digest.start, [], 0⟩

/-- Takes more input. -/
def absorb (running : Running State) (octets : Octets) : Running State :=
  let mixed := digest.mixBlocks running.state (running.partialBlock ++ octets)
  ⟨mixed.1, mixed.2, running.total + octets.length⟩

/-- What follows an input of `total` octets: a marking bit, zeros up to eight octets short of a
block, and the length in bits. -/
def padding (total : Nat) : Octets :=
  0x80 :: (List.replicate ((119 - total % blockLength) % blockLength) 0 ++
    Octets.bigEndian 8 (8 * total))

/-- The digest of all input so far. -/
def finish (running : Running State) : Octets :=
  digest.output
    (digest.mixBlocks running.state (running.partialBlock ++ padding running.total)).1

/-- The digest of an octet string. -/
def hash (octets : Octets) : Octets := digest.finish (digest.absorb digest.begin octets)

/-- Mixing goes on from where it stopped when more octets follow. -/
theorem mixBlocks_append (state : State) (front back : Octets) :
    digest.mixBlocks state (front ++ back) =
      digest.mixBlocks (digest.mixBlocks state front).1
        ((digest.mixBlocks state front).2 ++ back) := by
  fun_induction digest.mixBlocks state front with
  | case1 state front block full ih =>
    have long : blockLength ≤ front.length := by
      simp only [block, List.length_take] at full
      omega
    have whole : (front ++ back).take blockLength = block := by
      simp only [block, List.take_append_of_le_length long]
    rw [mixBlocks.eq_def digest state (front ++ back), whole, if_pos full,
      List.drop_append_of_le_length long, ih]
  | case2 => rfl

/-- Input may come in pieces. -/
theorem absorb_append (running : Running State) (front back : Octets) :
    digest.absorb running (front ++ back) = digest.absorb (digest.absorb running front) back := by
  simp only [absorb, ← List.append_assoc, mixBlocks_append digest running.state
    (running.partialBlock ++ front) back, List.length_append, Nat.add_assoc]

end BlockDigest

end TransportSecurity
