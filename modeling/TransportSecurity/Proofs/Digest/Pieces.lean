import TransportSecurity.Digest.Hmac

/-!
What a digest is a digest of.

A digest under way depends only on the octets that it has taken in (`TakenIn`), not on the pieces in
which they came. At its end it is what one pass over the message makes of it, filled up to whole
blocks (`finish_of_takenIn`). A keyed digest is two such passes, one inside the other, so that a tag
is the same however its message is cut, also where a cut falls on the end of a block
(`tagOfPieces_eq_atOnce`).
-/

namespace TransportSecurity

namespace BlockDigest

/-! ### One pass over the whole message -/

/-- The whole blocks of a string. What is left of it is shorter than a block. -/
def blocks (octets : Octets) : List Octets :=
  (List.range (octets.length / blockLength)).map fun i =>
    (octets.drop (blockLength * i)).take blockLength

/-- A message filled up to whole blocks. -/
def filled (message : Octets) : Octets := message ++ padding message.length

theorem blocks_of_lt {octets : Octets} (short : octets.length < blockLength) :
    blocks octets = [] := by
  rw [blocks, Nat.div_eq_of_lt short]
  rfl

theorem blocks_of_le {octets : Octets} (long : blockLength ≤ octets.length) :
    blocks octets = octets.take blockLength :: blocks (octets.drop blockLength) := by
  have count : octets.length / blockLength = (octets.length - blockLength) / blockLength + 1 :=
    Nat.div_eq_sub_div (by decide) long
  rw [blocks, count, List.range_succ_eq_map, List.map_cons, List.map_map, blocks,
    List.length_drop]
  simp only [Function.comp_def, List.drop_drop, Nat.mul_succ, Nat.add_comm, Nat.mul_zero,
    List.drop_zero]

variable {State : Type} (digest : BlockDigest State)

/-- The digest of a message that is at hand as a whole. -/
def atOnce (message : Octets) : Octets :=
  digest.output ((blocks (filled message)).foldl digest.mix digest.start)

/-- Mixing goes through the whole blocks in order. -/
theorem mixBlocks_eq_foldl (state : State) (octets : Octets) :
    (digest.mixBlocks state octets).1 = (blocks octets).foldl digest.mix state := by
  fun_induction digest.mixBlocks state octets with
  | case1 state octets block full ih =>
    have long : blockLength ≤ octets.length := by
      simp only [block, List.length_take] at full
      omega
    rw [ih, blocks_of_le long, List.foldl_cons]
  | case2 state octets block notFull =>
    have short : octets.length < blockLength := by
      simp only [block, List.length_take] at notFull
      omega
    rw [blocks_of_lt short, List.foldl_nil]

/-! ### Piece by piece -/

/-- What a digest under way has taken in. -/
structure TakenIn (running : Running State) (message : Octets) : Prop where
  mixed : digest.mixBlocks digest.start message = (running.state, running.partialBlock)
  counted : running.total = message.length

variable {digest} {running : Running State} {message : Octets}

theorem TakenIn.begin : digest.TakenIn digest.begin [] where
  mixed := by
    rw [mixBlocks]
    rfl
  counted := rfl

/-- One more piece is taken in behind the others, whatever block it begins or ends in. -/
theorem TakenIn.absorb (taken : digest.TakenIn running message) (piece : Octets) :
    digest.TakenIn (digest.absorb running piece) (message ++ piece) where
  mixed := by rw [mixBlocks_append, taken.mixed]; rfl
  counted := by rw [BlockDigest.absorb, taken.counted, List.length_append]

/-- All pieces are taken in as one message. -/
theorem TakenIn.absorbAll (taken : digest.TakenIn running message) (pieces : List Octets) :
    digest.TakenIn (pieces.foldl digest.absorb running) (message ++ pieces.flatten) := by
  induction pieces generalizing running message with
  | nil =>
    rw [List.flatten_nil, List.append_nil]
    exact taken
  | cons piece pieces ih =>
    rw [List.flatten_cons, ← List.append_assoc, List.foldl_cons]
    exact ih (taken.absorb piece)

theorem finish_of_takenIn (taken : digest.TakenIn running message) :
    digest.finish running = digest.atOnce message := by
  have padded : digest.mixBlocks digest.start (filled message) =
      digest.mixBlocks running.state (running.partialBlock ++ padding running.total) := by
    rw [filled, mixBlocks_append, taken.mixed, taken.counted]
  rw [finish, ← padded, mixBlocks_eq_foldl, atOnce]

variable (digest)

theorem hash_eq_atOnce (message : Octets) : digest.hash message = digest.atOnce message :=
  finish_of_takenIn (TakenIn.begin.absorb message)

/-! ### Under a key -/

/-- The key's block under the inner pad, which is digested in front of the message. -/
def innerBlock (key : Octets) : Octets := (digest.blockKey key).map (· ^^^ 0x36)

/-- The key's block under the outer pad, which is digested in front of the inner digest. -/
def outerBlock (key : Octets) : Octets := (digest.blockKey key).map (· ^^^ 0x5c)

/-- The tag of a message that is at hand as a whole: one digest inside another. -/
def tagAtOnce (key message : Octets) : Octets :=
  digest.atOnce (digest.outerBlock key ++ digest.atOnce (digest.innerBlock key ++ message))

/-- The tag of a message that comes in pieces. -/
def tagOfPieces (key : Octets) (pieces : List Octets) : Octets :=
  digest.finishKeyed key (pieces.foldl digest.absorb (digest.beginKeyed key))

/-- Pieces have the tag of the message that they make up. -/
theorem tagOfPieces_eq_atOnce (key : Octets) (pieces : List Octets) :
    digest.tagOfPieces key pieces = digest.tagAtOnce key pieces.flatten := by
  have inner : digest.TakenIn (digest.beginKeyed key) (digest.innerBlock key) :=
    TakenIn.begin.absorb (digest.innerBlock key)
  rw [tagOfPieces, finishKeyed, finish_of_takenIn (inner.absorbAll pieces), hash_eq_atOnce]
  rfl

end BlockDigest

namespace MacAlgorithm

/-- The tag of a message that comes in pieces. -/
def tagOfPieces : MacAlgorithm → Octets → List Octets → Octets
  | .hmacSha1 => sha1.tagOfPieces
  | .hmacSha256 => sha256.tagOfPieces

/-- The tag of a message that is at hand as a whole. -/
def tagAtOnce : MacAlgorithm → Octets → Octets → Octets
  | .hmacSha1 => sha1.tagAtOnce
  | .hmacSha256 => sha256.tagAtOnce

theorem tagOfPieces_eq_atOnce (mac : MacAlgorithm) (key : Octets) (pieces : List Octets) :
    mac.tagOfPieces key pieces = mac.tagAtOnce key pieces.flatten := by
  cases mac
  · exact sha1.tagOfPieces_eq_atOnce key pieces
  · exact sha256.tagOfPieces_eq_atOnce key pieces

/-- A message in one piece. -/
theorem tag_eq_atOnce (mac : MacAlgorithm) (key message : Octets) :
    mac.tag key message = mac.tagAtOnce key message := by
  have one : mac.tag key message = mac.tagOfPieces key [message] := by cases mac <;> rfl
  rw [one, tagOfPieces_eq_atOnce, List.flatten_singleton]

end MacAlgorithm

end TransportSecurity
