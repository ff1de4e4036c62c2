import Mathlib.Data.Nat.Init
import Mathlib.Logic.Function.Iterate
import TransportSecurity.KeySchedule

/-!
What a secret and a seed are expanded to.

The octets are those of one endless stream, `tag (A 1 ++ seed)`, `tag (A 2 ++ seed)` and so on,
where `A 0` is the seed and each `A (i + 1)` the tag of the one before (`expandSeed_eq_stream`). The
stream does not depend on how much of it is asked for, so a shorter expansion is the front of a
longer one.

The octets are collected by a loop that goes on while there are too few of them and cuts off what is
too many (`expandSeed_eq_collect`). `short_iff` counts its turns: none for no octets, and at a whole
number of tags none too many.
-/

namespace TransportSecurity

namespace KeySchedule

/-! ### The stream -/

/-- The chain behind the stream: the seed, its tag, the tag of that, and so on. -/
def chain (secret seed : Octets) : Nat → Octets
  | 0 => seed
  | i + 1 => sha256.tag secret (chain secret seed i)

/-- The tag that the stream holds at the place `i`, counted from zero. -/
def streamBlock (secret seed : Octets) (i : Nat) : Octets :=
  sha256.tag secret (chain secret seed (i + 1) ++ seed)

/-- The first `blocks` tags of the stream, in a row. -/
def stream (secret seed : Octets) (blocks : Nat) : Octets :=
  (List.range blocks).flatMap (streamBlock secret seed)

@[simp] theorem length_streamBlock (secret seed : Octets) (i : Nat) :
    (streamBlock secret seed i).length = 32 := length_sha256 _

theorem stream_succ (secret seed : Octets) (blocks : Nat) :
    stream secret seed (blocks + 1) =
      stream secret seed blocks ++ streamBlock secret seed blocks := by
  simp [stream, List.range_succ]

@[simp] theorem length_stream (secret seed : Octets) (blocks : Nat) :
    (stream secret seed blocks).length = 32 * blocks := by
  induction blocks with
  | zero => rfl
  | succ blocks ih =>
    rw [stream_succ, List.length_append, ih, length_streamBlock, Nat.mul_succ]

/-- A longer part of the stream goes on where a shorter one ends. -/
theorem stream_isPrefix (secret seed : Octets) {few many : Nat} (le : few ≤ many) :
    stream secret seed few <+: stream secret seed many := by
  induction many, le using Nat.le_induction with
  | base => exact List.prefix_rfl
  | succ many _ ih =>
    rw [stream_succ]
    exact ih.trans (List.prefix_append ..)

/-- How many tags are at hand does not matter, as long as they are enough. -/
theorem take_stream (secret seed : Octets) {few many length : Nat} (le : few ≤ many)
    (enough : length ≤ 32 * few) :
    (stream secret seed many).take length = (stream secret seed few).take length := by
  obtain ⟨rest, joined⟩ := stream_isPrefix secret seed le
  rw [← joined, List.take_append_of_le_length (by rwa [length_stream])]

/-- Tags made one behind the other from a link of the chain are those of the stream from there. -/
theorem expandBlocks_chain (secret seed : Octets) (blocks i : Nat) :
    stream secret seed i ++ expandBlocks secret seed blocks (chain secret seed (i + 1)) =
      stream secret seed (i + blocks) := by
  induction blocks generalizing i with
  | zero => exact List.append_nil _
  | succ blocks ih =>
    have here : sha256.tagOfTwo secret (chain secret seed (i + 1)) seed =
        streamBlock secret seed i := sha256.tagOfTwo_eq ..
    have next : sha256.tag secret (chain secret seed (i + 1)) = chain secret seed (i + 2) := rfl
    rw [expandBlocks, here, next, ← List.append_assoc, ← stream_succ, ih, Nat.add_right_comm,
      Nat.add_assoc]

/-- An expansion is the front of the stream. -/
theorem expandSeed_eq_take (secret seed : Octets) {length blocks : Nat}
    (enough : length ≤ 32 * blocks) :
    expandSeed secret seed length = (stream secret seed blocks).take length := by
  have made : expandBlocks secret seed ((length + 31) / 32) (sha256.tag secret seed) =
      stream secret seed ((length + 31) / 32) := by
    simpa [stream, chain] using expandBlocks_chain secret seed ((length + 31) / 32) 0
  have needed : (length + 31) / 32 ≤ blocks := by omega
  rw [expandSeed, made, take_stream secret seed needed (by omega)]

/-! ### The loop -/

/-- What the loop holds: the link of the chain that comes next and the octets so far. -/
structure Expansion where
  link : Octets
  output : Octets

namespace Expansion

variable (secret seed : Octets)

/-- Before the first turn. -/
def begin : Expansion := ⟨sha256.tag secret seed, []⟩

/-- One turn: the tag of the link and the seed is added, and the link moves on. -/
def turn (expansion : Expansion) : Expansion where
  link := sha256.tag secret expansion.link
  output := expansion.output ++ sha256.tagOfTwo secret expansion.link seed

theorem length_turn (expansion : Expansion) :
    (expansion.turn secret seed).output.length = expansion.output.length + 32 := by
  have tag : (sha256.tagOfTwo secret expansion.link seed).length = 32 := length_sha256 _
  rw [turn, List.length_append, tag]

/-- Turns are made while there are fewer octets than asked for. -/
def collect (length : Nat) (expansion : Expansion) : Expansion :=
  if expansion.output.length < length then collect length (expansion.turn secret seed)
  else expansion
  termination_by length - expansion.output.length
  decreasing_by
    rw [length_turn]
    omega

/-- The loop after `turns` turns. -/
def after (turns : Nat) : Expansion := (turn secret seed)^[turns] (begin secret seed)

theorem after_succ (turns : Nat) :
    after secret seed (turns + 1) = (after secret seed turns).turn secret seed :=
  Function.iterate_succ_apply' ..

/-- The invariant of the loop: after `i` turns it holds `i` tags and the chain stands one ahead. -/
theorem after_eq (turns : Nat) :
    after secret seed turns = ⟨chain secret seed (turns + 1), stream secret seed turns⟩ := by
  induction turns with
  | zero => rfl
  | succ turns ih =>
    rw [after_succ, ih, turn, stream_succ, sha256.tagOfTwo_eq]
    rfl

/-- The loop goes on after exactly those turns that leave too few octets. -/
theorem short_iff (length turns : Nat) :
    (after secret seed turns).output.length < length ↔ turns < (length + 31) / 32 := by
  rw [after_eq, length_stream]
  omega

/-- From any turn on, the loop comes to the turn after which there are octets enough. -/
theorem collect_after {length turns : Nat} (le : turns ≤ (length + 31) / 32) :
    collect secret seed length (after secret seed turns) =
      after secret seed ((length + 31) / 32) := by
  induction le using Nat.decreasingInduction with
  | self =>
    have done := mt (short_iff secret seed length ((length + 31) / 32)).mp (Nat.lt_irrefl _)
    rw [collect, if_neg done]
  | of_succ turns lt ih =>
    rw [collect, if_pos ((short_iff ..).mpr lt), ← after_succ]
    exact ih

end Expansion

/-- An expansion is what the loop collects, without what is too much. -/
theorem expandSeed_eq_collect (secret seed : Octets) (length : Nat) :
    expandSeed secret seed length =
      ((Expansion.begin secret seed).collect secret seed length).output.take length := by
  have collected := Expansion.collect_after secret seed (Nat.zero_le ((length + 31) / 32))
  have enough : length ≤ 32 * ((length + 31) / 32) := by omega
  rw [show Expansion.begin secret seed = Expansion.after secret seed 0 from rfl, collected,
    Expansion.after_eq, expandSeed_eq_take secret seed enough]

/-- Every length is expanded to the octets of one stream: an expansion has the length that is asked
for, it is the front of any part of the stream that is long enough, and it begins with every shorter
expansion. The loop that collects it ends after `(length + 31) / 32` turns, the first that leave it
with octets enough. -/
theorem expandSeed_eq_stream (secret seed : Octets) (length : Nat) :
    (expandSeed secret seed length).length = length ∧
      (∀ blocks, length ≤ 32 * blocks →
        expandSeed secret seed length = (stream secret seed blocks).take length) ∧
      (∀ shorter, shorter ≤ length →
        expandSeed secret seed shorter <+: expandSeed secret seed length) ∧
      expandSeed secret seed length =
        ((Expansion.begin secret seed).collect secret seed length).output.take length ∧
      (Expansion.begin secret seed).collect secret seed length =
        Expansion.after secret seed ((length + 31) / 32) ∧
      ∀ turns, (Expansion.after secret seed turns).output.length < length ↔
        turns < (length + 31) / 32 := by
  refine ⟨length_expandSeed .., fun blocks enough => expandSeed_eq_take secret seed enough, ?_,
    expandSeed_eq_collect .., Expansion.collect_after secret seed (Nat.zero_le _),
    Expansion.short_iff secret seed length⟩
  intro shorter le
  have enough : length ≤ 32 * length := by omega
  have lessEnough : shorter ≤ 32 * length := Nat.le_trans le enough
  rw [expandSeed_eq_take secret seed enough, expandSeed_eq_take secret seed lessEnough]
  exact List.take_prefix_take_left le

namespace Rehearsal

/-- The secret of a published expansion. -/
def secret : Octets :=
  [0x9b, 0xbe, 0x43, 0x6b, 0xa9, 0x40, 0xf0, 0x17, 0xb1, 0x76, 0x52, 0x84, 0x9a, 0x71, 0xdb, 0x35]

/-- The seed of a published expansion, behind its label. -/
def seed : Octets :=
  ascii "test label" ++
    [0xa0, 0xba, 0x9f, 0x93, 0x6c, 0xda, 0x31, 0x18, 0x27, 0xa6, 0xf7, 0x96, 0xff, 0xd5, 0x19, 0x8c]

/-- What was published for them. -/
def expanded : Octets :=
  [0xe3, 0xf2, 0x29, 0xba, 0x72, 0x7b, 0xe1, 0x7b, 0x8d, 0x12, 0x26, 0x20, 0x55, 0x7c, 0xd4, 0x53,
   0xc2, 0xaa, 0xb2, 0x1d, 0x07, 0xc3, 0xd4, 0x95, 0x32, 0x9b, 0x52, 0xd4, 0xe6, 0x1e, 0xdb, 0x5a,
   0x6b, 0x30, 0x17, 0x91, 0xe9, 0x0d, 0x35, 0xc9, 0xc9, 0xa4, 0x6b, 0x4e, 0x14, 0xba, 0xf9, 0xaf,
   0x0f, 0xa0, 0x22, 0xf7, 0x07, 0x7d, 0xef, 0x17, 0xab, 0xfd, 0x37, 0x97, 0xc0, 0x56, 0x4b, 0xab,
   0x4f, 0xbc, 0x91, 0x66, 0x6e, 0x9d, 0xef, 0x9b, 0x97, 0xfc, 0xe3, 0x4f, 0x79, 0x67, 0x89, 0xba,
   0xa4, 0x80, 0x82, 0xd1, 0x22, 0xee, 0x42, 0xc5, 0xa7, 0x2e, 0x5a, 0x51, 0x10, 0xff, 0xf7, 0x01,
   0x87, 0x34, 0x7b, 0x66]

end Rehearsal

/-- A published expansion: four turns, of which the last leaves twenty-eight octets too many. -/
theorem expandSeed_published :
    expandSeed Rehearsal.secret Rehearsal.seed 100 = Rehearsal.expanded ∧
      expandSeed Rehearsal.secret Rehearsal.seed 100 =
        (stream Rehearsal.secret Rehearsal.seed 4).take 100 ∧
      expandSeed Rehearsal.secret Rehearsal.seed 64 <+:
        expandSeed Rehearsal.secret Rehearsal.seed 100 := by
  obtain ⟨-, ofStream, longer, -⟩ := expandSeed_eq_stream Rehearsal.secret Rehearsal.seed 100
  exact ⟨by decide +kernel, ofStream 4 (by decide), longer 64 (by decide)⟩

end KeySchedule

end TransportSecurity
