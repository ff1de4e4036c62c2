import TransportSecurity.Proofs.Record.Opened

/-!
What tags vouch for.

A tag vouches for the number of its record (`Sealed`). Records made in a row are numbered upwards
(`Sealed.pairwise_row`), so a reader that takes only what was released, each under the number that
it expects next, has read the front of it (`Sealed.ReadBelow.isPrefix`).
-/

namespace TransportSecurity

/-- What a tag vouches for: the number, type and version of a record, and its fragment. -/
structure Sealed where
  number : UInt64
  type : ContentType
  version : Version
  fragment : Octets
  deriving DecidableEq

namespace Sealed

/-- A tag verifies under keys for what it is said to vouch for. -/
def Verifies (keys : WriteKeys) (sealed : Sealed) (given : Octets) : Prop :=
  Record.checkTag keys sealed.number sealed.type sealed.version sealed.fragment given = .ok ()

/-- What the tags of pieces in a row vouch for. -/
def row (type : ContentType) : UInt64 → List Octets → List Sealed
  | _, [] => []
  | number, piece :: rest => ⟨number, type, .current, piece⟩ :: row type (number + 1) rest

/-- The fragments of records in a row. -/
def fragments (sealed : List Sealed) : Octets := sealed.flatMap fragment

theorem fragments_append (before after : List Sealed) :
    fragments (before ++ after) = fragments before ++ fragments after := List.flatMap_append

theorem fragments_row (type : ContentType) (number : UInt64) (pieces : List Octets) :
    fragments (row type number pieces) = pieces.flatten := by
  induction pieces generalizing number with
  | nil => rfl
  | cons piece pieces ih =>
    have tail := ih (number + 1)
    rw [fragments] at tail
    rw [row, fragments, List.flatMap_cons, tail, List.flatten_cons]

theorem type_of_mem_row {type : ContentType} {number : UInt64} {pieces : List Octets}
    {sealed : Sealed} (found : sealed ∈ row type number pieces) : sealed.type = type := by
  induction pieces generalizing number with
  | nil => simp [row] at found
  | cons piece pieces ih =>
    rcases List.mem_cons.mp found with rfl | found
    · rfl
    · exact ih found

/-- A row is numbered upwards from its first number, as far as there are numbers. -/
theorem number_of_mem_row {type : ContentType} {number : UInt64} {pieces : List Octets}
    (room : number.toNat + pieces.length < 2 ^ 64) :
    ∀ sealed ∈ row type number pieces, number.toNat ≤ sealed.number.toNat ∧
      sealed.number.toNat < number.toNat + pieces.length := by
  induction pieces generalizing number with
  | nil => simp [row]
  | cons piece pieces ih =>
    rw [List.length_cons] at room ⊢
    have next := @Record.toNat_succ number (by omega)
    intro sealed found
    rcases List.mem_cons.mp found with rfl | found
    · simp
    · have bounds := ih (by omega) sealed found
      omega

theorem pairwise_row {type : ContentType} {number : UInt64} {pieces : List Octets}
    (room : number.toNat + pieces.length < 2 ^ 64) :
    (row type number pieces).Pairwise fun a b => a.number < b.number := by
  induction pieces generalizing number with
  | nil => exact List.Pairwise.nil
  | cons piece pieces ih =>
    rw [List.length_cons] at room
    have next := @Record.toNat_succ number (by omega)
    refine List.Pairwise.cons ?_ (ih (by omega))
    intro sealed found
    have bounds := (number_of_mem_row (by omega) sealed found).1
    rw [next] at bounds
    exact UInt64.lt_iff_toNat_lt.mpr bounds

/-- What was read is what was released below a number. -/
def ReadBelow (released : List Sealed) (number : Nat) (read : Octets) : Prop :=
  ∃ done rest, released = done ++ rest ∧ read = fragments done ∧
    (∀ sealed ∈ done, sealed.number.toNat < number) ∧
    ∀ sealed ∈ rest, number ≤ sealed.number.toNat

namespace ReadBelow

variable {released more : List Sealed} {number : Nat} {read : Octets}

theorem isPrefix (below : ReadBelow released number read) : read <+: fragments released := by
  obtain ⟨done, rest, rfl, rfl, _, _⟩ := below
  rw [fragments, fragments, List.flatMap_append]
  exact List.prefix_append ..

theorem release (below : ReadBelow released number read)
    (above : ∀ sealed ∈ more, number ≤ sealed.number.toNat) :
    ReadBelow (released ++ more) number read := by
  obtain ⟨done, rest, rfl, rfl, before, after⟩ := below
  refine ⟨done, rest ++ more, List.append_assoc .., rfl, before, ?_⟩
  intro sealed found
  rcases List.mem_append.mp found with found | found
  · exact after sealed found
  · exact above sealed found

/-- The only record released under the number that is expected is the next one. -/
theorem accept {sealed : Sealed} (below : ReadBelow released number read)
    (upwards : released.Pairwise fun a b => a.number < b.number) (found : sealed ∈ released)
    (expected : sealed.number.toNat = number) :
    ReadBelow released (number + 1) (read ++ sealed.fragment) := by
  obtain ⟨done, rest, rfl, rfl, before, after⟩ := below
  rcases List.mem_append.mp found with early | late
  · have := before sealed early
    omega
  · cases rest with
    | nil => simp at late
    | cons first rest =>
      obtain ⟨_, tail, _⟩ := List.pairwise_append.mp upwards
      obtain ⟨least, _⟩ := List.pairwise_cons.mp tail
      have same : sealed = first := by
        rcases List.mem_cons.mp late with same | later
        · exact same
        · have smaller := UInt64.lt_iff_toNat_lt.mp (least sealed later)
          have := after first (List.mem_cons_self ..)
          omega
      subst same
      refine ⟨done ++ [sealed], rest, by simp, ?_, ?_, ?_⟩
      · rw [fragments, fragments, List.flatMap_append]
        simp
      · intro other found
        rcases List.mem_append.mp found with early | same
        · have := before other early
          omega
        · rw [List.mem_singleton.mp same]
          omega
      · intro other later
        have greater := UInt64.lt_iff_toNat_lt.mp (least other later)
        omega

end ReadBelow

end Sealed

end TransportSecurity
