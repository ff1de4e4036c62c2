import TransportSecurity.Proofs.Record.Canonical
import TransportSecurity.Proofs.Session.Means

/-!
A payload of any size, as records and back.

A payload takes `recordCount` records, one for each of its pieces. A stream is cut at the headers in
it (`split`), and records in a row give the stream back that they were cut from (`split_flatten`).
Protected records are opened one after the other, each under the number that the one before it left
(`unprotectAll`). By induction on the pieces, what was protected comes back piece by piece and both
ends' numbers go on together (`unprotectAll_of_protectPieces`).
-/

namespace TransportSecurity

namespace Entropy

variable {G : Type} [Entropy G] {source : G}

/-- The source gives so many starting blocks in a row. -/
inductive Grants : Nat → G → Prop
  | none {source : G} : Grants 0 source
  | more {count : Nat} {source next : G} {start : Fixed Aes.blockLength}
    (drawn : draw? Aes.blockLength source = (some start, next)) (later : Grants count next) :
    Grants (count + 1) source

theorem Lasting.grants (lasting : Lasting source) (count : Nat) : Grants count source := by
  obtain ⟨lasts, now, always⟩ := lasting
  induction count generalizing source with
  | zero => exact .none
  | succ count ih =>
    obtain ⟨_, start, next, drawn, later⟩ := always source now Aes.blockLength
    exact .more drawn (ih later)

end Entropy

namespace Record

/-- How many records a payload takes: one for each full or begun piece, and one if it is empty. -/
def recordCount (payload : Octets) : Nat := max 1 ((payload.length + (maxPiece - 1)) / maxPiece)

theorem length_pieces (payload : Octets) : (pieces payload).length = recordCount payload := by
  fun_induction pieces payload with
  | case1 payload rest last =>
    have nothing : rest.length = 0 := by rw [List.isEmpty_iff.mp last, List.length_nil]
    rw [List.length_drop, maxPiece] at nothing
    rw [recordCount, List.length_singleton, maxPiece]
    omega
  | case2 payload rest more ih =>
    have something : 0 < rest.length := List.length_pos_iff.mpr (by simpa using more)
    have total : rest.length = payload.length - maxPiece := List.length_drop
    rw [List.length_cons, ih, recordCount, recordCount, total]
    rw [total, maxPiece] at something
    simp only [maxPiece]
    omega

/-- The whole records at the front of a stream, each with its header, and what follows them. -/
def split (stream : Octets) : List (Header × Octets) × Octets :=
  match _found : next? stream with
  | .ok (some (header, record, rest)) => ((header, record) :: (split rest).1, (split rest).2)
  | _ => ([], stream)
termination_by stream.length
decreasing_by all_goals exact length_lt_of_next? _found

/-- A record that is cut off at its header: the header is accepted, is of the type, and says the
length of the fragment. -/
structure Framed (type : ContentType) (header : Header) (record : Octets) : Prop where
  accepted : Header.ofFront? record = .ok (some header)
  type : header.type = type
  length : header.length = (record.drop headerLength).length

/-- The contents of records in a row, the first under a number and each under the number that the
one before it left, and the number after the last. -/
def unprotectAll (keys : WriteKeys) : UInt64 → List Octets → Except Error (List Octets × UInt64)
  | number, [] => .ok ([], number)
  | number, record :: rest => do
    let (content, next) ← unprotect keys number record
    let (contents, last) ← unprotectAll keys next rest
    return (content :: contents, last)

variable {keys : WriteKeys} {type : ContentType}

theorem split_nil : split [] = ([], []) := by
  rw [split]
  rfl

theorem split_append {header : Header} {record : Octets} (whole : IsWhole header record)
    (rest : Octets) :
    split (record ++ rest) = ((header, record) :: (split rest).1, (split rest).2) := by
  have found := next?_eq_some_iff.mpr ⟨whole, Eq.refl (record ++ rest)⟩
  rw [split]
  split
  · next same =>
    cases found.symm.trans same
    rfl
  · next others => exact (others _ _ _ found).elim

/-- Whole records in a row are cut where one ends and the next begins. -/
theorem split_flatten {records : List (Header × Octets)}
    (whole : ∀ entry ∈ records, IsWhole entry.1 entry.2) :
    split (records.map Prod.snd).flatten = (records, []) := by
  induction records with
  | nil => exact split_nil
  | cons entry records ih =>
    obtain ⟨first, others⟩ := List.forall_mem_cons.mp whole
    rw [List.map_cons, List.flatten_cons, split_append first, ih others]

theorem IsWhole.framed {header : Header} {record : Octets} (whole : IsWhole header record) :
    Framed header.type header record := by
  refine ⟨?_, rfl, ?_⟩
  · have found := whole.ofFront? []
    rwa [List.append_nil] at found
  · rw [List.length_drop, whole.length, Header.recordLength, Nat.add_sub_cancel_left]

section Protecting

variable {G : Type} [Entropy G] {source : G} {number : UInt64} {sealer after : Sealer G}

/-- Pieces can be protected as long as there are numbers and starting blocks for all of them. -/
theorem exists_protectPieces {list : List Octets} (usable : keys.Usable)
    (short : ∀ piece ∈ list, piece.length ≤ maxPiece)
    (grants : Entropy.Grants list.length source) (room : number.toNat + list.length < 2 ^ 64) :
    ∃ octets after, protectPieces keys type list ⟨number, source⟩ = .ok octets after := by
  induction list generalizing number source with
  | nil => exact ⟨[], _, rfl⟩
  | cons piece list ih =>
    rw [List.length_cons] at grants room
    obtain ⟨fits, shorter⟩ := List.forall_mem_cons.mp short
    cases grants with
    | @more _ _ next start drawn later =>
      have demanded : (Entropy.demand Aes.blockLength : EStateM Error G _) source =
          .ok start next := by rw [Entropy.demand, drawn]
      obtain ⟨record, first⟩ := @protectPiece_of_demand G _ keys _ number type piece _ _ usable fits
        (by omega) demanded
      have fewer : (number + 1).toNat + list.length < 2 ^ 64 := by
        rw [toNat_succ (by omega)]
        omega
      obtain ⟨tail, after, others⟩ := ih shorter later fewer
      exact ⟨_, after, protectPieces_cons.mpr ⟨record, _, tail, first, others, rfl⟩⟩

/-- Pieces that were protected come back one by one from the records that the octets are cut into,
and the reader's number ends where the writer's does. -/
theorem unprotectAll_of_protectPieces {list : List Octets} {octets : Octets}
    (short : ∀ piece ∈ list, piece.length ≤ maxPiece)
    (made : protectPieces keys type list sealer = .ok octets after) :
    ∃ records, split octets = (records, []) ∧ records.length = list.length ∧
      (∀ entry ∈ records, Framed type entry.1 entry.2) ∧
      unprotectAll keys sealer.number (records.map Prod.snd) = .ok (list, after.number) := by
  induction list generalizing sealer octets with
  | nil =>
    obtain ⟨rfl, rfl⟩ := pure_eq_ok.mp made
    exact ⟨[], split_nil, rfl, by simp, rfl⟩
  | cons piece list ih =>
    obtain ⟨record, between, tail, first, others, rfl⟩ := protectPieces_cons.mp made
    obtain ⟨fits, shorter⟩ := List.forall_mem_cons.mp short
    obtain ⟨whole, opens⟩ := unprotect_protectPiece fits first
    obtain ⟨records, cut, count, framed, opened⟩ := ih shorter others
    refine ⟨(protectedHeader keys type piece, record) :: records, ?_, ?_, ?_, ?_⟩
    · rw [split_append whole, cut]
    · rw [List.length_cons, count, List.length_cons]
    · exact List.forall_mem_cons.mpr ⟨whole.framed, framed⟩
    · rw [List.map_cons, unprotectAll, opens]
      change (unprotectAll keys between.number (records.map Prod.snd) >>= _) = _
      rw [opened]
      rfl

end Protecting

/-- The records in the clear of a payload are its pieces, each behind its header. -/
theorem split_encodePlain (type : ContentType) (payload : Octets) :
    split (encodePlain type payload) = ((pieces payload).map fun piece =>
      (Header.ofLength type piece.length, plainRecord type piece), []) := by
  have whole : ∀ entry ∈ (pieces payload).map fun piece =>
      (Header.ofLength type piece.length, plainRecord type piece), IsWhole entry.1 entry.2 := by
    intro entry found
    obtain ⟨piece, among, rfl⟩ := List.mem_map.mp found
    exact isWhole_plainRecord (Nat.le_trans (length_le_of_mem_pieces among) (by decide))
  rw [← split_flatten whole, List.map_map, encodePlain_eq, List.flatMap]
  rfl

/-- With usable keys, a starting block for every record and as many numbers left, a payload of any
size is protected as `recordCount` records of its type, which are told apart by their headers and
open one after the other to the payload, and the numbers of both ends go on by one for each. In the
clear the same payload is as many records, with fragments of at most `maxPiece` octets. -/
theorem unprotectAll_protect {G : Type} [Entropy G] {keys : WriteKeys} (usable : keys.Usable)
    (type : ContentType) (payload : Octets) {number : UInt64} {source : G}
    (grants : Entropy.Grants (recordCount payload) source)
    (room : number.toNat + recordCount payload < 2 ^ 64) :
    (∃ octets after records contents,
      protect keys type payload ⟨number, source⟩ = .ok octets after ∧
      split octets = (records, []) ∧ records.length = recordCount payload ∧
      (∀ entry ∈ records, Framed type entry.1 entry.2) ∧
      unprotectAll keys number (records.map Prod.snd) = .ok (contents, after.number) ∧
      contents.flatten = payload ∧ after.number.toNat = number.toNat + recordCount payload) ∧
    ∃ records, split (encodePlain type payload) = (records, []) ∧
      records.length = recordCount payload ∧
      (∀ entry ∈ records, Framed type entry.1 entry.2 ∧
        (entry.2.drop headerLength).length ≤ maxPiece) ∧
      (records.map fun entry => entry.2.drop headerLength).flatten = payload := by
  rw [← length_pieces] at grants room ⊢
  constructor
  · have short : ∀ piece ∈ pieces payload, piece.length ≤ maxPiece :=
      fun _ => length_le_of_mem_pieces
    obtain ⟨octets, after, made⟩ := @exists_protectPieces keys type G _ _ _ _ usable short grants room
    obtain ⟨records, cut, count, framed, opened⟩ := unprotectAll_of_protectPieces short made
    exact ⟨octets, after, records, pieces payload, made, cut, count, framed, opened,
      pieces_flatten payload, number_of_protectPieces made⟩
  · refine ⟨_, split_encodePlain type payload, List.length_map .., ?_, ?_⟩
    · intro entry found
      obtain ⟨piece, among, rfl⟩ := List.mem_map.mp found
      have short := length_le_of_mem_pieces among
      refine ⟨(isWhole_plainRecord (Nat.le_trans short (by decide))).framed, ?_⟩
      rw [drop_plainRecord]
      exact short
    · simp only [List.map_map, Function.comp_def, drop_plainRecord, List.map_id']
      exact pieces_flatten payload

/-- One octet more than a record takes is two records, protected and in the clear. -/
theorem unprotectAll_protect_rehearsal :
    (∃ octets after records contents,
      protect rehearsalKeys .applicationData (List.replicate 16293 0)
        ⟨0, Reproducible.ofSeed 0 [] none⟩ = .ok octets after ∧
      split octets = (records, []) ∧ records.length = 2 ∧
      unprotectAll rehearsalKeys 0 (records.map Prod.snd) = .ok (contents, after.number) ∧
      contents.flatten = List.replicate 16293 0 ∧ after.number.toNat = 2) ∧
    ∃ records, split (encodePlain .applicationData (List.replicate 16293 0)) = (records, []) ∧
      records.length = 2 := by
  have count : recordCount (List.replicate 16293 0) = 2 := by
    rw [recordCount, List.length_replicate]
    rfl
  have usable : rehearsalKeys.Usable := Or.inl rfl
  have grants := (@Reproducible.lasting (.ofSeed 0 [] none) rfl).grants 2
  rw [← count] at grants
  have room : (0 : UInt64).toNat + recordCount (List.replicate 16293 0) < 2 ^ 64 := by
    rw [count]
    decide
  obtain ⟨⟨octets, after, records, contents, made, cut, total, _, opened, whole, last⟩,
    plain, plainCut, plainTotal, _, _⟩ :=
      unprotectAll_protect usable .applicationData (List.replicate 16293 0) grants room
  rw [count] at total last plainTotal
  exact ⟨⟨octets, after, records, contents, made, cut, total, opened, whole, last⟩,
    plain, plainCut, plainTotal⟩

end Record

end TransportSecurity
