import TransportSecurity.Proofs.Bytes.Reading
import TransportSecurity.Record.Framing
import TransportSecurity.Record.Plain

/-!
Records delimit themselves.

`Record.IsWhole` says that octets are one record under a header. A stream yields a record exactly if
it begins with a whole one (`next?_eq_some_iff`), so what arrived first never depends on what
follows, and a record that has not all arrived is waited for (`next?_of_part`). Records in the clear
carry the pieces of their payload in order (`pieces_flatten`).
-/

namespace TransportSecurity

variable {octets rest : Octets}

theorem Version.scan_eq_ok {version : Version} :
    Version.scan octets = .ok version rest ↔ octets = version.encode ++ rest := by
  simp only [Version.scan, bind_eq_ok, Scan.octet_eq_ok, pure_eq_ok]
  constructor
  · rintro ⟨major, _, rfl, minor, _, rfl, rfl, rfl⟩
    rfl
  · rintro rfl
    exact ⟨version.major, _, rfl, version.minor, rest, rfl, rfl, rfl⟩

namespace Record

namespace Header

/-- What a header must say to be accepted. -/
structure Acceptable (header : Header) : Prop where
  version : header.version.major = 3 ∧ header.version.minor ≤ 3
  length : header.length ≤ maxLength

@[simp] theorem length_encode (header : Header) : header.encode.length = headerLength := by
  simp [encode, Version.encode, headerLength]

theorem scan_eq_ok {header : Header} : scan octets = .ok header rest ↔
    header.Acceptable ∧ octets = header.encode ++ rest := by
  have checked : ∀ {type : ContentType} {left : Octets}, (do
      let version ← Version.scan
      if version.major ≠ 3 ∨ 3 < version.minor then
        throw (.unsupportedVersion version.major version.minor)
      let length ← Scan.number 2
      if maxLength < length then throw (.recordOverflow length)
      return ⟨type, version, length⟩ : Scan Header) left = .ok header rest ↔
        header.type = type ∧ header.Acceptable ∧
          left = header.version.encode ++ Octets.bigEndian 2 header.length ++ rest := by
    intro type left
    simp only [bind_eq_ok, Version.scan_eq_ok, ite_eq_ok, throw_eq_ok, Scan.number_eq_ok,
      pure_eq_ok, not_or, Decidable.not_not, List.append_assoc]
    constructor
    · rintro ⟨version, _, rfl, ⟨_, _, _, impossible, _⟩ | ⟨known, length, _, ⟨_, rfl⟩,
        ⟨_, _, _, impossible, _⟩ | ⟨short, rfl, rfl⟩⟩⟩
      · exact impossible.elim
      · exact impossible.elim
      · exact ⟨rfl, ⟨⟨known.1, UInt8.not_lt.mp known.2⟩, Nat.not_lt.mp short⟩, rfl⟩
    · rintro ⟨rfl, ⟨known, short⟩, rfl⟩
      have fits : header.length < 256 ^ 2 := by
        simp only [maxLength, maxFragment] at short
        omega
      exact ⟨_, _, rfl, Or.inr ⟨⟨known.1, UInt8.not_lt.mpr known.2⟩, _, _, ⟨fits, rfl⟩,
        Or.inr ⟨Nat.not_lt.mpr short, rfl, rfl⟩⟩⟩
  simp only [scan, bind_eq_ok, Scan.octet_eq_ok]
  constructor
  · rintro ⟨code, left, rfl, read⟩
    cases known : ContentType.ofCode? code with
    | none =>
      rw [known] at read
      exact (throw_eq_ok.mp read).elim
    | some type =>
      rw [known] at read
      obtain ⟨rfl, acceptable, rfl⟩ := checked.mp read
      rw [← ContentType.ofCode?_eq_some_iff.mp known]
      exact ⟨acceptable, rfl⟩
  · rintro ⟨acceptable, rfl⟩
    refine ⟨header.type.code, _, rfl, ?_⟩
    rw [ContentType.ofCode?_eq_some_iff.mpr rfl]
    exact checked.mpr ⟨rfl, acceptable, rfl⟩

theorem ofFront?_of_short (short : octets.length < headerLength) : ofFront? octets = .ok none := by
  have front : (octets.take headerLength).length < headerLength := by
    rw [List.length_take]
    omega
  exact if_pos front

/-- A header is found exactly at the front of octets that begin with it. -/
theorem ofFront?_eq_some_iff {header : Header} : ofFront? octets = .ok (some header) ↔
    header.Acceptable ∧ ∃ rest, octets = header.encode ++ rest := by
  constructor
  · intro found
    simp only [ofFront?] at found
    split at found
    · cases found
    · next long =>
      obtain ⟨⟨read, left⟩, front, same⟩ := except_bind_eq_ok.mp found
      cases same
      unfold Scan.front at front
      split at front
      · next result =>
        cases front
        obtain ⟨acceptable, spelled⟩ := scan_eq_ok.mp result
        refine ⟨acceptable, left ++ octets.drop headerLength, ?_⟩
        rw [← List.append_assoc, ← spelled, List.take_append_drop]
      · cases front
  · rintro ⟨acceptable, rest, rfl⟩
    have front : (header.encode ++ rest).take headerLength = header.encode :=
      List.take_left' (length_encode header)
    have read : scan header.encode = .ok header [] :=
      scan_eq_ok.mpr ⟨acceptable, (List.append_nil _).symm⟩
    simp only [ofFront?, front, length_encode, Nat.lt_irrefl, if_false, Scan.front, read]
    rfl

end Header

/-- Octets that are one record under a header. -/
structure IsWhole (header : Header) (record : Octets) : Prop where
  acceptable : header.Acceptable
  length : record.length = header.recordLength
  front : record.take headerLength = header.encode

variable {header : Header} {record : Octets}

theorem IsWhole.eq (whole : IsWhole header record) :
    record = header.encode ++ record.drop headerLength := by
  conv => lhs; rw [← List.take_append_drop headerLength record, whole.front]

theorem IsWhole.ofFront? (whole : IsWhole header record) (rest : Octets) :
    Header.ofFront? (record ++ rest) = .ok (some header) := by
  refine Header.ofFront?_eq_some_iff.mpr ⟨whole.acceptable, record.drop headerLength ++ rest, ?_⟩
  rw [← List.append_assoc, ← whole.eq]

theorem IsWhole.ne_nil (whole : IsWhole header record) : record ≠ [] := by
  rintro rfl
  have length := whole.length
  simp only [List.length_nil, Header.recordLength, headerLength] at length
  omega

theorem isWhole_encode {fragment : Octets} (acceptable : header.Acceptable)
    (length : fragment.length = header.length) : IsWhole header (header.encode ++ fragment) := by
  refine ⟨acceptable, ?_, List.take_left' (Header.length_encode header)⟩
  rw [List.length_append, Header.length_encode, length, Header.recordLength]

/-- A stream yields a record exactly if it begins with a whole one. -/
theorem next?_eq_some_iff : next? octets = .ok (some (header, record, rest)) ↔
    IsWhole header record ∧ octets = record ++ rest := by
  constructor
  · intro found
    obtain ⟨whole, length⟩ := next?_eq_some found
    have front : Header.ofFront? octets = .ok (some header) := by
      unfold next? at found
      split at found
      · cases found
      · cases found
      · next read =>
        dsimp only at found
        split at found
        · cases found
        · rw [read, (Prod.mk.inj (Option.some.inj (Except.ok.inj found))).1]
    obtain ⟨acceptable, left, spelled⟩ := Header.ofFront?_eq_some_iff.mp front
    refine ⟨⟨acceptable, length, ?_⟩, whole.symm⟩
    have long : headerLength ≤ record.length := by
      rw [length, Header.recordLength]
      omega
    rw [← List.take_append_of_le_length long, whole, spelled]
    exact List.take_left' (Header.length_encode header)
  · rintro ⟨whole, rfl⟩
    have taken : (record ++ rest).take header.recordLength = record :=
      List.take_left' whole.length
    have dropped : (record ++ rest).drop header.recordLength = rest :=
      List.drop_left' whole.length
    simp only [next?, whole.ofFront? rest, taken, dropped, whole.length, Nat.lt_irrefl, if_false]

/-- A stream begins with one record only. -/
theorem IsWhole.append_inj {other : Header} {second tail : Octets} (whole : IsWhole header record)
    (also : IsWhole other second) (same : record ++ rest = second ++ tail) :
    header = other ∧ record = second ∧ rest = tail := by
  have found := next?_eq_some_iff.mpr ⟨whole, same.symm⟩
  rw [next?_eq_some_iff.mpr ⟨also, rfl⟩] at found
  cases found
  exact ⟨rfl, rfl, rfl⟩

/-- A part of a record is waited for. -/
theorem next?_of_part {part : Octets} (whole : IsWhole header (part ++ rest)) (more : rest ≠ []) :
    next? part = .ok none := by
  have positive := List.length_pos_iff.mpr more
  have length := whole.length
  rw [List.length_append] at length
  by_cases short : part.length < headerLength
  · simp only [next?, Header.ofFront?_of_short short]
  · have long : headerLength ≤ part.length := Nat.le_of_not_lt short
    have front : Header.ofFront? part = .ok (some header) := by
      refine Header.ofFront?_eq_some_iff.mpr ⟨whole.acceptable, part.drop headerLength, ?_⟩
      rw [← whole.front, List.take_append_of_le_length long, List.take_append_drop]
    have unfinished : (part.take header.recordLength).length < header.recordLength := by
      rw [List.length_take]
      omega
    simp only [next?, front, unfinished, if_true]

section Plain

/-- One record in the clear. -/
def plainRecord (type : ContentType) (piece : Octets) : Octets :=
  (Header.ofLength type piece.length).encode ++ piece

theorem isWhole_plainRecord {type : ContentType} {piece : Octets}
    (short : piece.length ≤ maxLength) :
    IsWhole (Header.ofLength type piece.length) (plainRecord type piece) :=
  isWhole_encode ⟨⟨rfl, Nat.le_refl 3⟩, short⟩ rfl

theorem drop_plainRecord (type : ContentType) (piece : Octets) :
    (plainRecord type piece).drop headerLength = piece :=
  List.drop_left' (Header.length_encode _)

theorem pieces_flatten (payload : Octets) : (pieces payload).flatten = payload := by
  fun_induction pieces payload with
  | case1 => simp
  | case2 payload rest more ih => rw [List.flatten_cons, ih, List.take_append_drop]

theorem pieces_ne_nil (payload : Octets) : pieces payload ≠ [] := by
  rw [pieces]
  split <;> exact List.cons_ne_nil _ _

theorem length_le_of_mem_pieces {payload piece : Octets} (found : piece ∈ pieces payload) :
    piece.length ≤ maxPiece := by
  revert found
  fun_induction pieces payload with
  | case1 payload rest last =>
    intro found
    rw [List.mem_singleton.mp found]
    have nothing : rest.length = 0 := by rw [List.isEmpty_iff.mp last, List.length_nil]
    rw [List.length_drop] at nothing
    omega
  | case2 payload rest more ih =>
    intro found
    rcases List.mem_cons.mp found with rfl | found
    · exact List.length_take_le ..
    · exact ih found

theorem encodePlain_eq (type : ContentType) (payload : Octets) :
    encodePlain type payload = (pieces payload).flatMap (plainRecord type) := rfl

/-- A payload that fits is one piece. -/
theorem pieces_of_short {payload : Octets} (short : payload.length ≤ maxPiece) :
    pieces payload = [payload] := by
  rw [pieces]
  simp [short]

end Plain

end Record

end TransportSecurity
