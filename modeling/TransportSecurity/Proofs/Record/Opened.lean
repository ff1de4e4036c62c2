import TransportSecurity.Proofs.Record.Delimited
import TransportSecurity.Record.Protection

/-!
What one end protects, the other opens.

`IsProtected` says how a protected record is put together. Such a record is whole, and under the same
keys and number it opens to its content (`IsProtected.unprotect`). `protectPiece_eq_ok` says what it
takes to make one, and `unprotect_protectPiece` that both ends' numbers go on together.
-/

namespace TransportSecurity

/-- Keys of a length that the cipher takes. -/
def WriteKeys.Usable (keys : WriteKeys) : Prop :=
  keys.cipherKey.length = 16 ∨ keys.cipherKey.length = 32

namespace Record

variable {keys : WriteKeys} {number next : UInt64} {type : ContentType}

theorem toNat_succ (room : number.toNat + 1 < 2 ^ 64) : (number + 1).toNat = number.toNat + 1 := by
  rw [UInt64.toNat_add]
  exact Nat.mod_eq_of_lt room

theorem nextNumber_eq_ok : nextNumber number = .ok next ↔ next.toNat = number.toNat + 1 := by
  unfold nextNumber
  split
  · next small =>
    constructor
    · rintro ⟨⟩
      exact toNat_succ small
    · intro same
      rw [UInt64.toNat_inj.mp (same.trans (toNat_succ small).symm)]
  · next large =>
    constructor
    · rintro ⟨⟩
    · intro same
      have := next.toNat_lt
      omega

theorem tag_eq_ok {version : Version} {fragment given : Octets} :
    tag keys number type version fragment = .ok given ↔ ∃ header,
      tagHeader number type version fragment.length = .ok header ∧
      keys.mac.tag keys.macKey (header ++ fragment) = given := by
  simp only [tag, except_bind_eq_ok, except_pure_eq_ok, MacAlgorithm.tagOfTwo_eq]

/-- A tag that was made is accepted. -/
theorem checkTag_tag {version : Version} {fragment given : Octets}
    (made : tag keys number type version fragment = .ok given) :
    checkTag keys number type version fragment given = .ok () := by
  obtain ⟨header, headed, rfl⟩ := tag_eq_ok.mp made
  refine except_bind_eq_ok.mpr ⟨header, headed, ?_⟩
  rw [if_pos (Octets.same_iff.mpr rfl)]
  rfl

/-- Another tag is not. -/
theorem checkTag_of_ne {version : Version} {fragment own given : Octets}
    (made : tag keys number type version fragment = .ok own) (other : own ≠ given) :
    checkTag keys number type version fragment given = .error .badRecordMac := by
  obtain ⟨header, headed, rfl⟩ := tag_eq_ok.mp made
  rw [checkTag, headed]
  exact if_neg fun same => other (Octets.same_iff.mp same)

theorem length_of_tag {version : Version} {fragment given : Octets}
    (made : tag keys number type version fragment = .ok given) :
    given.length = keys.macLength := by
  obtain ⟨header, headed, rfl⟩ := tag_eq_ok.mp made
  exact MacAlgorithm.length_tag ..

theorem encrypted_eq_ok {start content record : Octets} :
    encrypted keys type start content = .ok record ↔ ∃ ciphertext,
      Aes.encryptOctets keys.cipherKey start (content ++ padding content.length) = .ok ciphertext ∧
      (Header.ofLength type (start.length + ciphertext.length)).encode ++ (start ++ ciphertext) =
        record := by
  simp only [encrypted, except_bind_eq_ok, except_pure_eq_ok]

section Protecting

variable {G : Type} [Entropy G] {sealer after : Sealer G}

theorem drawStart_eq_ok {start : Fixed Aes.blockLength} : drawStart sealer = .ok start after ↔
    Entropy.demand Aes.blockLength sealer.source = .ok start after.source ∧
      after.number = sealer.number := by
  obtain ⟨number, source⟩ := sealer
  obtain ⟨number', source'⟩ := after
  unfold drawStart
  cases Entropy.demand Aes.blockLength source with
  | error => simp
  | ok drawn left =>
    simp only [EStateM.Result.ok.injEq, Sealer.mk.injEq]
    constructor
    · rintro ⟨rfl, rfl, rfl⟩
      exact ⟨⟨rfl, rfl⟩, rfl⟩
    · rintro ⟨⟨rfl, rfl⟩, rfl⟩
      exact ⟨rfl, rfl, rfl⟩

/-- A protected record takes a tag under the number, a starting block, and a number after it. -/
theorem protectPiece_eq_ok {piece record : Octets} :
    protectPiece keys type piece sealer = .ok record after ↔ ∃ given start,
      tag keys sealer.number type .current piece = .ok given ∧
      Entropy.demand Aes.blockLength sealer.source = .ok start after.source ∧
      encrypted keys type start.val (piece ++ given) = .ok record ∧
      nextNumber sealer.number = .ok after.number := by
  simp only [protectPiece, bind_eq_ok, get_eq_ok, ofExcept_eq_ok, drawStart_eq_ok, modify_eq_ok,
    pure_eq_ok]
  constructor
  · rintro ⟨_, _, ⟨rfl, rfl⟩, given, _, ⟨made, rfl⟩, start, drawn, ⟨draws, _⟩, _, _,
      ⟨encrypts, rfl⟩, next, _, ⟨numbered, rfl⟩, _, _, rfl, rfl, rfl⟩
    exact ⟨given, start, made, draws, encrypts, numbered⟩
  · rintro ⟨given, start, made, draws, encrypts, numbered⟩
    exact ⟨_, _, ⟨rfl, rfl⟩, given, _, ⟨made, rfl⟩, start, ⟨sealer.number, after.source⟩,
      ⟨draws, rfl⟩, record, _, ⟨encrypts, rfl⟩, after.number, _, ⟨numbered, rfl⟩, (), _, rfl, rfl,
      rfl⟩

/-- A piece that cannot be protected uses up no number. -/
theorem number_of_error {piece : Octets} {error : Error}
    (failed : protectPiece keys type piece sealer = .error error after) :
    after.number = sealer.number := by
  simp only [protectPiece, bind_eq_error, get_eq_ok, get_eq_error, ofExcept_eq_error,
    ofExcept_eq_ok, drawStart_eq_ok, modify_eq_error, pure_eq_error, false_or, or_false, and_false,
    exists_false] at failed
  obtain ⟨_, _, ⟨rfl, rfl⟩, ⟨_, rfl⟩ | ⟨_, _, ⟨_, rfl⟩, undrawn | ⟨_, drawn, ⟨_, number⟩,
    ⟨_, rfl⟩ | ⟨_, _, ⟨_, rfl⟩, _, rfl⟩⟩⟩⟩ := failed
  · rfl
  · unfold drawStart at undrawn
    split at undrawn
    · cases undrawn
    · cases undrawn
      rfl
  · exact number
  · exact number

theorem protectPieces_cons {piece octets : Octets} {rest : List Octets} :
    protectPieces keys type (piece :: rest) sealer = .ok octets after ↔ ∃ record between tail,
      protectPiece keys type piece sealer = .ok record between ∧
      protectPieces keys type rest between = .ok tail after ∧ record ++ tail = octets := by
  simp only [protectPieces, bind_eq_ok, pure_eq_ok]
  constructor
  · rintro ⟨record, between, first, tail, _, others, rfl, rfl⟩
    exact ⟨record, between, tail, first, others, rfl⟩
  · rintro ⟨record, between, tail, first, others, rfl⟩
    exact ⟨record, between, first, tail, after, others, rfl, rfl⟩

/-- Pieces fail with the first that does, after those before it were protected. -/
theorem protectPieces_eq_error {list : List Octets} :
    protectPieces keys type list sealer = .error error after ↔ ∃ done piece rest octets between,
      list = done ++ piece :: rest ∧ protectPieces keys type done sealer = .ok octets between ∧
      protectPiece keys type piece between = .error error after := by
  constructor
  · intro failed
    induction list generalizing sealer with
    | nil => exact (pure_eq_error.mp failed).elim
    | cons piece list ih =>
      simp only [protectPieces, bind_eq_error, pure_eq_error, and_false, exists_false, or_false]
        at failed
      rcases failed with failed | ⟨record, between, first, failed⟩
      · exact ⟨[], piece, list, [], sealer, rfl, rfl, failed⟩
      · obtain ⟨done, failing, rest, octets, last, rfl, others, failed⟩ := ih failed
        exact ⟨piece :: done, failing, rest, _, last, rfl,
          protectPieces_cons.mpr ⟨record, between, octets, first, others, rfl⟩, failed⟩
  · rintro ⟨done, piece, rest, octets, between, rfl, made, failed⟩
    induction done generalizing sealer octets with
    | nil =>
      obtain ⟨_, rfl⟩ := pure_eq_ok.mp made
      exact bind_of_error failed
    | cons first done ih =>
      obtain ⟨record, next, tail, one, others, _⟩ := protectPieces_cons.mp made
      rw [List.cons_append, protectPieces, bind_of_ok one]
      exact bind_of_error (ih _ others)

/-- A piece takes one number. -/
theorem number_of_protectPiece {piece record : Octets}
    (made : protectPiece keys type piece sealer = .ok record after) :
    after.number = sealer.number + 1 := by
  obtain ⟨_, _, _, _, _, numbered⟩ := protectPiece_eq_ok.mp made
  have next := nextNumber_eq_ok.mp numbered
  have bound := after.number.toNat_lt
  refine UInt64.toNat_inj.mp (next.trans (toNat_succ ?_).symm)
  omega

/-- Each piece takes one number. -/
theorem number_of_protectPieces {list : List Octets} {octets : Octets}
    (made : protectPieces keys type list sealer = .ok octets after) :
    after.number.toNat = sealer.number.toNat + list.length := by
  induction list generalizing sealer octets with
  | nil =>
    obtain ⟨_, rfl⟩ := pure_eq_ok.mp made
    rfl
  | cons piece list ih =>
    obtain ⟨record, between, tail, first, others, _⟩ := protectPieces_cons.mp made
    obtain ⟨_, _, _, _, _, numbered⟩ := protectPiece_eq_ok.mp first
    rw [ih others, nextNumber_eq_ok.mp numbered, List.length_cons]
    omega

/-- Numbers never go back, also when only some of the pieces can be protected. -/
theorem number_le_of_error {list : List Octets} {error : Error}
    (failed : protectPieces keys type list sealer = .error error after) :
    sealer.number.toNat ≤ after.number.toNat := by
  induction list generalizing sealer with
  | nil => exact (pure_eq_error.mp failed).elim
  | cons piece list ih =>
    simp only [protectPieces, bind_eq_error, pure_eq_error, and_false, exists_false, or_false]
      at failed
    rcases failed with failed | ⟨record, between, first, failed⟩
    · exact Nat.le_of_eq (congrArg UInt64.toNat (number_of_error failed)).symm
    · obtain ⟨_, _, _, _, _, numbered⟩ := protectPiece_eq_ok.mp first
      have later := ih failed
      rw [nextNumber_eq_ok.mp numbered] at later
      omega

end Protecting

theorem paddingValue_lt (length : Nat) : paddingValue length < Aes.blockLength := by
  simp only [paddingValue, Aes.blockLength]
  omega

theorem length_padding (length : Nat) : (padding length).length = paddingValue length + 1 := by
  rw [padding, List.length_replicate]

/-- Padding brings octets to whole blocks. -/
theorem length_padded_mod (length : Nat) :
    (length + (paddingValue length + 1)) % Aes.blockLength = 0 := by
  simp only [paddingValue, Aes.blockLength]
  omega

/-- A plaintext that comes apart is a content, a tag, and padding octets that all say how many of
them there are besides the last. -/
theorem eq_append_of_unpad? {macLength : Nat} {plaintext content given : Octets}
    (found : unpad? macLength plaintext = some (content, given)) :
    given.length = macLength ∧ content.length ≤ maxFragment ∧ ∃ value < Aes.blockLength,
      plaintext = content ++ given ++ List.replicate (value + 1) (UInt8.ofNat value) := by
  simp only [unpad?, Option.bind_eq_bind, Option.bind_eq_some_iff, Option.ite_none_left_eq_some,
    Option.ite_none_right_eq_some, Option.some.injEq, Prod.mk.injEq, Nat.not_lt] at found
  obtain ⟨last, _, small, long, short, alike, rfl, rfl⟩ := found
  have front : plaintext.length - (last.toNat + 1) - macLength + macLength =
      plaintext.length - (last.toNat + 1) := by omega
  rw [front] at alike
  have padded : plaintext.drop (plaintext.length - (last.toNat + 1)) =
      List.replicate (last.toNat + 1) last := by
    refine List.eq_replicate_iff.mpr ⟨?_, fun octet mem => ?_⟩
    · rw [List.length_drop]
      omega
    · exact of_decide_eq_true (List.all_eq_true.mp alike octet mem)
  refine ⟨?_, ?_, last.toNat, small, ?_⟩
  · rw [List.length_take, List.length_drop]
    omega
  · rw [List.length_take]
    omega
  · rw [UInt8.ofNat_toNat, ← padded, ← List.take_add, front, List.take_append_drop]

/-- Whatever is put together so comes apart again. -/
theorem unpad?_append {macLength value : Nat} {content given : Octets}
    (length : given.length = macLength) (short : content.length ≤ maxFragment)
    (small : value < Aes.blockLength) :
    unpad? macLength (content ++ given ++ List.replicate (value + 1) (UInt8.ofNat value)) =
      some (content, given) := by
  have octet : (UInt8.ofNat value).toNat = value := by
    rw [UInt8.toNat_ofNat']
    simp only [Aes.blockLength] at small
    omega
  generalize padded : List.replicate (value + 1) (UInt8.ofNat value) = padding
  have total : padding.length = value + 1 := by rw [← padded, List.length_replicate]
  have last : (content ++ given ++ padding).getLast? = some (UInt8.ofNat value) := by
    rw [← padded, List.replicate_succ', ← List.append_assoc, List.getLast?_concat]
  have before : (content ++ given ++ padding).length - (value + 1) - macLength =
      content.length := by
    rw [List.length_append, List.length_append, total]
    omega
  have alike : ((content ++ given ++ padding).drop (content.length + macLength)).all
      (· = UInt8.ofNat value) = true := by
    have front : (content ++ given).length = content.length + macLength := by
      rw [List.length_append, length]
    rw [← front, List.drop_left, ← padded]
    simp
  have front : (content ++ given ++ padding).take content.length = content := by
    rw [List.append_assoc, List.take_left]
  have back : ((content ++ given ++ padding).drop content.length).take macLength = given := by
    rw [List.append_assoc, List.drop_left, ← length, List.take_left]
  have few : ¬ Aes.blockLength < value + 1 := Nat.not_lt.mpr small
  have long : ¬ (content ++ given ++ padding).length < value + 1 + macLength := by
    rw [List.length_append, List.length_append, total]
    omega
  simp only [unpad?, last, octet, Option.bind_eq_bind, Option.bind_some, few, if_false, long,
    before, Nat.not_lt.mpr short, alike, if_true, front, back]

/-- Padding is found again, and with it content and tag. -/
theorem unpad?_padding {content given : Octets} {macLength : Nat}
    (length : given.length = macLength) (short : content.length ≤ maxFragment) :
    unpad? macLength (content ++ given ++ padding (content ++ given).length) =
      some (content, given) :=
  unpad?_append length short (paddingValue_lt _)

section Decrypted

variable {record plaintext : Octets} {header : Header}
  (found : Header.ofFront? record = .ok (some header))
  (length : record.length = header.recordLength)
  (enough : ¬ (record.length < minProtectedLength keys.macLength ∨
    header.length % Aes.blockLength ≠ 0))
  (decrypted : Aes.decryptOctets keys.cipherKey ((record.drop headerLength).take Aes.blockLength)
    ((record.drop headerLength).drop Aes.blockLength) = .ok plaintext)
include found length enough decrypted

/-- A record whose header and length are in order is judged by what it decrypts to. -/
theorem unprotect_of_decrypted : unprotect keys number record =
    match unpad? keys.macLength plaintext with
    | none => .error .badRecordMac
    | some (content, given) =>
      match checkTag keys number header.type header.version content given with
      | .error _ => .error .badRecordMac
      | .ok () => do return (content, ← nextNumber number) := by
  rw [unprotect, found]
  change (if record.length ≠ header.recordLength then _ else _) = _
  rw [if_neg (not_not_intro length)]
  change (if _ then _ else _) = _
  rw [if_neg enough]
  change (_ >>= _) = _
  rw [decrypted]
  dsimp only [bind, Except.bind]
  cases unpad? keys.macLength plaintext <;> rfl

/-- If its padding is in order too, it is judged by its tag. -/
theorem unprotect_of_unpad? {content given : Octets}
    (unpadded : unpad? keys.macLength plaintext = some (content, given)) :
    unprotect keys number record =
      match checkTag keys number header.type header.version content given with
      | .error _ => .error .badRecordMac
      | .ok () => do return (content, ← nextNumber number) := by
  rw [unprotect_of_decrypted found length enough decrypted, unpadded]

end Decrypted

/-- A record decrypts to content and a tag behind it; whether the tag is in order is not asked. -/
def Holds (keys : WriteKeys) (record content given : Octets) : Prop := ∃ plaintext,
  Aes.decryptOctets keys.cipherKey ((record.drop headerLength).take Aes.blockLength)
    ((record.drop headerLength).drop Aes.blockLength) = .ok plaintext ∧
  unpad? keys.macLength plaintext = some (content, given)

theorem Holds.inj {record content content' given given' : Octets}
    (holds : Holds keys record content given) (holds' : Holds keys record content' given') :
    content = content' ∧ given = given' := by
  obtain ⟨_, decrypted, unpadded⟩ := holds
  obtain ⟨_, decrypted', unpadded'⟩ := holds'
  cases decrypted.symm.trans decrypted'
  cases unpadded.symm.trans unpadded'
  exact ⟨rfl, rfl⟩

/-- A protected record opens if its header, its padding and its tag hold. -/
theorem unprotect_eq_ok {record content : Octets} :
    unprotect keys number record = .ok (content, next) ↔ ∃ header plaintext given,
      Header.ofFront? record = .ok (some header) ∧ record.length = header.recordLength ∧
      ¬ (record.length < minProtectedLength keys.macLength ∨
        header.length % Aes.blockLength ≠ 0) ∧
      Aes.decryptOctets keys.cipherKey ((record.drop headerLength).take Aes.blockLength)
        ((record.drop headerLength).drop Aes.blockLength) = .ok plaintext ∧
      unpad? keys.macLength plaintext = some (content, given) ∧
      checkTag keys number header.type header.version content given = .ok () ∧
      nextNumber number = .ok next := by
  constructor
  · intro opened
    simp only [unprotect, except_bind_eq_ok] at opened
    obtain ⟨header?, found, opened⟩ := opened
    cases header? with
    | none => exact (except_throw_eq_ok.mp opened).elim
    | some header =>
      simp only [except_ite_eq_ok, except_bind_eq_ok, except_throw_eq_ok, false_and, exists_false,
        and_false, false_or, Decidable.not_not] at opened
      obtain ⟨length, long, plaintext, decrypted, opened⟩ := opened
      cases unpadded : unpad? keys.macLength plaintext with
      | none =>
        rw [unpadded] at opened
        exact (except_throw_eq_ok.mp opened).elim
      | some pair =>
        obtain ⟨inner, given⟩ := pair
        rw [unpadded] at opened
        dsimp only at opened
        split at opened
        · exact (except_throw_eq_ok.mp opened).elim
        · next checked =>
          obtain ⟨_, numbered, same⟩ := except_bind_eq_ok.mp opened
          cases same
          exact ⟨header, plaintext, given, found, length, long, decrypted,
            unpadded, checked, numbered⟩
  · rintro ⟨header, plaintext, given, found, length, long, decrypted, unpadded, checked, numbered⟩
    rw [unprotect_of_unpad? found length long decrypted unpadded, checked, numbered]
    rfl

/-- What opens holds its content and a tag that is in order under its number. -/
theorem holds_of_unprotect {record content : Octets} {header : Header}
    (whole : IsWhole header record)
    (opened : unprotect keys number record = .ok (content, next)) : ∃ given,
      Holds keys record content given ∧
      checkTag keys number header.type header.version content given = .ok () := by
  obtain ⟨other, plaintext, given, found, _, _, decrypted, unpadded, checked, _⟩ :=
    unprotect_eq_ok.mp opened
  have same := whole.ofFront? []
  rw [List.append_nil] at same
  cases found.symm.trans same
  exact ⟨given, ⟨plaintext, decrypted, unpadded⟩, checked⟩

/-- What opens leaves the number after its own. -/
theorem number_of_unprotect {record content : Octets}
    (opened : unprotect keys number record = .ok (content, next)) :
    next.toNat = number.toNat + 1 := by
  obtain ⟨_, _, _, _, _, _, _, _, _, numbered⟩ := unprotect_eq_ok.mp opened
  exact nextNumber_eq_ok.mp numbered

/-- What it takes for a record to be a content's under a number: a header that can stand in front of
a record and that says the right length, any starting block, and the content with its tag and the
one padding there is, encrypted. -/
structure IsProtected (keys : WriteKeys) (number : UInt64) (header : Header)
    (content record : Octets) : Prop where
  version : header.version.major = 3 ∧ header.version.minor ≤ 3
  short : content.length ≤ maxFragment
  made : ∃ (start : Fixed Aes.blockLength) (given ciphertext : Octets),
    tag keys number header.type header.version content = .ok given ∧
    Aes.encryptOctets keys.cipherKey start.val
      (content ++ given ++ padding (content.length + keys.macLength)) = .ok ciphertext ∧
    header.length = start.val.length + ciphertext.length ∧
    record = header.encode ++ (start.val ++ ciphertext)

namespace IsProtected

variable {header : Header} {content record : Octets}

/-- The length in the header is that of the starting block, the content, the tag and the padding. -/
theorem length_eq (protects : IsProtected keys number header content record) :
    header.length = Aes.blockLength + (content.length + keys.macLength +
      (paddingValue (content.length + keys.macLength) + 1)) := by
  obtain ⟨start, given, ciphertext, tagged, enciphered, length, _⟩ := protects.made
  rw [length, start.property, (Aes.decryptOctets_encryptOctets enciphered).2, List.length_append,
    List.length_append, length_padding, length_of_tag tagged]

/-- The longest content under the longer tag fills a record to its limit, and none exceeds it. -/
theorem isWhole (protects : IsProtected keys number header content record) :
    IsWhole header record := by
  have short := protects.short
  have length := protects.length_eq
  have tagShort : keys.macLength = 20 ∨ keys.macLength = 32 := by
    rw [WriteKeys.macLength]
    cases keys.mac <;> decide
  obtain ⟨start, given, ciphertext, _, _, total, rfl⟩ := protects.made
  refine isWhole_encode ⟨protects.version, ?_⟩ (by rw [List.length_append, total])
  simp only [paddingValue, Aes.blockLength, maxFragment, maxLength] at length short ⊢
  omega

/-- Such a record is judged by its tag alone, under whatever number it is opened. -/
theorem judged (protects : IsProtected keys number header content record) : ∃ given,
    tag keys number header.type header.version content = .ok given ∧
    ∀ other, unprotect keys other record =
      match checkTag keys other header.type header.version content given with
      | .error _ => .error .badRecordMac
      | .ok () => do return (content, ← nextNumber other) := by
  have whole := protects.isWhole
  have length := protects.length_eq
  have blocks := length_padded_mod (content.length + keys.macLength)
  have found := whole.ofFront? []
  rw [List.append_nil] at found
  have enough : ¬ (record.length < minProtectedLength keys.macLength ∨
      header.length % Aes.blockLength ≠ 0) := by
    rw [whole.length, Header.recordLength, minProtectedLength, length]
    simp only [Aes.blockLength] at blocks ⊢
    omega
  obtain ⟨start, given, ciphertext, tagged, enciphered, _, rfl⟩ := protects.made
  have tagLength := length_of_tag tagged
  have unpadded := unpad?_padding tagLength protects.short
  rw [List.length_append, tagLength] at unpadded
  have dropped : (header.encode ++ (start.val ++ ciphertext)).drop headerLength =
      start.val ++ ciphertext := List.drop_left' (Header.length_encode _)
  refine ⟨given, tagged, fun other =>
    unprotect_of_unpad? found whole.length enough ?_ unpadded⟩
  rw [dropped, List.take_left' start.property, List.drop_left' start.property]
  exact (Aes.decryptOctets_encryptOctets enciphered).1

/-- Such a record opens to its content. -/
theorem unprotect (protects : IsProtected keys number header content record)
    (numbered : nextNumber number = .ok next) :
    unprotect keys number record = .ok (content, next) := by
  obtain ⟨given, tagged, judged⟩ := protects.judged
  rw [judged, checkTag_tag tagged, numbered]
  rfl

end IsProtected

section Opening

variable {G : Type} [Entropy G] {sealer after : Sealer G} {piece record : Octets}

/-- The header of a protected record around a piece. -/
def protectedHeader (keys : WriteKeys) (type : ContentType) (piece : Octets) : Header :=
  let length := piece.length + keys.macLength
  Header.ofLength type (Aes.blockLength + (length + (paddingValue length + 1)))

/-- What is made of a piece is a protected record. -/
theorem isProtected_protectPiece (short : piece.length ≤ maxPiece)
    (made : protectPiece keys type piece sealer = .ok record after) :
    IsProtected keys sealer.number (protectedHeader keys type piece) piece record := by
  obtain ⟨given, start, tagged, _, encrypts, numbered⟩ := protectPiece_eq_ok.mp made
  obtain ⟨ciphertext, enciphered, rfl⟩ := encrypted_eq_ok.mp encrypts
  have total : (piece ++ given).length = piece.length + keys.macLength := by
    rw [List.length_append, length_of_tag tagged]
  have body : start.val.length + ciphertext.length = (protectedHeader keys type piece).length := by
    rw [start.property, (Aes.decryptOctets_encryptOctets enciphered).2, List.length_append,
      length_padding, total]
    rfl
  rw [total] at enciphered
  refine ⟨⟨rfl, Nat.le_refl 3⟩, Nat.le_trans short (by decide), start, given, ciphertext, tagged,
    enciphered, body.symm, ?_⟩
  rw [body]
  rfl

/-- A protected record is whole, and opens under the number it was made under. -/
theorem unprotect_protectPiece (short : piece.length ≤ maxPiece)
    (made : protectPiece keys type piece sealer = .ok record after) :
    IsWhole (protectedHeader keys type piece) record ∧
      unprotect keys sealer.number record = .ok (piece, after.number) := by
  have protects := isProtected_protectPiece short made
  obtain ⟨_, _, _, _, _, numbered⟩ := protectPiece_eq_ok.mp made
  exact ⟨protects.isWhole, protects.unprotect numbered⟩

end Opening

end Record

end TransportSecurity
