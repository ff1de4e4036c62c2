import TransportSecurity.Proofs.BlockCipher.Inverse
import TransportSecurity.Proofs.Record.Opened
import TransportSecurity.Proofs.Session.Dispatch

/-!
A protected record is accepted only as it would have been made.

Each check that opening makes is inverted: decrypted octets are the encryption of what they decrypt
to, what passes for padding is the padding that the length calls for (`eq_append_of_unpad?`), and a
tag that is accepted is the tag that would be given. So what opens is protected
(`isProtected_of_unprotect`), and with `IsProtected.unprotect` nothing else is told apart: a content
has its records under a number, one for each header and starting block, and every other string of
octets is an error that leaves the number as it was.
-/

namespace TransportSecurity

namespace Record

variable {keys : WriteKeys} {number next : UInt64} {record content : Octets}

/-- Before a whole number of blocks ends there is one padding only. -/
theorem eq_paddingValue {length value : Nat} (small : value < Aes.blockLength)
    (blocks : (length + (value + 1)) % Aes.blockLength = 0) : value = paddingValue length := by
  simp only [paddingValue, Aes.blockLength] at small blocks ⊢
  omega

theorem eq_of_checkTag {type : ContentType} {version : Version} {given : Octets}
    (checked : checkTag keys number type version content given = .ok ()) :
    tag keys number type version content = .ok given := by
  obtain ⟨header, headed, same⟩ := except_bind_eq_ok.mp checked
  split at same
  · next equal => exact tag_eq_ok.mpr ⟨header, headed, Octets.same_iff.mp equal⟩
  · cases same

/-- What opens was protected, under the header in front of it. -/
theorem isProtected_of_unprotect (opened : unprotect keys number record = .ok (content, next)) :
    ∃ header, IsProtected keys number header content record := by
  obtain ⟨header, plaintext, given, found, length, enough, decrypted, unpadded, checked, _⟩ :=
    unprotect_eq_ok.mp opened
  obtain ⟨acceptable, fragment, rfl⟩ := Header.ofFront?_eq_some_iff.mp found
  rw [List.drop_left' (Header.length_encode header)] at decrypted
  rw [List.length_append, Header.length_encode, Header.recordLength] at length
  simp only [List.length_append, Header.length_encode, minProtectedLength, not_or, Nat.not_lt,
    Decidable.not_not] at enough
  obtain ⟨tagLength, short, value, small, rfl⟩ := eq_append_of_unpad? unpadded
  have enciphered := Aes.decryptOctets_eq_ok.mp decrypted
  have start : (fragment.take Aes.blockLength).length = Aes.blockLength := by
    rw [List.length_take]
    omega
  have total := (Aes.decryptOctets_encryptOctets enciphered).2
  have blocks : (content.length + keys.macLength + (value + 1)) % Aes.blockLength = 0 := by
    rw [List.length_append, List.length_append, List.length_replicate, tagLength,
      List.length_drop] at total
    simp only [Aes.blockLength] at enough total ⊢
    omega
  have only := eq_paddingValue small blocks
  rw [only, ← padding] at enciphered
  refine ⟨header, acceptable.version, short, ⟨_, start⟩, given, fragment.drop Aes.blockLength,
    eq_of_checkTag checked, enciphered, ?_, by rw [List.take_append_drop]⟩
  rw [← List.length_append, List.take_append_drop]
  omega

/-- A record is accepted exactly if it protects a content under the number, and then the next number
is the one after. -/
theorem unprotect_iff_isProtected (before : number.toNat < 2 ^ 64 - 1) :
    unprotect keys number record = .ok (content, next) ↔
      next = number + 1 ∧ ∃ header, IsProtected keys number header content record := by
  have numbered : nextNumber number = .ok (number + 1) := if_pos (by omega)
  constructor
  · intro opened
    obtain ⟨_, _, _, _, _, _, _, _, _, follows⟩ := unprotect_eq_ok.mp opened
    cases numbered.symm.trans follows
    exact ⟨rfl, isProtected_of_unprotect opened⟩
  · rintro ⟨rfl, header, protects⟩
    exact protects.unprotect numbered

/-- Every content that is not too long has a record under every number, of every type and version
that a header can have, and from every starting block. -/
theorem exists_isProtected (usable : keys.Usable) (number : UInt64) (type : ContentType)
    {version : Version} (known : version.major = 3 ∧ version.minor ≤ 3)
    (start : Fixed Aes.blockLength) (short : content.length ≤ maxFragment) :
    ∃ header record, header.type = type ∧ header.version = version ∧
      (record.drop headerLength).take Aes.blockLength = start.val ∧
      IsProtected keys number header content record := by
  have fits : content.length < 2 ^ 16 := by
    rw [maxFragment] at short
    omega
  obtain ⟨given, tagged⟩ : ∃ given, tag keys number type version content = .ok given :=
    ⟨_, tag_eq_ok.mpr ⟨_, if_pos fits, rfl⟩⟩
  have blocks := length_padded_mod (content.length + keys.macLength)
  rw [← length_padding, ← length_of_tag tagged, ← List.length_append, ← List.length_append]
    at blocks
  obtain ⟨ciphertext, enciphered⟩ := Aes.encryptOctets_eq_ok usable start.property blocks
  rw [List.length_append, length_of_tag tagged] at enciphered
  refine ⟨⟨type, version, start.val.length + ciphertext.length⟩, _, rfl, rfl, ?_,
    known, short, start, given, ciphertext, tagged, enciphered, rfl, rfl⟩
  rw [List.drop_left' (Header.length_encode _), List.take_left' start.property]

end Record

namespace Endpoint

variable {G : Type} {e : Endpoint G} {header : Record.Header} {record : Octets}

/-- An endpoint that receives protected records takes its number forward only with what opens. -/
theorem open?_of_protected {keys : WriteKeys} (known : e.readKeys? = some keys)
    (change : e.receiveProtected = true) (notAlert : isClearAlert header = false) :
    open? header record e = match Record.unprotect keys e.receiveNumber record with
      | .ok (content, next) => .ok content { e with receiveNumber := next }
      | .error error => .error error e := by
  have guarded : (e.receiveProtected && !isClearAlert header) = true := by
    rw [change, notAlert]
    rfl
  rw [open?, get_bind]
  dsimp only
  rw [← isClearAlert, guarded, known]
  dsimp only
  cases Record.unprotect keys e.receiveNumber record <;> rfl

end Endpoint

namespace Record

variable {keys : WriteKeys} {number : UInt64}

/-- Under every number but the last a record opens to a content, and the number goes on by one,
exactly if it is the record of that content. Any other record is an error, and an endpoint that
receives under these keys and this number stays as it is. -/
theorem accepted_iff_isProtected (before : number.toNat < 2 ^ 64 - 1) (record : Octets) :
    (∀ content next, unprotect keys number record = .ok (content, next) ↔
      next = number + 1 ∧ ∃ header, IsProtected keys number header content record) ∧
    ∀ {G : Type} (e : Endpoint G) (header : Header), e.readKeys? = some keys →
      e.receiveProtected = true → e.receiveNumber = number → Endpoint.isClearAlert header = false →
      (∀ content, (∃ inner, IsProtected keys number inner content record) →
        Endpoint.open? header record e = .ok content { e with receiveNumber := number + 1 }) ∧
      ((¬ ∃ content inner, IsProtected keys number inner content record) →
        ∃ error, Endpoint.open? header record e = .error error e) := by
  refine ⟨fun content next => unprotect_iff_isProtected before, ?_⟩
  rintro G e header known change rfl notAlert
  rw [Endpoint.open?_of_protected known change notAlert]
  refine ⟨fun content protects => ?_, fun nothing => ?_⟩
  · rw [(unprotect_iff_isProtected before).mpr ⟨rfl, protects⟩]
  · cases opened : unprotect keys e.receiveNumber record with
    | error error => exact ⟨error, rfl⟩
    | ok pair => exact (nothing ⟨pair.1, isProtected_of_unprotect opened⟩).elim

/-- Keys for a rehearsal. -/
def rehearsalKeys : WriteKeys := ⟨.hmacSha1, List.replicate 20 0, List.replicate 16 0⟩

/-- Some record is accepted as these four octets, and no octets at all are not. -/
theorem accepted_iff_isProtected_rehearsal : (0 : UInt64).toNat < 2 ^ 64 - 1 ∧
    (∃ record, unprotect rehearsalKeys 0 record = .ok ([0x70, 0x69, 0x6e, 0x67], 1)) ∧
    ∀ content next, unprotect rehearsalKeys 0 [] ≠ .ok (content, next) := by
  have before : (0 : UInt64).toNat < 2 ^ 64 - 1 := by decide
  have usable : rehearsalKeys.Usable := Or.inl rfl
  have short : ([0x70, 0x69, 0x6e, 0x67] : Octets).length ≤ maxFragment := by decide
  have known : Version.current.major = 3 ∧ Version.current.minor ≤ 3 := by decide
  obtain ⟨header, record, _, _, _, protects⟩ :=
    exists_isProtected usable 0 .applicationData known ⟨List.replicate 16 0, rfl⟩ short
  refine ⟨before, ⟨record, ?_⟩, fun content next opened => ?_⟩
  · exact ((accepted_iff_isProtected before record).1 _ _).mpr ⟨rfl, header, protects⟩
  · obtain ⟨_, inner, empty⟩ := ((accepted_iff_isProtected before []).1 content next).mp opened
    exact empty.isWhole.ne_nil rfl

end Record

end TransportSecurity
