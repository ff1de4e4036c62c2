import TransportSecurity.Proofs.Digest.Pieces
import TransportSecurity.Proofs.Record.Canonical

/-!
What a tag covers.

A tag is made over a header and then the fragment, and checked against the tag of both in one
string. Either way it is the keyed digest of the same octets (`covered`), so that the tag which is
made is the one that is accepted (`checkTag_iff_tag`). The octets spell the number of the record,
its type and version and the length of the fragment in a fixed width each, so that no two records
share them (`covered_inj`).
-/

namespace TransportSecurity

theorem ContentType.code_inj {type type' : ContentType} (same : type.code = type'.code) :
    type = type' := by
  have found := ofCode?_eq_some_iff.mpr same
  rw [ofCode?_eq_some_iff.mpr rfl] at found
  exact (Option.some.inj found).symm

namespace Record

/-- The octets that a tag is a tag of: a header, and behind it the fragment. -/
def covered (number : UInt64) (type : ContentType) (version : Version) (fragment : Octets) :
    Except Error Octets :=
  return (← tagHeader number type version fragment.length) ++ fragment

section

variable {keys : WriteKeys} {number number' : UInt64} {type type' : ContentType}
  {version version' : Version} {fragment fragment' octets given : Octets}

theorem covered_eq_ok : covered number type version fragment = .ok octets ↔
    fragment.length < 2 ^ 16 ∧ octets = Octets.bigEndian 8 number.toNat ++ (type.code ::
      (version.encode ++ (Octets.bigEndian 2 fragment.length ++ fragment))) := by
  simp only [covered, tagHeader, except_bind_eq_ok, except_ite_eq_ok, except_pure_eq_ok]
  constructor
  · rintro ⟨_, ⟨fits, ⟨rfl⟩⟩ | ⟨_, ⟨⟩⟩, rfl⟩
    exact ⟨fits, by simp⟩
  · rintro ⟨fits, rfl⟩
    exact ⟨_, Or.inl ⟨fits, rfl⟩, by simp⟩

theorem exists_covered (fits : fragment.length < 2 ^ 16) :
    ∃ octets, covered number type version fragment = .ok octets :=
  ⟨_, covered_eq_ok.mpr ⟨fits, rfl⟩⟩

theorem covered_of_long (long : ¬fragment.length < 2 ^ 16) :
    covered number type version fragment = .error .lengthOutOfRange := by
  rw [covered, tagHeader, if_neg long]
  rfl

/-- What a tag covers tells records apart: every part of the header has its width, and what is left
is the fragment. -/
theorem covered_inj (here : covered number type version fragment = .ok octets)
    (there : covered number' type' version' fragment' = .ok octets) :
    number = number' ∧ type = type' ∧ version = version' ∧ fragment = fragment' := by
  obtain ⟨_, rfl⟩ := covered_eq_ok.mp here
  obtain ⟨_, same⟩ := covered_eq_ok.mp there
  obtain ⟨numbers, same⟩ := List.append_inj same (by simp)
  obtain ⟨codes, same⟩ := List.cons.inj same
  obtain ⟨versions, same⟩ := List.append_inj same rfl
  obtain ⟨_, fragments⟩ := List.append_inj same (by simp)
  refine ⟨?_, ContentType.code_inj codes, ?_, fragments⟩
  · exact UInt64.toNat_inj.mp (Octets.bigEndian_inj number.toNat_lt number'.toNat_lt numbers)
  · obtain ⟨major, minor⟩ := version
    obtain ⟨major', minor'⟩ := version'
    cases versions
    rfl

/-- Header and fragment are digested one after the other. -/
theorem tag_eq_covered : tag keys number type version fragment =
    keys.mac.tagAtOnce keys.macKey <$> covered number type version fragment := by
  rw [tag, covered]
  cases tagHeader number type version fragment.length with
  | error error => rfl
  | ok header =>
    have together : keys.mac.tagOfTwo keys.macKey header fragment =
        keys.mac.tagAtOnce keys.macKey (header ++ fragment) := by
      rw [keys.mac.tagOfTwo_eq, keys.mac.tag_eq_atOnce]
    exact congrArg Except.ok together

/-- The tag of header and fragment together is compared with the one that is given. -/
theorem checkTag_eq_covered : checkTag keys number type version fragment given =
    covered number type version fragment >>= fun octets =>
      if keys.mac.tagAtOnce keys.macKey octets = given then .ok () else .error .badRecordMac := by
  rw [checkTag, covered]
  cases tagHeader number type version fragment.length with
  | error error => rfl
  | ok header =>
    change (if Octets.same (keys.mac.tag keys.macKey (header ++ fragment)) given = true then _
      else _) = if keys.mac.tagAtOnce keys.macKey (header ++ fragment) = given then _ else _
    simp only [Octets.same_iff, keys.mac.tag_eq_atOnce]
    rfl

end

/-- Whatever the keys, the tag that is accepted for a record is the one that is made for it. A
fragment too long for the two octets of its length has none; any other has the tag of the octets
covered, in whatever pieces they are digested. No other record's tag covers the same octets. -/
theorem checkTag_iff_tag (keys : WriteKeys) (number : UInt64) (type : ContentType)
    (version : Version) (fragment : Octets) :
    (∀ given, checkTag keys number type version fragment given = .ok () ↔
      tag keys number type version fragment = .ok given) ∧
    (0xffff < fragment.length →
      tag keys number type version fragment = .error .lengthOutOfRange ∧
      ∀ given, checkTag keys number type version fragment given = .error .lengthOutOfRange) ∧
    (fragment.length ≤ 0xffff → ∃ octets,
      covered number type version fragment = .ok octets ∧
      tag keys number type version fragment = .ok (keys.mac.tagAtOnce keys.macKey octets) ∧
      (∀ pieces, pieces.flatten = octets →
        keys.mac.tagOfPieces keys.macKey pieces = keys.mac.tagAtOnce keys.macKey octets) ∧
      ∀ given, keys.mac.tagAtOnce keys.macKey octets ≠ given →
        checkTag keys number type version fragment given = .error .badRecordMac) ∧
    ∀ number' type' version' fragment' octets,
      covered number type version fragment = .ok octets →
      covered number' type' version' fragment' = .ok octets →
      number = number' ∧ type = type' ∧ version = version' ∧ fragment = fragment' := by
  refine ⟨fun given => ⟨eq_of_checkTag, checkTag_tag⟩, fun long => ?_, fun fits => ?_,
    fun _ _ _ _ _ => covered_inj⟩
  · have nothing := @covered_of_long number type version fragment (by omega)
    refine ⟨?_, fun given => ?_⟩
    · rw [tag_eq_covered, nothing]
      rfl
    · rw [checkTag_eq_covered, nothing]
      rfl
  · obtain ⟨octets, found⟩ := @exists_covered number type version fragment (by omega)
    refine ⟨octets, found, ?_, ?_, fun given other => ?_⟩
    · rw [tag_eq_covered, found]
      rfl
    · rintro pieces rfl
      exact keys.mac.tagOfPieces_eq_atOnce keys.macKey pieces
    · rw [checkTag_eq_covered, found]
      exact if_neg other

/-- A fragment that fills a block together with the header in front of it. -/
def rehearsalFragment : Octets := List.replicate 51 0

/-- Its tag under the number one. -/
def rehearsalTag : Octets :=
  [0xd5, 0x28, 0x44, 0xcf, 0x8b, 0xf5, 0x28, 0xc8, 0x23, 0xdc, 0x26, 0xef, 0xfc, 0x3a, 0x42, 0xca,
   0x2d, 0x34, 0x97, 0xed]

/-- A tag is made and accepted, half of it is not, and a fragment of 65536 octets has none. Under
another number the tag covers other octets. -/
theorem checkTag_iff_tag_rehearsal :
    tag rehearsalKeys 1 .applicationData .current rehearsalFragment = .ok rehearsalTag ∧
    checkTag rehearsalKeys 1 .applicationData .current rehearsalFragment rehearsalTag = .ok () ∧
    checkTag rehearsalKeys 1 .applicationData .current rehearsalFragment (rehearsalTag.take 10) =
      .error .badRecordMac ∧
    checkTag rehearsalKeys 1 .applicationData .current (List.replicate 65536 0) rehearsalTag =
      .error .lengthOutOfRange ∧
    covered 1 .applicationData .current rehearsalFragment ≠
      covered 2 .applicationData .current rehearsalFragment := by
  obtain ⟨accepted, -, short, apart⟩ :=
    checkTag_iff_tag rehearsalKeys 1 .applicationData .current rehearsalFragment
  obtain ⟨-, long, -, -⟩ :=
    checkTag_iff_tag rehearsalKeys 1 .applicationData .current (List.replicate 65536 0)
  have tooLong : 0xffff < (List.replicate 65536 (0 : UInt8)).length := by
    rw [List.length_replicate]
    decide
  have made :
      tag rehearsalKeys 1 .applicationData .current rehearsalFragment = .ok rehearsalTag := by
    decide +kernel
  obtain ⟨octets, found, tagged, -, refused⟩ := short (by decide)
  have half : rehearsalKeys.mac.tagAtOnce rehearsalKeys.macKey octets ≠ rehearsalTag.take 10 := by
    rw [← Except.ok.inj (made.symm.trans tagged)]
    decide
  refine ⟨made, (accepted _).mpr made, refused _ half, (long tooLong).2 _, fun same => ?_⟩
  obtain ⟨numbers, -⟩ := apart 2 .applicationData .current rehearsalFragment octets found
    (same.symm.trans found)
  exact absurd numbers (by decide)

end Record

end TransportSecurity
