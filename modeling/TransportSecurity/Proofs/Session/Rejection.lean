import TransportSecurity.Proofs.Session.Losses

/-!
Records that do not open.

Whatever is wrong with a protected record, the one error is that its tag is wrong
(`Record.error_of_unprotect`): too few octets, no whole blocks, a padding that is not in order
(`Record.Mispadded`), too much content, another tag (`Record.Mistagged`). For this the keys have to
be of a length that the cipher takes, which the keys of every session in use are
(`Session.invariant_usableKeys`). So the other end learns no more from a session than that it did
not take a record (`Session.receive_eq_of_rejected`).
-/

namespace TransportSecurity

/-- Only a suite that can be used has parameters. -/
theorem Suite.isSupported_of_parameters {suite : Suite} {parameters : SuiteParameters}
    (found : suite.parameters = .ok parameters) : suite.isSupported := by
  unfold Suite.parameters at found
  split at found
  · next same => rw [same]; decide
  · split at found
    · next same => rw [same]; decide
    · split at found
      · next same => rw [same]; decide
      · split at found
        · next same => rw [same]; decide
        · cases found

/-- Keys that were derived for a suite can be used, in both directions. -/
theorem KeyBlock.usable_of_derive {suite : Suite} {parameters : SuiteParameters}
    {master server client : Octets} {keys : KeyBlock} (found : suite.parameters = .ok parameters)
    (derived : derive parameters master server client = .ok keys) (side : End) :
    (keys.writer side).Usable := by
  obtain ⟨_, _, found', derived', usable⟩ :=
    derive_of_isSupported (Suite.isSupported_of_parameters found) master server client
  cases found.symm.trans found'
  cases derived.symm.trans derived'
  exact usable side

/-- Whole blocks are decrypted if the key and the starting block have the right lengths. -/
theorem Aes.exists_decryptOctets {key start ciphertext : Octets}
    (usable : key.length = 16 ∨ key.length = 32) (block : start.length = blockLength)
    (whole : ciphertext.length % blockLength = 0) :
    ∃ plaintext, decryptOctets key start ciphertext = .ok plaintext := by
  have ready : setUp key start = .ok (RoundKeys.ofKey key, Block.ofOctets start) := by
    rw [setUp, if_pos usable, if_pos block]
  refine ⟨octetsOf (decryptBlocks (RoundKeys.ofKey key) (Block.ofOctets start)
    (blocksOf ciphertext)), ?_⟩
  rw [decryptOctets, ready]
  change (if ciphertext.length % blockLength ≠ 0 then _ else _) = _
  rw [if_neg (Decidable.not_not.mpr whole)]
  rfl

namespace Record

/-- The last octets of an acceptable header say how long its fragment is. -/
theorem Header.Acceptable.value_drop_encode {header : Header} (acceptable : header.Acceptable) :
    Octets.value (header.encode.drop 3) = header.length :=
  Octets.value_bigEndian_of_lt (Nat.lt_of_le_of_lt acceptable.length (by decide))

/-- With enough octets there is a header, or an error. -/
theorem Header.eq_some_of_ofFront? {octets : Octets} {header? : Option Header}
    (long : headerLength ≤ octets.length) (found : ofFront? octets = .ok header?) :
    ∃ header, header? = some header := by
  have enough : ¬(octets.take headerLength).length < headerLength := by
    rw [List.length_take]
    omega
  rw [ofFront?] at found
  dsimp only at found
  rw [if_neg enough] at found
  obtain ⟨⟨header, _⟩, _, same⟩ := except_bind_eq_ok.mp found
  cases same
  exact ⟨header, rfl⟩

/-- A record decrypts to octets whose padding is not in order. -/
def Mispadded (keys : WriteKeys) (record : Octets) : Prop := ∃ plaintext,
  Aes.decryptOctets keys.cipherKey ((record.drop headerLength).take Aes.blockLength)
    ((record.drop headerLength).drop Aes.blockLength) = .ok plaintext ∧
  unpad? keys.macLength plaintext = none

/-- A record decrypts to a content and a tag that is not the content's under a number. -/
def Mistagged (keys : WriteKeys) (number : UInt64) (header : Header) (record : Octets) : Prop :=
  ∃ content given, Holds keys record content given ∧
    checkTag keys number header.type header.version content given = .error .badRecordMac

variable {keys : WriteKeys} {number : UInt64} {header : Header} {record : Octets}

section Forged

variable (whole : IsWhole header record)
  (enough : ¬(record.length < minProtectedLength keys.macLength ∨
    header.length % Aes.blockLength ≠ 0))
include whole enough

/-- A record of whole blocks whose padding is not in order is not opened. -/
theorem unprotect_of_mispadded (mispadded : Mispadded keys record) :
    unprotect keys number record = .error .badRecordMac := by
  obtain ⟨plaintext, decrypted, unpadded⟩ := mispadded
  have found := whole.ofFront? []
  rw [List.append_nil] at found
  rw [unprotect_of_decrypted found whole.length enough decrypted, unpadded]

/-- A record of whole blocks with a tag that is not its own is not opened. -/
theorem unprotect_of_mistagged (mistagged : Mistagged keys number header record) :
    unprotect keys number record = .error .badRecordMac := by
  obtain ⟨content, given, ⟨plaintext, decrypted, unpadded⟩, refused⟩ := mistagged
  have found := whole.ofFront? []
  rw [List.append_nil] at found
  rw [unprotect_of_unpad? found whole.length enough decrypted unpadded, refused]

end Forged

/-- Whole blocks can be enciphered behind any header. -/
theorem exists_enciphered (usable : keys.Usable) {plaintext : Octets}
    (blocks : plaintext.length % Aes.blockLength = 0) : ∃ fragment : Octets,
      fragment.length = Aes.blockLength + plaintext.length ∧ ∀ header : Header,
        Aes.decryptOctets keys.cipherKey
          (((header.encode ++ fragment).drop headerLength).take Aes.blockLength)
          (((header.encode ++ fragment).drop headerLength).drop Aes.blockLength) =
          .ok plaintext := by
  have block : (List.replicate Aes.blockLength (0 : UInt8)).length = Aes.blockLength :=
    List.length_replicate
  obtain ⟨ciphertext, enciphered⟩ := Aes.encryptOctets_eq_ok usable block blocks
  obtain ⟨decrypted, length⟩ := Aes.decryptOctets_encryptOctets enciphered
  refine ⟨List.replicate Aes.blockLength 0 ++ ciphertext, ?_, fun header => ?_⟩
  · rw [List.length_append, block, length]
  · rw [List.drop_left' (Header.length_encode header), List.take_left' block,
      List.drop_left' block]
    exact decrypted

/-- Under any keys there are five blocks and a starting block with a padding that is not in order,
behind any header. -/
theorem exists_mispadded (usable : keys.Usable) : ∃ fragment : Octets, fragment.length = 96 ∧
    ∀ header : Header, Mispadded keys (header.encode ++ fragment) := by
  obtain ⟨fragment, length, decrypts⟩ :=
    @exists_enciphered _ usable (List.replicate 80 255) (by rw [List.length_replicate]; rfl)
  exact ⟨fragment, length, fun header => ⟨_, decrypts header, rfl⟩⟩

/-- Under any keys and number there are as many octets with the tag of something else. -/
theorem exists_mistagged (usable : keys.Usable) (number : UInt64) (header : Header) :
    ∃ fragment : Octets, fragment.length = 96 ∧
      Mistagged keys number header (header.encode ++ fragment) := by
  have room : 0 < keys.macLength ∧ keys.macLength ≤ 32 := by
    unfold WriteKeys.macLength
    cases keys.mac <;> decide
  -- content and tag are four blocks, and their padding is one more
  obtain ⟨content, size⟩ : ∃ content : Octets, content.length = 64 - keys.macLength :=
    ⟨List.replicate _ 0, List.length_replicate⟩
  obtain ⟨own, made⟩ : ∃ own, tag keys number header.type header.version content = .ok own :=
    ⟨_, tag_eq_ok.mpr ⟨_, if_pos (by rw [size]; omega), rfl⟩⟩
  have length := length_of_tag made
  have other : own ≠ own.map (· + 1) := by
    cases own with
    | nil => exact absurd length (Nat.ne_of_lt room.1)
    | cons octet rest =>
      intro same
      have unmoved : octet = octet + 1 := (List.cons.inj same).1
      grind
  rw [← List.length_map (f := (· + 1))] at length
  have four : (content ++ own.map (· + 1)).length = 64 := by
    rw [List.length_append, size, length]
    omega
  have five : (content ++ own.map (· + 1) ++
      padding (content ++ own.map (· + 1)).length).length = 80 := by
    rw [List.length_append, length_padding, four]
    rfl
  obtain ⟨fragment, whole, decrypts⟩ := exists_enciphered usable (by rw [five]; rfl)
  rw [five] at whole
  refine ⟨fragment, whole, content, _, ⟨_, decrypts header, ?_⟩, checkTag_of_ne made other⟩
  exact unpad?_padding length (by rw [size, maxFragment]; omega)

/-- There is one error only for all the ways in which a record does not open under keys that can be
used. -/
theorem error_of_unprotect {error : Error} (usable : keys.Usable)
    (room : number.toNat + 1 < 2 ^ 64) (whole : IsWhole header record)
    (rejected : unprotect keys number record = .error error) : error = .badRecordMac := by
  have found := whole.ofFront? []
  rw [List.append_nil] at found
  by_cases enough : record.length < minProtectedLength keys.macLength ∨
      header.length % Aes.blockLength ≠ 0
  · rw [unprotect, found] at rejected
    change (if record.length ≠ header.recordLength then _ else _) = _ at rejected
    rw [if_neg (not_not_intro whole.length)] at rejected
    change (if _ then _ else _) = _ at rejected
    rw [if_pos enough] at rejected
    cases rejected
    rfl
  · -- the cipher takes the keys, the starting block and the blocks after it
    have length := whole.length
    have sizes := enough
    simp only [Header.recordLength] at length
    simp only [minProtectedLength, not_or, Nat.not_lt, Decidable.not_not] at sizes
    have block : ((record.drop headerLength).take Aes.blockLength).length = Aes.blockLength := by
      rw [List.length_take, List.length_drop]
      omega
    have blocks :
        ((record.drop headerLength).drop Aes.blockLength).length % Aes.blockLength = 0 := by
      rw [List.length_drop, List.length_drop, length]
      simp only [Aes.blockLength] at sizes ⊢
      omega
    obtain ⟨plaintext, decrypted⟩ := Aes.exists_decryptOctets usable block blocks
    rw [unprotect_of_decrypted found whole.length enough decrypted] at rejected
    cases unpadded : unpad? keys.macLength plaintext with
    | none =>
      rw [unpadded] at rejected
      cases rejected
      rfl
    | some pair =>
      rw [unpadded] at rejected
      dsimp only at rejected
      split at rejected
      · cases rejected
        rfl
      · rw [nextNumber, if_pos room] at rejected
        cases rejected

end Record

namespace Endpoint

variable {G : Type} {e f : Endpoint G}

/-- The keys that are known, if any, can be used. -/
def UsableKeys (e : Endpoint G) : Prop :=
  ∀ secrets, e.secrets = some secrets → ∀ side, (secrets.keys.writer side).Usable

/-- Secrets are those from before, or keys that were derived. -/
theorem usableKeys_of_answers [Entropy G] {message records : Octets} (sound : e.Sound)
    (usable : e.UsableKeys) (answers : Answers message e records f) : f.UsableKeys := by
  cases answers with
  | serverHello waits took =>
    obtain ⟨_, _, _, _, _, _, _, rfl⟩ := Client.receiveHello_eq_ok.mp took
    exact usable
  | certificates waits took =>
    obtain ⟨_, _, _, _, _, _, _, _, _, _, rfl⟩ := Client.receiveCertificate_eq_ok.mp took
    exact usable
  | serverHelloDone waits exchanged finished =>
    have clear : e.sendProtected = false := by rw [sound.sends, waits]; rfl
    obtain ⟨_, _, work, made, rfl, _⟩ := (Client.sendExchange_eq_ok clear).mp exchanged
    obtain ⟨_, _, _, _, _, _, _, _, encodes, rfl⟩ := Client.sendFinished_eq_ok.mp finished
    obtain ⟨_, _, rfl⟩ := encode_frame encodes
    obtain ⟨parameters, suite, derived⟩ := made.derived
    rintro _ ⟨⟩
    exact KeyBlock.usable_of_derive suite derived
  | serverFinished waits took =>
    obtain ⟨_, _, _, _, _, rfl⟩ := Client.receiveFinished_eq_ok.mp took
    exact usable
  | clientHello waits took =>
    have clear : e.sendProtected = false := by rw [sound.sends, waits]; rfl
    obtain ⟨_, _, _, rfl, _⟩ := (Server.receiveHello_eq_ok clear).mp took
    exact usable
  | clientKeyExchange waits took =>
    obtain ⟨_, _, _, _, _, _, _, _, _, _, _, suite, _, _, derived, rfl⟩ :=
      Server.receiveKeyExchange_eq_ok.mp took
    rintro _ ⟨⟩
    exact KeyBlock.usable_of_derive suite derived
  | clientFinished waits took =>
    have clear : e.sendProtected = false := by rw [sound.sends, waits]; rfl
    obtain ⟨_, _, _, made, rfl, _⟩ := (Server.receiveFinished_eq_ok clear).mp took
    obtain ⟨_, _, rfl⟩ := encode_frame made.encodes
    exact usable

theorem kept_usableKeys [Entropy G] : Kept fun _ (e : Endpoint G) => e.UsableKeys where
  opened _ usable := usable
  changed _ usable changed := by
    obtain ⟨_, _, _, rfl⟩ := receiveChange_eq_ok.mp changed
    exact usable
  answered sound usable answers := usableKeys_of_answers sound usable answers

end Endpoint

namespace Session

open Endpoint

variable {G : Type} [Entropy G] {session : Session G}

theorem invariant_usableKeys : Invariant fun e : Endpoint G => e.UsableKeys where
  blank _ blank secrets known := by
    cases blank.secrets.symm.trans known
  begun sound fresh usable begins := by
    cases begins with
    | client role sent =>
      obtain ⟨_, _, _, _, _, _, _, _, encodes⟩ := Client.sendHello_eq_ok.mp sent
      obtain ⟨_, _, rfl⟩ := encode_frame encodes
      exact usable
    | server role => exact usable
  taken := kept_usableKeys
  encoded _ _ usable := usable

/-- A session that is in use reads under keys that the cipher takes. -/
theorem Reachable.usable_readKeys (reachable : session.Reachable)
    (notFailed : session.endpoint.stage ≠ .failed) {keys : WriteKeys}
    (readable : session.endpoint.readKeys? = some keys) : keys.Usable := by
  obtain ⟨secrets, known, rfl⟩ := Option.map_eq_some_iff.mp readable
  exact invariant_usableKeys.reachable reachable notFailed secrets known _

/-- A session under its keys and number does not open a record. -/
def Rejects (session : Session G) (record : Octets) : Prop :=
  ∃ keys error, session.endpoint.readKeys? = some keys ∧
    Record.unprotect keys session.endpoint.receiveNumber record = .error error

omit [Entropy G] in
/-- Only a running or finished handshake has changed to protected records. -/
theorem Orderly.active_of_protected (orderly : session.Orderly)
    (change : session.endpoint.receiveProtected = true) :
    session.endpoint.stage = .handshaking ∨ session.endpoint.stage = .established := by
  refine orderly.active fun fresh => ?_
  rw [orderly.endpoint.receives, Role.shape_eq_idle (orderly.endpoint.stage.symm.trans fresh)]
    at change
  cases change

/-- An inbox that cannot be gone on with fails a session that has nothing else to take. -/
theorem receive_of_refuses_first (orderly : session.Orderly)
    (change : session.endpoint.receiveProtected = true) (inbox : session.inbox = [])
    {octets : Octets} {error : Error}
    (refuses : Refuses session.endpoint session.pending octets error session.endpoint) :
    session.receive octets = (.failed (session.fail error).1, (session.fail error).2) := by
  have arrived : session.inbox ++ octets = Handled.stream [] ++ octets := by
    rw [inbox]
    rfl
  rw [receive_of_refuses (orderly.active_of_protected change) arrived .nil Handled.open_nil refuses,
    Handled.contents_nil, stop_nil]

/-- Of a record that does not open a session says that its tag is wrong, and fails. -/
theorem receive_of_rejected (reachable : session.Reachable)
    (notFailed : session.endpoint.stage ≠ .failed)
    (change : session.endpoint.receiveProtected = true) (inbox : session.inbox = [])
    (room : session.endpoint.receiveNumber.toNat < 2 ^ 64 - 1) {header : Record.Header}
    {record : Octets} (whole : Record.IsWhole header record) (guarded : isClearAlert header = false)
    (rejected : session.Rejects record) : session.receive record =
      (.failed (session.fail .badRecordMac).1, (session.fail .badRecordMac).2) := by
  obtain ⟨keys, error, readable, fails⟩ := rejected
  have usable := reachable.usable_readKeys notFailed readable
  cases Record.error_of_unprotect usable (by omega) whole fails
  have refused : receiveRecord header record session.pending session.endpoint =
      .error .badRecordMac session.endpoint := by
    refine bind_of_error ?_
    rw [open?_of_protected readable change guarded, fails]
  exact receive_of_refuses_first (reachable.orderly.resolve_right notFailed) change inbox
    (.refused (Record.next?_eq_some_iff.mpr ⟨whole, (List.append_nil record).symm⟩) refused)

/-- Two records with the same header that a session does not open, each for a reason of its own, it
answers alike, and it is the same session after them. If the header is in order, it says of both
that their tag is wrong. -/
theorem receive_eq_of_rejected (reachable : session.Reachable)
    (notFailed : session.endpoint.stage ≠ .failed)
    (change : session.endpoint.receiveProtected = true) (inbox : session.inbox = [])
    (room : session.endpoint.receiveNumber.toNat < 2 ^ 64 - 1) {front a b : Octets}
    (length : front.length = Record.headerLength)
    (whole : a.length = Octets.value (front.drop 3))
    (alsoWhole : b.length = Octets.value (front.drop 3))
    (guarded : ¬(front.head? = some ContentType.alert.code ∧ Octets.value (front.drop 3) = 2))
    (rejected : session.Rejects (front ++ a)) (alsoRejected : session.Rejects (front ++ b)) :
    session.receive (front ++ a) = session.receive (front ++ b) ∧
      ((∃ header, Record.Header.ofFront? front = .ok (some header)) →
        session.receive (front ++ a) =
          (.failed (session.fail .badRecordMac).1, (session.fail .badRecordMac).2)) := by
  have orderly := reachable.orderly.resolve_right notFailed
  cases found : Record.Header.ofFront? front with
  | error error =>
    -- the header is refused before the rest of the record is looked at
    have refuses : ∀ fragment, Refuses session.endpoint session.pending (front ++ fragment) error
        session.endpoint := by
      intro fragment
      refine .malformed ?_
      rw [Record.next?, Record.Header.ofFront?_append (Nat.le_of_eq length.symm), found]
    rw [receive_of_refuses_first orderly change inbox (refuses a),
      receive_of_refuses_first orderly change inbox (refuses b)]
    refine ⟨rfl, ?_⟩
    rintro ⟨_, impossible⟩
    cases impossible
  | ok header? =>
    obtain ⟨header, rfl⟩ := Record.Header.eq_some_of_ofFront? (Nat.le_of_eq length.symm) found
    obtain ⟨acceptable, rest, rfl⟩ := Record.Header.ofFront?_eq_some_iff.mp found
    obtain rfl : rest = [] := by
      rw [List.length_append, Record.Header.length_encode] at length
      exact List.length_eq_zero_iff.mp (by omega)
    rw [List.append_nil] at *
    rw [acceptable.value_drop_encode] at whole alsoWhole guarded
    have clear : isClearAlert header = false := by
      refine Bool.eq_false_iff.mpr fun alert => guarded ?_
      obtain ⟨type, two⟩ : header.type = .alert ∧ header.length = 2 := by
        simpa [isClearAlert] using alert
      exact ⟨congrArg (some ∘ ContentType.code) type, two⟩
    have first := receive_of_rejected reachable notFailed change inbox room
      (Record.isWhole_encode acceptable whole) clear rejected
    have second := receive_of_rejected reachable notFailed change inbox room
      (Record.isWhole_encode acceptable alsoWhole) clear alsoRejected
    exact ⟨first.trans second.symm, fun _ => first⟩

/-- After a rehearsed handshake the server answers a record with a bad padding as it does one with a
wrong tag. -/
theorem receive_eq_of_rejected_rehearsal :
    ∃ (session : Session Reproducible) (keys : WriteKeys) (padded tagged : Octets),
      session.Reachable ∧ session.endpoint.stage ≠ .failed ∧
      session.endpoint.receiveProtected = true ∧ session.inbox = [] ∧
      session.endpoint.receiveNumber.toNat < 2 ^ 64 - 1 ∧
      session.endpoint.readKeys? = some keys ∧ padded.length = 96 ∧ tagged.length = 96 ∧
      Record.Mispadded keys ([23, 3, 3, 0, 96] ++ padded) ∧
      Record.Mistagged keys session.endpoint.receiveNumber (.ofLength .applicationData 96)
        ([23, 3, 3, 0, 96] ++ tagged) ∧
      session.Rejects ([23, 3, 3, 0, 96] ++ padded) ∧
      session.Rejects ([23, 3, 3, 0, 96] ++ tagged) ∧
      session.receive ([23, 3, 3, 0, 96] ++ padded) =
        session.receive ([23, 3, 3, 0, 96] ++ tagged) ∧
      session.receive ([23, 3, 3, 0, 96] ++ padded) =
        (.failed (session.fail .badRecordMac).1, (session.fail .badRecordMac).2) := by
  obtain ⟨_, _, session, _, octets, _, same, _, ⟨inbox, _⟩, agree, _⟩ :=
    Rehearsal.pairing.exists_agreed
  obtain ⟨_, _, made⟩ := Rehearsal.pairing.serverMade
  have reachable : session.Reachable := same ▸ ⟨_, .server made, .receive (.start .refl) octets⟩
  have orderly := reachable.orderly_of_established agree.serverOver
  have change := (orderly.endpoint.established agree.serverOver).2.2.2
  have room : session.endpoint.receiveNumber.toNat < 2 ^ 64 - 1 := by
    rw [agree.numbers.2.2.2]
    decide
  obtain ⟨keys, _, readable⟩ := agree.forth
  have usable := reachable.usable_readKeys orderly.not_failed readable
  -- both records have the header of whole blocks, so that only what is inside them can be wrong
  have spelled : (Record.Header.ofLength .applicationData 96).encode = [23, 3, 3, 0, 96] := by
    decide
  have whole {fragment : Octets} (length : fragment.length = 96) :
      Record.IsWhole (.ofLength .applicationData 96) ([23, 3, 3, 0, 96] ++ fragment) := by
    rw [← spelled]
    exact Record.isWhole_encode ⟨⟨rfl, Nat.le_refl 3⟩, by decide⟩ length
  have enough {fragment : Octets} (length : fragment.length = 96) :
      ¬(([23, 3, 3, 0, 96] ++ fragment).length < Record.minProtectedLength keys.macLength ∨
        (Record.Header.ofLength .applicationData 96).length % Aes.blockLength ≠ 0) := by
    rw [(whole length).length]
    unfold WriteKeys.macLength
    cases keys.mac <;> decide
  obtain ⟨padded, long, mispadded⟩ := Record.exists_mispadded usable
  obtain ⟨tagged, alsoLong, mistagged⟩ := Record.exists_mistagged usable
    session.endpoint.receiveNumber (.ofLength .applicationData 96)
  replace mispadded := mispadded (.ofLength .applicationData 96)
  rw [spelled] at mispadded mistagged
  have rejected : session.Rejects ([23, 3, 3, 0, 96] ++ padded) :=
    ⟨keys, _, readable, Record.unprotect_of_mispadded (whole long) (enough long) mispadded⟩
  have alsoRejected : session.Rejects ([23, 3, 3, 0, 96] ++ tagged) :=
    ⟨keys, _, readable, Record.unprotect_of_mistagged (whole alsoLong) (enough alsoLong) mistagged⟩
  obtain ⟨alike, told⟩ := receive_eq_of_rejected reachable orderly.not_failed change inbox room rfl
    long alsoLong (by decide) rejected alsoRejected
  exact ⟨session, keys, padded, tagged, reachable, orderly.not_failed, change, inbox, room, readable,
    long, alsoLong, mispadded, mistagged, rejected, alsoRejected, alike,
    told ⟨.ofLength .applicationData 96, rfl⟩⟩

end Session

end TransportSecurity
