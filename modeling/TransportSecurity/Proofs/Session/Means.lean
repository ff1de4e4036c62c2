import TransportSecurity.Entropy.Faltering
import TransportSecurity.Proofs.Message.ReadBack
import TransportSecurity.Proofs.Record.Opened
import TransportSecurity.Settings

/-!
What an honest end never lacks.

A handler can fail for want of random octets, of room in a length or of key material. With a source
that never declines (`Entropy.Lasting`), or not as often as it is asked (`Entropy.Serves`), and
suites that can be used none of this happens: the lemmas here say so part by part.
-/

namespace TransportSecurity

namespace Entropy

variable {G : Type} [Entropy G]

/-- A source that never declines, whatever was drawn from it before. -/
def Lasting (source : G) : Prop := ∃ lasts : G → Prop, lasts source ∧
  ∀ source, lasts source → ∀ n, lasts (draw n source).2 ∧
    ∃ octets next, draw? n source = (some octets, next) ∧ lasts next

/-- A source that does not decline the next `count` times, whatever is drawn from it in between, and
of which `left` holds afterwards. -/
def Serves (left : G → Prop) (count : Nat) (source : G) : Prop := ∃ serves : Nat → G → Prop,
  serves count source ∧ (∀ source, serves 0 source → left source) ∧
    (∀ count source, serves count source → ∀ n, serves count (draw n source).2) ∧
    ∀ count source, serves (count + 1) source → ∀ n, ∃ octets next,
      draw? n source = (some octets, next) ∧ serves count next

variable {source : G} {left : G → Prop} {count : Nat}

theorem Lasting.demand (lasting : Lasting source) (n : Nat) : ∃ octets next,
    (Entropy.demand n : EStateM Error G _) source = .ok octets next ∧ Lasting next := by
  obtain ⟨lasts, now, always⟩ := lasting
  obtain ⟨_, octets, next, drawn, later⟩ := always source now n
  refine ⟨octets, next, ?_, lasts, later, always⟩
  rw [Entropy.demand, drawn]

/-- A source that never declines serves any number of times. -/
theorem Lasting.serves (lasting : Lasting source) (count : Nat) : Serves Lasting count source := by
  obtain ⟨lasts, now, always⟩ := lasting
  exact ⟨fun _ => lasts, now, fun source now => ⟨lasts, now, always⟩,
    fun _ source now n => (always source now n).1, fun _ source now n => (always source now n).2⟩

namespace Serves

theorem served (serves : Serves left 0 source) : left source := by
  obtain ⟨_, now, ends, _⟩ := serves
  exact ends source now

theorem demand (serves : Serves left (count + 1) source) (n : Nat) : ∃ octets next,
    (Entropy.demand n : EStateM Error G _) source = .ok octets next ∧ Serves left count next := by
  obtain ⟨family, now, ends, stays, grants⟩ := serves
  obtain ⟨octets, next, drawn, later⟩ := grants count source now n
  refine ⟨octets, next, ?_, family, later, ends, stays, grants⟩
  rw [Entropy.demand, drawn]

theorem draw (serves : Serves left count source) (n : Nat) :
    Serves left count (Entropy.draw n source).2 := by
  obtain ⟨family, now, ends, stays, grants⟩ := serves
  exact ⟨family, stays count source now n, ends, stays, grants⟩

theorem drawNonzero (serves : Serves left count source) :
    Serves left count (drawNonzero source).2 := by
  fun_induction Entropy.drawNonzero source with
  | case1 source drawn zero ih => exact ih (serves.draw 1)
  | case2 source drawn nonzero => exact serves.draw 1

end Serves

end Entropy

namespace Reproducible

theorem limit_next (source : Reproducible) : source.next.2.limit = source.limit := by
  obtain ⟨upfront, state, drawn, limit⟩ := source
  cases upfront with
  | nil => simp only [next]
  | cons octet rest => simp only [next]

theorem limit_draw (n : Nat) (source : Reproducible) :
    (draw n source).2.limit = source.limit := by
  induction n generalizing source with
  | zero => rfl
  | succ n ih =>
    have later := ih source.next.2
    rw [limit_next] at later
    simpa only [draw] using later

/-- A reproducible source without a limit never declines. -/
theorem lasting {source : Reproducible} (unlimited : source.limit = none) :
    Entropy.Lasting source := by
  refine ⟨fun source => source.limit = none, unlimited, ?_⟩
  intro source unlimited n
  have later : (draw n source).2.limit = none := (limit_draw n source).trans unlimited
  refine ⟨later, (draw n source).1, (draw n source).2, ?_, later⟩
  change (if source.limit.any _ then _ else _) = _
  rw [unlimited]
  rfl

end Reproducible

namespace Faltering

variable {faltering : Faltering} {declines : List Bool}

theorem demand_of_declined (turn : faltering.declines = true :: declines) (n : Nat) :
    (Entropy.demand n : EStateM Error Faltering _) faltering =
      .error .entropyExhausted { faltering with declines } := by
  rw [Entropy.demand, draw?_of_declined n turn]

/-- A source that falters later serves until then. -/
theorem serves {count : Nat}
    (granted : faltering.declines = List.replicate count false ++ declines) :
    Entropy.Serves (fun faltering => faltering.declines = declines) count faltering :=
  ⟨fun count faltering => faltering.declines = List.replicate count false ++ declines, granted,
    fun _ through => through, fun _ _ granted _ => granted,
    fun _ _ granted n => ⟨_, _, draw?_of_granted n granted, rfl⟩⟩

/-- A source that has been through all that it declines never declines again. -/
theorem lasting (through : faltering.declines = []) : Entropy.Lasting faltering :=
  ⟨fun faltering => faltering.declines = [], through,
    fun _ through n => ⟨through, _, _, draw?_of_through n through, rfl⟩⟩

end Faltering

namespace Rsa

variable {G : Type} [Entropy G] {source : G} {left : G → Prop} {count : Nat}

theorem serves_fillZeros {octets : Octets} (serves : Entropy.Serves left count source) :
    Entropy.Serves left count (fillZeros octets source).2 := by
  induction octets generalizing source with
  | nil => exact serves
  | cons octet octets ih =>
    by_cases zero : octet = 0
    · simp only [fillZeros, zero, if_true]
      exact ih serves.drawNonzero
    · simp only [fillZeros, zero, if_false]
      exact ih serves

/-- Encryption pads a message with octets that are not zero, and raises the number of that. -/
theorem encrypt_eq_ok {key : PublicKey} {message encrypted : Octets} {next : G} :
    encrypt key message source = .ok encrypted next ↔
      message.length + minPadding ≤ key.size ∧ ∃ drawn between filler,
        Entropy.draw (key.size - 3 - message.length) source = (drawn, between) ∧
        fillZeros drawn.val between = (filler, next) ∧
        Octets.bigEndian key.size
          (powMod (Octets.value (pad filler message)) key.exponent key.modulus) = encrypted := by
  simp only [encrypt, ite_eq_ok, bind_eq_ok, throw_eq_ok, get_eq_ok, set_eq_ok, pure_eq_ok]
  constructor
  · rintro (⟨_, _, _, impossible, _⟩ | ⟨room, _, _, ⟨rfl, rfl⟩, _, _, rfl, encrypts, rfl⟩)
    · exact impossible.elim
    · exact ⟨Nat.le_of_not_lt room, _, _, _, rfl, rfl, encrypts⟩
  · rintro ⟨room, drawn, between, filler, draws, fills, encrypts⟩
    refine Or.inr ⟨Nat.not_lt.mpr room, source, source, ⟨rfl, rfl⟩, (), next, ?_, ?_, rfl⟩
    · rw [draws, fills]
    · rw [draws, fills]
      exact encrypts

/-- A message that leaves room for padding is encrypted to the size of the modulus, and the source is
not asked for what it may decline. -/
theorem encrypt_of_serves {key : PublicKey} {message : Octets}
    (room : message.length + minPadding ≤ key.size) (serves : Entropy.Serves left count source) :
    ∃ encrypted next, encrypt key message source = .ok encrypted next ∧
      encrypted.length = key.size ∧ Entropy.Serves left count next := by
  have later := serves.draw (key.size - 3 - message.length)
  refine ⟨_, _, encrypt_eq_ok.mpr ⟨room, _, _, _, rfl, rfl, rfl⟩, Octets.length_bigEndian ..,
    serves_fillZeros later⟩

/-- A key that was read from its encoding has a modulus of so many octets at most. -/
theorem size_le_of_ofDer? {octets : Octets} {key : PublicKey}
    (read : PublicKey.ofDer? octets = some key) : key.size ≤ 512 := by
  obtain ⟨other, _, accepted⟩ := Option.bind_eq_some_iff.mp read
  split at accepted
  · next inside =>
    cases accepted
    rw [Bool.and_eq_true, decide_eq_true_iff] at inside
    have bits : Nat.log2 key.modulus < PublicKey.maxBits := by
      by_cases zero : key.modulus = 0
      · rw [zero]
        decide
      · exact (Nat.log2_lt zero).mpr inside.1
    rw [PublicKey.maxBits] at bits
    rw [PublicKey.size]
    omega
  · cases accepted

end Rsa

namespace Suite

/-- A suite that can be used has parameters with a cipher key of a length there is. -/
theorem parameters_of_isSupported {suite : Suite} (known : suite.isSupported) :
    ∃ parameters, suite.parameters = .ok parameters ∧
      parameters.keyMaterialLength ≤ KeySchedule.keyBlockLength ∧
      (parameters.cipherKeyLength = 16 ∨ parameters.cipherKeyLength = 32) := by
  have mem := List.contains_iff_mem.mp known
  simp only [supported, List.mem_cons, List.not_mem_nil, or_false] at mem
  rcases mem with rfl | rfl | rfl | rfl <;> exact ⟨_, rfl, by decide, by decide⟩

end Suite

/-- A suite that can be used has keys for both directions. -/
theorem KeyBlock.derive_of_isSupported {suite : Suite} (known : suite.isSupported)
    (master server client : Octets) : ∃ parameters keys, suite.parameters = .ok parameters ∧
      derive parameters master server client = .ok keys ∧ ∀ side, (keys.writer side).Usable := by
  obtain ⟨parameters, found, enough, length⟩ := Suite.parameters_of_isSupported known
  have material : (KeySchedule.keyMaterial master server client).length =
      KeySchedule.keyBlockLength := KeySchedule.length_expand ..
  rw [SuiteParameters.keyMaterialLength] at enough
  cases made : derive parameters master server client with
  | error error =>
    rw [derive, ofMaterial, if_neg (by rw [SuiteParameters.keyMaterialLength]; omega)] at made
    cases made
  | ok keys =>
    refine ⟨parameters, keys, found, made, fun side => ?_⟩
    rw [derive, ofMaterial, if_neg (by rw [SuiteParameters.keyMaterialLength]; omega)] at made
    cases made
    cases side <;> simp only [WriteKeys.Usable, writer, List.length_take, List.length_drop] <;> omega

namespace Record

variable {G : Type} [Entropy G] {keys : WriteKeys} {source : G} {number : UInt64}

/-- A piece is protected if the keys can be used, the number is not the last and the source gives a
starting block. -/
theorem protectPiece_of_demand {type : ContentType} {piece : Octets} {next : G}
    {start : Fixed Aes.blockLength} (usable : keys.Usable) (short : piece.length ≤ maxPiece)
    (room : number.toNat + 1 < 2 ^ 64)
    (drawn : (Entropy.demand Aes.blockLength : EStateM Error G _) source = .ok start next) :
    ∃ record, protectPiece keys type piece ⟨number, source⟩ = .ok record ⟨number + 1, next⟩ := by
  rw [maxPiece] at short
  obtain ⟨header, headed⟩ : ∃ header, tagHeader number type .current piece.length = .ok header :=
    ⟨_, if_pos (by omega)⟩
  obtain ⟨given, tagged⟩ : ∃ given, tag keys number type .current piece = .ok given :=
    ⟨_, tag_eq_ok.mpr ⟨header, headed, rfl⟩⟩
  have blocks := length_padded_mod (piece ++ given).length
  rw [← length_padding, ← List.length_append] at blocks
  obtain ⟨ciphertext, enciphered⟩ := Aes.encryptOctets_eq_ok usable start.property blocks
  exact ⟨_, protectPiece_eq_ok.mpr ⟨given, start, tagged, drawn,
    encrypted_eq_ok.mpr ⟨ciphertext, enciphered, rfl⟩, if_pos room⟩⟩

/-- A source that serves once more is enough for a piece. -/
theorem protectPiece_of_serves {left : G → Prop} {count : Nat} {type : ContentType}
    {piece : Octets} (usable : keys.Usable) (short : piece.length ≤ maxPiece)
    (room : number.toNat + 1 < 2 ^ 64) (serves : Entropy.Serves left (count + 1) source) :
    ∃ record next,
      protectPiece keys type piece ⟨number, source⟩ = .ok record ⟨number + 1, next⟩ ∧
      Entropy.Serves left count next := by
  obtain ⟨start, next, drawn, later⟩ := serves.demand Aes.blockLength
  obtain ⟨record, made⟩ := protectPiece_of_demand usable short room drawn
  exact ⟨record, next, made, later⟩

/-- One octet more than a record takes is two pieces. -/
theorem pieces_replicate : pieces (List.replicate 16293 0) = [List.replicate 16292 0, [0]] := by
  have rest : (List.replicate 16293 (0 : UInt8)).drop maxPiece = [0] := List.drop_replicate
  have front : (List.replicate 16293 (0 : UInt8)).take maxPiece = List.replicate 16292 0 :=
    List.take_replicate
  have last : pieces [0] = [[0]] := pieces_of_short (by decide)
  rw [pieces, rest, front, last]
  rfl

/-- A source that gives one starting block and declines the next is not enough for two records, and
the number of the first is lost. -/
theorem protect_of_declined {type : ContentType} {left next : G} {start : Fixed Aes.blockLength}
    (usable : keys.Usable) (room : number.toNat + 1 < 2 ^ 64)
    (drawn : (Entropy.demand Aes.blockLength : EStateM Error G _) source = .ok start left)
    (declined : (Entropy.demand Aes.blockLength : EStateM Error G _) left =
      .error .entropyExhausted next) :
    protect keys type (List.replicate 16293 0) ⟨number, source⟩ =
      .error .entropyExhausted ⟨number + 1, next⟩ := by
  have short : (List.replicate 16292 (0 : UInt8)).length ≤ maxPiece :=
    Nat.le_of_eq List.length_replicate
  obtain ⟨record, first⟩ := @protectPiece_of_demand G _ keys _ number type
    (List.replicate 16292 0) _ _ usable short room drawn
  obtain ⟨given, tagged⟩ : ∃ given, tag keys (number + 1) type .current [0] = .ok given :=
    ⟨_, tag_eq_ok.mpr ⟨_, rfl, rfl⟩⟩
  have second : protectPiece keys type [0] ⟨number + 1, left⟩ =
      .error .entropyExhausted ⟨number + 1, next⟩ := by
    rw [protectPiece, get_bind]
    dsimp only
    rw [tagged, bind_of_ok (ofExcept_eq_ok.mpr ⟨rfl, rfl⟩)]
    refine bind_of_error ?_
    rw [drawStart, declined]
  exact protectPieces_eq_error.mpr ⟨[List.replicate 16292 0], [0], [], _, _, pieces_replicate,
    protectPieces_cons.mpr ⟨record, _, [], first, rfl, rfl⟩, second⟩

end Record

/-- A message made of some content is read back, and is not longer than what is waited for. -/
structure Carries {Content : Type} [Body Content] (content : Content) (message : Octets) : Prop where
  encoded : Body.encode content = .ok message
  decoded : Body.decode Content message = .ok content
  short : message.length ≤ Body.headerLength + Assembly.maxLength

namespace Carries

theorem whole {Content : Type} [Body Content] {content : Content} {message : Octets}
    (carries : Carries content message) : Message.IsWhole message :=
  Body.isWhole_of_encode carries.encoded

/-- A body that is written, read back and not too long makes a message. -/
theorem of_write {Content : Type} [Body Content] {content : Content} {body : Octets}
    (written : Body.write content = .ok body) (read : Body.scan body = .ok content [])
    (short : body.length ≤ Assembly.maxLength) : ∃ message, Carries content message ∧
      message.length = Body.headerLength + body.length := by
  have fits : body.length < 2 ^ 24 := by
    rw [Assembly.maxLength] at short
    omega
  have encoded := Body.encode_eq_ok.mpr ⟨body, written, fits, rfl⟩
  have length := Body.length_of_encode written encoded
  refine ⟨_, ⟨encoded, Body.decode_eq_ok.mpr ⟨body, fits, rfl, read⟩, ?_⟩, length⟩
  rw [length]
  omega

theorem clientHello {suites : List Suite} (random : Random) (some : suites ≠ [])
    (few : suites.length ≤ 32767) :
    ∃ message, Carries (ClientHello.offering random suites) message := by
  have formed : (ClientHello.offering random suites).WellFormed :=
    ⟨Nat.zero_le _, ⟨List.length_pos_iff.mpr some, few⟩, by simp [ClientHello.offering],
      by simp [ClientHello.offering]⟩
  have written : Body.write (ClientHello.offering random suites) = .ok (Version.current.encode ++
      (random.val ++ (Field.sized8 [] ++ (SuiteList.encode suites ++
        (Field.sized8 [CompressionList.null] ++ Extensions.encode none))))) := rfl
  obtain ⟨message, carries, _⟩ :=
    of_write written (ClientHello.scan_eq_ok.mpr ⟨formed, written⟩) (by
      simp only [List.length_append, Version.encode, random.property, Field.sized8, SuiteList.encode,
        SuiteList.length_flatMap_word, Octets.length_bigEndian, Extensions.encode, List.length_cons,
        List.length_nil, Assembly.maxLength]
      omega)
  exact ⟨message, carries⟩

theorem serverHello (random : Random) (suite : Suite) :
    ∃ message, Carries (ServerHello.choosing random suite) message := by
  have formed : (ServerHello.choosing random suite).WellFormed :=
    ⟨Nat.zero_le _, by simp [ServerHello.choosing]⟩
  have written : Body.write (ServerHello.choosing random suite) = .ok (Version.current.encode ++
      (random.val ++ (Field.sized8 [] ++ (Field.word suite ++
        (CompressionList.null :: Extensions.encode none))))) := rfl
  obtain ⟨message, carries, _⟩ :=
    of_write written (ServerHello.scan_eq_ok.mpr ⟨formed, written⟩) (by
      simp only [List.length_append, Version.encode, random.property, Field.sized8, Field.word,
        Octets.length_bigEndian, Extensions.encode, List.length_cons, List.length_nil,
        Assembly.maxLength]
      omega)
  exact ⟨message, carries⟩

theorem certificates {list : List Octets} (nonempty : ∀ certificate ∈ list, certificate ≠ [])
    (short : 3 + Certificates.entriesLength list ≤ Assembly.maxLength) :
    ∃ message, Carries (Certificates.mk list) message := by
  have fits : Certificates.entriesLength list < 2 ^ 24 := by
    rw [Assembly.maxLength] at short
    omega
  obtain ⟨entries, made⟩ := Certificates.exists_writeEntries fits
  have length := Certificates.length_writeEntries made
  have written : Body.write (Certificates.mk list) =
      .ok (Octets.bigEndian 3 entries.length ++ entries) :=
    Certificates.write_eq_ok.mpr ⟨entries, fits, made, rfl⟩
  obtain ⟨message, carries, _⟩ :=
    of_write written (Certificates.scan_eq_ok.mpr ⟨nonempty, written⟩) (by
      rw [List.length_append, Octets.length_bigEndian, length]
      exact short)
  exact ⟨message, carries⟩

theorem helloDone :
    ∃ message, Carries ServerHelloDone.mk message ∧ message.length ≤ Record.maxPiece := by
  have written : Body.write ServerHelloDone.mk = .ok [] := rfl
  obtain ⟨message, carries, total⟩ :=
    of_write written (ServerHelloDone.scan_eq_ok.mpr written) (Nat.zero_le _)
  refine ⟨message, carries, ?_⟩
  rw [total]
  decide

theorem keyExchange {encrypted : Octets} (short : encrypted.length ≤ 512) :
    ∃ message, Carries (ClientKeyExchange.mk encrypted) message := by
  have formed : (ClientKeyExchange.mk encrypted).WellFormed := Nat.le_trans short (by decide)
  have written : Body.write (ClientKeyExchange.mk encrypted) = .ok (Field.sized16 encrypted) := rfl
  obtain ⟨message, carries, _⟩ :=
    of_write written (ClientKeyExchange.scan_eq_ok.mpr ⟨formed, written⟩) (by
      rw [Field.sized16, List.length_append, Octets.length_bigEndian, Assembly.maxLength]
      omega)
  exact ⟨message, carries⟩

theorem finished {verifyData : Octets} (length : verifyData.length = KeySchedule.verifyLength) :
    ∃ message, Carries (Finished.mk verifyData) message ∧ message.length ≤ Record.maxPiece := by
  have written : Body.write (Finished.mk verifyData) = .ok verifyData := rfl
  obtain ⟨message, carries, total⟩ :=
    of_write written (Finished.scan_eq_ok.mpr ⟨length, written⟩) (by
      rw [length]
      decide)
  refine ⟨message, carries, ?_⟩
  rw [total, length]
  decide

end Carries

end TransportSecurity
