import TransportSecurity.Message.Exchange
import TransportSecurity.Message.Hello
import TransportSecurity.Proofs.Message.Delimited
import TransportSecurity.Proofs.Record.Delimited

/-!
The bodies of handshake messages are read back as they were written.

For every kind of body `scan_eq_ok` says that reading succeeds exactly on what is written for a body
whose lengths fit their prefixes, and yields that body.
-/

namespace TransportSecurity

variable {octets rest : Octets}

namespace SessionId

theorem scan_eq_ok {id : Octets} : SessionId.scan octets = .ok id rest ↔
    id.length ≤ maxLength ∧ octets = Field.sized8 id ++ rest := by
  simp only [SessionId.scan, bind_eq_ok, Scan.sized_eq_ok, ite_eq_ok, throw_eq_ok, pure_eq_ok]
  constructor
  · rintro ⟨_, _, ⟨_, rfl⟩, ⟨_, _, _, impossible, _⟩ | ⟨short, rfl, rfl⟩⟩
    · exact impossible.elim
    · exact ⟨Nat.le_of_not_lt short, rfl⟩
  · rintro ⟨short, rfl⟩
    have fits : id.length < 256 ^ 1 := by
      simp only [maxLength] at short
      omega
    exact ⟨id, rest, ⟨fits, rfl⟩, Or.inr ⟨Nat.not_lt.mpr short, rfl, rfl⟩⟩

end SessionId

namespace CompressionList

theorem scan_eq_ok {methods : Octets} : CompressionList.scan octets = .ok methods rest ↔
    (1 ≤ methods.length ∧ methods.length ≤ 255) ∧ octets = Field.sized8 methods ++ rest := by
  simp only [CompressionList.scan, bind_eq_ok, Scan.sized_eq_ok, ite_eq_ok, throw_eq_ok, pure_eq_ok,
    List.isEmpty_iff]
  constructor
  · rintro ⟨_, _, ⟨fits, rfl⟩, ⟨_, _, _, impossible, _⟩ | ⟨some, rfl, rfl⟩⟩
    · exact impossible.elim
    · exact ⟨⟨List.length_pos_iff.mpr some, Nat.le_of_lt_succ fits⟩, rfl⟩
  · rintro ⟨⟨some, short⟩, rfl⟩
    exact ⟨methods, rest, ⟨Nat.lt_succ_of_le short, rfl⟩,
      Or.inr ⟨List.length_pos_iff.mp some, rfl, rfl⟩⟩

end CompressionList

namespace SuiteList

theorem ofOctets_flatMap_word (suites : List Suite) :
    ofOctets (suites.flatMap Field.word) = suites := by
  induction suites with
  | nil => rfl
  | cons suite suites ih =>
    have digits : (Field.word suite).length = 2 := Octets.length_bigEndian ..
    have value : Octets.value (Field.word suite) = suite.toNat :=
      Octets.value_bigEndian_of_lt suite.toNat_lt
    rw [List.flatMap_cons]
    match spelled : Field.word suite, digits with
    | [a, b], _ =>
      rw [spelled] at value
      simp only [List.cons_append, List.nil_append, ofOctets, value, ih, UInt16.ofNat_toNat]

theorem flatMap_word_ofOctets : ∀ {octets : Octets}, octets.length % 2 = 0 →
    (ofOctets octets).flatMap Field.word = octets
  | [], _ => rfl
  | [_], odd => by simp at odd
  | a :: b :: rest, even => by
    have shorter : rest.length % 2 = 0 := by
      simp only [List.length_cons] at even
      omega
    have spelled := Octets.bigEndian_value [a, b]
    have fits : Octets.value [a, b] < 256 ^ 2 := Octets.value_lt [a, b]
    have word : Field.word (UInt16.ofNat (Octets.value [a, b])) = [a, b] := by
      rw [Field.word, UInt16.toNat_ofNat', Nat.mod_eq_of_lt (by omega)]
      exact spelled
    rw [ofOctets, List.flatMap_cons, word, flatMap_word_ofOctets shorter]
    rfl

theorem length_flatMap_word (suites : List Suite) :
    (suites.flatMap Field.word).length = 2 * suites.length := by
  induction suites with
  | nil => rfl
  | cons suite suites ih =>
    have digits : (Field.word suite).length = 2 := Octets.length_bigEndian ..
    rw [List.flatMap_cons, List.length_append, ih, digits, List.length_cons]
    omega

theorem scan_eq_ok {suites : List Suite} : SuiteList.scan octets = .ok suites rest ↔
    (1 ≤ suites.length ∧ suites.length ≤ 32767) ∧ octets = encode suites ++ rest := by
  simp only [SuiteList.scan, bind_eq_ok, Scan.sized_eq_ok, ite_eq_ok, throw_eq_ok, pure_eq_ok,
    List.isEmpty_iff, not_or, Decidable.not_not, encode]
  constructor
  · rintro ⟨body, _, ⟨fits, rfl⟩, ⟨_, _, _, impossible, _⟩ | ⟨⟨some, even⟩, rfl, rfl⟩⟩
    · exact impossible.elim
    · have whole := flatMap_word_ofOctets even
      have length := length_flatMap_word (ofOctets body)
      rw [whole] at length
      have positive := List.length_pos_iff.mpr some
      rw [← length, whole]
      exact ⟨by omega, rfl⟩
  · rintro ⟨⟨some, short⟩, rfl⟩
    have length := length_flatMap_word suites
    refine ⟨suites.flatMap Field.word, rest, ⟨?_, by rw [length]⟩, Or.inr ⟨⟨?_, ?_⟩,
      ofOctets_flatMap_word suites, rfl⟩⟩
    · omega
    · exact List.length_pos_iff.mp (by omega)
    · omega

end SuiteList

namespace Extensions

/-- A block of extensions is read to the end exactly if its length fits. -/
theorem scan_eq_ok {extensions : Option Octets} : Extensions.scan octets = .ok extensions [] ↔
    (∀ block ∈ extensions, block.length ≤ 65535) ∧ octets = encode extensions := by
  simp only [Extensions.scan, bind_eq_ok, Scan.atEnd_eq_ok, ite_eq_ok, pure_eq_ok, Scan.sized_eq_ok]
  constructor
  · rintro ⟨_, _, ⟨rfl, rfl⟩, ⟨nothing, rfl, rfl⟩ | ⟨_, block, _, ⟨fits, rfl⟩, rfl, rfl⟩⟩
    · exact ⟨by simp, rfl⟩
    · refine ⟨?_, by simp [encode, Field.sized16]⟩
      rintro _ ⟨⟩
      exact Nat.le_of_lt_succ fits
  · rintro ⟨short, rfl⟩
    cases extensions with
    | none => exact ⟨true, [], ⟨rfl, rfl⟩, Or.inl ⟨rfl, rfl, rfl⟩⟩
    | some block =>
      have fits : block.length < 256 ^ 2 := Nat.lt_succ_of_le (short block rfl)
      have digits : (Octets.bigEndian 2 block.length).length = 2 := Octets.length_bigEndian ..
      refine ⟨false, _, ⟨?_, rfl⟩, Or.inr ⟨by simp, block, [], ⟨fits, ?_⟩, rfl, rfl⟩⟩
      · rw [encode, Field.sized16, List.isEmpty_eq_false_iff, ← List.length_pos_iff,
          List.length_append, digits]
        omega
      · rw [List.append_nil]
        rfl

end Extensions

namespace ClientHello

theorem scan_eq_ok {hello : ClientHello} :
    (Body.scan : Scan ClientHello) octets = .ok hello [] ↔
      hello.WellFormed ∧ Body.write hello = .ok octets := by
  simp only [Body.scan, Body.write, bind_eq_ok, Version.scan_eq_ok, Random.scan, Scan.fixed_eq_ok,
    SessionId.scan_eq_ok, SuiteList.scan_eq_ok, CompressionList.scan_eq_ok, pure_eq_ok,
    except_pure_eq_ok]
  constructor
  · rintro ⟨version, _, rfl, random, _, rfl, id, _, ⟨idShort, rfl⟩, suites, _, ⟨some, rfl⟩,
      methods, _, ⟨methodsShort, rfl⟩, extensions, rest, read, rfl, rfl⟩
    obtain ⟨blockShort, rfl⟩ := Extensions.scan_eq_ok.mp read
    exact ⟨⟨idShort, some, methodsShort, blockShort⟩, rfl⟩
  · rintro ⟨fits, rfl⟩
    exact ⟨_, _, rfl, _, _, rfl, _, _, ⟨fits.sessionId, rfl⟩, _, _, ⟨fits.suites, rfl⟩, _, _,
      ⟨fits.compression, rfl⟩, _, _, Extensions.scan_eq_ok.mpr ⟨fits.extensions, rfl⟩, rfl, rfl⟩

end ClientHello

namespace ServerHello

theorem scan_eq_ok {hello : ServerHello} :
    (Body.scan : Scan ServerHello) octets = .ok hello [] ↔
      (hello.WellFormed ∧ Body.write hello = .ok octets) := by
  simp only [Body.scan, Body.write, bind_eq_ok, Version.scan_eq_ok, Random.scan, Scan.fixed_eq_ok,
    SessionId.scan_eq_ok, Scan.word_eq_ok, Scan.octet_eq_ok, ite_eq_ok, throw_eq_ok,
    pure_eq_ok, except_pure_eq_ok]
  constructor
  · rintro ⟨version, _, rfl, random, _, rfl, id, _, ⟨idShort, rfl⟩, suite, _, rfl,
      method, _, rfl, ⟨_, _, _, impossible, _⟩ | ⟨null, extensions, rest, read, rfl, rfl⟩⟩
    · exact impossible.elim
    · obtain ⟨blockShort, rfl⟩ := Extensions.scan_eq_ok.mp read
      rw [Decidable.not_not.mp null]
      exact ⟨⟨idShort, blockShort⟩, rfl⟩
  · rintro ⟨fits, rfl⟩
    exact ⟨_, _, rfl, _, _, rfl, _, _, ⟨fits.sessionId, rfl⟩, _, _, rfl, _, _, rfl,
      Or.inr ⟨Decidable.not_not.mpr rfl, _, _,
        Extensions.scan_eq_ok.mpr ⟨fits.extensions, rfl⟩, rfl, rfl⟩⟩

end ServerHello

namespace Certificates

theorem writeEntries_cons {certificate : Octets} {list : List Octets} :
    writeEntries (certificate :: list) = .ok octets ↔ ∃ rest, certificate.length < 2 ^ 24 ∧
      writeEntries list = .ok rest ∧
      octets = Octets.bigEndian 3 certificate.length ++ certificate ++ rest := by
  simp only [writeEntries, Field.sized24, Field.triple, except_bind_eq_ok, except_pure_eq_ok]
  constructor
  · rintro ⟨_, ⟨length, sized, rfl⟩, rest, written, rfl⟩
    split at sized
    · next fits =>
      cases sized
      exact ⟨rest, fits, written, rfl⟩
    · cases sized
  · rintro ⟨rest, fits, written, rfl⟩
    exact ⟨_, ⟨_, if_pos fits, rfl⟩, rest, written, rfl⟩

theorem length_writeEntries {list : List Octets} (written : writeEntries list = .ok octets) :
    octets.length = entriesLength list := by
  induction list generalizing octets with
  | nil =>
    cases written
    rfl
  | cons certificate list ih =>
    obtain ⟨rest, _, tail, rfl⟩ := writeEntries_cons.mp written
    have length := ih tail
    simp only [entriesLength, List.length_append, Octets.length_bigEndian]
    omega

/-- Certificates that fit together can be written. -/
theorem exists_writeEntries {list : List Octets} (fits : entriesLength list < 2 ^ 24) :
    ∃ entries, writeEntries list = .ok entries := by
  induction list with
  | nil => exact ⟨[], rfl⟩
  | cons certificate list ih =>
    rw [entriesLength] at fits
    obtain ⟨rest, written⟩ := ih (by omega)
    exact ⟨_, writeEntries_cons.mpr ⟨rest, by omega, written, rfl⟩⟩

/-- Entries say where they end, so they are never written alike for different certificates. -/
theorem writeEntries_inj {a b : List Octets} (ha : writeEntries a = .ok octets)
    (hb : writeEntries b = .ok octets) : a = b := by
  induction a generalizing b octets with
  | nil =>
    cases ha
    cases b with
    | nil => rfl
    | cons =>
      obtain ⟨rest, _, _, same⟩ := writeEntries_cons.mp hb
      have lengths := congrArg List.length same
      simp only [List.length_append, Octets.length_bigEndian, List.length_nil] at lengths
      omega
  | cons first a ih =>
    obtain ⟨restA, fitsA, tailA, rfl⟩ := writeEntries_cons.mp ha
    cases b with
    | nil =>
      have lengths := congrArg List.length (Except.ok.inj hb)
      simp only [List.length_append, Octets.length_bigEndian, List.length_nil] at lengths
      omega
    | cons second b =>
      obtain ⟨restB, fitsB, tailB, same⟩ := writeEntries_cons.mp hb
      rw [List.append_assoc, List.append_assoc] at same
      obtain ⟨lengths, same⟩ := List.append_inj same (by simp)
      have length := Octets.bigEndian_inj fitsA fitsB lengths
      obtain ⟨rfl, rfl⟩ := List.append_inj same length
      rw [ih tailA tailB]

/-- An entry is read off the front as it was written. -/
theorem readEntries_cons {certificate rest : Octets} (fits : certificate.length < 2 ^ 24)
    (some : certificate ≠ []) :
    readEntries (Octets.bigEndian 3 certificate.length ++ certificate ++ rest) =
      (certificate :: ·) <$> readEntries rest := by
  have digits : (Octets.bigEndian 3 certificate.length).length = 3 := Octets.length_bigEndian ..
  match spelled : Octets.bigEndian 3 certificate.length, digits with
  | [a, b, c], _ =>
    have value : Octets.value [a, b, c] = certificate.length := by
      rw [← spelled]
      exact Octets.value_bigEndian_of_lt fits
    have positive := List.length_pos_iff.mpr some
    have sound : ¬ (certificate.length < certificate.length ∨ certificate.length = 0) := by omega
    rw [List.append_assoc]
    simp only [List.cons_append, List.nil_append, readEntries, value, List.take_left,
      List.drop_left, sound, if_false]
    cases readEntries rest <;> rfl

/-- Entries are read exactly from what is written for certificates that are not empty. -/
theorem readEntries_eq_ok {list : List Octets} : readEntries octets = .ok list ↔
    (∀ certificate ∈ list, certificate ≠ []) ∧ writeEntries list = .ok octets := by
  constructor
  · fun_induction readEntries octets generalizing list with
    | case1 =>
      rintro ⟨⟩
      exact ⟨by simp, rfl⟩
    | case2 =>
      rintro ⟨⟩
    | case3 a b c rest length certificate sound =>
      rename_i ih
      intro read
      obtain ⟨list, tail, same⟩ := except_bind_eq_ok.mp read
      cases same
      obtain ⟨nonempty, written⟩ := ih tail
      have full : certificate.length = length := by
        simp only [not_or, Nat.not_lt] at sound
        exact Nat.le_antisymm (List.length_take_le ..) sound.1
      have some : certificate ≠ [] := List.length_pos_iff.mp (by omega)
      have spelled : Octets.bigEndian 3 length = [a, b, c] := Octets.bigEndian_value [a, b, c]
      have fits : length < 256 ^ 3 := Octets.value_lt [a, b, c]
      refine ⟨List.forall_mem_cons.mpr ⟨some, nonempty⟩,
        writeEntries_cons.mpr ⟨_, by omega, written, ?_⟩⟩
      rw [full, spelled, List.append_assoc, List.take_append_drop]
      rfl
    | case4 =>
      rintro ⟨⟩
  · rintro ⟨nonempty, written⟩
    induction list generalizing octets with
    | nil =>
      cases written
      rw [readEntries]
      rfl
    | cons certificate list ih =>
      obtain ⟨rest, fits, tail, rfl⟩ := writeEntries_cons.mp written
      obtain ⟨some, nonempty⟩ := List.forall_mem_cons.mp nonempty
      rw [readEntries_cons fits some, ih nonempty tail]
      rfl

theorem write_eq_ok {certificates : Certificates} :
    Body.write certificates = .ok octets ↔ ∃ entries,
      entriesLength certificates.list < 2 ^ 24 ∧ writeEntries certificates.list = .ok entries ∧
      octets = Octets.bigEndian 3 entries.length ++ entries := by
  simp only [Body.write, Field.triple, except_bind_eq_ok, except_pure_eq_ok]
  constructor
  · rintro ⟨length, sized, entries, written, rfl⟩
    split at sized
    · next fits =>
      cases sized
      exact ⟨entries, fits, written, by rw [length_writeEntries written]⟩
    · cases sized
  · rintro ⟨entries, fits, written, rfl⟩
    exact ⟨_, if_pos fits, entries, written, by rw [length_writeEntries written]⟩

/-- A body is written by one chain only. -/
theorem write_inj {a b : Certificates} (ha : Body.write a = .ok octets)
    (hb : Body.write b = .ok octets) : a = b := by
  obtain ⟨entries, _, written, rfl⟩ := write_eq_ok.mp ha
  obtain ⟨others, _, written', same⟩ := write_eq_ok.mp hb
  obtain ⟨_, rfl⟩ := List.append_inj same (by simp)
  exact congrArg Certificates.mk (writeEntries_inj written written')

theorem scan_eq_ok {certificates : Certificates} :
    (Body.scan : Scan Certificates) octets = .ok certificates [] ↔
      (∀ certificate ∈ certificates.list, certificate ≠ []) ∧
        Body.write certificates = .ok octets := by
  simp only [write_eq_ok, Body.scan, bind_eq_ok, Scan.sized_eq_ok, ofExcept_eq_ok, pure_eq_ok,
    readEntries_eq_ok]
  constructor
  · rintro ⟨entries, _, ⟨fits, rfl⟩, list, _, ⟨⟨nonempty, written⟩, rfl⟩, rfl, rfl⟩
    refine ⟨nonempty, entries, ?_, written, by simp⟩
    rw [← length_writeEntries written]
    exact fits
  · rintro ⟨nonempty, entries, fits, written, rfl⟩
    rw [← length_writeEntries written] at fits
    exact ⟨entries, [], ⟨fits, by simp⟩, _, _, ⟨⟨nonempty, written⟩, rfl⟩, rfl, rfl⟩

end Certificates

namespace ServerHelloDone

theorem scan_eq_ok {done : ServerHelloDone} :
    (Body.scan : Scan ServerHelloDone) octets = .ok done [] ↔ Body.write done = .ok octets := by
  simp only [Body.scan, Body.write, pure_eq_ok, except_pure_eq_ok]
  exact ⟨fun h => h.2.symm, fun h => ⟨trivial, h.symm⟩⟩

end ServerHelloDone

namespace ClientKeyExchange

theorem scan_eq_ok {exchange : ClientKeyExchange} :
    (Body.scan : Scan ClientKeyExchange) octets = .ok exchange [] ↔
      exchange.WellFormed ∧ Body.write exchange = .ok octets := by
  simp only [Body.scan, Body.write, bind_eq_ok, Scan.sized_eq_ok, pure_eq_ok, except_pure_eq_ok]
  constructor
  · rintro ⟨encrypted, _, ⟨fits, rfl⟩, rfl, rfl⟩
    exact ⟨Nat.le_of_lt_succ fits, by simp [Field.sized16]⟩
  · rintro ⟨fits, rfl⟩
    exact ⟨_, _, ⟨Nat.lt_succ_of_le fits, by simp [Field.sized16]⟩, rfl, rfl⟩

end ClientKeyExchange

namespace Finished

theorem scan_eq_ok {finished : Finished} :
    (Body.scan : Scan Finished) octets = .ok finished [] ↔
      finished.WellFormed ∧ Body.write finished = .ok octets := by
  simp only [Body.scan, Body.write, bind_eq_ok, Scan.take_eq_ok, pure_eq_ok, except_pure_eq_ok]
  constructor
  · rintro ⟨verifyData, _, ⟨length, rfl⟩, rfl, rfl⟩
    exact ⟨length, by simp⟩
  · rintro ⟨length, rfl⟩
    exact ⟨_, _, ⟨length, by simp⟩, rfl, rfl⟩

end Finished

end TransportSecurity
