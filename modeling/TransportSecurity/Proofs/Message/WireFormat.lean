import TransportSecurity.Proofs.Message.ReadBack

/-!
The wire format of handshake messages is a bijection.

`Body.Bijective` says of a kind of body that its well-formed contents are exactly those that come
back from their encoding, and that nothing but such an encoding is decoded. A kind has this as soon
as its body alone is read exactly as it is written and is never longer than a message has room for
(`Body.Bijective.of_scan`), so what is left for each of the six kinds is how long its body can get.
-/

namespace TransportSecurity

namespace Body

variable {Content : Type} [Body Content]

/-- Contents of one form and the messages that are decoded correspond one to one. -/
structure Bijective (Formed : Content → Prop) : Prop where
  /-- What has the form can be encoded, and is decoded as it was. -/
  decoded : ∀ content, Formed content →
    ∃ message, encode content = .ok message ∧ decode Content message = .ok content
  /-- What is decoded has the form, and encodes to the octets it was decoded from. -/
  encoded : ∀ message content, decode Content message = .ok content →
    Formed content ∧ encode content = .ok message
  /-- The messages that are accepted are the encodings of what has the form. -/
  accepted : ∀ message, (∃ content, decode Content message = .ok content) ↔
    ∃ content, Formed content ∧ encode content = .ok message

/-- It is enough that bodies which fit a message are read as written, and that all of them fit. -/
theorem Bijective.of_scan {Formed : Content → Prop}
    (fits : ∀ content, Formed content → ∃ body, write content = .ok body ∧ body.length < 2 ^ 24)
    (read : ∀ body content, body.length < 2 ^ 24 →
      (scan body = .ok content [] ↔ Formed content ∧ write content = .ok body)) :
    Bijective Formed := by
  have decoded : ∀ content message, Formed content → encode content = .ok message →
      decode Content message = .ok content := by
    intro content message formed encodes
    obtain ⟨body, written, short, rfl⟩ := encode_eq_ok.mp encodes
    exact decode_eq_ok.mpr ⟨body, short, rfl, (read body content short).mpr ⟨formed, written⟩⟩
  have encoded : ∀ message content, decode Content message = .ok content →
      Formed content ∧ encode content = .ok message := by
    intro message content decodes
    obtain ⟨body, short, rfl, scanned⟩ := decode_eq_ok.mp decodes
    obtain ⟨formed, written⟩ := (read body content short).mp scanned
    exact ⟨formed, encode_eq_ok.mpr ⟨body, written, short, rfl⟩⟩
  refine ⟨fun content formed => ?_, encoded, fun message => ⟨?_, ?_⟩⟩
  · obtain ⟨body, written, short⟩ := fits content formed
    have encodes := encode_eq_ok.mpr ⟨body, written, short, rfl⟩
    exact ⟨_, encodes, decoded content _ formed encodes⟩
  · rintro ⟨content, decodes⟩
    exact ⟨content, encoded message content decodes⟩
  · rintro ⟨content, formed, encodes⟩
    exact ⟨content, decoded content message formed encodes⟩

end Body

theorem Extensions.length_encode_le {extensions : Option Octets}
    (short : ∀ block ∈ extensions, block.length ≤ 65535) : (encode extensions).length ≤ 65537 := by
  cases extensions with
  | none => exact Nat.zero_le _
  | some block =>
    have := short block rfl
    rw [encode, Field.sized16, List.length_append, Octets.length_bigEndian]
    omega

namespace ClientHello

/-- With every list at its longest a client's hello is far from filling a message. -/
theorem exists_write {hello : ClientHello} (formed : hello.WellFormed) :
    ∃ body, Body.write hello = .ok body ∧ body.length < 2 ^ 24 := by
  have extensions := Extensions.length_encode_le formed.extensions
  have sessionId := formed.sessionId
  have suites := formed.suites
  have compression := formed.compression
  refine ⟨_, rfl, ?_⟩
  simp only [List.length_append, Version.encode, hello.random.property, Field.sized8,
    SuiteList.encode, SuiteList.length_flatMap_word, Octets.length_bigEndian, List.length_cons,
    List.length_nil]
  rw [SessionId.maxLength] at sessionId
  omega

end ClientHello

namespace ServerHello

theorem exists_write {hello : ServerHello} (formed : hello.WellFormed) :
    ∃ body, Body.write hello = .ok body ∧ body.length < 2 ^ 24 := by
  have extensions := Extensions.length_encode_le formed.extensions
  have sessionId := formed.sessionId
  refine ⟨_, rfl, ?_⟩
  simp only [List.length_append, Version.encode, hello.random.property, Field.sized8, Field.word,
    Octets.length_bigEndian, List.length_cons, List.length_nil]
  rw [SessionId.maxLength] at sessionId
  omega

end ServerHello

namespace Certificates

/-- A body of certificates is the entries and the three octets of their length. -/
theorem length_of_write {certificates : Certificates} {body : Octets}
    (written : Body.write certificates = .ok body) :
    body.length = 3 + entriesLength certificates.list := by
  obtain ⟨entries, _, made, rfl⟩ := write_eq_ok.mp written
  rw [List.length_append, Octets.length_bigEndian, length_writeEntries made]

/-- Certificates whose entries can be counted are written. -/
theorem exists_write_of_room {certificates : Certificates}
    (room : entriesLength certificates.list < 2 ^ 24) : ∃ body,
      Body.write certificates = .ok body ∧ body.length = 3 + entriesLength certificates.list := by
  obtain ⟨entries, made⟩ := exists_writeEntries room
  have written := write_eq_ok.mpr ⟨entries, room, made, rfl⟩
  exact ⟨_, written, length_of_write written⟩

/-- Certificates that fit a message are written. -/
theorem exists_write {certificates : Certificates} (formed : certificates.WellFormed) :
    ∃ body, Body.write certificates = .ok body ∧ body.length < 2 ^ 24 := by
  have fits := formed.fits
  have room : entriesLength certificates.list < 2 ^ 24 := by omega
  obtain ⟨body, written, length⟩ := exists_write_of_room room
  exact ⟨body, written, by rw [length]; exact fits⟩

/-- In a message the length of the body is what keeps the certificates within their bound. -/
theorem scan_iff_wellFormed {certificates : Certificates} {body : Octets}
    (short : body.length < 2 ^ 24) : (Body.scan : Scan Certificates) body = .ok certificates [] ↔
      certificates.WellFormed ∧ Body.write certificates = .ok body := by
  rw [scan_eq_ok]
  constructor
  · rintro ⟨nonempty, written⟩
    exact ⟨⟨nonempty, by rw [← length_of_write written]; exact short⟩, written⟩
  · rintro ⟨formed, written⟩
    exact ⟨formed.nonempty, written⟩

end Certificates

theorem ClientKeyExchange.exists_write {exchange : ClientKeyExchange}
    (formed : exchange.WellFormed) :
    ∃ body, Body.write exchange = .ok body ∧ body.length < 2 ^ 24 := by
  refine ⟨_, rfl, ?_⟩
  rw [WellFormed] at formed
  rw [Field.sized16, List.length_append, Octets.length_bigEndian]
  omega

theorem Finished.exists_write {finished : Finished} (formed : finished.WellFormed) :
    ∃ body, Body.write finished = .ok body ∧ body.length < 2 ^ 24 := by
  refine ⟨_, rfl, ?_⟩
  rw [formed]
  decide

/-- Each of the six kinds of handshake message is in bijection with its well-formed contents. -/
theorem Body.wireFormat_bijective :
    Bijective ClientHello.WellFormed ∧ Bijective ServerHello.WellFormed ∧
      Bijective Certificates.WellFormed ∧ Bijective (fun _ : ServerHelloDone => True) ∧
      Bijective ClientKeyExchange.WellFormed ∧ Bijective Finished.WellFormed := by
  -- Both conditions have been shown kind by kind; the end of a flight has an empty body.
  exact ⟨
    .of_scan (fun _ => ClientHello.exists_write) (fun _ _ _ => ClientHello.scan_eq_ok),
    .of_scan (fun _ => ServerHello.exists_write) (fun _ _ _ => ServerHello.scan_eq_ok),
    .of_scan (fun _ => Certificates.exists_write) (fun _ _ => Certificates.scan_iff_wellFormed),
    .of_scan (fun _ _ => ⟨[], rfl, by decide⟩)
      (fun _ _ _ => ServerHelloDone.scan_eq_ok.trans (and_iff_right True.intro).symm),
    .of_scan (fun _ => ClientKeyExchange.exists_write) (fun _ _ _ => ClientKeyExchange.scan_eq_ok),
    .of_scan (fun _ => Finished.exists_write) (fun _ _ _ => Finished.scan_eq_ok)⟩

end TransportSecurity
