import TransportSecurity.Proofs.Message.Collecting
import TransportSecurity.Proofs.Record.RoundTrip
import TransportSecurity.Proofs.Session.Agreement

/-!
The hello of a client on the wire.

A client offers the suites that it was made with, but the two octets for their length hold no more
than 32767 suites, and nothing bounds the list before. A longer one is cut by its length: what
follows is read as an empty list of compression methods, since every suite that can be used begins
with a zero (`not_scans_of_many`). So the hello is read back exactly if the list is short enough
(`start_offers`).
-/

namespace TransportSecurity

/-- Records are cut at their headers into fragments of handshake messages in the clear, which make
one message and no more, and it is read as a hello. -/
def Offers (records : Octets) (hello : ClientHello) : Prop :=
  ∃ entries message, Record.split records = (entries, []) ∧
    (∀ entry ∈ entries, Record.Framed .handshake entry.1 entry.2) ∧
    Assembly.gather [] (entries.map fun entry => entry.2.drop Record.headerLength) =
      ([message], .ok []) ∧
    Body.decode ClientHello message = .ok hello

/-- Cut at their headers, the records of a payload in the clear hold the pieces of the payload. -/
theorem Record.payloads_encodePlain (type : ContentType) (payload : Octets) :
    ((split (encodePlain type payload)).1.map fun entry => entry.2.drop headerLength) =
      pieces payload := by
  rw [split_encodePlain, List.map_map]
  refine (List.map_congr_left fun piece _ => ?_).trans (List.map_id _)
  exact drop_plainRecord type piece

/-- Records in the clear are made of one payload only. -/
theorem Record.encodePlain_inj {type : ContentType} {a b : Octets}
    (same : encodePlain type a = encodePlain type b) : a = b := by
  rw [← pieces_flatten a, ← pieces_flatten b, ← payloads_encodePlain type a, same,
    payloads_encodePlain]

/-- Cut at their headers, the records of a payload in the clear hold the messages of the payload. -/
theorem Record.gather_encodePlain (type : ContentType) (payload : Octets) :
    ∃ entries, split (encodePlain type payload) = (entries, []) ∧
      (∀ entry ∈ entries, Framed type entry.1 entry.2) ∧
      Assembly.gather [] (entries.map fun entry => entry.2.drop headerLength) =
        Assembly.messages payload := by
  have payloads := payloads_encodePlain type payload
  rw [split_encodePlain] at payloads
  refine ⟨_, split_encodePlain type payload, ?_, ?_⟩
  · intro entry found
    obtain ⟨piece, among, rfl⟩ := List.mem_map.mp found
    exact (isWhole_plainRecord
      (Nat.le_trans (length_le_of_mem_pieces among) (by decide))).framed
  · rw [Assembly.gather_eq rfl, payloads, pieces_flatten]
    rfl

/-- Every suite that can be used begins with a zero. -/
theorem Suite.word_of_supported {suite : Suite} (known : suite.isSupported) :
    ∃ last, Field.word suite = [0, last] := by
  simp only [isSupported, supported, List.contains_iff_mem, List.mem_cons, List.not_mem_nil,
    or_false] at known
  rcases known with rfl | rfl | rfl | rfl <;> exact ⟨_, rfl⟩

/-- A list of suites that is longer than its two octets of length can say is not read back: where
the list is cut the methods of compression would have to begin, and there are none. -/
theorem ClientHello.not_scans_of_many {random : Random} {suites : List Suite} {body : Octets}
    (known : ∀ suite ∈ suites, suite.isSupported) (many : 32767 < suites.length)
    (written : Body.write (offering random suites) = .ok body) (hello : ClientHello) :
    (Body.scan : Scan ClientHello) body ≠ .ok hello [] := by
  intro read
  obtain ⟨formed, again⟩ := scan_eq_ok.mp read
  have same := Except.ok.inj (again.trans written.symm)
  -- the fields before the list are as long as they were written
  obtain ⟨_, same⟩ := List.append_inj same rfl
  obtain ⟨_, same⟩ := List.append_inj same (hello.random.property.trans random.property.symm)
  change Octets.bigEndian 1 hello.sessionId.length ++ hello.sessionId ++ _ =
    Octets.bigEndian 1 0 ++ [] ++ _ at same
  rw [List.append_assoc, List.append_assoc] at same
  obtain ⟨lengths, same⟩ := List.append_inj same (by simp)
  have short : hello.sessionId.length < 256 ^ 1 :=
    Nat.lt_of_le_of_lt formed.sessionId (by decide)
  obtain ⟨_, same⟩ := List.append_inj same (Octets.bigEndian_inj short (by decide) lengths)
  change Octets.bigEndian 2 _ ++ hello.suites.flatMap Field.word ++ _ =
    Octets.bigEndian 2 _ ++ suites.flatMap Field.word ++ _ at same
  rw [List.append_assoc, List.append_assoc] at same
  obtain ⟨_, same⟩ := List.append_inj same (by simp)
  -- the list that is read is a front of the one that was written, and another suite follows it
  have few := formed.suites.2
  have more : 0 < (suites.drop hello.suites.length).length := by
    rw [List.length_drop]
    omega
  obtain ⟨next, others, rest⟩ := List.exists_cons_of_ne_nil (List.length_pos_iff.mp more)
  have front : (suites.take hello.suites.length).length = hello.suites.length :=
    List.length_take_of_le (by omega)
  rw [← List.take_append_drop hello.suites.length suites, rest, List.flatMap_append,
    List.append_assoc] at same
  obtain ⟨_, same⟩ := List.append_inj same
    (by rw [SuiteList.length_flatMap_word, SuiteList.length_flatMap_word, front])
  obtain ⟨last, word⟩ := Suite.word_of_supported
    (known next (List.mem_of_mem_drop (rest ▸ List.mem_cons_self ..)))
  rw [List.flatMap_cons, word, Field.sized8] at same
  -- its first octet says that there is no method of compression
  have digits : (Octets.bigEndian 1 hello.compression.length).length = 1 :=
    Octets.length_bigEndian ..
  have value : Octets.value (Octets.bigEndian 1 hello.compression.length) =
      hello.compression.length :=
    Octets.value_bigEndian_of_lt (Nat.lt_of_le_of_lt formed.compression.2 (by decide))
  obtain ⟨octet, spelled⟩ := List.length_eq_one_iff.mp digits
  rw [spelled] at same value
  obtain ⟨rfl, _⟩ := List.cons.inj same
  have some := formed.compression.1
  rw [← value] at some
  exact absurd some (by decide)

/-- A hello that is read at all is read as it was sent. -/
theorem Carries.of_offering {random : Random} {suites : List Suite} {message : Octets}
    {hello : ClientHello} (some : suites ≠ []) (known : ∀ suite ∈ suites, suite.isSupported)
    (encoded : Body.encode (ClientHello.offering random suites) = .ok message)
    (decoded : Body.decode ClientHello message = .ok hello) :
    Carries (ClientHello.offering random suites) message ∧
      hello = ClientHello.offering random suites := by
  by_cases few : suites.length ≤ 32767
  · obtain ⟨other, carries⟩ := Carries.clientHello random some few
    cases encoded.symm.trans carries.encoded
    exact ⟨carries, Except.ok.inj (decoded.symm.trans carries.decoded)⟩
  · obtain ⟨body, written, read⟩ := Body.scan_of_write encoded decoded
    exact (ClientHello.not_scans_of_many known (Nat.lt_of_not_le few) written hello read).elim

/-- A message in the clear that is not too long offers what it is read as. -/
theorem offers_encodePlain {message : Octets} {hello : ClientHello}
    (short : message.length ≤ Body.headerLength + Assembly.maxLength)
    (decoded : Body.decode ClientHello message = .ok hello) :
    Offers (Record.encodePlain .handshake message) hello := by
  obtain ⟨entries, cut, framed, gathered⟩ := Record.gather_encodePlain .handshake message
  refine ⟨entries, message, cut, framed, ?_, decoded⟩
  rw [gathered]
  exact Assembly.messages_of_whole (Body.isWhole_of_decode decoded) short

/-- What a message in the clear offers is what it is read as. -/
theorem decode_of_offers {message : Octets} {hello : ClientHello}
    (offers : Offers (Record.encodePlain .handshake message) hello) :
    Body.decode ClientHello message = .ok hello := by
  obtain ⟨entries, found, cut, _, gathered, decoded⟩ := offers
  obtain ⟨others, cut', _, gathered'⟩ := Record.gather_encodePlain .handshake message
  cases cut.symm.trans cut'
  have same := Assembly.flatten_of_messages (gathered'.symm.trans gathered)
  rw [List.flatten_singleton, List.append_nil] at same
  rw [same]
  exact decoded

namespace Session

variable {G : Type} [Entropy G] {settings : ClientSettings} {source next : G} {random : Random}
  {client : Session G}

theorem not_offers_of_many (made : Session.client settings source = .ok client)
    (drawn : Random.draw source = .ok random next) (many : 32767 < settings.suites.length)
    {records : Octets} {after : Session G} (started : client.start = (.ok records, after))
    (hello : ClientHello) : ¬Offers records hello := by
  obtain ⟨_, known, _⟩ := client_eq_ok.mp made
  obtain ⟨message, encoded, rfl, _⟩ := (client_start_eq_ok made drawn).mp started
  intro offers
  obtain ⟨body, written, read⟩ := Body.scan_of_write encoded (decode_of_offers offers)
  exact ClientHello.not_scans_of_many known many written hello read

/-- A client that was made of at most 32767 suites and has random octets sends records that make one
hello, and it offers these suites in their order, no compression but the null one, no session to
resume and no extensions. A client can also be made of more suites; then nothing that it sends is
read as a hello. -/
theorem start_offers (made : Session.client settings source = .ok client)
    (drawn : Random.draw source = .ok random next) :
    (settings.suites.length ≤ 32767 → ∃ records after, client.start = (.ok records, after) ∧
      Offers records (ClientHello.offering random settings.suites)) ∧
    (32767 < settings.suites.length → ∀ records after, client.start = (.ok records, after) →
      ∀ hello, ¬Offers records hello) := by
  constructor
  · intro few
    obtain ⟨some, _, _⟩ := client_eq_ok.mp made
    obtain ⟨message, carries⟩ := Carries.clientHello random some few
    exact ⟨_, _, (client_start_eq_ok made drawn).mpr ⟨message, carries.encoded, rfl, rfl⟩,
      offers_encodePlain carries.short carries.decoded⟩
  · intro many records after started
    exact not_offers_of_many made drawn many started

/-- A client made without further settings offers all suites that can be used. -/
theorem start_offers_rehearsal : ∃ client random next records after,
    Session.client {} (Reproducible.ofSeed 1 [] none) = .ok client ∧
    Random.draw (Reproducible.ofSeed 1 [] none) = .ok random next ∧
    Suite.supported.length ≤ 32767 ∧ client.start = (.ok records, after) ∧
    Offers records (ClientHello.offering random Suite.supported) := by
  have lasting : Entropy.Lasting (Reproducible.ofSeed 1 [] none) := Reproducible.lasting rfl
  obtain ⟨random, next, drawn, _⟩ := lasting.demand 32
  have made : ∃ client, Session.client {} (Reproducible.ofSeed 1 [] none) = .ok client := ⟨_, rfl⟩
  obtain ⟨client, made⟩ := made
  have few : Suite.supported.length ≤ 32767 := by decide
  obtain ⟨records, after, started, offers⟩ := (start_offers made drawn).1 few
  exact ⟨client, random, next, records, after, made, drawn, few, started, offers⟩

/-- A client is made of 32768 suites and starts, but what it sends is not read as a hello. -/
theorem start_offers_nothing : ∃ client random next records after,
    Session.client { suites := List.replicate 32768 Suite.rsaAes128Sha }
      (Reproducible.ofSeed 1 [] none) = .ok client ∧
    Random.draw (Reproducible.ofSeed 1 [] none) = .ok random next ∧
    client.start = (.ok records, after) ∧ ∀ hello, ¬Offers records hello := by
  have lasting : Entropy.Lasting (Reproducible.ofSeed 1 [] none) := Reproducible.lasting rfl
  obtain ⟨random, next, drawn, _⟩ := lasting.demand 32
  have made : ∃ client, Session.client { suites := List.replicate 32768 Suite.rsaAes128Sha }
      (Reproducible.ofSeed 1 [] none) = .ok client := by
    refine ⟨_, client_eq_ok.mpr ⟨?_, ?_, rfl⟩⟩
    · exact List.cons_ne_nil _ _
    · intro suite found
      rw [List.eq_of_mem_replicate found]
      rfl
  obtain ⟨client, made⟩ := made
  have started : ∃ records after, client.start = (.ok records, after) := by
    refine ⟨_, _, (client_start_eq_ok made drawn).mpr ⟨_, Body.encode_eq_ok.mpr ⟨_, rfl, ?_, rfl⟩,
      rfl, rfl⟩⟩
    simp only [ClientHello.offering, List.length_append, Version.encode, random.property,
      Field.sized8, SuiteList.encode, SuiteList.length_flatMap_word, Octets.length_bigEndian,
      Extensions.encode, List.length_cons, List.length_nil, List.length_replicate]
    decide
  obtain ⟨records, after, started⟩ := started
  exact ⟨client, random, next, records, after, made, drawn, started,
    not_offers_of_many made drawn (by rw [List.length_replicate]; decide) started⟩

end Session

end TransportSecurity
