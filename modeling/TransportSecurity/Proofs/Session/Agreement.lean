import TransportSecurity.Proofs.Rsa.Undone
import TransportSecurity.Proofs.Session.Honest
import TransportSecurity.Proofs.Session.Reachable

/-!
Two honest ends agree.

A client and a server that share a suite come to the end of their handshake whatever pieces their
octets arrive in and whoever reads first, and then they agree on the suite, the secrets and the keys
(`Network.settles_agreed`).
-/

namespace TransportSecurity

/-- The key in a certificate is one that can be read. -/
theorem Certificate.rsaKey_eq_ok {certificate octets : Octets} {key : Rsa.PublicKey} :
    rsaKey certificate = .ok (octets, key) ↔
      publicKey? certificate = some octets ∧ Rsa.PublicKey.ofDer? octets = some key := by
  rw [rsaKey, publicKey]
  cases publicKey? certificate with
  | none =>
    constructor
    · rintro ⟨⟩
    · rintro ⟨⟨⟩, _⟩
  | some found =>
    simp only [except_bind_eq_ok, Except.ok.injEq, exists_eq_left', Option.some.injEq]
    cases read : Rsa.PublicKey.ofDer? found with
    | none =>
      constructor
      · rintro ⟨⟩
      · rintro ⟨rfl, key⟩
        cases read.symm.trans key
    | some other =>
      simp only [except_pure_eq_ok, Prod.mk.injEq]
      constructor
      · rintro ⟨rfl, rfl⟩
        exact ⟨rfl, read⟩
      · rintro ⟨rfl, key⟩
        exact ⟨rfl, Option.some.inj (read.symm.trans key)⟩

namespace Identity

/-- An identity as it is made: from a certificate and a key, perhaps with a chain. -/
inductive Made : Identity → Prop
  | ofDer {certificate key : Octets} {blinding : Octets → Nat} {identity : Identity}
    (made : ofDer certificate key blinding = .ok identity) : Made identity
  | withChain {identity other : Identity} {chain : List Octets} (before : Made identity)
    (made : identity.withChain chain = .ok other) : Made other

/-- An identity is made of a certificate and a key with the same public key. -/
theorem ofDer_eq_ok {certificate key : Octets} {blinding : Octets → Nat} {identity : Identity} :
    ofDer certificate key blinding = .ok identity ↔ ∃ publicKey privateKey,
      Certificate.rsaKey certificate = .ok (publicKey, privateKey.publicKey) ∧
      Rsa.PrivateKey.ofDer? key = some privateKey ∧
      checkLength ⟨certificate, [], publicKey, privateKey, blinding⟩ = .ok () ∧
      ⟨certificate, [], publicKey, privateKey, blinding⟩ = identity := by
  simp only [ofDer, except_bind_eq_ok]
  constructor
  · rintro ⟨⟨publicKey, rsaKey⟩, read, made⟩
    cases found : Rsa.PrivateKey.ofDer? key with
    | none =>
      rw [found] at made
      cases made
    | some privateKey =>
      simp only [found, except_ite_eq_ok, except_bind_eq_ok, except_throw_eq_ok, except_pure_eq_ok,
        false_and, exists_false, and_false, false_or, Decidable.not_not] at made
      obtain ⟨rfl, _, fits, made⟩ := made
      exact ⟨publicKey, privateKey, read, rfl, fits, made⟩
  · rintro ⟨publicKey, privateKey, read, found, fits, made⟩
    refine ⟨(publicKey, privateKey.publicKey), read, ?_⟩
    simp only [found, ne_eq, not_true_eq_false, if_false, except_bind_eq_ok, except_pure_eq_ok]
    exact ⟨(), fits, made⟩

/-- A chain is put behind a certificate if none of its certificates is empty. -/
theorem withChain_eq_ok {identity other : Identity} {chain : List Octets} :
    identity.withChain chain = .ok other ↔ [] ∉ chain ∧
      checkLength { identity with chain } = .ok () ∧ { identity with chain } = other := by
  have empty : chain.any List.isEmpty ↔ [] ∈ chain := by simp
  simp only [withChain, except_ite_eq_ok, except_bind_eq_ok, except_throw_eq_ok, except_pure_eq_ok,
    false_and, exists_false, and_false, false_or, empty]
  constructor
  · rintro ⟨nonempty, _, fits, made⟩
    exact ⟨nonempty, fits, made⟩
  · rintro ⟨nonempty, fits, made⟩
    exact ⟨nonempty, (), fits, made⟩

/-- The certificate of an identity holds its public key, and no certificate is empty. -/
theorem Made.holds {identity : Identity} (made : identity.Made) :
    Certificate.rsaKey identity.certificate =
        .ok (identity.publicKey, identity.privateKey.publicKey) ∧
      ∀ certificate ∈ identity.certificateList, certificate ≠ [] := by
  induction made with
  | ofDer made =>
    obtain ⟨publicKey, privateKey, read, _, _, rfl⟩ := ofDer_eq_ok.mp made
    refine ⟨read, List.forall_mem_singleton.mpr ?_⟩
    rintro rfl
    cases read
  | withChain before made ih =>
    obtain ⟨nonempty, _, rfl⟩ := withChain_eq_ok.mp made
    refine ⟨ih.1, List.forall_mem_cons.mpr ⟨ih.2 _ (List.mem_cons_self ..), ?_⟩⟩
    rintro _ member rfl
    exact nonempty member

end Identity

/-- A suite that both lists hold is found: the first of the preferred ones. -/
theorem Suite.exists_choose? {preferred offered : List Suite} {shared : Suite}
    (accepted : shared ∈ preferred) (known : shared ∈ offered) :
    ∃ suite, choose? preferred offered = some suite := by
  refine Option.isSome_iff_exists.mp (List.find?_isSome.mpr ⟨shared, accepted, ?_⟩)
  exact List.contains_iff_mem.mpr known

namespace Session

variable {G : Type} [Entropy G]

/-- A client that is made starts with its hello, in the clear. -/
theorem client_start_eq_ok {settings : ClientSettings} {source next : G} {random : Random}
    {client after : Session G} {records : Octets}
    (made : Session.client settings source = .ok client)
    (drawn : Random.draw source = .ok random next) :
    client.start = (.ok records, after) ↔ ∃ hello,
      Body.encode (ClientHello.offering random settings.suites) = .ok hello ∧
      Record.encodePlain .handshake hello = records ∧
      { endpoint := {
        role := .client settings .serverHello
        stage := .handshaking
        transcript := some ⟨[hello]⟩
        clientRandom := some random
        source := next } } = after := by
  obtain ⟨_, _, rfl⟩ := client_eq_ok.mp made
  rw [start_eq_ok]
  constructor
  · rintro ⟨_, _, begins, rfl⟩
    cases begins with
    | client role sent =>
      cases role
      obtain ⟨_, _, hello, _, drawn', encoded, found, _, sends⟩ := Client.sendHello_eq_ok.mp sent
      cases drawn.symm.trans drawn'
      cases found
      cases (Endpoint.encode_clear rfl).symm.trans sends
      exact ⟨hello, encoded, rfl, rfl⟩
    | server role => cases role
  · rintro ⟨hello, encoded, rfl, rfl⟩
    exact ⟨rfl, _, .client rfl (Client.sendHello_eq_ok.mpr ⟨random, next, hello, [], drawn, encoded,
      rfl, rfl, Endpoint.encode_clear rfl⟩), rfl⟩

/-- A client that is made and has random octets sends its hello. -/
theorem exists_client_start {left : G → Prop} {count : Nat} {settings : ClientSettings} {source : G}
    {client : Session G} (made : Session.client settings source = .ok client)
    (few : settings.suites.length ≤ 32767) (serves : Entropy.Serves left (count + 1) source) :
    ∃ random hello next,
      Carries (ClientHello.offering random settings.suites) hello ∧
      Entropy.Serves left count next ∧
      client.start = (.ok (Record.encodePlain .handshake hello), { endpoint := {
        role := .client settings .serverHello
        stage := .handshaking
        transcript := some ⟨[hello]⟩
        clientRandom := some random
        source := next } }) := by
  obtain ⟨some, _, _⟩ := client_eq_ok.mp made
  obtain ⟨random, next, drawn, later⟩ := serves.demand 32
  obtain ⟨hello, carries⟩ := Carries.clientHello random some few
  exact ⟨random, hello, next, carries, later,
    (client_start_eq_ok made drawn).mpr ⟨hello, carries.encoded, rfl, rfl⟩⟩

/-- A server that is made waits for a client. -/
theorem server_start {settings : ServerSettings} {source : G} {server : Session G}
    (made : Session.server settings source = .ok server) :
    server.start = (.ok [], { endpoint := {
      role := .server settings .clientHello
      stage := .handshaking
      transcript := some ⟨[]⟩
      source } }) := by
  obtain ⟨_, _, rfl⟩ := server_eq_ok.mp made
  exact start_eq_ok.mpr ⟨rfl, _, .server rfl, rfl⟩

end Session

open Network

variable {G H : Type} [Entropy G] [Entropy H]

/-- A client and a server that can agree: they were made with random octets to draw on, they share a
suite, the client accepts the server's key, and the server's private key belongs to it. -/
structure Pairing (clientSettings : ClientSettings) (serverSettings : ServerSettings)
    (client : Session G) (server : Session H) : Prop where
  clientMade : ∃ source : G, Entropy.Lasting source ∧
    Session.client clientSettings source = .ok client
  serverMade : ∃ source : H, Entropy.Lasting source ∧
    Session.server serverSettings source = .ok server
  few : clientSettings.suites.length ≤ 32767
  shared : ∃ suite ∈ serverSettings.suites, suite ∈ clientSettings.suites
  pinned : ∀ pin ∈ clientSettings.pin, pin = serverSettings.identity.publicKey
  identity : serverSettings.identity.Made
  room : 59 ≤ serverSettings.identity.privateKey.publicKey.size
  short : 3 + Certificates.entriesLength serverSettings.identity.certificateList ≤
    Assembly.maxLength
  decrypts : serverSettings.identity.Decrypts G

namespace Pairing

variable {clientSettings : ClientSettings} {serverSettings : ServerSettings} {client : Session G}
  {server : Session H}

/-- There is a suite that the server chooses, and the settings fit. -/
theorem exists_fits (pairing : Pairing clientSettings serverSettings client server) :
    ∃ suite, Fits clientSettings serverSettings suite := by
  obtain ⟨_, accepted, offers⟩ := pairing.shared
  obtain ⟨suite, chosen⟩ := Suite.exists_choose? accepted offers
  obtain ⟨offered, _⟩ := Suite.choose?_eq_some.mp chosen
  obtain ⟨_, _, made⟩ := pairing.clientMade
  have known : suite.isSupported := (Session.client_eq_ok.mp made).2.1 suite offered
  obtain ⟨key, nonempty⟩ := pairing.identity.holds
  have size := Rsa.size_le_of_ofDer? (Certificate.rsaKey_eq_ok.mp key).2
  exact ⟨suite, pairing.few, chosen, known, key, pairing.pinned, pairing.room, size, nonempty,
    pairing.short⟩

end Pairing

/-- A client and a server whose settings fit, with sources that serve for their handshake: the client
draws three times and the server twice. What is then left of their sources is known. -/
structure Supplied (clientLeft : G → Prop) (serverLeft : H → Prop) (clientSettings : ClientSettings)
    (serverSettings : ServerSettings) (suite : Suite) (client : Session G) (server : Session H) :
    Prop where
  fits : Fits clientSettings serverSettings suite
  decrypts : serverSettings.identity.Decrypts G
  clientMade : ∃ source : G, Entropy.Serves clientLeft 3 source ∧
    Session.client clientSettings source = .ok client
  serverMade : ∃ source : H, Entropy.Serves serverLeft 2 source ∧
    Session.server serverSettings source = .ok server

namespace Supplied

variable {clientLeft : G → Prop} {serverLeft : H → Prop} {clientSettings : ClientSettings}
  {serverSettings : ServerSettings} {suite : Suite} {client : Session G} {server : Session H}

/-- Both start, and then they go through a handshake. -/
theorem exists_start
    (supplied : Supplied clientLeft serverLeft clientSettings serverSettings suite client server) :
    ∃ hello, ∃ e : Endpoint G, ∃ f : Endpoint H,
      client.start = (.ok (Record.encodePlain .handshake hello), { endpoint := e }) ∧
      server.start = (.ok [], { endpoint := f }) ∧ (e.InClear ∧ e.Sound) ∧ (f.InClear ∧ f.Sound) ∧
      Nonempty (Handshake clientLeft serverLeft clientSettings serverSettings suite e f hello) := by
  obtain ⟨_, clientServes, clientMade⟩ := supplied.clientMade
  obtain ⟨_, serverServes, serverMade⟩ := supplied.serverMade
  obtain ⟨random, hello, next, carries, clientServes, clientStarts⟩ :=
    Session.exists_client_start clientMade supplied.fits.few clientServes
  exact ⟨hello, _, _, clientStarts, Session.server_start serverMade, ⟨⟨rfl, rfl⟩, rfl⟩,
    ⟨⟨rfl, rfl⟩, rfl⟩,
    exists_handshake supplied.fits supplied.decrypts carries clientServes serverServes⟩

/-- Both start, and what they then send each other is a conversation after which they agree. -/
theorem exists_conversation
    (supplied : Supplied clientLeft serverLeft clientSettings serverSettings suite client server) :
    ∃ clientLast serverLast hello exchange flight finish,
      opening client server =
        ⟨client.start.2, server.start.2, Handled.stream hello, []⟩ ∧
      Conversation client.start.2 server.start.2 clientLast serverLast hello exchange flight finish ∧
      Agree suite clientLast serverLast ∧ clientLast.Equipped clientLeft ∧
      serverLast.Equipped serverLeft := by
  obtain ⟨hello, e, f, clientStarts, serverStarts, ⟨clientClear, clientSound⟩,
    ⟨serverClear, serverSound⟩, ⟨handshake⟩⟩ := supplied.exists_start
  obtain ⟨clientLast, serverLast, script, exchange, flight, finish, sends, conversation, agree⟩ :=
    handshake.conversation clientClear serverClear clientSound serverSound
  refine ⟨clientLast, serverLast, script, exchange, flight, finish, ?_, ?_, agree⟩
  · rw [opening, clientStarts, serverStarts, sends]
    rfl
  · rw [clientStarts, serverStarts]
    exact conversation

/-- If each reads all that the other sends at once, they come to agree, and nothing is left over. -/
theorem exists_agreed
    (supplied : Supplied clientLeft serverLeft clientSettings serverSettings suite client server) :
    ∃ clientNow serverNow toClient toServer,
      (client.start.2.receive toClient).2 = clientNow ∧
      (server.start.2.receive toServer).2 = serverNow ∧
      (clientNow.inbox = [] ∧ clientNow.pending = []) ∧
      (serverNow.inbox = [] ∧ serverNow.pending = []) ∧
      Agree suite clientNow.endpoint serverNow.endpoint ∧ clientNow.endpoint.Equipped clientLeft ∧
      serverNow.endpoint.Equipped serverLeft := by
  obtain ⟨clientLast, serverLast, _, _, _, _, _, conversation, agree⟩ :=
    supplied.exists_conversation
  exact ⟨_, _, _, _, conversation.clientStarts.receive_ahead.symm,
    conversation.serverStarts.receive_ahead.symm, ⟨rfl, rfl⟩, ⟨rfl, rfl⟩, agree⟩

end Supplied

namespace Pairing

variable {clientSettings : ClientSettings} {serverSettings : ServerSettings} {client : Session G}
  {server : Session H}

/-- There is a suite that the server chooses, and the two have all that their handshake takes. -/
theorem exists_supplied (pairing : Pairing clientSettings serverSettings client server) :
    ∃ suite, Supplied Entropy.Lasting Entropy.Lasting clientSettings serverSettings suite client
      server := by
  obtain ⟨suite, fits⟩ := pairing.exists_fits
  obtain ⟨_, clientLasting, clientMade⟩ := pairing.clientMade
  obtain ⟨_, serverLasting, serverMade⟩ := pairing.serverMade
  exact ⟨suite, fits, pairing.decrypts, ⟨_, clientLasting.serves 3, clientMade⟩,
    ⟨_, serverLasting.serves 2, serverMade⟩⟩

/-- If each reads all that the other sends at once, they come to agree, and nothing is left over. -/
theorem exists_agreed (pairing : Pairing clientSettings serverSettings client server) :
    ∃ suite clientNow serverNow toClient toServer,
      (client.start.2.receive toClient).2 = clientNow ∧
      (server.start.2.receive toServer).2 = serverNow ∧
      (clientNow.inbox = [] ∧ clientNow.pending = []) ∧
      (serverNow.inbox = [] ∧ serverNow.pending = []) ∧
      Agree suite clientNow.endpoint serverNow.endpoint ∧ clientNow.endpoint.CanSend ∧
      serverNow.endpoint.CanSend := by
  obtain ⟨suite, supplied⟩ := pairing.exists_supplied
  exact ⟨suite, supplied.exists_agreed⟩

end Pairing

/-- An honest client and an honest server come to the end of their handshake whatever pieces their
octets arrive in and whoever reads first. Then they agree, on the suite that the server likes most of
those that the client offers. -/
theorem Network.settles_agreed {clientSettings : ClientSettings} {serverSettings : ServerSettings}
    {client : Session G} {server : Session H}
    (pairing : Pairing clientSettings serverSettings client server) :
    ∃ before suite after, serverSettings.suites = before ++ suite :: after ∧
      suite ∈ clientSettings.suites ∧ (∀ other ∈ before, other ∉ clientSettings.suites) ∧
      (opening client server).Settles fun network =>
        Agree suite network.client.endpoint network.server.endpoint := by
  obtain ⟨suite, supplied⟩ := pairing.exists_supplied
  obtain ⟨clientLast, serverLast, hello, exchange, flight, finish, opens, conversation, agree, _⟩ :=
    supplied.exists_conversation
  obtain ⟨offered, before, after, first, others⟩ := Suite.choose?_eq_some.mp supplied.fits.chosen
  obtain ⟨bounded, continues, settled⟩ := conversation.settles
  rw [opens]
  refine ⟨before, suite, after, first, offered, others, bounded, continues, ?_⟩
  intro moves quiet
  obtain ⟨clientEnds, serverEnds⟩ := settled moves quiet
  rw [← clientEnds, ← serverEnds]
  exact agree

/-- A private key with prime factors undoes what its public key does. -/
theorem Identity.decrypts_of_proper {identity : Identity} (proper : identity.privateKey.Proper) :
    identity.Decrypts G :=
  fun _ _ _ _ _ encrypts => Rsa.decrypt?_encrypt proper _ encrypts

/-! A client and a server that can agree. -/

namespace Rehearsal

/-- Two primes make a modulus of 60 octets. -/
def privateKey : Rsa.PrivateKey where
  publicKey := ⟨(29 * 2 ^ 231 + 1) * (37 * 2 ^ 236 + 1), 3⟩
  exponent := (1073 * 2 ^ 236 + 1) / 3
  firstFactor := 29 * 2 ^ 231 + 1
  secondFactor := 37 * 2 ^ 236 + 1

theorem privateKey_proper : privateKey.Proper where
  together := by decide +kernel
  first := @Rsa.prime_of_powMod _ 29 231 3 (by decide) rfl (by decide +kernel) (by decide +kernel)
    (by decide +kernel)
  second := @Rsa.prime_of_powMod _ 37 236 3 (by decide) rfl (by decide +kernel) (by decide +kernel)
    (by decide +kernel)
  distinct := by decide +kernel

open Der in
def element (tag : Tag) (contents : Octets) : Octets := (Element.mk tag contents).encode

def sequence (parts : List Octets) : Octets := element Der.sequenceTag parts.flatten

def number (width n : Nat) : Octets := element Der.integerTag (Octets.bigEndian width n)

def bits (octets : Octets) : Octets := element Der.bitStringTag (0 :: octets)

def algorithm : Octets := sequence [element Der.objectTag Rsa.PrivateKey.algorithmName]

def moment : Octets := element ⟨.universal, false, 23⟩ (KeySchedule.ascii "240101000000Z")

def publicKey : Octets := sequence [number 60 privateKey.publicKey.modulus, number 1 3]

/-- A certificate with nothing in it but the public key. -/
def certificate : Octets :=
  sequence [
    sequence [
      number 1 1, algorithm, sequence [], sequence [moment, moment], sequence [],
      sequence [algorithm, bits publicKey]],
    algorithm, bits []]

/-- The private key, bare; the last three numbers are not looked at. -/
def key : Octets :=
  sequence [
    number 1 0, number 60 privateKey.publicKey.modulus, number 1 3, number 31 privateKey.exponent,
    number 30 privateKey.firstFactor, number 31 privateKey.secondFactor, number 1 0, number 1 0,
    number 1 0]

def identity : Identity := ⟨certificate, [], publicKey, privateKey, fun _ => 2⟩

theorem identity_made : identity.Made := by
  have read : Certificate.rsaKey certificate = .ok (publicKey, privateKey.publicKey) :=
    Certificate.rsaKey_eq_ok.mpr ⟨by decide +kernel, by decide +kernel⟩
  have short : Identity.checkLength identity = .ok () :=
    if_pos ⟨by decide +kernel, by decide +kernel⟩
  exact .ofDer (Identity.ofDer_eq_ok.mpr ⟨publicKey, privateKey, read,
    (by decide +kernel : Rsa.PrivateKey.ofDer? key = some privateKey), short, rfl⟩)

def clientSettings : ClientSettings := { pin := some publicKey }

def serverSettings : ServerSettings := { identity }

def client : Session Reproducible :=
  { endpoint := { role := .client clientSettings .idle, source := .ofSeed 1 [] none } }

def server : Session Reproducible :=
  { endpoint := { role := .server serverSettings .idle, source := .ofSeed 2 [] none } }

theorem pairing : Pairing clientSettings serverSettings client server where
  clientMade := ⟨.ofSeed 1 [] none, Reproducible.lasting rfl, rfl⟩
  serverMade := ⟨.ofSeed 2 [] none, Reproducible.lasting rfl, rfl⟩
  few := by decide
  shared := ⟨_, List.mem_cons_self .., List.mem_cons_self ..⟩
  pinned := by
    rintro _ ⟨⟩
    rfl
  identity := identity_made
  room := by decide +kernel
  short := by decide +kernel
  decrypts := identity.decrypts_of_proper privateKey_proper

/-- The same client with a source that declines as it is told, once the handshake is over. -/
def faltering (declines : List Bool) : Session Faltering :=
  { endpoint := {
    role := .client clientSettings .idle
    source := ⟨List.replicate 3 false ++ declines, .ofSeed 1 [] none⟩ } }

theorem exists_supplied (declines : List Bool) :
    ∃ suite, Supplied (fun source => source.declines = declines) Entropy.Lasting clientSettings
      serverSettings suite (faltering declines) server := by
  obtain ⟨suite, fits⟩ := pairing.exists_fits
  exact ⟨suite, fits, identity.decrypts_of_proper privateKey_proper,
    ⟨_, Faltering.serves rfl, rfl⟩, ⟨_, Entropy.Lasting.serves (Reproducible.lasting rfl) 2, rfl⟩⟩

/-- The two settle on the strongest suite. -/
theorem settles_agreed_rehearsal : Pairing clientSettings serverSettings client server ∧
    (opening client server).Settles fun network =>
      Agree Suite.rsaAes256Sha256 network.client.endpoint network.server.endpoint := by
  refine ⟨pairing, ?_⟩
  obtain ⟨before, suite, after, first, _, others, settles⟩ := Network.settles_agreed pairing
  cases before with
  | nil =>
    cases first
    exact settles
  | cons other before =>
    obtain ⟨rfl, _⟩ := List.cons.inj first
    exact absurd (List.mem_cons_self ..) (others _ (List.mem_cons_self ..))

end Rehearsal

end TransportSecurity
