import TransportSecurity.Proofs.Session.Flight
import TransportSecurity.Proofs.Session.Means
import TransportSecurity.Proofs.Session.Network

/-!
The handshake of two honest ends.

Settings fit if they share a suite and the client accepts the server's certificate (`Fits`). Then
each end takes what the other sends, message by message (`Handshake`), so their records make a
conversation (`Handshake.conversation`).
-/

namespace TransportSecurity

/-- Settings with which a handshake succeeds, and the suite it agrees on. -/
structure Fits (clientSettings : ClientSettings) (serverSettings : ServerSettings) (suite : Suite) :
    Prop where
  few : clientSettings.suites.length ≤ 32767
  chosen : Suite.choose? serverSettings.suites clientSettings.suites = some suite
  known : suite.isSupported
  key : Certificate.rsaKey serverSettings.identity.certificate =
    .ok (serverSettings.identity.publicKey, serverSettings.identity.privateKey.publicKey)
  pinned : ∀ pin ∈ clientSettings.pin, pin = serverSettings.identity.publicKey
  room : KeySchedule.preMasterLength + Rsa.minPadding ≤
    serverSettings.identity.privateKey.publicKey.size
  size : serverSettings.identity.privateKey.publicKey.size ≤ 512
  nonempty : ∀ certificate ∈ serverSettings.identity.certificateList, certificate ≠ []
  short : 3 + Certificates.entriesLength serverSettings.identity.certificateList ≤
    Assembly.maxLength

/-- The private key of an identity undoes what its public key does to a pre-master secret. -/
def Identity.Decrypts (identity : Identity) (G : Type) [Entropy G] : Prop :=
  ∀ (source next : G) (secret encrypted : Octets), secret.length = KeySchedule.preMasterLength →
    Rsa.encrypt identity.privateKey.publicKey secret source = .ok encrypted next →
    Rsa.decrypt? identity.privateKey (identity.blinding encrypted) encrypted = some secret

open Endpoint

variable {G H : Type} [Entropy G] [Entropy H]

/-- The octets of an encrypted pre-master secret are decrypted to it. -/
theorem Identity.Decrypts.preMaster {identity : Identity} (decrypts : identity.Decrypts G)
    {source next : G} {random encrypted : Octets}
    (length : random.length = KeySchedule.preMasterLength - 2)
    (encrypts : Rsa.encrypt identity.privateKey.publicKey (Version.current.encode ++ random) source =
      .ok encrypted next) :
    identity.decryptPreMaster encrypted = .ok (Version.current.encode ++ random) := by
  have long : (Version.current.encode ++ random).length = KeySchedule.preMasterLength := by
    rw [List.length_append, length]
    rfl
  have found := decrypts source next _ encrypted long encrypts
  rw [decryptPreMaster, found]
  exact if_pos ⟨long, rfl⟩

/-- What two honest ends go through from where they have started up to where both know the secrets:
their messages, the endpoints in between, and that each takes what the other sends. Each has random
octets for one more record, and what is then left of its source is known. -/
structure Handshake (clientLeft : G → Prop) (serverLeft : H → Prop)
    (clientSettings : ClientSettings) (serverSettings : ServerSettings) (suite : Suite)
    (client : Endpoint G) (server : Endpoint H) (clientHello : Octets) where
  serverHello : Octets
  certificates : Octets
  helloDone : Octets
  exchange : Octets
  secrets : Secrets
  certified : Endpoint G
  exchanged : Endpoint G
  answered : Endpoint H
  keyed : Endpoint H
  answers : Follows server [clientHello]
    (Record.encodePlain .handshake (serverHello ++ (certificates ++ helloDone))) answered
  certifies : Follows client [serverHello, certificates] [] certified
  helloDoneCarried : Carries ServerHelloDone.mk helloDone
  helloDoneShort : helloDone.length ≤ Record.maxPiece
  certifiedRole : certified.role = .client clientSettings .serverHelloDone
  certifiedKey : certified.serverKey = some serverSettings.identity.privateKey.publicKey
  exchanges : Client.sendExchange helloDone certified =
    .ok (Record.encodePlain .handshake exchange ++
      Record.encodePlain .changeCipherSpec ChangeCipherSpec.payload) exchanged
  exchangedFields : exchanged = { exchanged with
    role := .client clientSettings .serverHelloDone
    stage := .handshaking
    suite
    sendProtected := true
    receiveProtected := false
    sendNumber := 0
    transcript := some ⟨[clientHello, serverHello, certificates, helloDone, exchange]⟩
    secrets := some secrets }
  exchangedSource : Entropy.Serves clientLeft 1 exchanged.source
  keys : Follows answered [exchange] [] keyed
  keyedFields : keyed = { keyed with
    role := .server serverSettings .changeCipherSpec
    stage := .handshaking
    suite
    sendProtected := false
    receiveProtected := false
    transcript := some ⟨[clientHello, serverHello, certificates, helloDone, exchange]⟩
    secrets := some secrets }
  keyedSource : Entropy.Serves serverLeft 1 keyed.source
  usable : ∀ side, (secrets.keys.writer side).Usable

variable {clientLeft : G → Prop} {serverLeft : H → Prop}

/-- Two honest ends that have started go through a handshake. -/
theorem exists_handshake {clientSettings : ClientSettings} {serverSettings : ServerSettings}
    {suite : Suite} {clientRandom : Random} {clientHello : Octets} {clientSource : G}
    {serverSource : H} (fits : Fits clientSettings serverSettings suite)
    (decrypts : serverSettings.identity.Decrypts G)
    (hello : Carries (ClientHello.offering clientRandom clientSettings.suites) clientHello)
    (clientServes : Entropy.Serves clientLeft 2 clientSource)
    (serverServes : Entropy.Serves serverLeft 2 serverSource) :
    Nonempty (Handshake clientLeft serverLeft clientSettings serverSettings suite
      { role := .client clientSettings .serverHello
        stage := .handshaking
        transcript := some ⟨[clientHello]⟩
        clientRandom := some clientRandom
        source := clientSource }
      { role := .server serverSettings .clientHello
        stage := .handshaking
        transcript := some ⟨[]⟩
        source := serverSource } clientHello) := by
  obtain ⟨offered, _⟩ := Suite.choose?_eq_some.mp fits.chosen
  -- the server answers the hello
  obtain ⟨serverRandom, serverSource', drawn, serverServes⟩ := serverServes.demand 32
  have drawn : Random.draw serverSource = .ok serverRandom serverSource' := drawn
  obtain ⟨serverHello, serverHelloCarried⟩ := Carries.serverHello serverRandom suite
  obtain ⟨certificates, certificatesCarried⟩ := Carries.certificates fits.nonempty fits.short
  obtain ⟨helloDone, helloDoneCarried, helloDoneShort⟩ := Carries.helloDone
  -- the client sends the pre-master secret
  obtain ⟨random, between, demanded, clientServes⟩ :=
    clientServes.demand (KeySchedule.preMasterLength - 2)
  have room : (Version.current.encode ++ random.val).length + Rsa.minPadding ≤
      serverSettings.identity.privateKey.publicKey.size := by
    rw [List.length_append, random.property]
    exact fits.room
  obtain ⟨encrypted, clientSource', encrypts, length, clientServes⟩ :=
    Rsa.encrypt_of_serves room clientServes
  obtain ⟨exchange, exchangeCarried⟩ := Carries.keyExchange (length ▸ fits.size)
  obtain ⟨parameters, keys, known, derived, usable⟩ := KeyBlock.derive_of_isSupported fits.known
    (KeySchedule.master (Version.current.encode ++ random.val) clientRandom.val serverRandom.val)
    serverRandom.val clientRandom.val
  refine ⟨{
    serverHello, certificates, helloDone, exchange, helloDoneCarried, helloDoneShort, usable
    secrets := ⟨_, keys⟩
    certified := _
    exchanged := _
    answered := {
      role := .server serverSettings .clientKeyExchange
      stage := .handshaking
      suite
      transcript := some ⟨[clientHello, serverHello, certificates, helloDone]⟩
      clientRandom := some clientRandom
      serverRandom := some serverRandom
      source := serverSource' }
    keyed := _
    answers := .one hello.whole hello.short (.clientHello rfl
      ((Server.receiveHello_eq_ok rfl).mpr
        ⟨_, ⟨_, suite, serverRandom, serverSource', serverHello, certificates, helloDone⟩,
          ⟨hello.decoded, rfl, rfl, fits.chosen, rfl, rfl, drawn, serverHelloCarried.encoded,
            certificatesCarried.encoded, helloDoneCarried.encoded⟩, rfl, rfl⟩)) ⟨rfl, rfl⟩
    certifies := .cons serverHelloCarried.whole serverHelloCarried.short (.serverHello rfl
      (Client.receiveHello_eq_ok.mpr ⟨_, _, serverHelloCarried.decoded, rfl, offered, rfl, rfl,
        rfl⟩)) ⟨rfl, rfl⟩ (.cons certificatesCarried.whole certificatesCarried.short
      (.certificates rfl (Client.receiveCertificate_eq_ok.mpr ⟨_, _, _, _, _,
        certificatesCarried.decoded, fits.key, fits.pinned, rfl, rfl, rfl⟩)) ⟨rfl, rfl⟩ .nil)
    certifiedRole := rfl
    certifiedKey := rfl
    exchanges := (Client.sendExchange_eq_ok rfl).mpr
      ⟨_, _, ⟨random, between, encrypted, clientSource', clientRandom, serverRandom, keys, exchange⟩,
        ⟨helloDoneCarried.decoded, rfl, rfl, demanded, rfl, encrypts, rfl, rfl,
          ⟨parameters, known, derived⟩, exchangeCarried.encoded⟩, rfl, rfl⟩
    exchangedFields := rfl
    exchangedSource := clientServes
    keys := .one exchangeCarried.whole exchangeCarried.short (.clientKeyExchange rfl
      (Server.receiveKeyExchange_eq_ok.mpr ⟨_, _, _, parameters, clientRandom, serverRandom, keys,
        exchangeCarried.decoded, decrypts.preMaster random.property encrypts, rfl, rfl, known, rfl,
        rfl, derived, rfl⟩)) ⟨rfl, rfl⟩
    keyedFields := rfl
    keyedSource := serverServes }⟩

/-- The handshake of two ends is over, and they agree: on the suite, on the secrets, and on the keys
of each direction. Each has sent and received one protected record. -/
structure Agree (suite : Suite) (client : Endpoint G) (server : Endpoint H) : Prop where
  clientOver : client.stage = .established
  serverOver : server.stage = .established
  clientSuite : client.suite = suite
  serverSuite : server.suite = suite
  secrets : ∃ secrets, client.secrets = some secrets ∧ server.secrets = some secrets
  forth : ∃ keys, client.writeKeys? = some keys ∧ server.readKeys? = some keys
  back : ∃ keys, server.writeKeys? = some keys ∧ client.readKeys? = some keys
  numbers : client.sendNumber = 1 ∧ client.receiveNumber = 1 ∧ server.sendNumber = 1 ∧
    server.receiveNumber = 1

/-- An endpoint has keys for what it sends, and `left` holds of its source. -/
def Endpoint.Equipped (left : G → Prop) (e : Endpoint G) : Prop :=
  left e.source ∧ ∃ keys, e.writeKeys? = some keys ∧ keys.Usable

/-- An endpoint has what it needs to protect what it sends: random octets and keys. -/
def Endpoint.CanSend (e : Endpoint G) : Prop := e.Equipped Entropy.Lasting

theorem Endpoint.CanSend.served {e : Endpoint G} (able : e.CanSend) :
    e.Equipped (Entropy.Serves Entropy.Lasting 1) :=
  ⟨able.1.serves 1, able.2⟩

section Proofs

variable {left : G → Prop} {count : Nat}

/-- A short message is the first that is protected. -/
theorem Endpoint.encode_first {e : Endpoint G} {secrets : Secrets} {message : Octets}
    (change : e.sendProtected = true) (known : e.secrets = some secrets) (first : e.sendNumber = 0)
    (usable : (secrets.keys.writer e.role.side).Usable) (short : message.length ≤ Record.maxPiece)
    (serves : Entropy.Serves left (count + 1) e.source) : ∃ record next,
      Record.protectPiece (secrets.keys.writer e.role.side) .handshake message ⟨0, e.source⟩ =
        .ok record ⟨1, next⟩ ∧
      encode .handshake message e = .ok record { e with sendNumber := 1, source := next } ∧
      Entropy.Serves left count next := by
  obtain ⟨record, next, made, later⟩ := @Record.protectPiece_of_serves G _ _ _ 0 left count
    .handshake message usable short (by decide) serves
  refine ⟨record, next, made, ?_, later⟩
  rw [encode_protected change known, withSealer_eq_ok]
  refine ⟨⟨1, next⟩, ?_, rfl⟩
  rw [first, Record.protect, Record.pieces_of_short short]
  exact Record.protectPieces_cons.mpr ⟨record, _, [], made, rfl, List.append_nil record⟩

/-- A client that has changed to protected records proves what it has seen. -/
theorem Client.exists_sendFinished {settings : ClientSettings} {e : Endpoint G}
    {messages : List Octets} {secrets : Secrets}
    (found : e.transcript = some ⟨messages⟩) (next : messages.length = Slot.clientFinished.place)
    (known : e.secrets = some secrets) (change : e.sendProtected = true) (first : e.sendNumber = 0)
    (usable : (secrets.keys.writer e.role.side).Usable)
    (serves : Entropy.Serves left (count + 1) e.source) : ∃ proof record source,
      Carries (Finished.mk (KeySchedule.verifyData (KeySchedule.finishedLabel .client)
        (Transcript.hash ⟨messages⟩) secrets.master)) proof ∧ proof.length ≤ Record.maxPiece ∧
      Record.protectPiece (secrets.keys.writer e.role.side) .handshake proof ⟨0, e.source⟩ =
        .ok record ⟨1, source⟩ ∧
      sendFinished settings e = .ok record { e with
        role := .client settings .changeCipherSpec
        transcript := some ⟨messages ++ [proof]⟩
        sendNumber := 1
        source } ∧ Entropy.Serves left count source := by
  obtain ⟨proof, carries, short⟩ := Carries.finished (KeySchedule.length_expand secrets.master
    (KeySchedule.finishedLabel .client) (Transcript.hash ⟨messages⟩) KeySchedule.verifyLength)
  obtain ⟨record, source, made, encodes, later⟩ := encode_first (e := { e with
    transcript := some ⟨messages ++ [proof]⟩ }) change known first usable short serves
  exact ⟨proof, record, source, carries, short, made, sendFinished_eq_ok.mpr ⟨messages, secrets,
    proof, _, found, next, known, carries.encoded, encodes, rfl⟩, later⟩

/-- A server answers the client's proof with the change to protected records and its own proof. -/
theorem Server.exists_receiveFinished {settings : ServerSettings} {e : Endpoint G}
    {messages : List Octets} {secrets : Secrets} {message : Octets}
    (found : e.transcript = some ⟨messages⟩) (next : messages.length = Slot.clientFinished.place)
    (known : e.secrets = some secrets) (clear : e.sendProtected = false)
    (carries : Carries (Finished.mk (KeySchedule.verifyData (KeySchedule.finishedLabel .client)
      (Transcript.hash ⟨messages⟩) secrets.master)) message)
    (usable : (secrets.keys.writer e.role.side).Usable)
    (serves : Entropy.Serves left (count + 1) e.source) : ∃ proof record source,
      Carries (Finished.mk (KeySchedule.verifyData (KeySchedule.finishedLabel .server)
        (Transcript.hash ⟨messages ++ [message]⟩) secrets.master)) proof ∧
      proof.length ≤ Record.maxPiece ∧
      Record.protectPiece (secrets.keys.writer e.role.side) .handshake proof ⟨0, e.source⟩ =
        .ok record ⟨1, source⟩ ∧
      receiveFinished settings message e =
        .ok (Record.encodePlain .changeCipherSpec ChangeCipherSpec.payload ++ record) { e with
          role := .server settings .done
          stage := .established
          transcript := none
          sendProtected := true
          sendNumber := 1
          source } ∧ Entropy.Serves left count source := by
  obtain ⟨proof, answers, short⟩ := Carries.finished (KeySchedule.length_expand secrets.master
    (KeySchedule.finishedLabel .server) (Transcript.hash ⟨messages ++ [message]⟩)
    KeySchedule.verifyLength)
  obtain ⟨record, source, made, encodes, later⟩ := encode_first (e := { e with
    transcript := some ⟨messages ++ [message]⟩
    sendProtected := true
    sendNumber := 0 }) rfl known rfl usable short serves
  exact ⟨proof, record, source, answers, short, made, (receiveFinished_eq_ok clear).mpr
    ⟨messages, ⟨secrets, proof, record⟩, _,
      ⟨found, next, known, carries.decoded, answers.encoded, encodes⟩, rfl, rfl⟩, later⟩

end Proofs

open Handled Session

/-- The handshake of two honest ends is a conversation, after which they agree. -/
theorem Handshake.conversation {clientSettings : ClientSettings} {serverSettings : ServerSettings}
    {suite : Suite} {client : Endpoint G} {server : Endpoint H} {clientHello : Octets}
    (handshake : Handshake clientLeft serverLeft clientSettings serverSettings suite client server
      clientHello)
    (clientClear : client.InClear) (serverClear : server.InClear) (clientSound : client.Sound)
    (serverSound : server.Sound) : ∃ clientLast serverLast hello exchange flight finish,
      stream hello = Record.encodePlain .handshake clientHello ∧
      Conversation { endpoint := client } { endpoint := server } clientLast serverLast hello exchange
        flight finish ∧ Agree suite clientLast serverLast ∧ clientLast.Equipped clientLeft ∧
      serverLast.Equipped serverLeft := by
  obtain ⟨serverHello, certificates, helloDone, exchange, secrets, certified, exchanged, answered,
    keyed, answers, certifies, helloDoneCarried, _, certifiedRole, _, exchanges, exchangedFields,
    exchangedSource, keys, keyedFields, keyedSource, usable⟩ := handshake
  cases exchanged
  cases exchangedFields
  -- the client's proof and the server's
  obtain ⟨clientProof, clientRecord, clientNext, clientCarried, clientShort, clientMade, proves,
    clientServes⟩ :=
    @Client.exists_sendFinished G _ clientLeft 0 clientSettings _ _ _ rfl rfl rfl rfl rfl
      (usable .client) exchangedSource
  obtain ⟨serverProof, serverRecord, serverNext, serverCarried, serverShort, serverMade, checks,
    serverServes⟩ :=
    @Server.exists_receiveFinished H _ serverLeft 0 serverSettings { keyed with
      role := .server serverSettings .finished
      receiveProtected := true
      receiveNumber := 1 } _ _ _ (congrArg Endpoint.transcript keyedFields) rfl
      (congrArg Endpoint.secrets keyedFields) (congrArg Endpoint.sendProtected keyedFields)
      clientCarried (usable .server) keyedSource
  cases keyed
  cases keyedFields
  -- what each end takes before the changes
  obtain ⟨hello, helloStream, helloAnswers, helloQuiet, helloOpen, helloTakes, answeredClear⟩ :=
    takes_encodePlain answers serverClear
  obtain ⟨flight, flightStream, flightAnswers, flightQuiet, flightOpen, flightTakes, flightClear⟩ :=
    takes_encodePlain (certifies.append (.one helloDoneCarried.whole helloDoneCarried.short
      (.serverHelloDone certifiedRole exchanges proves) ⟨rfl, rfl⟩)) clientClear
  obtain ⟨key, keyStream, keyAnswers, keyQuiet, keyOpen, keyTakes, keyClear⟩ :=
    takes_encodePlain keys answeredClear
  -- the changes and the proofs
  have exchangeTakes := (keyTakes.append (takes_change keyClear rfl (.server ..))).append
    (takes_proof rfl rfl rfl rfl clientMade clientCarried.whole clientShort
      (.clientFinished rfl checks) rfl)
  have finishTakes := (takes_change flightClear rfl (.client ..)).append
    (takes_proof rfl rfl rfl rfl serverMade serverCarried.whole serverShort
      (.serverFinished rfl (Client.receiveFinished_eq_ok.mpr
        ⟨_, _, rfl, rfl, serverCarried.decoded, rfl⟩)) rfl)
  refine ⟨_, _, hello, _, flight, _, ?_, ⟨midway_of_takes serverSound serverClear.1
      (helloTakes.append exchangeTakes) ?_ ?_, midway_of_takes clientSound clientClear.1
      (flightTakes.append finishTakes) ?_ ?_, ?_, ?_, ?_, rfl⟩,
    ⟨rfl, rfl, rfl, rfl, ⟨_, rfl, rfl⟩, ⟨_, rfl, rfl⟩, ⟨_, rfl, rfl⟩, rfl, rfl, rfl, rfl⟩,
    ⟨clientServes.served, _, rfl, usable .client⟩, ⟨serverServes.served, _, rfl, usable .server⟩⟩
  · rw [helloStream, List.flatten_singleton]
  · rw [← List.append_assoc, ← List.append_assoc]
    refine .ends (open_append_iff.mpr ⟨open_append_iff.mpr ⟨helloOpen, keyOpen⟩, ?_⟩) rfl
    exact (open_cons_iff ..).mpr ⟨rfl, open_nil⟩
  · simp only [contents_append, helloQuiet, keyQuiet]
    rfl
  · rw [← List.append_assoc]
    refine .ends (open_append_iff.mpr ⟨flightOpen, ?_⟩) rfl
    exact (open_cons_iff ..).mpr ⟨rfl, open_nil⟩
  · simp only [contents_append, flightQuiet]
    rfl
  · rw [helloAnswers, flightStream, List.flatten_append, List.flatten_cons, List.flatten_cons,
      List.flatten_singleton, List.flatten_nil, List.append_nil, List.append_assoc]
  · simp only [flightAnswers, stream_append, keyStream, stream_cons, stream_nil,
      List.flatten_singleton, List.nil_append, List.append_nil, List.append_assoc,
      encodePlain_change]
  · simp only [answers_append, keyAnswers, stream_append, stream_cons, stream_nil, answers_cons,
      answers_nil, List.nil_append, List.append_nil, encodePlain_change]
    rfl

end TransportSecurity
