import TransportSecurity.Proofs.Success
import TransportSecurity.Session.Client
import TransportSecurity.Session.Server

/-!
What each handler does when it succeeds.

Each lemma says exactly when a handler succeeds and what endpoint it leaves: which message it took or
made, which slot of the transcript it filled, and which fields it set. Invariants and runs are both
read off these lemmas, and no proof about a session opens a handler again.
-/

namespace TransportSecurity

open Endpoint

variable {G : Type} {e e' : Endpoint G} {message records : Octets} {u : Unit}

namespace Client

variable {settings : ClientSettings}

theorem sendHello_eq_ok [Entropy G] : sendHello settings e = .ok records e' ↔
    ∃ random source message messages,
      Random.draw e.source = .ok random source ∧
      Body.encode (ClientHello.offering random settings.suites) = .ok message ∧
      e.transcript = some ⟨messages⟩ ∧ messages.length = Slot.clientHello.place ∧
      encode .handshake message { e with
        source
        clientRandom := some random
        transcript := some ⟨messages ++ [message]⟩
        role := .client settings .serverHello } = .ok records e' := by
  simp only [sendHello, bind_eq_ok, withSource_eq_ok, ofExcept_eq_ok, modify_eq_ok, record_eq_ok,
    enterClient_eq_ok]
  constructor
  · rintro ⟨random, _, ⟨source, drawn, rfl⟩, message, _, ⟨encoded, rfl⟩, _, _, rfl, _, _,
      ⟨messages, found, next, rfl⟩, _, _, rfl, sent⟩
    exact ⟨random, source, message, messages, drawn, encoded, found, next, sent⟩
  · rintro ⟨random, source, message, messages, drawn, encoded, found, next, sent⟩
    exact ⟨random, _, ⟨source, drawn, rfl⟩, message, _, ⟨encoded, rfl⟩, (), _, rfl, (), _,
      ⟨messages, found, next, rfl⟩, (), _, rfl, sent⟩

theorem receiveHello_eq_ok : receiveHello settings message e = .ok u e' ↔ ∃ hello messages,
    Body.decode ServerHello message = .ok hello ∧ hello.version = .current ∧
    hello.suite ∈ settings.suites ∧
    e.transcript = some ⟨messages⟩ ∧ messages.length = Slot.serverHello.place ∧
    { e with
      transcript := some ⟨messages ++ [message]⟩
      suite := hello.suite
      serverRandom := some hello.random
      role := .client settings .certificate } = e' := by
  simp only [receiveHello, bind_eq_ok, ofExcept_eq_ok, ite_eq_ok, throw_eq_ok, modify_eq_ok,
    record_eq_ok, enterClient_eq_ok, List.contains_iff_mem, false_and, exists_false, and_false,
    false_or, or_false, Decidable.not_not]
  constructor
  · rintro ⟨hello, _, ⟨decoded, rfl⟩, version, offered, _, _, ⟨messages, found, next, rfl⟩, _, _,
      rfl, rfl⟩
    exact ⟨hello, messages, decoded, version, offered, found, next, rfl⟩
  · rintro ⟨hello, messages, decoded, version, offered, found, next, rfl⟩
    exact ⟨hello, _, ⟨decoded, rfl⟩, version, offered, (), _, ⟨messages, found, next, rfl⟩, (), _,
      rfl, rfl⟩

theorem receiveCertificate_eq_ok : receiveCertificate settings message e = .ok u e' ↔
    ∃ leaf chain octets key messages,
    Body.decode Certificates message = .ok ⟨leaf :: chain⟩ ∧
    Certificate.rsaKey leaf = .ok (octets, key) ∧ (∀ pin ∈ settings.pin, pin = octets) ∧
    e.transcript = some ⟨messages⟩ ∧ messages.length = Slot.serverCertificate.place ∧
    { e with
      transcript := some ⟨messages ++ [message]⟩
      serverKey := some key
      role := .client settings .serverHelloDone } = e' := by
  simp only [receiveCertificate, bind_eq_ok, ofExcept_eq_ok]
  constructor
  · rintro ⟨⟨list⟩, _, ⟨decoded, rfl⟩, accepted⟩
    cases list with
    | nil => exact (throw_eq_ok.mp accepted).elim
    | cons leaf chain =>
      simp only [bind_eq_ok, ofExcept_eq_ok, ite_eq_ok, throw_eq_ok, record_eq_ok, modify_eq_ok,
        enterClient_eq_ok, false_and, exists_false, and_false, false_or] at accepted
      obtain ⟨⟨octets, key⟩, _, ⟨read, rfl⟩, pinned, _, _, ⟨messages, found, next, rfl⟩, _, _, rfl,
        rfl⟩ := accepted
      refine ⟨leaf, chain, octets, key, messages, decoded, read, ?_, found, next, rfl⟩
      rintro pin known
      simpa [Option.mem_def.mp known, Octets.same_iff] using pinned
  · rintro ⟨leaf, chain, octets, key, messages, decoded, read, pinned, found, next, rfl⟩
    refine ⟨⟨leaf :: chain⟩, _, ⟨decoded, rfl⟩, ?_⟩
    simp only [bind_eq_ok, ofExcept_eq_ok, ite_eq_ok, throw_eq_ok, record_eq_ok, modify_eq_ok,
      enterClient_eq_ok, false_and, exists_false, and_false, false_or]
    refine ⟨(octets, key), _, ⟨read, rfl⟩, ?_, (), _, ⟨messages, found, next, rfl⟩, (), _, rfl, rfl⟩
    cases known : settings.pin with
    | none => simp
    | some pin => simp [Octets.same_iff, pinned pin known]

/-- What a client adds to a handshake when it sends the pre-master secret. -/
structure Exchange (G : Type) where
  random : Fixed (KeySchedule.preMasterLength - 2)
  between : G
  encrypted : Octets
  source : G
  client : Random
  server : Random
  keys : KeyBlock
  message : Octets

namespace Exchange

variable (work : Exchange G)

def preMaster : Octets := Version.current.encode ++ work.random.val

def secrets : Secrets :=
  ⟨KeySchedule.master work.preMaster work.client.val work.server.val, work.keys⟩

/-- An endpoint with some messages behind it and the server's key makes an exchange for that key,
after a message that ends a flight. -/
structure MadeBy [Entropy G] (key : Rsa.PublicKey) (message : Octets) (messages : List Octets)
    (e : Endpoint G) : Prop where
  decoded : Body.decode ServerHelloDone message = .ok {}
  found : e.transcript = some ⟨messages⟩
  next : messages.length = Slot.serverHelloDone.place
  drawn : (Entropy.demand (KeySchedule.preMasterLength - 2) : EStateM Error G _) e.source =
    .ok work.random work.between
  serverKey : e.serverKey = some key
  encrypts : Rsa.encrypt key work.preMaster work.between = .ok work.encrypted work.source
  client : e.clientRandom = some work.client
  server : e.serverRandom = some work.server
  derived : ∃ parameters, e.suite.parameters = .ok parameters ∧
    KeyBlock.derive parameters work.secrets.master work.server.val work.client.val = .ok work.keys
  encoded : Body.encode (ClientKeyExchange.mk work.encrypted) = .ok work.message

end Exchange

theorem sendExchange_eq_ok [Entropy G] (clear : e.sendProtected = false) :
    sendExchange message e = .ok records e' ↔ ∃ messages key, ∃ work : Exchange G,
      work.MadeBy key message messages e ∧
      { e with
        transcript := some ⟨messages ++ [message] ++ [work.message]⟩
        source := work.source
        secrets := some work.secrets
        sendProtected := true
        sendNumber := 0 } = e' ∧
      Record.encodePlain .handshake work.message ++
        Record.encodePlain .changeCipherSpec ChangeCipherSpec.payload = records := by
  obtain ⟨role, stage, suite, sends, receives, sent, received, transcript, client, server, secrets,
    serverKey, source⟩ := e
  cases clear
  simp only [sendExchange, encodeChange, bind_eq_ok, ofExcept_eq_ok, record_eq_ok, withSource_eq_ok,
    get_eq_ok]
  constructor
  · rintro ⟨done, _, ⟨decoded, rfl⟩, _, _, ⟨messages, found, next, rfl⟩, random, _,
      ⟨source, drawn, rfl⟩, _, _, ⟨rfl, rfl⟩, sent⟩
    cases serverKey with
    | none => exact (throw_eq_ok.mp sent).elim
    | some key =>
      simp only [bind_eq_ok, ofExcept_eq_ok, record_eq_ok, withSource_eq_ok, installSecrets_eq_ok,
        protectSending_eq_ok, pure_eq_ok] at sent
      obtain ⟨encrypted, _, ⟨source', encrypts, rfl⟩, _, _,
        ⟨parameters, client, server, keys, suite, known, chosen, derived, rfl⟩, exchange, _,
        ⟨encoded, rfl⟩, _, _, ⟨_, filled, _, rfl⟩, _, _, exchangeSent, _, _, changeSent, _, _,
        ⟨_, rfl⟩, rfl, rfl⟩ := sent
      cases filled
      cases (encode_clear rfl).symm.trans exchangeSent
      cases (encode_clear rfl).symm.trans changeSent
      exact ⟨messages, key, ⟨random, source, encrypted, source', client, server, keys, exchange⟩,
        ⟨decoded, found, next, drawn, rfl, encrypts, known, chosen, ⟨parameters, suite, derived⟩,
          encoded⟩, rfl, rfl⟩
  · rintro ⟨messages, key, ⟨random, source, encrypted, source', client, server, keys, exchange⟩,
      ⟨decoded, found, next, drawn, rfl, encrypts, known, chosen, ⟨parameters, suite, derived⟩,
        encoded⟩, rfl, rfl⟩
    have next' : (messages ++ [message]).length = Slot.clientKeyExchange.place := by
      rw [List.length_append, next]
      rfl
    refine ⟨{}, _, ⟨decoded, rfl⟩, (), _, ⟨messages, found, next, rfl⟩, random, _,
      ⟨source, drawn, rfl⟩, _, _, ⟨rfl, rfl⟩, ?_⟩
    simp only [bind_eq_ok, ofExcept_eq_ok, record_eq_ok, withSource_eq_ok, installSecrets_eq_ok,
      protectSending_eq_ok, pure_eq_ok]
    exact ⟨encrypted, _, ⟨source', encrypts, rfl⟩, (), _,
      ⟨parameters, client, server, keys, suite, known, chosen, derived, rfl⟩, exchange, _,
      ⟨encoded, rfl⟩, (), _, ⟨_, rfl, next', rfl⟩, _, _, encode_clear rfl, _, _, encode_clear rfl,
      (), _, ⟨rfl, rfl⟩, rfl, rfl⟩

theorem sendFinished_eq_ok [Entropy G] : sendFinished settings e = .ok records e' ↔
    ∃ messages secrets finished sent,
    e.transcript = some ⟨messages⟩ ∧ messages.length = Slot.clientFinished.place ∧
    e.secrets = some secrets ∧
    Body.encode (Finished.mk (KeySchedule.verifyData (KeySchedule.finishedLabel .client)
      (Transcript.hash ⟨messages⟩) secrets.master)) = .ok finished ∧
    encode .handshake finished { e with transcript := some ⟨messages ++ [finished]⟩ } =
      .ok records sent ∧
    { sent with role := .client settings .changeCipherSpec } = e' := by
  simp only [sendFinished, bind_eq_ok, proof_eq_ok, ofExcept_eq_ok, record_eq_ok,
    enterClient_eq_ok, pure_eq_ok]
  constructor
  · rintro ⟨_, _, ⟨transcript, secrets, found, known, rfl, rfl⟩, finished, _, ⟨encoded, rfl⟩, _, _,
      ⟨messages, filled, next, rfl⟩, _, sent, encodes, _, _, rfl, rfl, rfl⟩
    cases found.symm.trans filled
    exact ⟨messages, secrets, finished, sent, found, next, known, encoded, encodes, rfl⟩
  · rintro ⟨messages, secrets, finished, sent, found, next, known, encoded, encodes, rfl⟩
    exact ⟨_, e, ⟨⟨messages⟩, secrets, found, known, rfl, rfl⟩, finished, e, ⟨encoded, rfl⟩, (), _,
      ⟨messages, found, next, rfl⟩, records, sent, encodes, (), _, rfl, rfl, rfl⟩

theorem receiveFinished_eq_ok : receiveFinished settings message e = .ok u e' ↔
    ∃ transcript secrets,
      e.transcript = some transcript ∧ e.secrets = some secrets ∧
      Body.decode Finished message = .ok ⟨KeySchedule.verifyData
        (KeySchedule.finishedLabel .server) transcript.hash secrets.master⟩ ∧
      { e with
        role := .client settings .done
        stage := .established
        transcript := none } = e' := by
  simp only [receiveFinished, bind_eq_ok, ofExcept_eq_ok, proof_eq_ok, ite_eq_ok, throw_eq_ok,
    enterClient_eq_ok, establish_eq_ok, Octets.same_iff, false_and, exists_false, and_false,
    or_false]
  constructor
  · rintro ⟨⟨verifyData⟩, _, ⟨decoded, rfl⟩, _, _, ⟨transcript, secrets, found, known, rfl, rfl⟩,
      rfl, _, _, rfl, rfl⟩
    exact ⟨transcript, secrets, found, known, decoded, rfl⟩
  · rintro ⟨transcript, secrets, found, known, decoded, rfl⟩
    exact ⟨_, e, ⟨decoded, rfl⟩, _, e, ⟨transcript, secrets, found, known, rfl, rfl⟩, rfl, (), _,
      rfl, rfl⟩

end Client

namespace Server

variable {settings : ServerSettings}

/-- What a server adds to a handshake when it answers a hello. -/
structure Greeting (G : Type) where
  hello : ClientHello
  suite : Suite
  random : Random
  source : G
  serverHello : Octets
  certificates : Octets
  helloDone : Octets

/-- An endpoint with some messages behind it makes a greeting for a hello. -/
structure Greeting.MadeBy [Entropy G] (work : Greeting G) (settings : ServerSettings)
    (message : Octets) (messages : List Octets) (e : Endpoint G) : Prop where
  decoded : Body.decode ClientHello message = .ok work.hello
  version : work.hello.version.atLeast .current
  null : work.hello.offersNull
  chosen : Suite.choose? settings.suites work.hello.suites = some work.suite
  found : e.transcript = some ⟨messages⟩
  next : messages.length = Slot.clientHello.place
  drawn : Random.draw e.source = .ok work.random work.source
  helloEncoded : Body.encode (ServerHello.choosing work.random work.suite) = .ok work.serverHello
  listEncoded : Body.encode (Certificates.mk settings.identity.certificateList) =
    .ok work.certificates
  doneEncoded : Body.encode ServerHelloDone.mk = .ok work.helloDone

theorem receiveHello_eq_ok [Entropy G] (clear : e.sendProtected = false) :
    receiveHello settings message e = .ok records e' ↔ ∃ messages, ∃ work : Greeting G,
      work.MadeBy settings message messages e ∧
      { e with
        suite := work.suite
        clientRandom := some work.hello.random
        serverRandom := some work.random
        source := work.source
        transcript := some
          ⟨messages ++ [message, work.serverHello, work.certificates, work.helloDone]⟩
        role := .server settings .clientKeyExchange } = e' ∧
      Record.encodePlain .handshake (work.serverHello ++ (work.certificates ++ work.helloDone)) =
        records := by
  obtain ⟨role, stage, suite, sends, receives, sent, received, transcript, client, server, secrets,
    serverKey, source⟩ := e
  cases clear
  simp only [receiveHello, bind_eq_ok, ofExcept_eq_ok, ite_eq_ok, throw_eq_ok, false_and,
    exists_false, and_false, or_false]
  constructor
  · rintro ⟨hello, _, ⟨decoded, rfl⟩, version, null, accepted⟩
    cases chosen : Suite.choose? settings.suites hello.suites with
    | none =>
      rw [chosen] at accepted
      exact (throw_eq_ok.mp accepted).elim
    | some suite =>
      rw [chosen] at accepted
      simp only [bind_eq_ok, ofExcept_eq_ok, record_eq_ok, withSource_eq_ok, modify_eq_ok,
        enterServer_eq_ok] at accepted
      obtain ⟨_, _, ⟨messages, found, next, rfl⟩, _, _, rfl, random, _, ⟨source, drawn, rfl⟩, _, _,
        rfl, serverHello, _, ⟨helloEncoded, rfl⟩, certificates, _, ⟨listEncoded, rfl⟩, helloDone, _,
        ⟨doneEncoded, rfl⟩, _, _, ⟨_, first, _, rfl⟩, _, _, ⟨_, second, _, rfl⟩, _, _,
        ⟨_, third, _, rfl⟩, _, _, rfl, encodes⟩ := accepted
      cases first
      cases second
      cases third
      cases (encode_clear rfl).symm.trans encodes
      refine ⟨messages, ⟨hello, suite, random, source, serverHello, certificates, helloDone⟩,
        ⟨decoded, version, null, chosen, found, next, drawn, helloEncoded, listEncoded,
          doneEncoded⟩, ?_, rfl⟩
      simp only [List.append_assoc, List.cons_append, List.nil_append]
  · rintro ⟨messages, ⟨hello, suite, random, source, serverHello, certificates, helloDone⟩, made,
      rfl, rfl⟩
    refine ⟨hello, _, ⟨made.decoded, rfl⟩, made.version, made.null, ?_⟩
    rw [made.chosen]
    simp only [bind_eq_ok, ofExcept_eq_ok, record_eq_ok, withSource_eq_ok, modify_eq_ok,
      enterServer_eq_ok]
    have place (more : List Octets) : (messages ++ message :: more).length = more.length + 1 := by
      rw [List.length_append, made.next, List.length_cons]
      exact Nat.zero_add _
    refine ⟨(), _, ⟨messages, made.found, made.next, rfl⟩, (), _, rfl, random, _,
      ⟨source, made.drawn, rfl⟩, (), _, rfl, serverHello, _, ⟨made.helloEncoded, rfl⟩, certificates,
      _, ⟨made.listEncoded, rfl⟩, helloDone, _, ⟨made.doneEncoded, rfl⟩, (), _,
      ⟨_, rfl, place [], rfl⟩, (), _, ⟨_, rfl, ?_, rfl⟩, (), _, ⟨_, rfl, ?_, rfl⟩, (), _, rfl, ?_⟩
    · rw [List.append_assoc]
      exact place [serverHello]
    · rw [List.append_assoc, List.append_assoc]
      exact place [serverHello, certificates]
    · rw [encode_clear rfl]
      simp only [List.append_assoc, List.cons_append, List.nil_append]

theorem receiveKeyExchange_eq_ok : receiveKeyExchange settings message e = .ok u e' ↔
    ∃ exchange preMaster messages parameters client server keys,
    Body.decode ClientKeyExchange message = .ok exchange ∧
    settings.identity.decryptPreMaster exchange.encrypted = .ok preMaster ∧
    e.transcript = some ⟨messages⟩ ∧ messages.length = Slot.clientKeyExchange.place ∧
    e.suite.parameters = .ok parameters ∧ e.clientRandom = some client ∧
    e.serverRandom = some server ∧
    KeyBlock.derive parameters (KeySchedule.master preMaster client.val server.val) server.val
      client.val = .ok keys ∧
    { e with
      transcript := some ⟨messages ++ [message]⟩
      secrets := some ⟨KeySchedule.master preMaster client.val server.val, keys⟩
      role := .server settings .changeCipherSpec } = e' := by
  simp only [receiveKeyExchange, bind_eq_ok, ofExcept_eq_ok, record_eq_ok, installSecrets_eq_ok,
    enterServer_eq_ok]
  constructor
  · rintro ⟨exchange, _, ⟨decoded, rfl⟩, preMaster, _, ⟨decrypted, rfl⟩, _, _,
      ⟨messages, found, next, rfl⟩, _, _,
      ⟨parameters, client, server, keys, suite, known, chosen, derived, rfl⟩, rfl⟩
    exact ⟨exchange, preMaster, messages, parameters, client, server, keys, decoded, decrypted,
      found, next, suite, known, chosen, derived, rfl⟩
  · rintro ⟨exchange, preMaster, messages, parameters, client, server, keys, decoded, decrypted,
      found, next, suite, known, chosen, derived, rfl⟩
    exact ⟨exchange, e, ⟨decoded, rfl⟩, preMaster, e, ⟨decrypted, rfl⟩, (), _,
      ⟨messages, found, next, rfl⟩, (), _,
      ⟨parameters, client, server, keys, suite, known, chosen, derived, rfl⟩, rfl⟩

/-- What a server adds to a handshake when it answers a proof. -/
structure Conclusion where
  secrets : Secrets
  answer : Octets
  records : Octets

/-- An endpoint with some messages behind it makes a conclusion for a proof, and is `sent` once the
records are made. -/
structure Conclusion.MadeBy [Entropy G] (work : Conclusion) (message : Octets)
    (messages : List Octets) (e sent : Endpoint G) : Prop where
  found : e.transcript = some ⟨messages⟩
  next : messages.length = Slot.clientFinished.place
  known : e.secrets = some work.secrets
  decoded : Body.decode Finished message = .ok ⟨KeySchedule.verifyData
    (KeySchedule.finishedLabel .client) (Transcript.hash ⟨messages⟩) work.secrets.master⟩
  encoded : Body.encode (Finished.mk (KeySchedule.verifyData (KeySchedule.finishedLabel .server)
    (Transcript.hash ⟨messages ++ [message]⟩) work.secrets.master)) = .ok work.answer
  encodes : encode .handshake work.answer { e with
    transcript := some ⟨messages ++ [message]⟩
    sendProtected := true
    sendNumber := 0 } = .ok work.records sent

theorem receiveFinished_eq_ok [Entropy G] (clear : e.sendProtected = false) :
    receiveFinished settings message e = .ok records e' ↔ ∃ messages, ∃ work : Conclusion, ∃ sent,
      work.MadeBy message messages e sent ∧
      { sent with
        role := .server settings .done
        stage := .established
        transcript := none } = e' ∧
      Record.encodePlain .changeCipherSpec ChangeCipherSpec.payload ++ work.records = records := by
  obtain ⟨role, stage, suite, sends, receives, sent, received, transcript, client, server, secrets,
    serverKey, source⟩ := e
  cases clear
  simp only [receiveFinished, encodeChange, bind_eq_ok, ofExcept_eq_ok, proof_eq_ok, ite_eq_ok,
    throw_eq_ok, record_eq_ok, protectSending_eq_ok, enterServer_eq_ok, establish_eq_ok, pure_eq_ok,
    Octets.same_iff, false_and, exists_false, and_false, or_false]
  constructor
  · rintro ⟨⟨verifyData⟩, _, ⟨decoded, rfl⟩, _, _, ⟨transcript, secrets, found, known, rfl, rfl⟩,
      rfl, _, _, ⟨messages, filled, next, rfl⟩, _, _, changeSent, _, _, ⟨_, rfl⟩, _, _,
      ⟨_, _, vouched, known', rfl, rfl⟩, answer, _, ⟨encoded, rfl⟩, answerRecords, sent, encodes,
      _, _, rfl, _, _, rfl, rfl, rfl⟩
    cases found.symm.trans filled
    cases (encode_clear rfl).symm.trans changeSent
    cases vouched
    cases known.symm.trans known'
    exact ⟨messages, ⟨secrets, answer, answerRecords⟩, sent,
      ⟨found, next, known, decoded, encoded, encodes⟩, rfl, rfl⟩
  · rintro ⟨messages, ⟨secrets, answer, answerRecords⟩, sent,
      ⟨found, next, known, decoded, encoded, encodes⟩, rfl, rfl⟩
    cases known
    exact ⟨_, _, ⟨decoded, rfl⟩, _, _, ⟨⟨messages⟩, secrets, found, rfl, rfl, rfl⟩, rfl, (), _,
      ⟨messages, found, next, rfl⟩, _, _, encode_clear rfl, (), _, ⟨rfl, rfl⟩, _, _,
      ⟨_, secrets, rfl, rfl, rfl, rfl⟩, answer, _, ⟨encoded, rfl⟩, answerRecords, sent, encodes,
      (), _, rfl, (), _, rfl, rfl, rfl⟩

end Server

end TransportSecurity
