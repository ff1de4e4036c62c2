import TransportSecurity.Proofs.Session.Answering
import TransportSecurity.Proofs.Session.Negotiation
import TransportSecurity.Proofs.Session.Offer

/-!
How long a flight may be for the client that asked for it.

A server sends all certificates that it can encode, in a message of up to 2²⁴ - 1 octets behind its
header. A client collects messages of up to `Assembly.maxLength` octets, and 2¹⁷ are far less. So a
client takes the certificates of its server, however the flight is cut, exactly if they are short
enough for it (`Session.flight_limits`); otherwise it gives up on them at their header.
-/

namespace TransportSecurity

namespace Endpoint

variable {G : Type} [Entropy G] {e : Endpoint G} {settings : ClientSettings} {message : Octets}

/-- A client takes the hello of a server that chose one of its suites. -/
theorem receiveMessage_choosing {suite : Suite} (sound : e.Sound)
    (waits : e.role = .client settings .serverHello) (offered : suite ∈ settings.suites)
    (random : Random) : ∃ f, receiveMessage (ServerHello.octets random suite) e = .ok [] f ∧
      f.Sound ∧ f.role = .client settings .certificate := by
  obtain ⟨messages, found, length⟩ := sound.filled (n := 1) (by rw [waits]; rfl)
  have answers := Answers.serverHello waits (Client.receiveHello_eq_ok.mpr ⟨_, messages,
    (ServerHello.carries_octets random suite).decoded, rfl, offered, found, length, rfl⟩)
  exact ⟨_, receiveMessage_eq_ok.mpr answers, (advances_answers sound answers).2, rfl⟩

/-- A client without a pin takes the certificates of every identity that is made. -/
theorem receiveMessage_certificates {identity : Identity} (sound : e.Sound)
    (waits : e.role = .client settings .certificate) (unpinned : settings.pin = none)
    (made : identity.Made)
    (decoded : Body.decode Certificates message = .ok ⟨identity.certificateList⟩) :
    ∃ f, receiveMessage message e = .ok [] f ∧ f.Sound ∧
      f.role = .client settings .serverHelloDone ∧
      f.serverKey = some identity.privateKey.publicKey := by
  obtain ⟨messages, found, length⟩ := sound.filled (n := 2) (by rw [waits]; rfl)
  have free : ∀ pin ∈ settings.pin, pin = identity.publicKey := by
    rw [unpinned]
    rintro _ ⟨⟩
  have answers := Answers.certificates waits (Client.receiveCertificate_eq_ok.mpr
    ⟨_, _, _, _, messages, decoded, made.holds.1, free, found, length, rfl⟩)
  exact ⟨_, receiveMessage_eq_ok.mpr answers, (advances_answers sound answers).2, rfl, rfl⟩

/-- At the end of the flight a client answers, or fails for what it lacks itself. -/
theorem owns_receiveRow {key : Rsa.PublicKey} (sound : e.Sound) (coherent : e.Coherent)
    (waits : e.role = .client settings .serverHelloDone) (trusted : e.serverKey = some key)
    (size : key.size ≤ 512) : Owns (receiveRow [[14, 0, 0, 0]] (.ok [])) e := by
  have handled : receiveMessage [14, 0, 0, 0] e =
      Client.receiveHelloDone settings [14, 0, 0, 0] e := by
    rw [receiveMessage, get_bind, waits]
    rfl
  have owns : Owns (receiveMessage [14, 0, 0, 0]) e := by
    rw [Owns, FailsBy, handled]
    exact owns_receiveHelloDone sound coherent waits trusted size rfl
  exact .bind (.bind owns fun _ _ _ => .bind (.pure _) fun _ _ _ => .pure _) fun _ _ _ =>
    .bind (.pure _) fun _ _ _ => .pure _

end Endpoint

namespace Session

open Endpoint

variable {G H : Type} [Entropy G] [Entropy H]

/-- A client collects three messages from the fragments of a flight, and takes the second for the
certificates of an identity. Whatever octets the records of these fragments come in, it then looks
at the third, and all that it can fail for is what it lacks itself. -/
def TakesFlight (client : Session G) (identity : Identity) (fragments : List Octets) : Prop :=
  ∃ serverHello certificates accepted,
    Assembly.gather [] fragments = ([serverHello, certificates, [14, 0, 0, 0]], .ok []) ∧
    Body.decode Certificates certificates = .ok ⟨identity.certificateList⟩ ∧
    receiveInTurn [serverHello, certificates] client.endpoint = .ok [] accepted ∧
    (∃ settings, accepted.role = .client settings .serverHelloDone) ∧
    accepted.serverKey = some identity.privateKey.publicKey ∧
    ∀ reads : List Octets,
      reads.flatten = fragments.flatMap (Record.plainRecord .handshake) →
      client.Tells (receiveRow [[14, 0, 0, 0]] (.ok []) accepted) (client.receiveAll reads) ∧
      ∀ failure ∈ Outcome.firstFailure? (client.receiveAll reads).1, failure.error.isOwn = true

/-- A client gives up on the fragments of a flight because of a body of so many octets, and says
that it cannot be decoded, whatever octets the records of these fragments come in. -/
def GivesUp (client : Session G) (length : Nat) (fragments : List Octets) : Prop :=
  ∀ reads : List Octets, reads.flatten = fragments.flatMap (Record.plainRecord .handshake) →
    Outcome.firstFailure? (client.receiveAll reads).1 = some ⟨.handshakeOverflow length,
      some (Record.encodePlain .alert (Alert.fatal .decodeError).encode)⟩

omit [Entropy G] in
/-- What calls have told of is an error of this end, if the endpoint fails with no others. -/
theorem Tells.isOwn {session : Session G} {program : Step G (Octets × Octets)} {e : Endpoint G}
    {told : List Outcome × Session G} (tells : session.Tells (program e) told)
    (owns : Owns program e) :
    ∀ failure ∈ Outcome.firstFailure? told.1, failure.error.isOwn = true := by
  generalize ended : program e = result at tells
  cases tells with
  | handled fine =>
    rw [fine]
    rintro _ ⟨⟩
  | failed first =>
    rw [first]
    rintro _ ⟨⟩
    exact owns _ _ ended

/-- A flight whose certificates are not too long is read as its three messages. -/
theorem messages_flight (random : Random) (suite : Suite) {certificates : Octets}
    (whole : Message.IsWhole certificates)
    (short : certificates.length ≤ Body.headerLength + Assembly.maxLength) :
    Assembly.messages (ServerHello.octets random suite ++ (certificates ++ [14, 0, 0, 0])) =
      ([ServerHello.octets random suite, certificates, [14, 0, 0, 0]], .ok []) := by
  have carries := ServerHello.carries_octets random suite
  have done : Message.IsWhole [14, 0, 0, 0] :=
    Body.isWhole_of_encode (rfl : Body.encode ServerHelloDone.mk = .ok _)
  rw [Assembly.messages_of_front carries.whole carries.short,
    Assembly.messages_of_front whole short, Assembly.messages_of_whole done (by decide)]

/-- A client that has sent its hello and has not heard from the server yet. -/
structure Greeting (session : Session G) (settings : ClientSettings) : Prop where
  ready : session.Ready
  clear : session.endpoint.InClear
  coherent : session.endpoint.Coherent
  inbox : session.inbox = []
  pending : session.pending = []
  waits : session.endpoint.role = .client settings .serverHello

/-- A client that was made and has started has sent a hello with its suites, and waits for the
server's. -/
theorem greeting_of_start {settings : ClientSettings} {source : G} {client started : Session G}
    {message : Octets} (made : Session.client settings source = .ok client)
    (sent : client.start = (.ok (Record.encodePlain .handshake message), started)) :
    ∃ random, Body.encode (ClientHello.offering random settings.suites) = .ok message ∧
      started.Greeting settings := by
  have reachable : started.Reachable := by
    have reached : client.start.2.Reachable := ⟨_, .client made, .start .refl⟩
    rwa [sent] at reached
  obtain ⟨_, _, begins, _⟩ := start_eq_ok.mp sent
  obtain ⟨_, _, rfl⟩ := client_eq_ok.mp made
  generalize Record.encodePlain .handshake message = records at begins
  cases begins with
  | server role => cases role
  | client role begun =>
    cases role
    obtain ⟨random, next, _, _, drawn, _⟩ := Client.sendHello_eq_ok.mp begun
    obtain ⟨hello, encoded, same, rfl⟩ := (client_start_eq_ok made drawn).mp sent
    obtain rfl := Record.encodePlain_inj same
    exact ⟨random, encoded, reachable.ready (Or.inl rfl), ⟨rfl, rfl⟩,
      (reachable.coherent Stage.noConfusion).2, rfl, rfl, rfl⟩

section Client

variable {client : Session G} {settings : ClientSettings} {identity : Identity} {suite : Suite}
  {random : Random} {certificates : Octets} {fragments : List Octets}

/-- A client without a pin takes the hello of a server and its certificates. -/
theorem Greeting.certified (greeting : client.Greeting settings) (unpinned : settings.pin = none)
    (offered : suite ∈ settings.suites) (made : identity.Made)
    (decoded : Body.decode Certificates certificates = .ok ⟨identity.certificateList⟩)
    (random : Random) : ∃ accepted,
      receiveInTurn [ServerHello.octets random suite, certificates] client.endpoint =
        .ok [] accepted ∧
      accepted.Sound ∧ accepted.Coherent ∧ accepted.role = .client settings .serverHelloDone ∧
      accepted.serverKey = some identity.privateKey.publicKey := by
  obtain ⟨between, choosing, sound, waits⟩ :=
    receiveMessage_choosing greeting.ready.sound greeting.waits offered random
  have coherent := kept_coherent.answered (s := []) greeting.ready.sound greeting.coherent
    (receiveMessage_eq_ok.mp choosing)
  obtain ⟨accepted, certified, sound', waits', trusted⟩ :=
    receiveMessage_certificates sound waits unpinned made decoded
  exact ⟨accepted, receiveInTurn_cons choosing (receiveInTurn_singleton certified), sound',
    kept_coherent.answered (s := []) sound coherent (receiveMessage_eq_ok.mp certified), waits',
    trusted⟩

/-- Certificates that are short enough for the client are taken from the flight. -/
theorem Greeting.takesFlight (greeting : client.Greeting settings) (unpinned : settings.pin = none)
    (offered : suite ∈ settings.suites) (made : identity.Made)
    (encoded : Body.encode (Certificates.mk identity.certificateList) = .ok certificates)
    (flight : fragments.flatten =
      ServerHello.octets random suite ++ (certificates ++ [14, 0, 0, 0]))
    (small : ∀ fragment ∈ fragments, fragment.length ≤ Record.maxPiece)
    (short : 3 + identity.listLength ≤ Assembly.maxLength) :
    client.TakesFlight identity fragments := by
  have decoded := made.decode_of_encode encoded
  obtain ⟨accepted, taken, sound, coherent, waits, trusted⟩ :=
    greeting.certified unpinned offered made decoded random
  have size := Rsa.size_le_of_ofDer? (Certificate.rsaKey_eq_ok.mp made.holds.1).2
  have fits : certificates.length ≤ Body.headerLength + Assembly.maxLength := by
    rw [made.length_of_encode encoded]
    omega
  have read := messages_flight random suite (Body.isWhole_of_encode encoded) fits
  rw [← flight] at read
  refine ⟨_, _, accepted, (Assembly.gather_eq rfl _).trans read, decoded, taken,
    ⟨settings, waits⟩, trusted, fun reads arrived => ?_⟩
  have comes : receiveStream fragments.flatten client.endpoint =
      receiveRow [[14, 0, 0, 0]] (.ok []) accepted := by
    rw [receiveStream, read]
    exact (receiveRow_append taken (.ok [])).trans (by simp)
  have tells :=
    tells_of_pieces greeting.ready greeting.clear greeting.inbox greeting.pending small arrived
  rw [comes] at tells
  exact ⟨tells, tells.isOwn (owns_receiveRow sound coherent waits trusted size)⟩

/-- Certificates that are too long for the client make it give up at their header. -/
theorem Greeting.givesUp (greeting : client.Greeting settings)
    (offered : suite ∈ settings.suites) (made : identity.Made)
    (encoded : Body.encode (Certificates.mk identity.certificateList) = .ok certificates)
    (flight : fragments.flatten =
      ServerHello.octets random suite ++ (certificates ++ [14, 0, 0, 0]))
    (small : ∀ fragment ∈ fragments, fragment.length ≤ Record.maxPiece)
    (long : Assembly.maxLength < 3 + identity.listLength) :
    client.GivesUp (3 + identity.listLength) fragments := by
  intro reads arrived
  obtain ⟨between, choosing, sound, waits⟩ :=
    receiveMessage_choosing greeting.ready.sound greeting.waits offered random
  have taken := receiveInTurn_singleton choosing
  have carries := ServerHello.carries_octets random suite
  have length := made.length_of_encode encoded
  have refused := Assembly.next?_of_long (Body.isWhole_of_encode encoded) (by omega) [14, 0, 0, 0]
  rw [length, Nat.add_sub_cancel_left] at refused
  have read : Assembly.messages fragments.flatten = ([ServerHello.octets random suite],
      .error (.handshakeOverflow (3 + identity.listLength))) := by
    rw [flight, Assembly.messages_of_front carries.whole carries.short,
      Assembly.messages_of_error refused]
  have comes : receiveStream fragments.flatten client.endpoint =
      .error (.handshakeOverflow (3 + identity.listLength)) between := by
    rw [receiveStream, read]
    exact receiveRow_append taken _
  have tells :=
    tells_of_pieces greeting.ready greeting.clear greeting.inbox greeting.pending small arrived
  rw [comes] at tells
  have clear : between.sendProtected = false := by rw [sound.sends, waits]; rfl
  generalize client.receiveAll reads = told at tells
  cases tells with
  | failed first =>
    rw [first]
    simp only [fail, alertRecords, clear]
    rfl

end Client

section Server

variable {settings : ServerSettings} {server : Session H} {start next : H} {random : Random}
  {message certificates : Octets} {hello : ClientHello} {suite : Suite}

/-- A server that consents to a hello answers with its flight, however the hello is cut. -/
theorem exists_flight (made : Session.server settings start = .ok server)
    (drawn : Random.draw start = .ok random next)
    (consents : Server.Consents settings message hello suite)
    (short : message.length ≤ Body.headerLength + Assembly.maxLength)
    (identity : settings.identity.Made)
    (encoded : Body.encode (Certificates.mk settings.identity.certificateList) = .ok certificates)
    {reads : List Octets} (arrived : reads.flatten = Record.encodePlain .handshake message) :
    ∃ fragments : List Octets,
      fragments.flatten = ServerHello.octets random suite ++ (certificates ++ [14, 0, 0, 0]) ∧
      (∀ fragment ∈ fragments, fragment.length ≤ Record.maxPiece) ∧
      Outcome.firstFailure? (server.start.2.receiveAll reads).1 = none ∧
      Outcome.answers (server.start.2.receiveAll reads).1 =
        fragments.flatMap (Record.plainRecord .handshake) := by
  rw [server_start made]
  obtain ⟨records, f, took, greets⟩ := @Server.Consents.greets settings message hello suite H _
    { role := .server settings .clientHello
      stage := .handshaking
      transcript := some ⟨[]⟩
      source := start } random next consents rfl rfl drawn (identity.room_of_encode encoded)
  obtain ⟨other, fragments, same, flight, small, rfl, _⟩ := greets.greeting
  cases encoded.symm.trans same
  rw [List.append_assoc] at flight
  refine ⟨fragments, flight, small, ?_⟩
  have tells := @tells_of_pieces H _ { endpoint := {
      role := .server settings .clientHello
      stage := .handshaking
      transcript := some ⟨[]⟩
      source := start } } ⟨rfl, Or.inl rfl, rfl, fun _ => rfl⟩ ⟨rfl, rfl⟩ rfl rfl
    (Record.pieces message) reads (fun _ => Record.length_le_of_mem_pieces)
    (by rw [arrived, Record.encodePlain_eq])
  have whole := Body.isWhole_of_decode consents.read
  obtain ⟨_, _, spelled, _⟩ := Body.decode_eq_ok.mp consents.read
  have handled := (receiveMessage_clientHello rfl
    (MessageType.ofMessage_eq_ok.mpr ⟨_, spelled⟩)).trans took
  have taken := @receiveRow_append _ _ _ _ _ [] _ (receiveInTurn_singleton handled) (.ok [])
  rw [Record.pieces_flatten, receiveStream, Assembly.messages_of_whole whole short] at tells
  rw [List.append_nil] at taken
  dsimp only at tells
  rw [taken] at tells
  generalize @receiveAll H _ _ reads = told at tells ⊢
  cases tells with
  | handled fine answers => exact ⟨fine, answers.trans (List.append_nil _)⟩

/-- A client that was made and a server that consents to its hello come to a flight. -/
theorem exists_flight_of_start {clientSettings : ClientSettings} {source : G}
    {client started : Session G} (clientMade : Session.client clientSettings source = .ok client)
    (sent : client.start = (.ok (Record.encodePlain .handshake message), started))
    (identity : settings.identity.Made)
    (encoded : Body.encode (Certificates.mk settings.identity.certificateList) = .ok certificates)
    (serverMade : Session.server settings start = .ok server)
    (drawn : Random.draw start = .ok random next)
    (consents : Server.Consents settings message hello suite) {toServer : List Octets}
    (arrived : toServer.flatten = Record.encodePlain .handshake message) :
    started.Greeting clientSettings ∧ suite ∈ clientSettings.suites ∧
    ∃ fragments : List Octets,
      fragments.flatten = ServerHello.octets random suite ++ (certificates ++ [14, 0, 0, 0]) ∧
      (∀ fragment ∈ fragments, fragment.length ≤ Record.maxPiece) ∧
      Outcome.firstFailure? (server.start.2.receiveAll toServer).1 = none ∧
      Outcome.answers (server.start.2.receiveAll toServer).1 =
        fragments.flatMap (Record.plainRecord .handshake) := by
  obtain ⟨some, known, _⟩ := client_eq_ok.mp clientMade
  obtain ⟨_, offering, greeting⟩ := greeting_of_start clientMade sent
  obtain ⟨carries, rfl⟩ := Carries.of_offering some known offering consents.read
  exact ⟨greeting, consents.offered,
    exists_flight serverMade drawn consents carries.short identity encoded arrived⟩

/-- Where the limits of a client and of the server that answers its hello meet. The server has an
identity as it is made, with certificates that can be encoded, and consents to the hello of a client
without a pin. Then its flight goes out whatever octets the hello comes in. If the body of the
certificates is not longer than what a client collects, the client takes them from the flight
however it is cut, and can only fail afterwards, for what it lacks itself. If the body is longer,
the client gives up on it. -/
theorem flight_limits {suites : List Suite} {source : G} {client started : Session G}
    (clientMade : Session.client { suites, pin := none } source = .ok client)
    (sent : client.start = (.ok (Record.encodePlain .handshake message), started))
    (identity : settings.identity.Made)
    (encoded : Body.encode (Certificates.mk settings.identity.certificateList) = .ok certificates)
    (serverMade : Session.server settings start = .ok server)
    (drawn : Random.draw start = .ok random next)
    (consents : Server.Consents settings message hello suite) {toServer : List Octets}
    (arrived : toServer.flatten = Record.encodePlain .handshake message) :
    ∃ fragments : List Octets,
      Outcome.firstFailure? (server.start.2.receiveAll toServer).1 = none ∧
      Outcome.answers (server.start.2.receiveAll toServer).1 =
        fragments.flatMap (Record.plainRecord .handshake) ∧
      (3 + settings.identity.listLength ≤ Assembly.maxLength →
        started.TakesFlight settings.identity fragments) ∧
      (Assembly.maxLength < 3 + settings.identity.listLength →
        started.GivesUp (3 + settings.identity.listLength) fragments) := by
  obtain ⟨greeting, offered, fragments, flight, small, fine, answers⟩ :=
    exists_flight_of_start clientMade sent identity encoded serverMade drawn consents arrived
  refine ⟨fragments, fine, answers, ?_, ?_⟩
  · exact greeting.takesFlight rfl offered identity encoded flight small
  · exact greeting.givesUp offered identity encoded flight small

end Server

end Session

namespace Rehearsal

/-- The rehearsed client without its pin. -/
def unpinned : Session Reproducible :=
  { endpoint := { role := .client {} .idle, source := .ofSeed 1 [] none } }

/-- It sends a hello to which every server consents that has no other settings than who it is. -/
theorem exists_consents (identity : Identity) : ∃ random message started,
    unpinned.start = (.ok (Record.encodePlain .handshake message), started) ∧
    Server.Consents { identity } message (ClientHello.offering random Suite.supported)
      Suite.rsaAes256Sha256 := by
  obtain ⟨random, message, _, carries, _, started⟩ :=
    @Session.exists_client_start Reproducible _ _ 0 {} (.ofSeed 1 [] none) unpinned rfl (by decide)
      ((Reproducible.lasting rfl).serves 1)
  obtain ⟨offered, first⟩ :=
    Suite.choose?_eq_some.mp (rfl : Suite.choose? Suite.supported Suite.supported = some _)
  exact ⟨random, message, _, started, carries.decoded, Or.inr ⟨rfl, Nat.le_refl 3⟩,
    List.mem_singleton_self 0, offered, first⟩

theorem exists_draw : ∃ random next,
    Random.draw (Reproducible.ofSeed 2 [] none) = .ok random next := by
  obtain ⟨random, next, drawn, _⟩ := Entropy.Lasting.demand
    (Reproducible.lasting rfl : Entropy.Lasting (Reproducible.ofSeed 2 [] none)) 32
  exact ⟨random, next, drawn⟩

/-- An identity whose list leaves room for its length is encoded. -/
theorem exists_encoded {identity : Identity} (made : identity.Made)
    (room : 3 + identity.listLength ≤ 0xffffff) : ∃ certificates,
      Body.encode (Certificates.mk identity.certificateList) = .ok certificates := by
  obtain ⟨certificates, encoded, _⟩ := made.exists_carried room
  exact ⟨certificates, encoded⟩

/-- The certificates of the rehearsals are short enough. -/
theorem flight_limits_rehearsal : ∃ random message started certificates random' next fragments,
    Session.client { suites := Suite.supported, pin := none } (Reproducible.ofSeed 1 [] none) =
      .ok unpinned ∧
    unpinned.start = (.ok (Record.encodePlain .handshake message), started) ∧
    serverSettings.identity.Made ∧
    Body.encode (Certificates.mk serverSettings.identity.certificateList) = .ok certificates ∧
    Session.server serverSettings (Reproducible.ofSeed 2 [] none) = .ok server ∧
    Random.draw (Reproducible.ofSeed 2 [] none) = .ok random' next ∧
    Server.Consents serverSettings message (ClientHello.offering random Suite.supported)
      Suite.rsaAes256Sha256 ∧
    [Record.encodePlain .handshake message].flatten = Record.encodePlain .handshake message ∧
    3 + serverSettings.identity.listLength ≤ Assembly.maxLength ∧
    Outcome.answers (server.start.2.receiveAll [Record.encodePlain .handshake message]).1 =
      fragments.flatMap (Record.plainRecord .handshake) ∧
    started.TakesFlight serverSettings.identity fragments := by
  have made : serverSettings.identity.Made := identity_made
  obtain ⟨random, message, started, sent, consents⟩ := exists_consents serverSettings.identity
  obtain ⟨random', next, drawn⟩ := exists_draw
  obtain ⟨certificates, encoded⟩ := exists_encoded made (by decide +kernel)
  have short : 3 + serverSettings.identity.listLength ≤ Assembly.maxLength := by decide +kernel
  have arrived : [Record.encodePlain .handshake message].flatten =
      Record.encodePlain .handshake message := List.flatten_singleton ..
  have clientMade : Session.client { suites := Suite.supported, pin := none }
      (Reproducible.ofSeed 1 [] none) = .ok unpinned := rfl
  have serverMade : Session.server serverSettings (Reproducible.ofSeed 2 [] none) = .ok server :=
    rfl
  obtain ⟨fragments, _, answers, takes, _⟩ := Session.flight_limits clientMade sent made encoded
    serverMade drawn consents arrived
  exact ⟨random, message, started, certificates, random', next, fragments, clientMade, sent, made,
    encoded, serverMade, drawn, consents, arrived, short, answers, takes short⟩

/-- An identity with a chain of 131072 octets more is made, its certificates are encoded and its
flight goes out. The client that asked for the flight fails on it however it is cut. -/
theorem flight_too_long : ∃ random message started certificates server fragments,
    unpinned.start = (.ok (Record.encodePlain .handshake message), started) ∧
    (padded 131072).Made ∧
    Body.encode (Certificates.mk (padded 131072).certificateList) = .ok certificates ∧
    Session.server { identity := padded 131072 } (Reproducible.ofSeed 2 [] none) = .ok server ∧
    Server.Consents { identity := padded 131072 } message
      (ClientHello.offering random Suite.supported) Suite.rsaAes256Sha256 ∧
    Outcome.answers (server.start.2.receiveAll [Record.encodePlain .handshake message]).1 =
      fragments.flatMap (Record.plainRecord .handshake) ∧
    started.GivesUp 131240 fragments := by
  have total : identity.listLength = 162 := by decide +kernel
  generalize size : 131072 = n
  have length : 3 + (padded n).listLength = 131240 := by
    rw [listLength_padded, total, ← size]
  have made : (padded n).Made :=
    padded_made (by omega) (by rw [total, Identity.maxListLength]; omega)
  obtain ⟨random, message, started, sent, consents⟩ := exists_consents (padded n)
  obtain ⟨random', next, drawn⟩ := exists_draw
  obtain ⟨certificates, encoded⟩ := exists_encoded made (by omega)
  have arrived : [Record.encodePlain .handshake message].flatten =
      Record.encodePlain .handshake message := List.flatten_singleton ..
  obtain ⟨greeting, offered, fragments, flight, small, _, answers⟩ :=
    @Session.exists_flight_of_start _ _ _ _ { identity := padded n } _ _ _ _ _ _ _ _
      { suites := Suite.supported, pin := none } _ unpinned _ rfl sent made encoded rfl drawn consents
      _ arrived
  have gives := greeting.givesUp offered made encoded flight small
    (by rw [length, Assembly.maxLength]; decide)
  rw [length] at gives
  exact ⟨random, message, started, certificates, _, fragments, sent, made, encoded, rfl, consents,
    answers, gives⟩

end Rehearsal

end TransportSecurity
