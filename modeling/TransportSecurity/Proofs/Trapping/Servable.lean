import TransportSecurity.Proofs.Trapping.Sessions

/-!
Which certificates can be served.

An identity is checked when it is made: the entries of its certificate list take at most
`Identity.maxListLength` octets, the most that three octets can count. A message counts its body in
three octets too, and the body is the entries and the length in front of them. So an identity whose
entries leave no room for that length is made, and can never be served (`servable_iff_room`): its
certificates cannot be encoded, and the server traps on a hello that it would answer. All others are
served: their certificates are written and read back, and no request traps.
-/

namespace TransportSecurity

namespace Identity

/-- The octets of the entries of the certificate list. -/
def listLength (identity : Identity) : Nat :=
  Certificates.entriesLength identity.certificateList

theorem checkLength_eq_ok {identity : Identity} : identity.checkLength = .ok () ↔
    identity.listLength ≤ maxListLength ∧ identity.certificate.length ≤ maxListLength := by
  rw [checkLength, listLength]
  split <;> simp_all

/-- An identity has been checked, by whichever of the two functions it was made. -/
theorem Made.listLength_le {identity : Identity} (made : identity.Made) :
    identity.listLength ≤ maxListLength := by
  cases made with
  | ofDer made =>
    obtain ⟨_, _, _, _, short, rfl⟩ := ofDer_eq_ok.mp made
    exact (checkLength_eq_ok.mp short).1
  | withChain _ made =>
    obtain ⟨_, short, rfl⟩ := withChain_eq_ok.mp made
    exact (checkLength_eq_ok.mp short).1

/-- The entries of an identity can always be counted, so its certificates have a body. -/
theorem Made.exists_write {identity : Identity} (made : identity.Made) :
    ∃ body, Body.write (Certificates.mk identity.certificateList) = .ok body ∧
      body.length = 3 + identity.listLength :=
  Certificates.exists_write_of_room (Nat.lt_succ_of_le made.listLength_le)

/-- Certificates that leave room for the length in front of them are encoded and decoded. -/
theorem Made.exists_carried {identity : Identity} (made : identity.Made)
    (room : 3 + identity.listLength ≤ 0xffffff) :
    ∃ message, Body.encode (Certificates.mk identity.certificateList) = .ok message ∧
      Body.decode Certificates message = .ok (Certificates.mk identity.certificateList) := by
  have formed : (Certificates.mk identity.certificateList).WellFormed :=
    ⟨made.holds.2, Nat.lt_succ_of_le room⟩
  have bijective : Body.Bijective Certificates.WellFormed :=
    .of_scan (fun _ => Certificates.exists_write) fun _ _ => Certificates.scan_iff_wellFormed
  exact bijective.decoded _ formed

/-- Certificates that are encoded leave room for the length in front of them. -/
theorem Made.room_of_encode {identity : Identity} {message : Octets} (made : identity.Made)
    (encoded : Body.encode (Certificates.mk identity.certificateList) = .ok message) :
    3 + identity.listLength ≤ 0xffffff := by
  obtain ⟨body, written, length⟩ := made.exists_write
  refine Nat.le_of_not_lt fun long => ?_
  cases encoded.symm.trans (Body.encode_of_long written (length ▸ long))

theorem Made.length_of_encode {identity : Identity} {message : Octets} (made : identity.Made)
    (encoded : Body.encode (Certificates.mk identity.certificateList) = .ok message) :
    message.length = Body.headerLength + (3 + identity.listLength) := by
  obtain ⟨body, written, length⟩ := made.exists_write
  rw [Body.length_of_encode written encoded, length]

theorem Made.decode_of_encode {identity : Identity} {message : Octets} (made : identity.Made)
    (encoded : Body.encode (Certificates.mk identity.certificateList) = .ok message) :
    Body.decode Certificates message = .ok (Certificates.mk identity.certificateList) := by
  obtain ⟨other, same, decoded⟩ := made.exists_carried (made.room_of_encode encoded)
  cases encoded.symm.trans same
  exact decoded

end Identity

/-- A hello that a server answers: it can be read, and there is a suite to choose. -/
structure Server.Answerable (settings : ServerSettings) (message : Octets) (hello : ClientHello)
    (suite : Suite) : Prop where
  decoded : Body.decode ClientHello message = .ok hello
  version : hello.version.atLeast .current
  null : hello.offersNull
  chosen : Suite.choose? settings.suites hello.suites = some suite

namespace Trapping

open Endpoint

/-- The certificates of a server that leave no room for the length in front of them. -/
theorem writeMessage_certificates {identity : Identity} (made : identity.Made)
    (long : 0xffffff < 3 + identity.listLength) :
    Body.encode (Certificates.mk identity.certificateList) =
        .error (.fieldOverflow (3 + identity.listLength)) ∧
      writeMessage (Certificates.mk identity.certificateList) =
        .error (.trap (.tooLarge (3 + identity.listLength))) := by
  obtain ⟨body, written, length⟩ := made.exists_write
  rw [← length] at long ⊢
  exact ⟨Body.encode_of_long written long, writeMessage_of_long written long⟩

section Server

variable {G : Type} [Entropy G] {settings : ServerSettings} {message : Octets}
  {hello : ClientHello} {suite : Suite} {random : Random} {source : G}

/-- A server whose certificates do not fit traps where it writes them. -/
theorem Server.receiveHello_of_long {e : Endpoint G} (made : settings.identity.Made)
    (long : 0xffffff < 3 + settings.identity.listLength)
    (answerable : Server.Answerable settings message hello suite)
    (found : e.transcript = some ⟨[]⟩) (drawn : Random.draw e.source = .ok random source) :
    receiveHello settings message e =
      .error (.trap (.tooLarge (3 + settings.identity.listLength))) { e with
        suite
        clientRandom := some hello.random
        serverRandom := some random
        source
        transcript := some ⟨[message]⟩ } := by
  have read : (ofExcept (readMessage ClientHello message) : Act G ClientHello) e = .ok hello e :=
    (Agrees.ofExcept (readMessage_eq message)).eq_ok (ofExcept_eq_ok.mpr ⟨answerable.decoded, rfl⟩)
  have recorded : lift (record .clientHello message) e =
      .ok () { e with transcript := some ⟨[message]⟩ } :=
    (Agrees.lift _).eq_ok (record_eq_ok.mpr ⟨[], found, rfl, rfl⟩)
  have took (f : Endpoint G) (same : f.source = e.source) :
      lift (withSource Random.draw) f = .ok random { f with source } :=
    (Agrees.lift _).eq_ok (withSource_eq_ok.mpr ⟨source, same ▸ drawn, rfl⟩)
  obtain ⟨serverHello, greets⟩ := Carries.serverHello random suite
  have greets : writeMessage (ServerHello.choosing random suite) = .ok serverHello := by
    rw [writeMessage_eq (fits_serverHello ..), greets.encoded, raised_ok]
  obtain ⟨_, traps⟩ := writeMessage_certificates made long
  rw [receiveHello, bind_of_ok read, if_pos answerable.version, if_pos answerable.null,
    answerable.chosen]
  dsimp only
  rw [bind_of_ok recorded, modify_bind]
  refine Eq.trans (bind_of_ok (took _ rfl)) ?_
  rw [modify_bind, greets, traps]
  rfl

/-- So does a server that waits for a hello when it gets one that it would answer. -/
theorem receiveMessage_of_long {e : Endpoint G} (made : settings.identity.Made)
    (long : 0xffffff < 3 + settings.identity.listLength)
    (answerable : Server.Answerable settings message hello suite)
    (waits : e.role = .server settings .clientHello) (found : e.transcript = some ⟨[]⟩)
    (drawn : Random.draw e.source = .ok random source) : ∃ f, receiveMessage message e =
      .error (.trap (.tooLarge (3 + settings.identity.listLength))) f := by
  obtain ⟨body, _, spelled, _⟩ := Body.decode_eq_ok.mp answerable.decoded
  have type : MessageType.ofMessage message = .ok .clientHello :=
    MessageType.ofMessage_eq_ok.mpr ⟨_, spelled⟩
  refine ⟨_, Eq.trans ?_ (Server.receiveHello_of_long made long answerable found drawn)⟩
  rw [receiveMessage, get_bind, type, raised_ok, ofExcept_ok, pure_bind, waits]
  rfl

/-- A whole message is handled before what follows it. -/
theorem receiveMessages_of_found {records pending rest : Octets}
    (found : Assembly.next? pending = .ok (some (message, rest))) :
    (receiveMessages records pending : Act G (Progress × Octets)) = (do
      let answer ← receiveMessage message
      if (← get).stage = .established then
        if rest.isEmpty then return (.complete (records ++ answer), rest)
        else throw (.error (.unexpectedMessage "handshake message after Finished"))
      else receiveMessages (records ++ answer) rest) := by
  have found : nextMessage? pending = .ok (some (message, rest)) := by
    rw [nextMessage?_eq, found, raised_ok]
  rw [receiveMessages]
  split
  · next other => cases other.symm.trans found
  · next other => cases other.symm.trans found
  · next other =>
    cases other.symm.trans found
    rfl

/-- An endpoint that stops at a message stops at a record that holds the message, as long as the
other end is in the clear. -/
theorem receiveRecord_of_error {e f : Endpoint G} {halt : Halt} (running : e.stage = .handshaking)
    (clear : e.receiveProtected = false) (whole : Message.IsWhole message)
    (short : message.length ≤ Record.maxPiece)
    (stops : receiveMessage message e = .error halt f) :
    receiveRecord (.ofLength .handshake message.length) (Record.plainRecord .handshake message) [] e =
      .error halt f := by
  have framed : Record.IsWhole (.ofLength .handshake message.length)
      (Record.plainRecord .handshake message) :=
    Record.isWhole_plainRecord (Nat.le_trans short (by decide))
  have opened : open? (.ofLength .handshake message.length)
      (Record.plainRecord .handshake message) e = .ok message e :=
    (open?_agrees (framed.length ▸ Nat.le_add_right ..) e).eq_ok (open?_plainRecord clear short)
  have unfinished : e.stage ≠ .established := by
    rw [running]
    exact Stage.noConfusion
  have found : Assembly.next? (message ++ []) = .ok (some (message, [])) :=
    Assembly.next?_append whole (Nat.le_trans short (by decide))
  rw [List.append_nil] at found
  rw [receiveRecord, bind_of_ok opened]
  dsimp only [Record.Header.ofLength]
  rw [get_bind, if_neg unfinished, List.nil_append, receiveMessages_of_found found,
    bind_of_error stops]

/-- A session that has nothing in its buffers meets a trap of its endpoint at once. -/
theorem receive_of_trap {session : Session G} {f : Endpoint G} {trap : Trap}
    (running : session.endpoint.stage = .handshaking)
    (clear : session.endpoint.receiveProtected = false)
    (empty : session.inbox = [] ∧ session.pending = []) (whole : Message.IsWhole message)
    (short : message.length ≤ Record.maxPiece)
    (traps : receiveMessage message session.endpoint = .error (.trap trap) f) :
    receive session (Record.encodePlain .handshake message) = .error trap := by
  obtain ⟨endpoint, _, _, deferred⟩ := session
  obtain ⟨rfl, rfl⟩ := empty
  have found : Record.next? (Record.encodePlain .handshake message) =
      .ok (some (.ofLength .handshake message.length, Record.plainRecord .handshake message, [])) := by
    rw [Record.encodePlain_eq, Record.pieces_of_short short, List.flatMap_singleton]
    exact Record.next?_eq_some_iff.mpr
      ⟨Record.isWhole_plainRecord (Nat.le_trans short (by decide)), (List.append_nil _).symm⟩
  unfold receive
  rw [running]
  dsimp only
  rw [List.nil_append, drain_of_found found, receiveRecord_of_error running clear whole short traps]

/-- A server that would answer a hello traps at the record of it if its certificates do not fit. -/
theorem receive_of_long {server : Session G} {start : G} (made : settings.identity.Made)
    (long : 0xffffff < 3 + settings.identity.listLength)
    (serverMade : Session.server settings start = .ok server)
    (drawn : Random.draw start = .ok random source)
    (answerable : Server.Answerable settings message hello suite)
    (short : message.length ≤ Record.maxPiece) :
    receive server.start.2 (Record.encodePlain .handshake message) =
      .error (.tooLarge (3 + settings.identity.listLength)) := by
  rw [Session.server_start serverMade]
  obtain ⟨f, traps⟩ := receiveMessage_of_long (e := {
    role := .server settings .clientHello
    stage := .handshaking
    transcript := some ⟨[]⟩
    source := start }) made long answerable rfl rfl drawn
  exact receive_of_trap rfl rfl ⟨rfl, rfl⟩ (Body.isWhole_of_decode answerable.decoded) short traps

end Server

/-- What it takes to serve an identity: its certificates are written without a trap and read as they
were, and a server that has it meets no trap, whatever it is asked for. -/
structure Servable (identity : Identity) : Prop where
  carried : ∃ message, writeMessage (Certificates.mk identity.certificateList) = .ok message ∧
    Body.encode (Certificates.mk identity.certificateList) = .ok message ∧
    Body.decode Certificates message = .ok (Certificates.mk identity.certificateList)
  safe : ∀ {G : Type} [Entropy G] {session : Session G} {settings : ServerSettings}
    {phase : ServerPhase}, session.Reachable → session.endpoint.role = .server settings phase →
    settings.identity = identity → ∀ request, serve session request = .ok (session.serve request)

/-- An identity whose certificates leave room for the length in front of them can be served. -/
theorem servable_of_room {identity : Identity} (made : identity.Made)
    (room : 3 + identity.listLength ≤ 0xffffff) : Servable identity := by
  have fits : Body.Fits (Certificates.mk identity.certificateList) :=
    fits_certificates_iff.mpr room
  obtain ⟨message, encoded, decoded⟩ := made.exists_carried room
  have written : writeMessage (Certificates.mk identity.certificateList) = .ok message := by
    rw [writeMessage_eq fits, encoded, raised_ok]
  refine ⟨⟨message, written, encoded, decoded⟩, ?_⟩
  rintro G _ session settings phase reachable role rfl request
  refine serve_eq reachable ?_ request
  rw [role]
  exact fits

/-- Every identity that is made is short enough for its entries to be counted, and it can be served
if and only if the entries leave room for their length in the message. If they do not, the
certificates are not encoded, and a server traps as soon as it gets, in one record, a hello that it
would answer. -/
theorem servable_iff_room {identity : Identity} (made : identity.Made) :
    identity.listLength ≤ Identity.maxListLength ∧
    (Servable identity ↔ 3 + identity.listLength ≤ 0xffffff) ∧
    (0xffffff < 3 + identity.listLength →
      Body.encode (Certificates.mk identity.certificateList) =
        .error (.fieldOverflow (3 + identity.listLength)) ∧
      ∀ {G : Type} [Entropy G] {settings : ServerSettings} {server : Session G} {start source : G}
        {random : Random} {message : Octets} {hello : ClientHello} {suite : Suite},
        settings.identity = identity → Session.server settings start = .ok server →
        Random.draw start = .ok random source →
        Server.Answerable settings message hello suite → message.length ≤ Record.maxPiece →
        receive server.start.2 (Record.encodePlain .handshake message) =
          .error (.tooLarge (3 + identity.listLength))) := by
  refine ⟨made.listLength_le, ⟨fun servable => ?_, servable_of_room made⟩, fun long => ⟨?_, ?_⟩⟩
  · obtain ⟨message, written, _⟩ := servable.carried
    refine Nat.le_of_not_lt fun long => ?_
    cases written.symm.trans (writeMessage_certificates made long).2
  · exact (writeMessage_certificates made long).1
  · rintro G _ settings server start source random message hello suite rfl serverMade drawn
      answerable short
    exact receive_of_long made long serverMade drawn answerable short

end Trapping

namespace Rehearsal

open Trapping

/-- The identity of the rehearsals can be served. -/
theorem servable_iff_room_rehearsal : identity.Made ∧ Servable identity :=
  ⟨identity_made, (servable_iff_room identity_made).2.1.mpr (by decide +kernel)⟩

/-- It with another certificate behind its own, of any length. -/
def padded (n : Nat) : Identity := { identity with chain := [List.replicate n 0] }

theorem listLength_padded (n : Nat) : (padded n).listLength = identity.listLength + (3 + n) := by
  simp only [Identity.listLength, Identity.certificateList, padded, identity,
    Certificates.entriesLength, List.length_replicate]
  omega

theorem padded_made {n : Nat} (some : 0 < n)
    (short : identity.listLength + (3 + n) ≤ Identity.maxListLength) : (padded n).Made := by
  have nonempty : [] ∉ [List.replicate n (0 : UInt8)] := by
    intro member
    have length := congrArg List.length (List.mem_singleton.mp member)
    rw [List.length_nil, List.length_replicate] at length
    omega
  rw [← listLength_padded] at short
  have leaf : identity.certificate.length ≤ Identity.maxListLength := by decide +kernel
  exact .withChain identity_made (Identity.withChain_eq_ok.mpr
    ⟨nonempty, Identity.checkLength_eq_ok.mpr ⟨short, leaf⟩, rfl⟩)

/-- The longest of them is accepted as an identity. Its certificates cannot be written, and the
server that has it traps on the hello of the client. -/
theorem unservable : (padded 16777050).Made ∧
    writeMessage (Certificates.mk (padded 16777050).certificateList) =
      .error (.trap (.tooLarge 0x1000002)) ∧
    ∃ (server : Session Reproducible) (hello : Octets),
      Session.server { identity := padded 16777050 } (.ofSeed 2 [] none) = .ok server ∧
      client.start.1 = .ok hello ∧ receive server.start.2 hello = .error (.tooLarge 0x1000002) := by
  have total : identity.listLength = 162 := by decide +kernel
  generalize size : 16777050 = n
  have length : 3 + (padded n).listLength = 0x1000002 := by
    rw [listLength_padded, total, ← size]
  have made : (padded n).Made := padded_made (by omega) (by rw [total, Identity.maxListLength]; omega)
  have long : 0xffffff < 3 + (padded n).listLength := by omega
  rw [← length]
  refine ⟨made, (writeMessage_certificates made long).2, ?_⟩
  obtain ⟨source, lasting, clientMade⟩ := pairing.clientMade
  obtain ⟨random, hello, _, carries, _, started⟩ :=
    Session.exists_client_start clientMade pairing.few (lasting.serves 1)
  obtain ⟨serverRandom, next, drawn, _⟩ := Entropy.Lasting.demand
    (Reproducible.lasting rfl : Entropy.Lasting (Reproducible.ofSeed 2 [] none)) 32
  have answerable : Server.Answerable { identity := padded n } hello
      (ClientHello.offering random clientSettings.suites) Suite.rsaAes256Sha256 :=
    ⟨carries.decoded, rfl, rfl, rfl⟩
  have short : hello.length ≤ Record.maxPiece := by
    obtain ⟨body, written, size⟩ := exists_write_offering random clientSettings.suites
    rw [Body.length_of_encode written carries.encoded, size]
    decide
  have traps := @receive_of_long Reproducible _ { identity := padded n } hello _ _ _ _ _ _ made long
    rfl drawn answerable short
  exact ⟨_, Record.encodePlain .handshake hello, rfl, by rw [started], traps⟩

end Rehearsal

end TransportSecurity
