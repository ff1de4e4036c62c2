import TransportSecurity.Proofs.Session.Agreement
import TransportSecurity.Proofs.Session.Phases
import TransportSecurity.Proofs.Trapping.Records

/-!
What an endpoint does with a message, without a trap.

Secrets are cut from what is expanded, and the cuts are within it for every suite. What an endpoint
writes is as long as its settings and the server's key make it: `Role.Fits` says that the hello of a
client, or the certificates of a server, fit the length in front of them, and `Endpoint.ShortKey`
that what is encrypted under the key a client has accepted does.
-/

namespace TransportSecurity

/-- What a role writes of its settings fits: the hello of a client, the certificates of a server. -/
def Role.Fits : Role → Prop
  | .client settings _ => ∀ random, Body.Fits (ClientHello.offering random settings.suites)
  | .server settings _ => Body.Fits (Certificates.mk settings.identity.certificateList)

theorem Role.fits_idle (role : Role) : role.idle.Fits ↔ role.Fits := by cases role <;> rfl

/-- The key that an endpoint has accepted is as short as every key that is read from octets. -/
def Endpoint.ShortKey {G : Type} (e : Endpoint G) : Prop := ∀ key ∈ e.serverKey, key.size ≤ 512

namespace Trapping

section Secrets

/-- Slices key material in its fixed order. -/
def keyBlock (parameters : SuiteParameters) (material : Octets) : Except Halt KeyBlock := do
  let (mac, cipher) := (parameters.macKeyLength, parameters.cipherKeyLength)
  if material.length < parameters.keyMaterialLength then
    throw (.error (.cipher "key block too short"))
  let clientMacKey ← slice material 0 mac
  let serverMacKey ← slice material mac (mac + mac)
  let clientCipherKey ← slice material (mac + mac) (mac + mac + cipher)
  let serverCipherKey ← slice material (mac + mac + cipher) (mac + mac + cipher + cipher)
  return { mac := parameters.mac, clientMacKey, serverMacKey, clientCipherKey, serverCipherKey }

/-- The four slices end where the key material of the suite does. -/
theorem keyBlock_eq (parameters : SuiteParameters) (material : Octets) :
    keyBlock parameters material = raised (KeyBlock.ofMaterial parameters material) := by
  unfold keyBlock KeyBlock.ofMaterial
  refine raised_of_ite (fun _ => rfl) fun enough => ?_
  rw [SuiteParameters.keyMaterialLength] at enough
  dsimp only
  rw [slice_from_start (by omega), ok_bind, slice_add (by omega), ok_bind, slice_add (by omega),
    ok_bind, slice_add (by omega), ok_bind, List.drop_drop, List.drop_drop]
  rfl

/-- The master secret, copied to its place. -/
def master (preMaster clientRandom serverRandom : Octets) : Except Halt Octets :=
  return (← copied KeySchedule.masterLength
    (KeySchedule.master preMaster clientRandom serverRandom)).val

theorem master_eq (preMaster clientRandom serverRandom : Octets) :
    master preMaster clientRandom serverRandom =
      .ok (KeySchedule.master preMaster clientRandom serverRandom) := by
  have length : (KeySchedule.master preMaster clientRandom serverRandom).length =
      KeySchedule.masterLength := KeySchedule.length_expand ..
  rw [master, copied_eq length]
  rfl

/-- The proof of a Finished message, cut from what is expanded. -/
def verifyData (label hash master : Octets) : Except Halt Octets :=
  slice (KeySchedule.verifyData label hash master) 0 KeySchedule.verifyLength

theorem verifyData_eq (label hash master : Octets) :
    verifyData label hash master = .ok (KeySchedule.verifyData label hash master) := by
  have length : (KeySchedule.verifyData label hash master).length = KeySchedule.verifyLength :=
    KeySchedule.length_expand ..
  rw [verifyData, slice_from_start (Nat.le_of_eq length.symm), ← length, List.take_length]

/-- The place for a pre-master secret, with the version written over its first octets. -/
def versioned : Except Halt Octets :=
  overwritten (List.replicate KeySchedule.preMasterLength 0) 0 2 Version.current.encode

theorem versioned_eq : versioned =
    .ok (Version.current.encode ++ List.replicate (KeySchedule.preMasterLength - 2) 0) := rfl

/-- Random octets fill what the version leaves of a pre-master secret. -/
theorem overwritten_versioned (random : Fixed (KeySchedule.preMasterLength - 2)) :
    overwritten (Version.current.encode ++ List.replicate (KeySchedule.preMasterLength - 2) 0) 2
      KeySchedule.preMasterLength random.val = .ok (Version.current.encode ++ random.val) := by
  rw [overwritten_eq (by decide) (by decide) random.property]
  exact congrArg Except.ok (congrArg (Version.current.encode ++ ·) (List.append_nil random.val))

/-- The pre-master secret in a client's key exchange, whose version is looked at once it is known
to be of the right length. -/
def decryptPreMaster (identity : Identity) (ciphertext : Octets) : Except Halt Octets := do
  let some secret := Rsa.decrypt? identity.privateKey (identity.blinding ciphertext) ciphertext
    | throw (.error .decryptionFailed)
  if secret.length ≠ KeySchedule.preMasterLength then throw (.error .decryptionFailed)
  if (← slice secret 0 2) ≠ Version.current.encode then throw (.error .decryptionFailed)
  return secret

theorem decryptPreMaster_eq (identity : Identity) (ciphertext : Octets) :
    decryptPreMaster identity ciphertext = raised (identity.decryptPreMaster ciphertext) := by
  unfold decryptPreMaster Identity.decryptPreMaster
  cases Rsa.decrypt? identity.privateKey (identity.blinding ciphertext) ciphertext with
  | none => rfl
  | some secret =>
    dsimp only
    by_cases length : secret.length = KeySchedule.preMasterLength
    · rw [if_neg (not_not_intro length), slice_from_start (by rw [length]; decide), ok_bind]
      by_cases version : secret.take 2 = Version.current.encode
      · rw [if_neg (not_not_intro version), if_pos ⟨length, version⟩]
        rfl
      · rw [if_pos version, if_neg fun both => version both.2]
        rfl
    · rw [if_pos length, if_neg fun both => length both.1]
      rfl

end Secrets

open Endpoint

variable {G : Type}

/-- Something an endpoint does, which may fail or trap. -/
abbrev Act (G : Type) := EStateM Halt (Endpoint G)

/-- The proof that an end sends in its Finished message, for the transcript as it is now. -/
def proof (side : End) : Act G Octets := do
  let hash := (← lift currentTranscript).hash
  ofExcept (verifyData (KeySchedule.finishedLabel side) hash (← lift masterSecret))

theorem proof_agrees (side : End) (e : Endpoint G) :
    Agrees (proof side) (Endpoint.proof side) e := by
  refine .bind (.lift _) fun transcript _ _ => ?_
  refine .bind (.lift _) fun master _ _ => ?_
  rw [verifyData_eq]
  exact .pure _

/-- A proof fits its message. -/
theorem fits_proof {side : End} {e f : Endpoint G} {verifyData : Octets}
    (ran : Endpoint.proof side e = .ok verifyData f) : Body.Fits (Finished.mk verifyData) := by
  obtain ⟨_, _, _, _, _, rfl⟩ := proof_eq_ok.mp ran
  exact fits_finished (KeySchedule.length_expand ..)

/-- Derives the secrets from a pre-master secret, for the suite and the randoms agreed on. -/
def installSecrets (preMaster : Octets) : Act G Unit := do
  let endpoint ← get
  let parameters ← ofExcept (raised endpoint.suite.parameters)
  let (some client, some server) := (endpoint.clientRandom, endpoint.serverRandom)
    | throw (.error (.unexpectedMessage "hello randoms missing"))
  let master ← ofExcept (master preMaster client.val server.val)
  let keys ← ofExcept
    (keyBlock parameters (KeySchedule.keyMaterial master server.val client.val))
  modify ({ · with secrets := some ⟨master, keys⟩ })

theorem installSecrets_agrees (preMaster : Octets) (e : Endpoint G) :
    Agrees (installSecrets preMaster) (Endpoint.installSecrets preMaster) e := by
  refine .bind .get fun endpoint _ _ => ?_
  refine .bind (.ofExcept rfl) fun parameters _ _ => ?_
  cases endpoint.clientRandom with
  | none => exact .throw _
  | some client =>
    cases endpoint.serverRandom with
    | none => exact .throw _
    | some server =>
      dsimp only
      rw [master_eq]
      exact .bind (.ofExcept (keyBlock_eq ..)) fun _ _ _ => .modify _

/-- Does something with this end's record numbers and source of random octets. -/
def withSealer {α : Type} (action : EStateM Halt (Record.Sealer G) α) : Act G α := fun endpoint =>
  match action ⟨endpoint.sendNumber, endpoint.source⟩ with
  | .ok value sealer =>
    .ok value { endpoint with sendNumber := sealer.number, source := sealer.source }
  | .error halt sealer =>
    .error halt { endpoint with sendNumber := sealer.number, source := sealer.source }

theorem withSealer_agrees {α : Type} {action : EStateM Halt (Record.Sealer G) α}
    {total : EStateM Error (Record.Sealer G) α} {e : Endpoint G}
    (agrees : Agrees action total ⟨e.sendNumber, e.source⟩) :
    Agrees (withSealer action) (Endpoint.withSealer total) e := by
  unfold Agrees Follows at agrees ⊢
  unfold withSealer Endpoint.withSealer
  generalize action ⟨e.sendNumber, e.source⟩ = result at agrees ⊢
  generalize total ⟨e.sendNumber, e.source⟩ = result' at agrees ⊢
  cases agrees with
  | ok same => exact .ok (by rw [same])
  | error same => exact .error (by rw [same])

variable [Entropy G]

/-- A payload as records, protected if this end has changed to protected records. -/
def encode (type : ContentType) (payload : Octets) : Act G Octets := do
  let endpoint ← get
  match endpoint.writeKeys?, endpoint.sendProtected with
  | some keys, true => withSealer (protectPieces keys type (Record.pieces payload))
  | _, _ => return Record.encodePlain type payload

theorem encode_agrees (type : ContentType) (payload : Octets) (e : Endpoint G) :
    Agrees (encode type payload) (Endpoint.encode type payload) e := by
  refine .bind .get fun endpoint _ _ => ?_
  cases endpoint.writeKeys? with
  | none => exact .pure _
  | some keys =>
    cases endpoint.sendProtected with
    | false => exact .pure _
    | true => exact withSealer_agrees (protectPieces_agrees ..)

/-- The record that announces protected records. -/
def encodeChange : Act G Octets := encode .changeCipherSpec ChangeCipherSpec.payload

theorem encodeChange_agrees (e : Endpoint G) :
    Agrees encodeChange Endpoint.encodeChange e := encode_agrees ..

namespace Client

/-- Sends the hello. -/
def sendHello (settings : ClientSettings) : Act G Octets := do
  let random ← lift (withSource Random.draw)
  let message ← ofExcept (writeMessage (ClientHello.offering random settings.suites))
  modify ({ · with clientRandom := some random })
  lift (record .clientHello message)
  lift (enterClient settings .serverHello)
  encode .handshake message

theorem sendHello_agrees {settings : ClientSettings}
    (fits : ∀ random, Body.Fits (ClientHello.offering random settings.suites)) (e : Endpoint G) :
    Agrees (sendHello settings) (TransportSecurity.Client.sendHello settings) e := by
  refine .bind (.lift _) fun random _ _ => ?_
  refine .bind (.ofExcept (writeMessage_eq (fits random))) fun message _ _ => ?_
  refine .bind (.modify _) fun _ _ _ => ?_
  refine .bind (.lift _) fun _ _ _ => ?_
  exact .bind (.lift _) fun _ _ _ => encode_agrees ..

/-- The length of a hello that offers too many suites cannot be written. -/
theorem sendHello_of_long {settings : ClientSettings} {e : Endpoint G} {random : Random}
    {source : G} (drawn : Random.draw e.source = .ok random source)
    (many : 0xffffff < 39 + 2 * settings.suites.length) : sendHello settings e =
      .error (.trap (.tooLarge (39 + 2 * settings.suites.length))) { e with source } := by
  obtain ⟨body, written, length⟩ := exists_write_offering random settings.suites
  rw [← length] at many ⊢
  have took : lift (withSource Random.draw) e = .ok random { e with source } :=
    (Agrees.lift _).eq_ok (withSource_eq_ok.mpr ⟨source, drawn, rfl⟩)
  rw [sendHello, bind_of_ok took, writeMessage_of_long written many]
  rfl

/-- Checks the server's choice, and keeps it. -/
def receiveHello (settings : ClientSettings) (message : Octets) : Act G Unit := do
  let hello ← ofExcept (readMessage ServerHello message)
  if hello.version ≠ .current then
    throw (.error (.unsupportedVersion hello.version.major hello.version.minor))
  unless settings.suites.contains hello.suite do throw (.error (.unsupportedSuite hello.suite))
  lift (record .serverHello message)
  modify ({ · with suite := hello.suite, serverRandom := some hello.random })
  lift (enterClient settings .certificate)

omit [Entropy G] in
theorem receiveHello_agrees (settings : ClientSettings) (message : Octets) (e : Endpoint G) :
    Agrees (receiveHello settings message)
      (TransportSecurity.Client.receiveHello settings message) e := by
  refine .bind (.ofExcept (readMessage_eq message)) fun hello _ _ => ?_
  refine .ite (fun _ => .refuse _) fun _ => ?_
  refine .ite (fun _ => ?_) fun _ => .refuse _
  refine .bind (.lift _) fun _ _ _ => ?_
  exact .bind (.modify _) fun _ _ _ => .lift _

/-- Checks the server's key against the key it must have, if that is known. -/
def receiveCertificate (settings : ClientSettings) (message : Octets) : Act G Unit := do
  let certificates ← ofExcept (readMessage Certificates message)
  let leaf :: _ := certificates.list
    | throw (.error (.certificateRejected "server sent no certificate"))
  let (octets, key) ← ofExcept (raised (Certificate.rsaKey leaf))
  if settings.pin.any fun pin => !Octets.same pin octets then
    throw (.error (.certificateRejected "server public key does not match pin"))
  lift (record .serverCertificate message)
  modify ({ · with serverKey := some key })
  lift (enterClient settings .serverHelloDone)

omit [Entropy G] in
theorem receiveCertificate_agrees (settings : ClientSettings) (message : Octets) (e : Endpoint G) :
    Agrees (receiveCertificate settings message)
      (TransportSecurity.Client.receiveCertificate settings message) e := by
  refine .bind (.ofExcept (readMessage_eq message)) fun certificates _ _ => ?_
  obtain ⟨list⟩ := certificates
  cases list with
  | nil => exact .throw _
  | cons leaf rest =>
    refine .bind (.ofExcept rfl) fun found _ _ => ?_
    obtain ⟨octets, key⟩ := found
    refine .ite (fun _ => .refuse _) fun _ => ?_
    refine .bind (.lift _) fun _ _ _ => ?_
    exact .bind (.modify _) fun _ _ _ => .lift _

/-- Sends the pre-master secret under the server's key, and changes to protected records. -/
def sendExchange (message : Octets) : Act G Octets := do
  let _ ← ofExcept (readMessage ServerHelloDone message)
  lift (record .serverHelloDone message)
  let marked ← ofExcept versioned
  let random ← lift (withSource (Entropy.demand (KeySchedule.preMasterLength - 2)))
  let preMaster ← ofExcept (overwritten marked 2 KeySchedule.preMasterLength random.val)
  let some key := (← get).serverKey
    | throw (.error (.unexpectedMessage "server certificate missing"))
  let encrypted ← lift (withSource (Rsa.encrypt key preMaster))
  installSecrets preMaster
  let exchange ← ofExcept (writeMessage (ClientKeyExchange.mk encrypted))
  lift (record .clientKeyExchange exchange)
  let exchangeRecords ← encode .handshake exchange
  let changeRecord ← encodeChange
  lift protectSending
  return exchangeRecords ++ changeRecord

/-- A secret encrypted under a short key fits its message. -/
theorem fits_encrypted {key : Rsa.PublicKey} (short : key.size ≤ 512) {message encrypted : Octets}
    {e f : Endpoint G} (ran : withSource (Rsa.encrypt key message) e = .ok encrypted f) :
    Body.Fits (ClientKeyExchange.mk encrypted) := by
  obtain ⟨source, encrypts, _⟩ := withSource_eq_ok.mp ran
  obtain ⟨_, _, _, _, _, _, rfl⟩ := Rsa.encrypt_eq_ok.mp encrypts
  exact fits_exchange (by rw [Octets.length_bigEndian]; omega)

theorem sendExchange_agrees {e : Endpoint G} (short : e.ShortKey) (message : Octets) :
    Agrees (sendExchange message) (TransportSecurity.Client.sendExchange message) e := by
  refine .bind (.ofExcept (readMessage_eq message)) fun _ f decoded => ?_
  obtain ⟨_, rfl⟩ := ofExcept_eq_ok.mp decoded
  refine .bind (.lift _) fun _ f recorded => ?_
  obtain ⟨_, _, _, rfl⟩ := record_eq_ok.mp recorded
  rw [versioned_eq, ofExcept_ok, pure_bind]
  refine .bind (.lift _) fun random f drawn => ?_
  obtain ⟨_, _, rfl⟩ := withSource_eq_ok.mp drawn
  rw [overwritten_versioned, ofExcept_ok, pure_bind]
  refine .bind .get fun _ _ got => ?_
  obtain ⟨rfl, rfl⟩ := get_eq_ok.mp got
  -- the key is still the one that was accepted
  dsimp only
  cases known : e.serverKey with
  | none => exact .throw _
  | some key =>
    refine .bind (.lift _) fun encrypted _ ran => ?_
    refine .bind (installSecrets_agrees ..) fun _ _ _ => ?_
    refine .bind (.ofExcept (writeMessage_eq (fits_encrypted (short key known) ran)))
      fun exchange _ _ => ?_
    refine .bind (.lift _) fun _ _ _ => ?_
    refine .bind (encode_agrees ..) fun exchangeRecords _ _ => ?_
    refine .bind (encodeChange_agrees _) fun changeRecord _ _ => ?_
    exact .bind (.lift _) fun _ _ _ => .pure _

/-- Proves to have seen the handshake so far. -/
def sendFinished (settings : ClientSettings) : Act G Octets := do
  let finished ← ofExcept (writeMessage (Finished.mk (← proof .client)))
  lift (record .clientFinished finished)
  let finishedRecords ← encode .handshake finished
  lift (enterClient settings .changeCipherSpec)
  return finishedRecords

theorem sendFinished_agrees (settings : ClientSettings) (e : Endpoint G) :
    Agrees (sendFinished settings) (TransportSecurity.Client.sendFinished settings) e := by
  refine .bind (proof_agrees ..) fun verifyData _ ran => ?_
  refine .bind (.ofExcept (writeMessage_eq (fits_proof ran))) fun finished _ _ => ?_
  refine .bind (.lift _) fun _ _ _ => ?_
  refine .bind (encode_agrees ..) fun finishedRecords _ _ => ?_
  exact .bind (.lift _) fun _ _ _ => .pure _

/-- Answers the end of the server's flight with all that the client still has to send. -/
def receiveHelloDone (settings : ClientSettings) (message : Octets) : Act G Octets := do
  let exchangeRecords ← sendExchange message
  let finishedRecords ← sendFinished settings
  return exchangeRecords ++ finishedRecords

theorem receiveHelloDone_agrees (settings : ClientSettings) {e : Endpoint G} (short : e.ShortKey)
    (message : Octets) : Agrees (receiveHelloDone settings message)
      (TransportSecurity.Client.receiveHelloDone settings message) e := by
  refine .bind (sendExchange_agrees short message) fun _ _ _ => ?_
  exact .bind (sendFinished_agrees ..) fun _ _ _ => .pure _

/-- Checks the server's proof, and ends the handshake. -/
def receiveFinished (settings : ClientSettings) (message : Octets) : Act G Unit := do
  let finished ← ofExcept (readMessage Finished message)
  unless Octets.same (← proof .server) finished.verifyData do throw (.error .finishedMismatch)
  lift (enterClient settings .done)
  lift establish

omit [Entropy G] in
theorem receiveFinished_agrees (settings : ClientSettings) (message : Octets) (e : Endpoint G) :
    Agrees (receiveFinished settings message)
      (TransportSecurity.Client.receiveFinished settings message) e := by
  refine .bind (.ofExcept (readMessage_eq message)) fun finished _ _ => ?_
  refine .bind (proof_agrees ..) fun expected _ _ => ?_
  refine .ite (fun _ => ?_) fun _ => .refuse _
  exact .bind (.lift _) fun _ _ _ => .lift _

/-- Does with a message what its type and the phase ask for; the answer is what to send. -/
def receive (settings : ClientSettings) (phase : ClientPhase) (type : MessageType)
    (message : Octets) : Act G Octets :=
  match phase, type with
  | .serverHello, .serverHello => do receiveHello settings message; return []
  | .certificate, .certificates => do receiveCertificate settings message; return []
  | .serverHelloDone, .serverHelloDone => receiveHelloDone settings message
  | .finished, .finished => do receiveFinished settings message; return []
  | _, _ => throw (.error .outOfTurn)

theorem receive_agrees (settings : ClientSettings) {e : Endpoint G} (short : e.ShortKey)
    (phase : ClientPhase) (type : MessageType) (message : Octets) :
    Agrees (receive settings phase type message)
      (TransportSecurity.Client.receive settings phase type message) e := by
  unfold receive
  split
  · exact .bind (receiveHello_agrees ..) fun _ _ _ => .pure _
  · exact .bind (receiveCertificate_agrees ..) fun _ _ _ => .pure _
  · exact receiveHelloDone_agrees settings short message
  · exact .bind (receiveFinished_agrees ..) fun _ _ _ => .pure _
  · next first second third fourth =>
    unfold TransportSecurity.Client.receive
    split
    · exact (first rfl rfl).elim
    · exact (second rfl rfl).elim
    · exact (third rfl rfl).elim
    · exact (fourth rfl rfl).elim
    · exact .throw _

end Client

namespace Server

/-- Checks what the client offers, chooses a suite, and sends the hello, the certificates and the
end of the flight. -/
def receiveHello (settings : ServerSettings) (message : Octets) : Act G Octets := do
  let hello ← ofExcept (readMessage ClientHello message)
  unless hello.version.atLeast .current do
    throw (.error (.unsupportedVersion hello.version.major hello.version.minor))
  unless hello.offersNull do throw (.error .invalidCompression)
  let some suite := Suite.choose? settings.suites hello.suites | throw (.error .noSharedSuite)
  lift (record .clientHello message)
  modify ({ · with suite, clientRandom := some hello.random })
  let random ← lift (withSource Random.draw)
  modify ({ · with serverRandom := some random })
  let serverHello ← ofExcept (writeMessage (ServerHello.choosing random suite))
  let certificates ← ofExcept (writeMessage (Certificates.mk settings.identity.certificateList))
  let helloDone ← ofExcept (writeMessage ServerHelloDone.mk)
  lift (record .serverHello serverHello)
  lift (record .serverCertificate certificates)
  lift (record .serverHelloDone helloDone)
  lift (enterServer settings .clientKeyExchange)
  encode .handshake (serverHello ++ (certificates ++ helloDone))

theorem receiveHello_agrees {settings : ServerSettings}
    (fits : Body.Fits (Certificates.mk settings.identity.certificateList)) (message : Octets)
    (e : Endpoint G) : Agrees (receiveHello settings message)
      (TransportSecurity.Server.receiveHello settings message) e := by
  refine .bind (.ofExcept (readMessage_eq message)) fun hello _ _ => ?_
  refine .ite (fun _ => ?_) fun _ => .refuse _
  refine .ite (fun _ => ?_) fun _ => .refuse _
  cases Suite.choose? settings.suites hello.suites with
  | none => exact .throw _
  | some suite =>
    refine .bind (.lift _) fun _ _ _ => ?_
    refine .bind (.modify _) fun _ _ _ => ?_
    refine .bind (.lift _) fun random _ _ => ?_
    refine .bind (.modify _) fun _ _ _ => ?_
    refine .bind (.ofExcept (writeMessage_eq (fits_serverHello ..))) fun serverHello _ _ => ?_
    refine .bind (.ofExcept (writeMessage_eq fits)) fun certificates _ _ => ?_
    refine .bind (.ofExcept (writeMessage_eq fits_helloDone)) fun helloDone _ _ => ?_
    refine .bind (.lift _) fun _ _ _ => ?_
    refine .bind (.lift _) fun _ _ _ => ?_
    refine .bind (.lift _) fun _ _ _ => ?_
    exact .bind (.lift _) fun _ _ _ => encode_agrees ..

/-- Decrypts the pre-master secret. -/
def receiveKeyExchange (settings : ServerSettings) (message : Octets) : Act G Unit := do
  let exchange ← ofExcept (readMessage ClientKeyExchange message)
  let preMaster ← ofExcept (decryptPreMaster settings.identity exchange.encrypted)
  lift (record .clientKeyExchange message)
  installSecrets preMaster
  lift (enterServer settings .changeCipherSpec)

omit [Entropy G] in
theorem receiveKeyExchange_agrees (settings : ServerSettings) (message : Octets)
    (e : Endpoint G) : Agrees (receiveKeyExchange settings message)
      (TransportSecurity.Server.receiveKeyExchange settings message) e := by
  refine .bind (.ofExcept (readMessage_eq message)) fun exchange _ _ => ?_
  refine .bind (.ofExcept (decryptPreMaster_eq ..)) fun preMaster _ _ => ?_
  refine .bind (.lift _) fun _ _ _ => ?_
  exact .bind (installSecrets_agrees ..) fun _ _ _ => .lift _

/-- Checks the client's proof, changes to protected records, sends a proof in turn, and ends the
handshake. -/
def receiveFinished (settings : ServerSettings) (message : Octets) : Act G Octets := do
  let finished ← ofExcept (readMessage Finished message)
  unless Octets.same (← proof .client) finished.verifyData do throw (.error .finishedMismatch)
  lift (record .clientFinished message)
  let changeRecord ← encodeChange
  lift protectSending
  let answer ← ofExcept (writeMessage (Finished.mk (← proof .server)))
  let answerRecords ← encode .handshake answer
  lift (enterServer settings .done)
  lift establish
  return changeRecord ++ answerRecords

theorem receiveFinished_agrees (settings : ServerSettings) (message : Octets) (e : Endpoint G) :
    Agrees (receiveFinished settings message)
      (TransportSecurity.Server.receiveFinished settings message) e := by
  refine .bind (.ofExcept (readMessage_eq message)) fun finished _ _ => ?_
  refine .bind (proof_agrees ..) fun expected _ _ => ?_
  refine .ite (fun _ => ?_) fun _ => .refuse _
  refine .bind (.lift _) fun _ _ _ => ?_
  refine .bind (encodeChange_agrees _) fun changeRecord _ _ => ?_
  refine .bind (.lift _) fun _ _ _ => ?_
  refine .bind (proof_agrees ..) fun verifyData _ ran => ?_
  refine .bind (.ofExcept (writeMessage_eq (fits_proof ran))) fun answer _ _ => ?_
  refine .bind (encode_agrees ..) fun answerRecords _ _ => ?_
  refine .bind (.lift _) fun _ _ _ => ?_
  exact .bind (.lift _) fun _ _ _ => .pure _

/-- Does with a message what its type and the phase ask for; the answer is what to send. -/
def receive (settings : ServerSettings) (phase : ServerPhase) (type : MessageType)
    (message : Octets) : Act G Octets :=
  match phase, type with
  | .clientHello, .clientHello => receiveHello settings message
  | .clientKeyExchange, .clientKeyExchange => do receiveKeyExchange settings message; return []
  | .finished, .finished => receiveFinished settings message
  | _, _ => throw (.error .outOfTurn)

theorem receive_agrees {settings : ServerSettings}
    (fits : Body.Fits (Certificates.mk settings.identity.certificateList)) (phase : ServerPhase)
    (type : MessageType) (message : Octets) (e : Endpoint G) :
    Agrees (receive settings phase type message)
      (TransportSecurity.Server.receive settings phase type message) e := by
  unfold receive
  split
  · exact receiveHello_agrees fits message e
  · exact .bind (receiveKeyExchange_agrees ..) fun _ _ _ => .pure _
  · exact receiveFinished_agrees settings message e
  · next first second third =>
    unfold TransportSecurity.Server.receive
    split
    · exact (first rfl rfl).elim
    · exact (second rfl rfl).elim
    · exact (third rfl rfl).elim
    · exact .throw _

end Server

end Trapping

end TransportSecurity
