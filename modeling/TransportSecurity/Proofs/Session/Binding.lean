import TransportSecurity.Proofs.Session.Agreement
import TransportSecurity.Proofs.Session.Calls
import TransportSecurity.Proofs.Session.Settings

/-!
What a transcript binds.

A proof vouches for the messages of a transcript without saying where one ends and the next begins.
It need not: messages delimit themselves, and an endpoint only remembers what its messages say
(`Remembers`). So if a client and a server hash the same octets, then they agree on each message, on
the randoms, the suite and the certificates, and nobody in between made them choose another suite
than they would have (`transcript_binds`).
-/

namespace TransportSecurity

/-- A client's hello offers its suites, and its random is kept. -/
def Offered (settings : ClientSettings) (client : Option Random) (clientHello : Octets) : Prop :=
  ∃ random, client = some random ∧
    Body.encode (ClientHello.offering random settings.suites) = .ok clientHello

/-- A client keeps what the server's hello says. -/
def Accepted (suite : Suite) (server : Option Random) (serverHello : Octets) : Prop :=
  ∃ hello, Body.decode ServerHello serverHello = .ok hello ∧ hello.suite = suite ∧
    server = some hello.random

/-- A client keeps the key of the first certificate, which is the one it must have. -/
def Checked (settings : ClientSettings) (key : Rsa.PublicKey) (list : List Octets) : Prop :=
  ∃ leaf chain octets, list = leaf :: chain ∧ Certificate.rsaKey leaf = .ok (octets, key) ∧
    ∀ pin ∈ settings.pin, pin = octets

/-- A server keeps what a client's hello says and what it answered. -/
structure Chosen (settings : ServerSettings) (suite : Suite) (client server : Option Random)
    (clientHello serverHello certificates helloDone : Octets) : Prop where
  offer : ∃ hello, Body.decode ClientHello clientHello = .ok hello ∧
    Suite.choose? settings.suites hello.suites = some suite ∧ client = some hello.random
  choice : ∃ random, Body.encode (ServerHello.choosing random suite) = .ok serverHello ∧
    server = some random
  identity : Body.encode (Certificates.mk settings.identity.certificateList) = .ok certificates
  done : Body.encode ServerHelloDone.mk = .ok helloDone

/-- What an endpoint remembers in a phase is what the messages of its transcript say. -/
inductive Remembers (suite : Suite) (client server : Option Random)
    (serverKey : Option Rsa.PublicKey) : Role → List Octets → Prop
  | serverHello {settings : ClientSettings} {clientHello : Octets}
    (offered : Offered settings client clientHello) :
    Remembers suite client server serverKey (.client settings .serverHello) [clientHello]
  | certificate {settings : ClientSettings} {clientHello serverHello : Octets}
    (offered : Offered settings client clientHello) (accepted : Accepted suite server serverHello) :
    Remembers suite client server serverKey (.client settings .certificate)
      [clientHello, serverHello]
  | serverHelloDone {settings : ClientSettings} {key : Rsa.PublicKey}
    {clientHello serverHello certificates : Octets} {list : List Octets}
    (offered : Offered settings client clientHello) (accepted : Accepted suite server serverHello)
    (decoded : Body.decode Certificates certificates = .ok ⟨list⟩)
    (known : serverKey = some key) (checked : Checked settings key list) :
    Remembers suite client server serverKey (.client settings .serverHelloDone)
      [clientHello, serverHello, certificates]
  | clientHello {settings : ServerSettings} :
    Remembers suite client server serverKey (.server settings .clientHello) []
  | clientKeyExchange {settings : ServerSettings}
    {clientHello serverHello certificates helloDone : Octets}
    (chosen : Chosen settings suite client server clientHello serverHello certificates helloDone) :
    Remembers suite client server serverKey (.server settings .clientKeyExchange)
      [clientHello, serverHello, certificates, helloDone]
  | exchanged {settings : ServerSettings} {phase : ServerPhase}
    {clientHello serverHello certificates helloDone exchange : Octets}
    (waits : phase = .changeCipherSpec ∨ phase = .finished)
    (chosen : Chosen settings suite client server clientHello serverHello certificates helloDone)
    (whole : Message.IsWhole exchange) :
    Remembers suite client server serverKey (.server settings phase)
      [clientHello, serverHello, certificates, helloDone, exchange]

/-- A client and a server that remember the same three messages agree on what these say. -/
theorem Chosen.agrees {clientSettings : ClientSettings} {settings : ServerSettings}
    {suite suite' : Suite} {client client' server server' : Option Random}
    {clientHello serverHello certificates helloDone : Octets} {list : List Octets}
    (some : clientSettings.suites ≠ []) (few : clientSettings.suites.length ≤ 32767)
    (chosen : Chosen settings suite' client' server' clientHello serverHello certificates helloDone)
    (offered : Offered clientSettings client clientHello)
    (accepted : Accepted suite server serverHello)
    (decoded : Body.decode Certificates certificates = .ok ⟨list⟩) :
    client = client' ∧ client.isSome ∧ server = server' ∧ server.isSome ∧ suite = suite' ∧
      Suite.choose? settings.suites clientSettings.suites = suite ∧
      list = settings.identity.certificateList := by
  obtain ⟨⟨hello, read, choice, rfl⟩, ⟨random, answer, rfl⟩, identity, _⟩ := chosen
  obtain ⟨own, rfl, offer⟩ := offered
  obtain ⟨reply, taken, rfl, rfl⟩ := accepted
  have formed : (ClientHello.offering own clientSettings.suites).WellFormed :=
    ⟨Nat.zero_le _, ⟨List.length_pos_iff.mpr some, few⟩,
      by simp [ClientHello.offering], by simp [ClientHello.offering]⟩
  have replyFormed : (ServerHello.choosing random suite').WellFormed :=
    ⟨Nat.zero_le _, by simp [ServerHello.choosing]⟩
  have sent := Body.decode_encode
    (fun _ written => ClientHello.scan_eq_ok.mpr ⟨formed, written⟩) offer
  have answered := Body.decode_encode
    (fun _ written => ServerHello.scan_eq_ok.mpr ⟨replyFormed, written⟩) answer
  cases sent.symm.trans read
  cases answered.symm.trans taken
  obtain ⟨_, written, scanned⟩ := Body.scan_of_write identity decoded
  have lists := Certificates.write_inj (Certificates.scan_eq_ok.mp scanned).2 written
  exact ⟨rfl, rfl, rfl, rfl, rfl, choice, congrArg Certificates.list lists⟩

/-- The phases up to the one in which a role hashes its transcript for the client's proof. -/
def Role.binds : Role → Bool
  | .client _ .serverHello | .client _ .certificate | .client _ .serverHelloDone => true
  | .server _ .clientHello | .server _ .clientKeyExchange => true
  | .server _ .changeCipherSpec | .server _ .finished => true
  | _ => false

theorem Role.binds_idle (role : Role) : role.idle.binds = false := by
  cases role <;> rfl

namespace Endpoint

variable {G : Type}

/-- Up to the client's proof an endpoint remembers what its transcript says. -/
def Faithful (e : Endpoint G) : Prop := e.role.binds = true → ∃ messages,
  e.transcript = some ⟨messages⟩ ∧
    Remembers e.suite e.clientRandom e.serverRandom e.serverKey e.role messages

variable {e f : Endpoint G}

theorem faithful_of_idle (idle : e.role.idle = e.role) : e.Faithful := by
  intro binds
  rw [← idle, Role.binds_idle] at binds
  cases binds

theorem faithful_open? {header : Record.Header} {record content : Octets} (faithful : e.Faithful)
    (opened : open? header record e = .ok content f) : f.Faithful := by
  obtain ⟨_, rfl⟩ := open?_frame opened
  exact faithful

theorem faithful_receiveChange {u : Unit} (faithful : e.Faithful)
    (changed : receiveChange e = .ok u f) : f.Faithful := by
  obtain ⟨_, role, changes, rfl⟩ := receiveChange_eq_ok.mp changed
  intro binds
  cases waits : e.role with
  | client settings phase =>
    rw [waits] at changes
    cases changes
    cases binds
  | server settings phase =>
    rw [waits] at changes
    cases changes
    obtain ⟨messages, filled, remembers⟩ := faithful (by rw [waits]; rfl)
    rw [waits] at remembers
    refine ⟨messages, filled, ?_⟩
    cases remembers with
    | exchanged _ chosen whole => exact .exchanged (Or.inr rfl) chosen whole

variable [Entropy G]

theorem faithful_of_begins {records : Octets} (begins : Begins
      { e with stage := .handshaking, transcript := some Transcript.empty } records f) :
    f.Faithful := by
  intro _
  cases begins with
  | client role sent =>
    obtain ⟨random, _, message, messages, _, encoded, found, _, encodes⟩ :=
      Client.sendHello_eq_ok.mp sent
    obtain ⟨_, _, rfl⟩ := encode_frame encodes
    cases found
    exact ⟨_, rfl, .serverHello ⟨random, rfl, encoded⟩⟩
  | server role => exact ⟨[], rfl, .clientHello⟩

/-- A message that is taken is remembered. -/
theorem faithful_answers {message records : Octets} (sound : e.Sound) (faithful : e.Faithful)
    (answers : Answers message e records f) : f.Faithful := by
  intro binds
  cases answers with
  | serverHello waits took =>
    obtain ⟨hello, messages, decoded, _, _, found, _, rfl⟩ := Client.receiveHello_eq_ok.mp took
    obtain ⟨earlier, filled, remembers⟩ := faithful (by rw [waits]; rfl)
    cases found.symm.trans filled
    rw [waits] at remembers
    cases remembers with
    | serverHello offered => exact ⟨_, rfl, .certificate offered ⟨hello, decoded, rfl, rfl⟩⟩
  | certificates waits took =>
    obtain ⟨leaf, chain, octets, key, messages, decoded, read, pinned, found, _, rfl⟩ :=
      Client.receiveCertificate_eq_ok.mp took
    obtain ⟨earlier, filled, remembers⟩ := faithful (by rw [waits]; rfl)
    cases found.symm.trans filled
    rw [waits] at remembers
    cases remembers with
    | certificate offered accepted =>
      exact ⟨_, rfl, .serverHelloDone offered accepted decoded rfl
        ⟨leaf, chain, octets, rfl, read, pinned⟩⟩
  | serverHelloDone waits exchanged finished =>
    obtain ⟨_, _, _, _, _, _, _, _, _, rfl⟩ := Client.sendFinished_eq_ok.mp finished
    cases binds
  | serverFinished waits took =>
    obtain ⟨_, _, _, _, _, rfl⟩ := Client.receiveFinished_eq_ok.mp took
    cases binds
  | clientHello waits took =>
    have clear : e.sendProtected = false := by rw [sound.sends, waits]; rfl
    obtain ⟨messages, work, made, rfl, _⟩ := (Server.receiveHello_eq_ok clear).mp took
    obtain ⟨earlier, filled, remembers⟩ := faithful (by rw [waits]; rfl)
    cases made.found.symm.trans filled
    rw [waits] at remembers
    cases remembers with
    | clientHello =>
      exact ⟨_, rfl, .clientKeyExchange ⟨⟨work.hello, made.decoded, made.chosen, rfl⟩,
        ⟨work.random, made.helloEncoded, rfl⟩, made.listEncoded, made.doneEncoded⟩⟩
    | exchanged waits => simp at waits
  | clientKeyExchange waits took =>
    obtain ⟨_, _, messages, _, _, _, _, decoded, _, found, _, _, _, _, _, rfl⟩ :=
      Server.receiveKeyExchange_eq_ok.mp took
    obtain ⟨earlier, filled, remembers⟩ := faithful (by rw [waits]; rfl)
    cases found.symm.trans filled
    rw [waits] at remembers
    cases remembers with
    | clientKeyExchange chosen =>
      exact ⟨_, rfl, .exchanged (Or.inl rfl) chosen (Body.isWhole_of_decode decoded)⟩
    | exchanged waits => simp at waits
  | clientFinished waits took =>
    have clear : e.sendProtected = false := by rw [sound.sends, waits]; rfl
    obtain ⟨_, _, _, _, rfl, _⟩ := (Server.receiveFinished_eq_ok clear).mp took
    cases binds

theorem kept_faithful : Kept fun _ (e : Endpoint G) => e.Faithful where
  opened _ faithful := faithful
  changed _ := faithful_receiveChange
  answered := faithful_answers

theorem Takes.idle {p q : Octets} {script : List Handled} (takes : Takes e p script f q) :
    f.role.idle = e.role.idle := by
  induction takes with
  | nil => rfl
  | cons whole handled later ih => exact ih.trans ((keeps_receiveRecord _ _ _ _).of_eq_ok handled)

/-- A message that is handed to an endpoint on the way through collected octets. -/
inductive Hands : Octets → Endpoint G → Octets → Endpoint G → Prop
  | now {pending message rest : Octets} {e : Endpoint G}
    (found : Assembly.next? pending = .ok (some (message, rest))) : Hands pending e message e
  | later {pending first rest answer message : Octets} {e f g : Endpoint G}
    (found : Assembly.next? pending = .ok (some (first, rest)))
    (took : receiveMessage first e = .ok answer f) (unfinished : f.stage ≠ .established)
    (hands : Hands rest f message g) : Hands pending e message g

theorem Hands.faithful {pending message : Octets} (hands : Hands pending e message f)
    (sound : e.Sound) (faithful : e.Faithful) :
    f.Sound ∧ f.Faithful ∧ f.role.idle = e.role.idle := by
  induction hands with
  | now found => exact ⟨sound, faithful, rfl⟩
  | later found took unfinished hands ih =>
    have answers := receiveMessage_eq_ok.mp took
    obtain ⟨sound, faithful, same⟩ :=
      ih (advances_answers sound answers).2 (faithful_answers sound faithful answers)
    exact ⟨sound, faithful, same.trans ((keeps_receiveMessage _ _).of_eq_ok took)⟩

end Endpoint

namespace Session

open Endpoint Handled

variable {G : Type} [Entropy G]

/-- As long as it has not failed, a session remembers what its transcript says. -/
theorem invariant_faithful : Invariant fun e : Endpoint G => e.Faithful where
  blank _ blank := faithful_of_idle blank.idle
  begun _ _ _ begins := faithful_of_begins begins
  taken := kept_faithful
  encoded _ _ faithful := faithful

/-- In the course of a call a message is handed to an endpoint. -/
def Meets (session : Session G) (octets message : Octets) (e : Endpoint G) : Prop :=
  (session.endpoint.stage = .handshaking ∨ session.endpoint.stage = .established) ∧
    ∃ script f pending header record rest content g,
      session.inbox ++ octets = stream script ++ (record ++ rest) ∧
      Takes session.endpoint session.pending script f pending ∧ Open script ∧
      Record.IsWhole header record ∧ header.type = .handshake ∧
      open? header record f = .ok content g ∧ g.stage ≠ .established ∧
      Hands (pending ++ content) g message e

/-- In the course of a call a client comes to prove a transcript, with a key it trusts. -/
def Proves (session : Session G) (octets : Octets) (key : Rsa.PublicKey) (transcript : Transcript)
    (f : Endpoint G) : Prop :=
  ∃ settings message e records, session.Meets octets message e ∧
    e.role = .client settings .serverHelloDone ∧ e.serverKey = some key ∧
    Client.sendExchange message e = .ok records f ∧ f.transcript = some transcript

/-- In the course of a call a server comes to check a client's proof of a transcript. -/
def Checks (session : Session G) (octets : Octets) (transcript : Transcript) (e : Endpoint G) :
    Prop :=
  ∃ settings message finished, session.Meets octets message e ∧
    e.role = .server settings .finished ∧
    Body.decode Finished message = .ok finished ∧ e.transcript = some transcript

/-- A message that a session meets finds an endpoint that remembers its transcript. -/
theorem Meets.faithful {first session : Session G} {octets message : Octets} {e : Endpoint G}
    (meets : session.Meets octets message e) (made : Made first)
    (becomes : first.Becomes session) :
    e.Sound ∧ e.Faithful ∧ e.role.idle = first.endpoint.role.idle := by
  obtain ⟨active, script, f, pending, header, record, rest, content, g, _, takes, _, _, _, opened, _,
    hands⟩ := meets
  have notFailed : session.endpoint.stage ≠ .failed := by
    rcases active with active | active <;> rw [active] <;> exact Stage.noConfusion
  have orderly := (Reachable.orderly ⟨first, made, becomes⟩).resolve_right notFailed
  have before := invariant_faithful.reachable ⟨first, made, becomes⟩ notFailed
  have faithful := kept_faithful.takes (s := []) takes orderly.endpoint before
  have sound := takes.sound orderly.endpoint
  obtain ⟨sound, faithful, same⟩ :=
    hands.faithful (sound_open? sound opened) (faithful_open? faithful opened)
  refine ⟨sound, faithful, same.trans ?_⟩
  rw [(keeps_open? _ _ _).of_eq_ok opened, takes.idle, becomes.idle]

/-- The messages that a client proves: its hello offers its suites, what it remembers was accepted
from the other end, and all are whole. -/
theorem Proves.messages {settings : ClientSettings} {source : G} {first session : Session G}
    {octets : Octets} {key : Rsa.PublicKey} {transcript : Transcript} {f : Endpoint G}
    (proves : session.Proves octets key transcript f)
    (made : client settings source = .ok first) (becomes : first.Becomes session) :
    ∃ clientHello serverHello certificates helloDone exchange list,
      transcript = ⟨[clientHello, serverHello, certificates, helloDone, exchange]⟩ ∧
      Offered settings f.clientRandom clientHello ∧ Accepted f.suite f.serverRandom serverHello ∧
      Body.decode Certificates certificates = .ok ⟨list⟩ ∧ Checked settings key list ∧
      ∀ message ∈ transcript.messages, Message.IsWhole message := by
  obtain ⟨_, message, e, records, meets, waits, trusted, exchanged, hashed⟩ := proves
  obtain ⟨sound, faithful, same⟩ := meets.faithful (.client made) becomes
  obtain ⟨_, _, rfl⟩ := client_eq_ok.mp made
  rw [waits] at same
  cases same
  have clear : e.sendProtected = false := by rw [sound.sends, waits]; rfl
  obtain ⟨messages, filled, remembers⟩ := faithful (by rw [waits]; rfl)
  rw [waits] at remembers
  obtain ⟨messages, _, work, made, rfl, _⟩ := (Client.sendExchange_eq_ok clear).mp exchanged
  cases made.found.symm.trans filled
  cases hashed
  cases remembers with
  | serverHelloDone offered accepted decoded known checked =>
    cases known.symm.trans trusted
    refine ⟨_, _, _, message, work.message, _, rfl, offered, accepted, decoded, checked, ?_⟩
    obtain ⟨_, _, offer⟩ := offered
    obtain ⟨_, taken, _⟩ := accepted
    simp [Body.isWhole_of_encode offer, Body.isWhole_of_decode taken,
      Body.isWhole_of_decode decoded, Body.isWhole_of_decode made.decoded,
      Body.isWhole_of_encode made.encoded]

/-- The messages of which a server checks a proof: it chose from the first, and sent the next
three. -/
theorem Checks.messages {settings : ServerSettings} {source : G} {first session : Session G}
    {octets : Octets} {transcript : Transcript} {e : Endpoint G}
    (checks : session.Checks octets transcript e) (made : server settings source = .ok first)
    (becomes : first.Becomes session) :
    ∃ clientHello serverHello certificates helloDone exchange,
      transcript = ⟨[clientHello, serverHello, certificates, helloDone, exchange]⟩ ∧
      Chosen settings e.suite e.clientRandom e.serverRandom clientHello serverHello certificates
        helloDone ∧ ∀ message ∈ transcript.messages, Message.IsWhole message := by
  obtain ⟨_, message, _, meets, waits, _, hashed⟩ := checks
  obtain ⟨_, faithful, same⟩ := meets.faithful (.server made) becomes
  obtain ⟨_, _, rfl⟩ := server_eq_ok.mp made
  rw [waits] at same
  cases same
  obtain ⟨messages, filled, remembers⟩ := faithful (by rw [waits]; rfl)
  rw [waits] at remembers
  cases hashed.symm.trans filled
  cases remembers with
  | exchanged _ chosen whole =>
    refine ⟨_, _, _, _, _, rfl, chosen, ?_⟩
    obtain ⟨⟨_, read, _⟩, ⟨_, choice, _⟩, identity, done⟩ := chosen
    simp [Body.isWhole_of_decode read, Body.isWhole_of_encode choice,
      Body.isWhole_of_encode identity, Body.isWhole_of_encode done, whole]

/-- Whatever was put between a client and a server: if the octets that the client proves are those
of which the server checks a proof, then both have the same messages and agree on what these say,
the suite is the one that the server likes most of those the client offered, and the certificates
that the client checked are the server's. -/
theorem transcript_binds {H : Type} [Entropy H] {clientSettings : ClientSettings}
    {serverSettings : ServerSettings} {clientSource : G} {serverSource : H}
    {firstClient clientNow : Session G} {firstServer serverNow : Session H}
    {clientOctets serverOctets : Octets} {key : Rsa.PublicKey} {proved checked : Transcript}
    {f : Endpoint G} {e : Endpoint H} (few : clientSettings.suites.length ≤ 32767)
    (clientMade : client clientSettings clientSource = .ok firstClient)
    (clientBecomes : firstClient.Becomes clientNow)
    (serverMade : server serverSettings serverSource = .ok firstServer)
    (serverBecomes : firstServer.Becomes serverNow)
    (proves : clientNow.Proves clientOctets key proved f)
    (checks : serverNow.Checks serverOctets checked e)
    (same : proved.messages.flatten = checked.messages.flatten) :
    proved = checked ∧ f.clientRandom = e.clientRandom ∧ f.clientRandom.isSome ∧
      f.serverRandom = e.serverRandom ∧ f.serverRandom.isSome ∧ f.suite = e.suite ∧
      (f.suite ∈ clientSettings.suites ∧ ∃ before after,
        serverSettings.suites = before ++ f.suite :: after ∧
        ∀ other ∈ before, other ∉ clientSettings.suites) ∧
      ∃ certificates, proved.messages[Slot.serverCertificate.place]? = some certificates ∧
        Body.decode Certificates certificates =
          .ok ⟨serverSettings.identity.certificateList⟩ ∧
        Checked clientSettings key serverSettings.identity.certificateList := by
  obtain ⟨clientHello, serverHello, certificates, helloDone, exchange, list, rfl, offered, accepted,
    decoded, trusted, whole⟩ := proves.messages clientMade clientBecomes
  obtain ⟨_, _, _, _, _, rfl, chosen, whole'⟩ := checks.messages serverMade serverBecomes
  have messages := Message.flatten_inj whole whole' same
  dsimp only at messages
  cases messages
  have some := (client_eq_ok.mp clientMade).1
  obtain ⟨client, known, server, known', suite, choice, rfl⟩ :=
    chosen.agrees some few offered accepted decoded
  exact ⟨rfl, client, known, server, known', suite, Suite.choose?_eq_some.mp choice,
    certificates, rfl, decoded, trusted⟩

/-- A message in a record of its own is handed to the endpoint that has taken what came before. -/
theorem meets_of_record {e f g : Endpoint G} {script : List Handled} {header : Record.Header}
    {record message : Octets} (running : e.stage = .handshaking) (takes : Takes e [] script f [])
    (opened : Open script) (isRecord : Record.IsWhole header record)
    (type : header.type = .handshake) (opens : open? header record f = .ok message g)
    (unfinished : g.stage = .handshaking) (whole : Message.IsWhole message)
    (short : message.length ≤ Record.maxPiece) :
    Meets { endpoint := e } (stream script ++ record) message g := by
  have found := @Assembly.next?_append message [] whole (Nat.le_trans short (by decide))
  rw [List.append_nil] at found
  refine ⟨Or.inl running, script, f, [], header, record, [], message, g, ?_, takes, opened, isRecord,
    type, opens, ?_, .now found⟩
  · rw [List.append_nil]
    rfl
  · rw [unfinished]
    exact Stage.noConfusion

/-- In an honest handshake the client proves the transcript of which the server checks a proof. -/
theorem exists_proves {H : Type} [Entropy H] {clientLeft : G → Prop} {serverLeft : H → Prop}
    {clientSettings : ClientSettings} {serverSettings : ServerSettings} {suite : Suite}
    {client : Endpoint G} {server : Endpoint H} {clientHello : Octets}
    (handshake : Handshake clientLeft serverLeft clientSettings serverSettings suite client server
      clientHello)
    (clientClear : client.InClear) (serverClear : server.InClear) :
    ∃ clientOctets serverOctets key transcript f e,
      Proves { endpoint := client } clientOctets key transcript f ∧
      Checks { endpoint := server } serverOctets transcript e := by
  obtain ⟨serverHello, certificates, helloDone, exchange, secrets, certified, exchanged, answered,
    keyed, answers, certifies, helloDoneCarried, helloDoneShort, certifiedRole, certifiedKey,
    exchanges, exchangedFields, exchangedSource, keys, keyedFields, keyedSource, usable⟩ := handshake
  cases exchanged
  cases exchangedFields
  cases keyed
  cases keyedFields
  obtain ⟨script, _, _, _, opened, takes, certifiedClear⟩ :=
    takes_encodePlain certifies clientClear
  obtain ⟨hello, _, _, _, helloOpen, helloTakes, answeredClear⟩ :=
    takes_encodePlain answers serverClear
  obtain ⟨key, _, _, _, keyOpen, keyTakes, keyClear⟩ := takes_encodePlain keys answeredClear
  obtain ⟨proof, record, _, carried, short, made, _⟩ :=
    @Client.exists_sendFinished G _ clientLeft 0 clientSettings _ _ _ rfl rfl rfl rfl rfl
      (usable .client) exchangedSource
  obtain ⟨isRecord, opens⟩ := Record.unprotect_protectPiece short made
  have changed := helloTakes.append (keyTakes.append (takes_change keyClear rfl (.server ..)))
  refine ⟨_, _, _, _, _, _, ⟨_, helloDone, certified, _, meets_of_record clientClear.1 takes opened
      (Record.isWhole_plainRecord (Nat.le_trans helloDoneShort (by decide))) rfl
      (open?_plainRecord certifiedClear.2 helloDoneShort) certifiedClear.1 helloDoneCarried.whole
      helloDoneShort, certifiedRole, certifiedKey, exchanges, rfl⟩,
    ⟨_, proof, _, meets_of_record serverClear.1 changed ?_ isRecord rfl
      (open?_eq_ok.mpr (Or.inl ⟨secrets, _, rfl, rfl, rfl, opens, rfl⟩)) rfl carried.whole short,
      rfl, carried.decoded, rfl⟩⟩
  refine open_append_iff.mpr ⟨helloOpen, open_append_iff.mpr ⟨keyOpen, ?_⟩⟩
  exact (open_cons_iff ..).mpr ⟨rfl, open_nil⟩

/-- A rehearsed handshake binds what both ends hash. -/
theorem transcript_binds_rehearsal : ∃ clientOctets serverOctets key transcript,
    ∃ f e : Endpoint Reproducible,
      Rehearsal.client.start.2.Proves clientOctets key transcript f ∧
      Rehearsal.server.start.2.Checks serverOctets transcript e ∧
      f.clientRandom = e.clientRandom ∧ f.serverRandom = e.serverRandom ∧ f.suite = e.suite ∧
      f.suite ∈ Rehearsal.clientSettings.suites ∧
      ∃ certificates, transcript.messages[Slot.serverCertificate.place]? = some certificates ∧
        Body.decode Certificates certificates = .ok ⟨Rehearsal.identity.certificateList⟩ := by
  obtain ⟨_, supplied⟩ := Rehearsal.pairing.exists_supplied
  obtain ⟨_, _, _, clientStarts, serverStarts, ⟨clientClear, _⟩, ⟨serverClear, _⟩, ⟨handshake⟩⟩ :=
    supplied.exists_start
  obtain ⟨clientOctets, serverOctets, key, transcript, f, e, proves, checks⟩ :=
    exists_proves handshake clientClear serverClear
  obtain ⟨_, _, clientMade⟩ := Rehearsal.pairing.clientMade
  obtain ⟨_, _, serverMade⟩ := Rehearsal.pairing.serverMade
  have clientProves : Rehearsal.client.start.2.Proves clientOctets key transcript f := by
    rw [clientStarts]
    exact proves
  have serverChecks : Rehearsal.server.start.2.Checks serverOctets transcript e := by
    rw [serverStarts]
    exact checks
  obtain ⟨_, client, _, server, _, suite, ⟨offered, _⟩, certificates, found, decoded, _⟩ :=
    transcript_binds Rehearsal.pairing.few clientMade (.start .refl) serverMade (.start .refl)
      clientProves serverChecks rfl
  exact ⟨clientOctets, serverOctets, key, transcript, f, e, clientProves, serverChecks, client,
    server, suite, offered, certificates, found, decoded⟩

end Session

end TransportSecurity
