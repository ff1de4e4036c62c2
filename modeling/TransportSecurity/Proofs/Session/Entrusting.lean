import TransportSecurity.Proofs.Session.Completion
import TransportSecurity.Proofs.Session.Emission

/-!
Whom a client entrusts with a secret.

Until it has checked the server's hello and the server's key a client has no secrets and answers
nothing (`Endpoint.Wary`). Then it gives one pre-master secret away, under the key that it checked,
and all that it sends after that is protected under keys made of the same secret
(`Endpoint.Shares`). What it was told by then is the beginning of what it has received
(`Endpoint.Guards`), and no failure, however late, lets another key in (`Session.Confides`).
-/

namespace TransportSecurity

namespace Client

/-- A client accepts a server's hello, and keeps its random: the version is 3.3, and the suite is
one of the client's. -/
def Agrees (settings : ClientSettings) (serverHello : Octets) (server : Option Random) : Prop :=
  ∃ hello, Body.decode ServerHello serverHello = .ok hello ∧ hello.version = .current ∧
    hello.suite ∈ settings.suites ∧ server = some hello.random

/-- A client accepts a server's certificates, and keeps the key that the first one spells. If a key
is set for the server, it is spelled by the same octets. -/
def Trusts (settings : ClientSettings) (certificates : Octets) (key : Rsa.PublicKey) : Prop :=
  ∃ leaf chain octets, Body.decode Certificates certificates = .ok ⟨leaf :: chain⟩ ∧
    Certificate.publicKey? leaf = some octets ∧ (∀ pin ∈ settings.pin, pin = octets) ∧
    Rsa.PublicKey.ofDer? octets = some key

/-- What a client has accepted in a phase, of the messages that it has heard by then: the random
and the key that it keeps are those of the server's hello and certificates. -/
inductive Vetted (settings : ClientSettings) (server : Option Random)
    (serverKey : Option Rsa.PublicKey) : ClientPhase → List Octets → Prop
  | serverHello : Vetted settings server serverKey .serverHello []
  | certificate {serverHello : Octets} (agreed : Agrees settings serverHello server) :
    Vetted settings server serverKey .certificate [serverHello]
  | serverHelloDone {key : Rsa.PublicKey} {serverHello certificates : Octets}
    (agreed : Agrees settings serverHello server) (trusted : Trusts settings certificates key)
    (kept : serverKey = some key) :
    Vetted settings server serverKey .serverHelloDone [serverHello, certificates]

/-- As long as a client vets what it hears, it hears it in the clear. -/
theorem Vetted.heard {settings : ClientSettings} {server : Option Random}
    {serverKey : Option Rsa.PublicKey} {phase : ClientPhase} {heard : List Octets}
    (vetted : Vetted settings server serverKey phase heard) :
    ∃ transcript, Heard (.client settings phase) heard transcript := by
  cases vetted with
  | serverHello => exact ⟨[[]], .noServerHello⟩
  | certificate agreed =>
    obtain ⟨_, decoded, _⟩ := agreed
    exact ⟨[[], _], .serverHello decoded⟩
  | serverHelloDone agreed trusted kept =>
    obtain ⟨_, decoded, _⟩ := agreed
    obtain ⟨_, _, _, listed, _⟩ := trusted
    exact ⟨[[], _, _], .certificates (.serverHello decoded) listed⟩

variable {G : Type} [Entropy G]

/-- A client gives a pre-master secret away after three messages, given its source before its hello.
It encrypts 3, 3 and 46 octets that it has drawn, with the key that it trusts. -/
structure Entrusts (settings : ClientSettings) (source : G)
    (serverHello certificates helloDone : Octets) (work : Exchange G) : Prop where
  agreed : Agrees settings serverHello (some work.server)
  encrypts : ∃ key, Trusts settings certificates key ∧
    Rsa.encrypt key (3 :: 3 :: work.random.val) work.between = .ok work.encrypted work.source
  done : Body.decode ServerHelloDone helloDone = .ok {}
  drawn : ∃ next, Random.draw source = .ok work.client next ∧
    (Entropy.demand 46 : EStateM Error G (Fixed 46)) next = .ok work.random work.between
  encoded : Body.encode (ClientKeyExchange.mk work.encrypted) = .ok work.message

end Client

namespace Handled

/-- Whole records of handshake messages in the clear, and what they hold between them. -/
structure Holds (script : List Handled) (octets : Octets) : Prop where
  whole : ∀ handled ∈ script, Record.IsWhole handled.header handled.record
  types : AllHandshake script
  fragments : fragments script = octets

theorem Holds.nil : Holds [] [] := ⟨List.forall_mem_nil _, List.forall_mem_nil _, rfl⟩

theorem Holds.concat {script : List Handled} {octets record : Octets} {header : Record.Header}
    (holds : Holds script octets) (whole : Record.IsWhole header record)
    (type : header.type = .handshake) (progress : Progress) :
    Holds (script ++ [⟨header, record, progress⟩])
      (octets ++ record.drop Record.headerLength) := by
  refine ⟨?_, holds.types.concat type, ?_⟩
  · exact List.forall_mem_append.mpr ⟨holds.whole, List.forall_mem_singleton.mpr whole⟩
  · rw [fragments_concat, holds.fragments]

end Handled

namespace Endpoint

open Handled

variable {G : Type} [Entropy G] {settings : ClientSettings} {source : G} {e f : Endpoint G}
  {heard : List Octets} {message records sent pending left : Octets} {progress : Progress}
  {work : Client.Exchange G}

/-- A client still vets what it hears and has drawn nothing but its random. -/
structure Wary (settings : ClientSettings) (source : G) (heard : List Octets) (e : Endpoint G) :
    Prop where
  drawn : ∃ random, Random.draw source = .ok random e.source ∧ e.clientRandom = some random
  vetted : ∃ phase, e.role = .client settings phase ∧
    Client.Vetted settings e.serverRandom e.serverKey phase heard

/-- A client has given its exchange away, and all else that it has sent since its hello is the
change to protected records and what follows that under the keys of the exchange. -/
structure Shares (work : Client.Exchange G) (sent : Octets) (e : Endpoint G) : Prop where
  side : e.role.side = .client
  change : e.sendProtected = true
  known : e.secrets = some work.secrets
  given : ∃ back data, sent = Record.encodePlain .handshake work.message ++ back ∧
    Secured G .client work.secrets data e.sendNumber back

/-- A wary client stays so with what it hears and answers nothing, until it gives its exchange
away. -/
theorem Wary.answers (sound : e.Sound) (wary : e.Wary settings source heard)
    (answers : Answers message e records f) :
    (records = [] ∧ f.Wary settings source (heard ++ [message])) ∨
      ∃ serverHello certificates work, heard = [serverHello, certificates] ∧
        Client.Entrusts settings source serverHello certificates message work ∧
        f.Shares work records := by
  obtain ⟨⟨random, drawn, client⟩, phase, role, vetted⟩ := wary
  cases answers with
  | serverHello waits took =>
    obtain ⟨hello, _, decoded, version, listed, _, _, rfl⟩ := Client.receiveHello_eq_ok.mp took
    cases role.symm.trans waits
    cases vetted
    exact Or.inl ⟨rfl, ⟨random, drawn, client⟩, _, rfl,
      .certificate ⟨hello, decoded, version, listed, rfl⟩⟩
  | certificates waits took =>
    obtain ⟨leaf, chain, octets, key, _, decoded, read, pinned, _, _, rfl⟩ :=
      Client.receiveCertificate_eq_ok.mp took
    obtain ⟨spelled, read⟩ := Certificate.rsaKey_eq_ok.mp read
    cases role.symm.trans waits
    cases vetted with
    | certificate agreed =>
      exact Or.inl ⟨rfl, ⟨random, drawn, client⟩, _, rfl,
        .serverHelloDone agreed ⟨leaf, chain, octets, decoded, spelled, pinned, read⟩ rfl⟩
  | serverHelloDone waits exchanged finished =>
    have clear : e.sendProtected = false := by rw [sound.sends, waits]; rfl
    obtain ⟨messages, _, work, made, rfl, rfl⟩ := (Client.sendExchange_eq_ok clear).mp exchanged
    obtain ⟨_, secrets, proof, _, found, next, known, encoded, encodes, rfl⟩ :=
      Client.sendFinished_eq_ok.mp finished
    have secured := secured_of_encode encodes (by rw [waits]; rfl) rfl known rfl next encoded
    obtain ⟨_, _, rfl⟩ := encode_frame encodes
    -- the exchange is made of what the client has kept of the messages before
    cases known
    cases role.symm.trans waits
    cases client.symm.trans made.client
    cases vetted with
    | serverHelloDone agreed trusted kept =>
      rw [made.server] at agreed
      cases kept.symm.trans made.serverKey
      exact Or.inr ⟨_, _, work, rfl, ⟨agreed, ⟨_, trusted, made.encrypts⟩, made.decoded,
        ⟨_, drawn, made.drawn⟩, made.encoded⟩, rfl, rfl, rfl, _, [], List.append_assoc .., secured⟩
  | serverFinished waits =>
    cases role.symm.trans waits
    cases vetted
  | clientHello waits | clientKeyExchange waits | clientFinished waits =>
    cases role.symm.trans waits

/-- What a client shares stays the only secret it has given away, whatever it takes. -/
theorem kept_shares (work : Client.Exchange G) : Kept fun sent (e : Endpoint G) =>
    e.Shares work sent where
  opened _ shares := ⟨shares.side, shares.change, shares.known, shares.given⟩
  changed {_ e _} _ shares changed := by
    obtain ⟨_, role, changes, rfl⟩ := receiveChange_eq_ok.mp changed
    exact ⟨changes.side.trans shares.side, shares.change, shares.known, shares.given⟩
  answered {_ e _ _ _} sound shares answers := by
    have protects := sound.sends.symm.trans shares.change
    cases answers with
    | serverFinished waits took =>
      obtain ⟨_, _, _, _, _, rfl⟩ := Client.receiveFinished_eq_ok.mp took
      rw [List.append_nil]
      exact ⟨rfl, shares.change, shares.known, shares.given⟩
    | serverHello waits | certificates waits | serverHelloDone waits | clientHello waits
    | clientKeyExchange waits | clientFinished waits =>
      rw [waits] at protects
      cases protects

/-- A wary client hears messages in the clear. -/
theorem Wary.hears (wary : e.Wary settings source heard) :
    ∃ transcript, Heard e.role heard transcript := by
  obtain ⟨_, phase, role, vetted⟩ := wary
  rw [role]
  exact vetted.heard

theorem Wary.running (sound : e.Sound) (wary : e.Wary settings source heard) :
    e.stage = .handshaking := by
  obtain ⟨_, hears⟩ := wary.hears
  exact (sound.of_heard hears).1

theorem Wary.keyless (sound : e.Sound) (wary : e.Wary settings source heard) :
    e.secrets = none := by
  obtain ⟨_, phase, role, vetted⟩ := wary
  have without : e.role.shape.secrets = false := by
    rw [role]
    cases vetted <;> rfl
  exact Option.isNone_iff_eq_none.mp (Option.isSome_eq_false_iff.mp (sound.secrets.trans without))

/-- What a wary client makes of octets in the clear: it hears the messages in them, stays wary and
answers nothing, or it shares a secret after three messages. -/
inductive Vets (settings : ClientSettings) (source : G) (heard : List Octets) :
    Octets → Octets → Octets → Endpoint G → Prop
  | wary {more : List Octets} {left : Octets} {f : Endpoint G}
    (wary : f.Wary settings source (heard ++ more)) :
    Vets settings source heard (more.flatten ++ left) [] left f
  | shares {more : List Octets} {serverHello certificates helloDone rest answer left : Octets}
    {work : Client.Exchange G} {f : Endpoint G}
    (three : heard ++ more = [serverHello, certificates, helloDone])
    (entrusts : Client.Entrusts settings source serverHello certificates helloDone work)
    (shares : f.Shares work answer) :
    Vets settings source heard (more.flatten ++ rest) answer left f

theorem Wary.vets_nothing (wary : e.Wary settings source heard) :
    Vets settings source heard pending [] pending e := by
  rw [← List.append_nil heard] at wary
  exact Vets.wary wary

theorem Vets.last {serverHello certificates helloDone answer : Octets}
    (entrusts : Client.Entrusts settings source serverHello certificates helloDone work)
    (shares : f.Shares work answer) (rest left : Octets) :
    Vets settings source [serverHello, certificates] (helloDone ++ rest) answer left f := by
  rw [← @List.flatten_singleton _ helloDone]
  exact .shares rfl entrusts shares

theorem Vets.cons {octets answer : Octets}
    (vets : Vets settings source (heard ++ [message]) octets answer left f) :
    Vets settings source heard (message ++ octets) answer left f := by
  cases vets with
  | wary wary =>
    rw [← List.append_assoc, ← List.flatten_cons]
    rw [List.append_assoc] at wary
    exact .wary wary
  | shares three entrusts shares =>
    rw [← List.append_assoc, ← List.flatten_cons]
    rw [List.append_assoc] at three
    exact .shares three entrusts shares

theorem Wary.collects (sound : e.Sound) (wary : e.Wary settings source heard)
    (nothing : records = []) (collects : Collects records pending e progress left f) :
    Vets settings source heard pending progress.answer left f := by
  -- every message that leaves the client wary is heard, and the rest is vetted behind it
  induction collects generalizing heard with
  | waits unfinished =>
    subst nothing
    exact wary.vets_nothing
  | completes found took isOver =>
    subst nothing
    have answers := receiveMessage_eq_ok.mp took
    rw [← (Assembly.next?_eq_some found).1]
    rcases wary.answers sound answers with ⟨rfl, wary⟩ |
      ⟨serverHello, certificates, work, rfl, entrusts, shares⟩
    · cases (wary.running (advances_answers sound answers).2).symm.trans isOver
    · exact .last entrusts shares [] []
  | goesOn found took unfinished later ih =>
    subst nothing
    have answers := receiveMessage_eq_ok.mp took
    have still := (advances_answers sound answers).2
    rw [← (Assembly.next?_eq_some found).1]
    rcases wary.answers sound answers with ⟨rfl, wary⟩ |
      ⟨serverHello, certificates, work, rfl, entrusts, shares⟩
    · exact (ih still wary rfl).cons
    · exact .last entrusts ((kept_shares work).collects still (s := []) shares later) _ _

/-- What a client has been told and has sent since its hello: the messages that it has heard as a
wary one, or the three messages after which it shares a secret, and whatever came then. -/
inductive Guards (settings : ClientSettings) (source : G) :
    List Handled → Octets → Endpoint G → Octets → Prop
  | wary {script : List Handled} {heard : List Octets} {e : Endpoint G} {pending : Octets}
    (holds : Holds script (heard.flatten ++ pending)) (wary : e.Wary settings source heard) :
    Guards settings source script [] e pending
  | shares {clear later : List Handled} {serverHello certificates helloDone more sent : Octets}
    {work : Client.Exchange G} {e : Endpoint G} {pending : Octets}
    (holds : Holds clear ([serverHello, certificates, helloDone].flatten ++ more))
    (entrusts : Client.Entrusts settings source serverHello certificates helloDone work)
    (shares : e.Shares work sent) : Guards settings source (clear ++ later) sent e pending

variable {script : List Handled} {header : Record.Header} {record : Octets}

/-- A client goes on guarding its secret with every record that it takes. -/
theorem Guards.handles (sound : e.Sound) (guards : e.Guards settings source script sent pending)
    (whole : Record.IsWhole header record)
    (handles : Handles header record pending e progress left f) :
    f.Guards settings source (script ++ [⟨header, record, progress⟩]) (sent ++ progress.answer)
      left := by
  cases guards with
  | shares holds entrusts shares =>
    rw [List.append_assoc]
    exact .shares holds entrusts ((kept_shares _).handles sound shares handles)
  | @wary _ heard _ _ holds wary =>
    have running := wary.running sound
    obtain ⟨_, hears⟩ := wary.hears
    rcases handles with ⟨type, opened, announces, nothing, changed⟩ | ⟨type, opened, isOver⟩ |
      ⟨type, opened, unfinished, collects⟩
    · -- without secrets no change is taken
      obtain ⟨_, rfl⟩ := open?_of_heard sound hears opened
      have known := (receiveChange_eq_ok.mp changed).1
      rw [wary.keyless sound] at known
      cases known
    · obtain ⟨_, rfl⟩ := open?_of_heard sound hears opened
      cases running.symm.trans isOver
    · obtain ⟨rfl, rfl⟩ := open?_of_heard sound hears opened
      have now := holds.concat whole type progress
      have vets := wary.collects sound rfl collects
      rw [List.append_assoc] at now
      generalize pending ++ record.drop Record.headerLength = octets at now vets
      generalize progress.answer = answer at vets ⊢
      cases vets with
      | wary wary =>
        rw [← List.append_assoc, ← List.flatten_append] at now
        exact .wary now wary
      | shares three entrusts shares =>
        rw [← List.append_assoc, ← List.flatten_append, three] at now
        rw [← List.append_nil (script ++ _)]
        exact .shares now entrusts shares

theorem Takes.guards (takes : Takes e pending script f left) (sound : e.Sound)
    {earlier : List Handled} (guards : e.Guards settings source earlier sent pending) :
    f.Guards settings source (earlier ++ script) (sent ++ answers script) left := by
  induction takes generalizing earlier sent with
  | nil => simpa using guards
  | cons whole handled later ih =>
    have handles := receiveRecord_eq_ok.mp handled
    have next := ih (sound_handles sound handles) (guards.handles sound whole handles)
    rw [List.append_assoc, List.append_assoc] at next
    exact next

theorem Guards.begun (sound : e.Sound) (guards : e.Guards settings source script sent pending) :
    e.stage ≠ .initial := by
  intro fresh
  cases guards with
  | wary holds wary =>
    cases (wary.running sound).symm.trans fresh
  | shares holds entrusts shares =>
    have change := sound.sends.symm.trans shares.change
    rw [Role.shape_eq_idle (sound.stage.symm.trans fresh)] at change
    cases change

/-- Data goes behind what a client has sent under the keys of its exchange. -/
theorem Shares.append_data {data : Octets} (shares : e.Shares work sent)
    (sends : encode .applicationData data e = .ok records f) : f.Shares work (sent ++ records) := by
  obtain ⟨back, list, rfl, secured⟩ := shares.given
  rw [← shares.side] at secured
  have later := secured_of_sent secured shares.change shares.known sends
  obtain ⟨_, _, rfl⟩ := encode_frame sends
  rw [shares.side] at later
  exact ⟨shares.side, shares.change, shares.known, _, _, List.append_assoc .., later⟩

theorem Shares.of_encode_error {data : Octets} {error : Error} (shares : e.Shares work sent)
    (failed : encode .applicationData data e = .error error f) : f.Shares work sent := by
  obtain ⟨back, list, rfl, secured⟩ := shares.given
  rw [← shares.side] at secured
  have later := secured_of_unsent secured shares.change shares.known failed
  obtain ⟨_, _, rfl⟩ := encode_frame_of_error failed
  rw [shares.side] at later
  exact ⟨shares.side, shares.change, shares.known, _, _, rfl, later⟩

/-- Only a client that shares a secret gets to send data. -/
theorem Guards.of_over {sent' : Octets} (sound : e.Sound) (isOver : e.stage = .established)
    (guards : e.Guards settings source script sent pending)
    (goes : ∀ work, e.Shares work sent → f.Shares work sent') :
    f.Guards settings source script sent' pending := by
  cases guards with
  | wary holds wary =>
    cases (wary.running sound).symm.trans isOver
  | shares holds entrusts shares => exact .shares holds entrusts (goes _ shares)

/-- A client begins wary, with a hello that offers its suites. -/
theorem guards_of_begins {phase : ClientPhase} (client : e.role = .client settings phase)
    (clear : e.sendProtected = false) (begins : Begins { e with
      stage := .handshaking
      transcript := some Transcript.empty } records f) :
    f.Guards settings e.source [] [] [] ∧ ∃ random hello,
      Random.draw e.source = .ok random f.source ∧
      Body.encode (ClientHello.offering random settings.suites) = .ok hello ∧
      records = Record.encodePlain .handshake hello := by
  cases begins with
  | client role sends =>
    cases client.symm.trans role
    obtain ⟨random, next, hello, _, drawn, encoded, _, _, encodes⟩ :=
      Client.sendHello_eq_ok.mp sends
    cases (encode_clear (by exact clear)).symm.trans encodes
    have nothing : Holds [] (([] : List Octets).flatten ++ []) := .nil
    exact ⟨.wary nothing ⟨⟨random, drawn, rfl⟩, _, rfl, .serverHello⟩, random, hello, drawn,
      encoded, rfl⟩
  | server role => cases client.symm.trans role

end Endpoint

/-- The octets that a call hands in. -/
def Call.handedIn : Call → Octets
  | .start => []
  | .receive octets => octets
  | .send _ => []

namespace Session

open Endpoint Handled

variable {G : Type} [Entropy G]

/-- What a client has given away since its hello, given what it has received since: nothing, and it
has no secrets; or one pre-master secret, after the three messages that it received first, and then
only what is protected under the keys made of it, which are the only ones it ever has. -/
inductive Confides (settings : ClientSettings) (source : G) (received sent : Octets)
    (session : Session G) : Prop
  | nothing (silent : sent = []) (keyless : session.endpoint.secrets = none)
  | secret {script : List Handled} {serverHello certificates helloDone more rest back : Octets}
    {work : Client.Exchange G} {secrets : Secrets} {data : List Sealed} {next : UInt64}
    (arrived : received = stream script ++ rest)
    (holds : Holds script ([serverHello, certificates, helloDone].flatten ++ more))
    (entrusts : Client.Entrusts settings source serverHello certificates helloDone work)
    (given : sent = Record.encodePlain .handshake work.message ++ back)
    (derived : secrets.master =
      KeySchedule.master (3 :: 3 :: work.random.val) work.client.val work.server.val)
    (secured : Secured G .client secrets data next back)
    (only : ∀ known, session.endpoint.secrets = some known → known = secrets)

/-- A client that has given nothing away has no secrets. -/
theorem Confides.keyless {settings : ClientSettings} {source : G} {received : Octets}
    {session : Session G} (confides : session.Confides settings source received []) :
    session.endpoint.secrets = none := by
  cases confides with
  | nothing silent keyless => exact keyless
  | secret arrived holds entrusts given derived secured only =>
    cases secured
    have change := (List.append_eq_nil_iff.mp (List.append_eq_nil_iff.mp given.symm).2).1
    cases change

/-- A client's session confides in nobody else, and as long as it has not failed its endpoint guards
the secret. -/
structure Guarding (settings : ClientSettings) (source : G) (received sent : Octets)
    (session : Session G) : Prop where
  running : session.endpoint.stage ≠ .failed → ∃ script, received = stream script ++ session.inbox ∧
    session.endpoint.Guards settings source script sent session.pending
  confides : session.Confides settings source received sent

variable {session after : Session G} {settings : ClientSettings} {source : G}
  {received sent more : Octets} {script : List Handled}

theorem guarding_of_guards (sound : session.endpoint.Sound)
    (arrived : received = stream script ++ session.inbox)
    (guards : session.endpoint.Guards settings source script sent session.pending) :
    session.Guarding settings source received sent := by
  refine ⟨fun _ => ⟨script, arrived, guards⟩, ?_⟩
  generalize session.pending = pending at guards
  generalize keeps : session.endpoint = e at guards sound
  cases guards with
  | wary holds wary => exact .nothing rfl (by rw [keeps]; exact wary.keyless sound)
  | shares holds entrusts shares =>
    obtain ⟨back, data, given, secured⟩ := shares.given
    rw [stream_append, List.append_assoc] at arrived
    refine .secret arrived holds entrusts given rfl secured ?_
    intro known holds
    rw [keeps, shares.known] at holds
    exact (Option.some.inj holds).symm

/-- A session that fails has no secrets any more, and has given away what it had. -/
theorem Guarding.of_failed (guarding : session.Guarding settings source received sent)
    (failed : after.endpoint.stage = .failed) (keyless : after.endpoint.secrets = none) :
    after.Guarding settings source (received ++ more) sent := by
  refine ⟨fun notFailed => (notFailed failed).elim, ?_⟩
  cases guarding.confides with
  | nothing silent => exact .nothing silent keyless
  | secret arrived holds entrusts given derived secured only =>
    rw [arrived, List.append_assoc]
    refine .secret rfl holds entrusts given derived secured ?_
    intro known holds
    cases keyless.symm.trans holds

theorem guarding_of_performs {call : Call} {reply : Reply} (orderly : session.Orderly)
    (guarding : session.Guarding settings source received sent)
    (performs : Performs session call reply after) :
    after.Guarding settings source (received ++ call.handedIn) (sent ++ reply.emitted) := by
  have sound := orderly.endpoint
  obtain ⟨script, arrived, guards⟩ := guarding.running orderly.not_failed
  have same : session.Guarding settings source (received ++ []) (sent ++ []) := by
    simpa using guarding
  cases performs with
  | starts fresh | cannotStart fresh | notStarted fresh => exact (guards.begun sound fresh).elim
  | started begun => exact same
  | reads active more takes rests answer fine =>
    rw [Reply.emitted_received fine, answer]
    refine guarding_of_guards (takes.sound sound) ?_ (takes.guards sound guards)
    dsimp only [Call.handedIn]
    rw [arrived, List.append_assoc, more, stream_append, List.append_assoc]
  | cannotRead script active arrived takes opened refuses =>
    rw [emitted_stop, List.append_nil]
    exact guarding.of_failed (failed_of_stop ..) (wiped_stop ..).secrets
  | sends isOver encodes =>
    obtain ⟨_, _, rfl⟩ := encode_frame encodes
    rw [Call.handedIn, List.append_nil]
    exact guarding_of_guards sound arrived
      (guards.of_over sound isOver fun _ shares => shares.append_data encodes)
  | cannotSend isOver failed =>
    obtain ⟨_, _, rfl⟩ := encode_frame_of_error failed
    rw [Call.handedIn, List.append_nil]
    change Guarding _ _ _ (sent ++ []) _
    rw [List.append_nil]
    exact guarding_of_guards sound arrived
      (guards.of_over sound isOver fun _ shares => shares.of_encode_error failed)
  | notEstablished unfinished => exact same

theorem Guarding.perform (reachable : session.Reachable)
    (guarding : session.Guarding settings source received sent) (call : Call) :
    (session.perform call).2.Guarding settings source (received ++ call.handedIn)
      (sent ++ (session.perform call).1.emitted) := by
  by_cases failed : session.endpoint.stage = .failed
  · obtain ⟨empty, wiped⟩ := reachable.isEmpty failed call
    rw [empty.emitted, List.append_nil]
    exact guarding.of_failed wiped.failed wiped.secrets
  · have orderly := reachable.orderly.resolve_right failed
    exact guarding_of_performs orderly guarding (orderly.performs call)

theorem Guarding.performAll (reachable : session.Reachable)
    (guarding : session.Guarding settings source received sent) (calls : List Call) :
    (session.performAll calls).2.Guarding settings source (received ++ calls.flatMap Call.handedIn)
      (sent ++ (session.performAll calls).1.flatMap Reply.emitted) := by
  induction calls generalizing session received sent with
  | nil => simpa [Session.performAll] using guarding
  | cons call calls ih =>
    have later := ih (reachable.perform call) (guarding.perform reachable call)
    rw [performAll_cons, List.flatMap_cons, List.flatMap_cons]
    rwa [List.append_assoc, List.append_assoc] at later

/-- A client that was started guards its secret from the first. -/
theorem guarding_start {phase : ClientPhase} (reachable : session.Reachable)
    (client : session.endpoint.role = .client settings phase)
    (fresh : session.endpoint.stage = .initial) :
    session.start.2.Guarding settings session.endpoint.source [] [] ∧
      ∀ records, session.start.1 = .ok records → ∃ random next hello,
        Random.draw session.endpoint.source = .ok random next ∧
        Body.encode (ClientHello.offering random settings.suites) = .ok hello ∧
        records = Record.encodePlain .handshake hello := by
  have notFailed : session.endpoint.stage ≠ .failed := by rw [fresh]; exact Stage.noConfusion
  have orderly := reachable.orderly.resolve_right notFailed
  have performs := performs_start notFailed
  generalize session.start = result at performs ⊢
  obtain ⟨answer, after⟩ := result
  dsimp only at performs ⊢
  obtain ⟨inbox, pending⟩ := orderly.fresh fresh
  cases performs with
  | starts fresh begins =>
    have clear : session.endpoint.sendProtected = false := by
      rw [orderly.endpoint.sends, Role.shape_eq_idle (orderly.endpoint.stage.symm.trans fresh)]
    obtain ⟨guards, random, hello, drawn, encoded, rfl⟩ := guards_of_begins client clear begins
    have sound := (running_of_begins orderly.endpoint fresh begins).1
    have arrived : [] = stream [] ++ session.inbox := inbox.symm
    refine ⟨guarding_of_guards sound arrived (by dsimp only; rwa [pending]), ?_⟩
    rintro _ ⟨⟩
    exact ⟨random, _, hello, drawn, encoded, rfl⟩
  | cannotStart fresh failed =>
    refine ⟨⟨fun notFailed => (notFailed rfl).elim, .nothing rfl rfl⟩, ?_⟩
    intro records started
    cases started
  | started begun => exact (begun fresh).elim

/-- Whatever is asked of a client that was started: either nothing is sent after its hello, and it
has no secrets after any of the calls, or what is sent begins with one exchange, after the server's
hello, certificates and end of its flight were received. This exchange holds 3, 3 and 46 octets that
were drawn, under the key that the first certificate spells, which is the one that is set for the
server, if one is, and the only master secret that the client ever has is derived from the same
octets and from the randoms of the two hellos. -/
theorem preMaster_only_to_checked_key {phase : ClientPhase} {calls : List Call}
    {replies : List Reply} {last : Session G} (reachable : session.Reachable)
    (client : session.endpoint.role = .client settings phase)
    (fresh : session.endpoint.stage = .initial)
    (run : session.start.2.performAll calls = (replies, last)) :
    last.Confides settings session.endpoint.source (calls.flatMap Call.handedIn)
      (replies.flatMap Reply.emitted) ∧
    (replies.flatMap Reply.emitted = [] → ∀ before after, calls = before ++ after →
      (session.start.2.performAll before).2.endpoint.secrets = none) ∧
    ∀ records, session.start.1 = .ok records → ∃ random next hello,
      Random.draw session.endpoint.source = .ok random next ∧
      Body.encode (ClientHello.offering random settings.suites) = .ok hello ∧
      records = Record.encodePlain .handshake hello := by
  obtain ⟨guarding, offers⟩ := guarding_start reachable client fresh
  have started : session.start.2.Reachable := reachable.perform .start
  have all := (guarding.performAll started calls).confides
  rw [run] at all
  refine ⟨all, fun silent before after split => ?_, offers⟩
  have upTo := (guarding.performAll started before).confides
  rw [split, performAll_append] at run
  cases run
  rw [List.flatMap_append] at silent
  rw [List.nil_append, List.nil_append, (List.append_eq_nil_iff.mp silent).1] at upTo
  exact upTo.keyless

/-- The rehearsed client confides in the server, whose key it must have. -/
theorem preMaster_only_to_checked_key_rehearsal : ∃ flight replies last,
    Rehearsal.client.Reachable ∧
    Rehearsal.client.endpoint.role = .client Rehearsal.clientSettings .idle ∧
    Rehearsal.client.endpoint.stage = .initial ∧
    Rehearsal.client.start.2.performAll [.receive flight] = (replies, last) ∧
    last.endpoint.secrets.isSome = true ∧ Rehearsal.clientSettings.pin = some Rehearsal.publicKey ∧
    ∃ serverHello certificates helloDone work back,
      Client.Entrusts Rehearsal.clientSettings Rehearsal.client.endpoint.source serverHello
        certificates helloDone work ∧
      replies.flatMap Reply.emitted = Record.encodePlain .handshake work.message ++ back := by
  obtain ⟨_, _, _, flight, _, rfl, _, _, _, agree, _⟩ := Rehearsal.pairing.exists_agreed
  obtain ⟨_, _, made⟩ := Rehearsal.pairing.clientMade
  have reachable : Rehearsal.client.Reachable := ⟨_, .client made, .refl⟩
  generalize run : Rehearsal.client.start.2.performAll [.receive flight] = result
  obtain ⟨replies, last⟩ := result
  have ends : (Rehearsal.client.start.2.receive flight).2 = last := congrArg Prod.snd run
  have later := (reachable.perform .start).perform (.receive flight)
  have known : last.endpoint.secrets.isSome = true := by
    rw [← ends]
    exact ((later.orderly_of_established agree.clientOver).endpoint.established
      agree.clientOver).2.1
  refine ⟨flight, replies, last, reachable, rfl, rfl, run, known, rfl, ?_⟩
  obtain ⟨confides, _⟩ := preMaster_only_to_checked_key reachable rfl rfl run
  cases confides with
  | nothing silent keyless =>
    rw [keyless] at known
    cases known
  | secret arrived holds entrusts given => exact ⟨_, _, _, _, _, entrusts, given⟩

end Session

end TransportSecurity
