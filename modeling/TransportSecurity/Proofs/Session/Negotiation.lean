import TransportSecurity.Proofs.Message.Unreadable
import TransportSecurity.Proofs.Session.Meeting
import TransportSecurity.Proofs.Trapping.Servable

/-!
What a server makes of a client's hello.

A server consents to a hello, with the first of its suites that is offered (`Server.Consents`), or
it has one objection, the first in the order in which it looks (`Server.Objects`). If it consents it
sends its hello, its certificates and the end of its flight; an objection fails the session
(`Session.receive_clientHello`).
-/

namespace TransportSecurity

namespace Version

theorem atLeast_current_iff {version : Version} :
    version.atLeast .current = true ↔
      3 < version.major ∨ version.major = 3 ∧ 3 ≤ version.minor := by
  simp only [atLeast, Bool.or_eq_true, Bool.and_eq_true, decide_eq_true_eq]
  rw [eq_comm (a := current.major)]
  rfl

end Version

/-- No suite is chosen if none of the preferred ones is offered. -/
theorem Suite.choose?_eq_none {preferred offered : List Suite} :
    choose? preferred offered = none ↔ ∀ suite ∈ preferred, suite ∉ offered := by
  simp [choose?]

namespace ServerHello

/-- The octets of a hello: type 2, 38 octets, version 3.3, the random octets, no session, the suite,
and the null compression. -/
def octets (random : Random) (suite : Suite) : Octets :=
  [2, 0, 0, 38, 3, 3] ++ random.val ++ [0] ++ Field.word suite ++ [0]

theorem encode_choosing (random : Random) (suite : Suite) :
    Body.encode (choosing random suite) = .ok (octets random suite) := by
  have written : Body.write (choosing random suite) = .ok ([3, 3] ++ (random.val ++ ([0] ++
      (Field.word suite ++ [0])))) := rfl
  have length : ([3, 3] ++ (random.val ++ ([0] ++ (Field.word suite ++ [0])))).length = 38 := by
    simp only [List.length_append, List.length_cons, random.property, Field.word,
      Octets.length_bigEndian, List.length_nil]
  refine Body.encode_eq_ok.mpr ⟨_, written, by rw [length]; decide, ?_⟩
  rw [length, octets]
  simp only [List.append_assoc]
  rfl

theorem carries_octets (random : Random) (suite : Suite) :
    Carries (choosing random suite) (octets random suite) := by
  obtain ⟨message, carries⟩ := Carries.serverHello random suite
  cases carries.encoded.symm.trans (encode_choosing random suite)
  exact carries

end ServerHello

namespace Server

variable {settings : ServerSettings} {message : Octets} {hello : ClientHello} {suite : Suite}

/-- A server can go on with a hello: it reads it, the version is 3.3 or later, null compression is
offered, and the suite is the first of its own that is offered. -/
structure Consents (settings : ServerSettings) (message : Octets) (hello : ClientHello)
    (suite : Suite) : Prop where
  read : Body.decode ClientHello message = .ok hello
  recent : 3 < hello.version.major ∨ hello.version.major = 3 ∧ 3 ≤ hello.version.minor
  null : 0 ∈ hello.compression
  offered : suite ∈ hello.suites
  first : ∃ before after, settings.suites = before ++ suite :: after ∧
    ∀ other ∈ before, other ∉ hello.suites

/-- What a server has against a hello, in the order in which it looks, with the error and the alert
that say so. -/
inductive Objects (settings : ServerSettings) (message : Octets) : Error → AlertDescription → Prop
  | unreadable {error : Error} (unread : Body.decode ClientHello message = .error error) :
    Objects settings message error .decodeError
  | tooOld {hello : ClientHello} (read : Body.decode ClientHello message = .ok hello)
    (old : ¬(3 < hello.version.major ∨ hello.version.major = 3 ∧ 3 ≤ hello.version.minor)) :
    Objects settings message (.unsupportedVersion hello.version.major hello.version.minor)
      .protocolVersion
  | compressed {hello : ClientHello} (read : Body.decode ClientHello message = .ok hello)
    (recent : 3 < hello.version.major ∨ hello.version.major = 3 ∧ 3 ≤ hello.version.minor)
    (insists : 0 ∉ hello.compression) :
    Objects settings message .invalidCompression .handshakeFailure
  | apart {hello : ClientHello} (read : Body.decode ClientHello message = .ok hello)
    (recent : 3 < hello.version.major ∨ hello.version.major = 3 ∧ 3 ≤ hello.version.minor)
    (null : 0 ∈ hello.compression)
    (nothing : ∀ suite ∈ settings.suites, suite ∉ hello.suites) :
    Objects settings message .noSharedSuite .handshakeFailure

theorem offersNull_iff : hello.offersNull = true ↔ 0 ∈ hello.compression := by
  simp [ClientHello.offersNull, CompressionList.null]

/-- A server consents to a hello that offers one of its suites, if nothing else is against it. -/
theorem exists_consents (read : Body.decode ClientHello message = .ok hello)
    (recent : 3 < hello.version.major ∨ hello.version.major = 3 ∧ 3 ≤ hello.version.minor)
    (null : 0 ∈ hello.compression) (shared : ∃ suite ∈ settings.suites, suite ∈ hello.suites) :
    ∃ suite, Consents settings message hello suite := by
  obtain ⟨shared, listed, offered⟩ := shared
  cases chosen : Suite.choose? settings.suites hello.suites with
  | none => exact (Suite.choose?_eq_none.mp chosen shared listed offered).elim
  | some suite =>
    obtain ⟨offered, first⟩ := Suite.choose?_eq_some.mp chosen
    exact ⟨suite, read, recent, null, offered, first⟩

/-- A server consents or objects. -/
theorem consents_or_objects (settings : ServerSettings) (message : Octets) :
    (∃ hello suite, Consents settings message hello suite) ∨
      ∃ error description, Objects settings message error description := by
  cases read : Body.decode ClientHello message with
  | error error => exact Or.inr ⟨error, _, .unreadable read⟩
  | ok hello =>
    by_cases recent : 3 < hello.version.major ∨ hello.version.major = 3 ∧ 3 ≤ hello.version.minor
    · by_cases null : 0 ∈ hello.compression
      · by_cases shared : ∃ suite ∈ settings.suites, suite ∈ hello.suites
        · exact Or.inl ⟨hello, exists_consents read recent null shared⟩
        · refine Or.inr ⟨_, _, .apart read recent null fun suite listed offered => ?_⟩
          exact shared ⟨suite, listed, offered⟩
      · exact Or.inr ⟨_, _, .compressed read recent null⟩
    · exact Or.inr ⟨_, _, .tooOld read recent⟩

variable {G : Type} [Entropy G] {e : Endpoint G} {error : Error} {description : AlertDescription}

/-- A server that objects says so, and leaves everything as it was. -/
theorem Objects.refused (objects : Objects settings message error description) :
    receiveHello settings message e = .error error e := by
  cases objects with
  | unreadable unread => exact bind_of_error (ofExcept_eq_error.mpr ⟨unread, rfl⟩)
  | tooOld read old =>
    rw [receiveHello, bind_of_ok (ofExcept_eq_ok.mpr ⟨read, rfl⟩),
      if_neg (mt Version.atLeast_current_iff.mp old)]
    rfl
  | compressed read recent insists =>
    rw [receiveHello, bind_of_ok (ofExcept_eq_ok.mpr ⟨read, rfl⟩),
      if_pos (Version.atLeast_current_iff.mpr recent), if_neg (mt offersNull_iff.mp insists)]
    rfl
  | apart read recent null nothing =>
    rw [receiveHello, bind_of_ok (ofExcept_eq_ok.mpr ⟨read, rfl⟩),
      if_pos (Version.atLeast_current_iff.mpr recent), if_pos (offersNull_iff.mpr null),
      Suite.choose?_eq_none.mpr nothing]
    rfl

/-- The error of an objection is reported with its alert. -/
theorem Objects.alert? (objects : Objects settings message error description)
    (type : MessageType.ofMessage message = .ok .clientHello) :
    error.alert? = some description := by
  cases objects with
  | unreadable unread =>
    rcases ClientHello.decode_eq_error type unread with rfl | rfl <;> rfl
  | tooOld => rfl
  | compressed => rfl
  | apart => rfl

/-- There is one objection at most: two different ones disagree about something in the hello. -/
theorem Objects.unique (objects : Objects settings message error description) {error' : Error}
    {description' : AlertDescription} (objects' : Objects settings message error' description') :
    error = error' ∧ description = description' := by
  cases objects <;> cases objects' <;> grind

/-- What a server that consents to a hello sends and becomes, given the random octets that it has
drawn. -/
structure Greets (settings : ServerSettings) (message : Octets) (random : Random) (source : G)
    (e : Endpoint G) (hello : ClientHello) (suite : Suite) (records : Octets) (f : Endpoint G) :
    Prop where
  consents : Consents settings message hello suite
  greeting : ∃ (certificates : Octets) (pieces : List Octets),
    Body.encode (Certificates.mk settings.identity.certificateList) = .ok certificates ∧
    pieces.flatten = ServerHello.octets random suite ++ certificates ++ [14, 0, 0, 0] ∧
    (∀ piece ∈ pieces, piece.length ≤ Record.maxPiece) ∧
    pieces.flatMap (Record.plainRecord .handshake) = records ∧
    { e with
      suite
      clientRandom := some hello.random
      serverRandom := some random
      source
      transcript := some
        ⟨[message, ServerHello.octets random suite, certificates, [14, 0, 0, 0]]⟩
      role := .server settings .clientKeyExchange } = f

/-- A server that consents to a hello greets the client. -/
theorem Consents.greets {random : Random} {source : G}
    (consents : Consents settings message hello suite) (clear : e.sendProtected = false)
    (fresh : e.transcript = some ⟨[]⟩) (drawn : Random.draw e.source = .ok random source)
    (room : 3 + settings.identity.listLength ≤ 0xffffff) : ∃ records f,
      receiveHello settings message e = .ok records f ∧
      Greets settings message random source e hello suite records f := by
  have fits : settings.identity.listLength < 2 ^ 24 := by omega
  obtain ⟨body, written, length⟩ :=
    @Certificates.exists_write_of_room ⟨settings.identity.certificateList⟩ fits
  have listed := Body.encode_eq_ok.mpr
    ⟨body, written, by rw [length]; exact Nat.lt_succ_of_le room, rfl⟩
  have chosen := Suite.choose?_eq_some.mpr ⟨consents.offered, consents.first⟩
  have recent := Version.atLeast_current_iff.mpr consents.recent
  refine ⟨_, _, (receiveHello_eq_ok clear).mpr ⟨[], ⟨hello, suite, random, source,
    ServerHello.octets random suite, _, [14, 0, 0, 0]⟩, ⟨consents.read, recent,
    offersNull_iff.mpr consents.null, chosen, fresh, rfl, drawn,
    ServerHello.encode_choosing random suite, listed, rfl⟩, rfl, rfl⟩, consents, _, _, listed, ?_,
    fun _ => Record.length_le_of_mem_pieces, (Record.encodePlain_eq ..).symm, rfl⟩
  rw [Record.pieces_flatten, List.append_assoc]

end Server

namespace Endpoint

variable {G : Type} [Entropy G]

/-- Before a server has a hello it sends nothing. -/
theorem kept_silent : Kept fun sent (e : Endpoint G) =>
    ∀ settings, e.role = .server settings .clientHello → sent = [] where
  opened _ silent := silent
  changed {_ e _} _ _ changed := by
    obtain ⟨_, role, changes, rfl⟩ := receiveChange_eq_ok.mp changed
    rintro settings rfl
    generalize e.role = before at changes
    cases changes
  answered {_ e _ _ _} sound _ answers := by
    have advances := (advances_answers sound answers).1
    intro settings waits
    rw [waits] at advances
    generalize e.role = before at advances
    cases advances

end Endpoint

namespace Rehearsal

/-- A hello of version 3.`minor` that offers two suites, the weaker one first. -/
def asking (minor : UInt8) : ClientHello where
  version := ⟨3, minor⟩
  random := ⟨List.replicate 32 7, List.length_replicate ..⟩
  sessionId := []
  suites := [Suite.rsaAes128Sha, Suite.rsaAes256Sha256]
  compression := [0]
  extensions := none

/-- The same hello as it fills a record. -/
def asked (minor : UInt8) : Fragment where
  version := .current
  payload := [1, 0, 0, 43, 3, minor] ++ List.replicate 32 7 ++ [0, 0, 4, 0, 0x2f, 0, 0x3d, 1, 0]
  known := ⟨rfl, Nat.le_refl 3⟩
  short := by simp [Record.maxFragment]

end Rehearsal

namespace Session

open Endpoint

variable {G : Type} [Entropy G] {session : Session G} {settings : ServerSettings}
  {octets message : Octets} {e : Endpoint G} {random : Random} {source : G}

/-- A message with the type of a hello, handed to a server that waits for one, is handled as a
hello. -/
theorem receiveMessage_clientHello (waits : e.role = .server settings .clientHello)
    (type : MessageType.ofMessage message = .ok .clientHello) :
    receiveMessage message e = Server.receiveHello settings message e := by
  rw [receiveMessage, get_bind, type, waits]
  rfl

/-- Where a message is met, the endpoint's parts fit together, and its session has not failed. -/
theorem Meets.coherent (meets : session.Meets octets message e) (reachable : session.Reachable) :
    session.Orderly ∧ e.Sound ∧ e.Coherent := by
  have notFailed : session.endpoint.stage ≠ .failed := by
    rcases meets.1 with active | active <;> rw [active] <;> exact Stage.noConfusion
  obtain ⟨orderly, coherent⟩ := reachable.coherent notFailed
  obtain ⟨first, made, becomes⟩ := reachable
  obtain ⟨_, fits, _⟩ := meets.answered (f := e) kept_coherent orderly coherent
  exact ⟨orderly, (meets.faithful made becomes).1, fits⟩

/-- What a server does with a message of the type of a hello, wherever in a call it comes, as long
as its certificates fit a message and it has random octets. It goes on exactly if the message can be
read, its version is 3.3 or later, it offers null compression, and it offers one of the server's
suites. Then the suite is the first of the server's that is offered, and what is sent is the
server's hello, its certificates and the end of its flight, in the clear, unless the call fails
later on. Otherwise the session fails with the first objection and its alert, without a suite or
secrets. -/
theorem receive_clientHello (reachable : session.Reachable)
    (meets : session.Meets octets message e) (waits : e.role = .server settings .clientHello)
    (type : MessageType.ofMessage message = .ok .clientHello)
    (room : 3 + settings.identity.listLength ≤ 0xffffff)
    (drawn : Random.draw e.source = .ok random source) :
    ((∃ records f, receiveMessage message e = .ok records f) ↔
      ∃ hello, Body.decode ClientHello message = .ok hello ∧
        (3 < hello.version.major ∨ hello.version.major = 3 ∧ 3 ≤ hello.version.minor) ∧
        0 ∈ hello.compression ∧ ∃ suite ∈ settings.suites, suite ∈ hello.suites) ∧
    (∀ records f, receiveMessage message e = .ok records f →
      (∃ hello suite, Server.Greets settings message random source e hello suite records f) ∧
      ((session.receive octets).1.failure? = none →
        records <+: (session.receive octets).1.answer)) ∧
    ((∀ records f, receiveMessage message e ≠ .ok records f) →
      ∃ error description last, Server.Objects settings message error description ∧
        session.receive octets = (.failed ⟨error,
          some (Record.encodePlain .alert (Alert.fatal description).encode)⟩, last) ∧
        last.Wiped ∧ last.endpoint.suite = Suite.unprotected) := by
  obtain ⟨orderly, sound, coherent⟩ := meets.coherent reachable
  have clear : e.sendProtected = false := by rw [sound.sends, waits]; rfl
  obtain ⟨messages, fresh, length⟩ := sound.filled (n := 0) (by rw [waits]; rfl)
  obtain rfl : messages = [] := List.eq_nil_of_length_eq_zero length
  have handles := receiveMessage_clientHello waits type
  -- either it consents and goes on, or it objects and stays as it was: the parts follow from these
  have refuses {error : Error} {description : AlertDescription}
      (objects : Server.Objects settings message error description) :
      receiveMessage message e = .error error e := handles.trans objects.refused
  refine ⟨⟨?_, ?_⟩, ?_, ?_⟩
  · rintro ⟨records, f, took⟩
    rcases Server.consents_or_objects settings message with
      ⟨hello, suite, consents⟩ | ⟨error, description, objects⟩
    · obtain ⟨before, after, listed, _⟩ := consents.first
      exact ⟨hello, consents.read, consents.recent, consents.null, suite, by rw [listed]; simp,
        consents.offered⟩
    · cases took.symm.trans (refuses objects)
  · rintro ⟨hello, read, recent, null, shared⟩
    obtain ⟨suite, consents⟩ := Server.exists_consents read recent null shared
    obtain ⟨records, f, took, _⟩ := consents.greets clear fresh drawn room
    exact ⟨records, f, handles.trans took⟩
  · intro records f took
    rcases Server.consents_or_objects settings message with
      ⟨hello, suite, consents⟩ | ⟨error, description, objects⟩
    · obtain ⟨_, _, took', greets⟩ := consents.greets clear fresh drawn room
      cases took.symm.trans (handles.trans took')
      obtain ⟨said, silent, answered⟩ := meets.answered kept_silent orderly fun _ _ => rfl
      refine ⟨⟨hello, suite, greets⟩, fun fine => ?_⟩
      have front := answered took fine
      rwa [silent settings waits, List.nil_append] at front
    · cases took.symm.trans (refuses objects)
  · intro stuck
    rcases Server.consents_or_objects settings message with
      ⟨hello, suite, consents⟩ | ⟨error, description, objects⟩
    · obtain ⟨records, f, took, _⟩ := consents.greets clear fresh drawn room
      exact (stuck records f (handles.trans took)).elim
    · refine ⟨error, description, ({ session with endpoint := e }.fail error).2, objects, ?_,
        wiped_fail .., coherent.before (by rw [waits]; rfl)⟩
      rw [meets.refused orderly (refuses objects)]
      simp only [fail, alertRecords, clear, objects.alert? type]

/-- The rehearsed server picks the suite that it prefers out of a hello that lists it last, and
fails on the same hello with version 3.2. -/
theorem receive_clientHello_rehearsal : ∃ (session last : Session Reproducible) (random : Random)
    (source : Reproducible) (records : Octets) (f : Endpoint Reproducible), session.Reachable ∧
    session.endpoint.role = .server Rehearsal.serverSettings .clientHello ∧
    (∀ minor ∈ [2, 3], session.Meets (Rehearsal.asked minor).record (Rehearsal.asked minor).payload
      session.endpoint ∧
      MessageType.ofMessage (Rehearsal.asked minor).payload = .ok .clientHello) ∧
    3 + Rehearsal.serverSettings.identity.listLength ≤ 0xffffff ∧
    Random.draw session.endpoint.source = .ok random source ∧
    receiveMessage (Rehearsal.asked 3).payload session.endpoint = .ok records f ∧
    Server.Greets Rehearsal.serverSettings (Rehearsal.asked 3).payload random source
      session.endpoint (Rehearsal.asking 3) Suite.rsaAes256Sha256 records f ∧
    session.receive (Rehearsal.asked 2).record = (.failed ⟨.unsupportedVersion 3 2,
      some (Record.encodePlain .alert (Alert.fatal .protocolVersion).encode)⟩, last) ∧
    last.Wiped ∧ last.endpoint.suite = Suite.unprotected := by
  obtain ⟨_, lasting, made⟩ := Rehearsal.pairing.serverMade
  have reachable : Rehearsal.server.start.2.Reachable := ⟨_, .server made, .start .refl⟩
  have started := congrArg Prod.snd (server_start made)
  generalize Rehearsal.server.start.2 = session at reachable started
  obtain ⟨random, source, drawn, _⟩ := lasting.demand 32
  have decoded : ∀ minor ∈ [2, 3], Body.decode ClientHello (Rehearsal.asked minor).payload =
      .ok (Rehearsal.asking minor) := by decide +kernel
  have type : ∀ minor ∈ [2, 3],
      MessageType.ofMessage (Rehearsal.asked minor).payload = .ok .clientHello := by decide +kernel
  have meets (minor : UInt8) (among : minor ∈ [2, 3]) := @meets_of_fragment _ _ session _
    (by rw [started]; exact ⟨rfl, rfl⟩) (by rw [started]) (by rw [started])
    (Body.isWhole_of_decode (decoded minor among))
  have room : 3 + Rehearsal.serverSettings.identity.listLength ≤ 0xffffff := by decide +kernel
  have waits : session.endpoint.role = .server Rehearsal.serverSettings .clientHello := by
    rw [started]
  have drawn : Random.draw session.endpoint.source = .ok random source := by
    rw [started]
    exact drawn
  have three : (3 : UInt8) ∈ [2, 3] := by decide
  have two : (2 : UInt8) ∈ [2, 3] := by decide
  obtain ⟨proceeds, greets, _⟩ :=
    receive_clientHello reachable (meets 3 three) waits (type 3 three) room drawn
  have shared : ∃ suite ∈ Rehearsal.serverSettings.suites, suite ∈ (Rehearsal.asking 3).suites := by
    decide
  obtain ⟨records, f, took⟩ := proceeds.mpr ⟨_, decoded 3 three, Or.inr ⟨rfl, Nat.le_refl 3⟩,
    List.mem_singleton_self 0, shared⟩
  obtain ⟨⟨hello, suite, greets⟩, _⟩ := greets records f took
  obtain rfl : hello = Rehearsal.asking 3 :=
    Except.ok.inj (greets.consents.read.symm.trans (decoded 3 three))
  have chosen := Suite.choose?_eq_some.mpr ⟨greets.consents.offered, greets.consents.first⟩
  obtain rfl : Suite.rsaAes256Sha256 = suite := Option.some.inj chosen
  have old : Server.Objects Rehearsal.serverSettings (Rehearsal.asked 2).payload
      (.unsupportedVersion 3 2) .protocolVersion := .tooOld (decoded 2 two) (by decide)
  obtain ⟨_, _, refuses⟩ :=
    receive_clientHello reachable (meets 2 two) waits (type 2 two) room drawn
  have refused := (receiveMessage_clientHello waits (type 2 two)).trans old.refused
  obtain ⟨error, description, last, objects, failed, wiped, unprotected⟩ :=
    refuses fun _ _ took' => by cases took'.symm.trans refused
  obtain ⟨rfl, rfl⟩ := @Server.Objects.unique _ _ _ _ old _ _ objects
  exact ⟨session, last, random, source, records, f, reachable, waits,
    fun minor among => ⟨meets minor among, type minor among⟩, room, drawn, took, greets, failed,
    wiped, unprotected⟩

end Session

end TransportSecurity
