import TransportSecurity.Proofs.Session.Meeting
import TransportSecurity.Proofs.Session.Refusals

/-!
What a server makes of a key exchange.

A ciphertext either yields a pre-master secret, 48 octets that begin with the version 3.3, or it
does not, and whatever the reason, the server fails in one and the same way and is the same after
it. A ciphertext that yields one is accepted, and the secrets come from what it yields and from the
random octets of the hellos (`Session.receive_keyExchange`).
-/

namespace TransportSecurity

namespace Identity

/-- A ciphertext decrypts to a pre-master secret: 48 octets, of which the first say 3.3. -/
def Yields (identity : Identity) (ciphertext secret : Octets) : Prop :=
  Rsa.decrypt? identity.privateKey (identity.blinding ciphertext) ciphertext = some secret ∧
    secret.length = 48 ∧
    secret.take 2 = [3, 3]

variable {identity : Identity} {ciphertext secret : Octets}

theorem decryptPreMaster_eq_ok :
    identity.decryptPreMaster ciphertext = .ok secret ↔ identity.Yields ciphertext secret := by
  rw [decryptPreMaster, Yields]
  cases Rsa.decrypt? identity.privateKey (identity.blinding ciphertext) ciphertext with
  | none => simp
  | some found =>
    dsimp only
    split
    · next holds =>
      constructor
      · rintro ⟨⟩
        exact ⟨rfl, holds⟩
      · rintro ⟨⟨⟩, _⟩
        rfl
    · next fails =>
      constructor
      · intro accepted
        cases accepted
      · rintro ⟨⟨⟩, holds⟩
        exact (fails holds).elim

/-- What cannot be decrypted yields nothing. -/
theorem not_yields_of_none
    (none : Rsa.decrypt? identity.privateKey (identity.blinding ciphertext) ciphertext = none) :
    ∀ secret, ¬identity.Yields ciphertext secret := by
  rintro secret ⟨decrypted, _⟩
  cases none.symm.trans decrypted

/-- A ciphertext that yields nothing fails in one way, whether it cannot be decrypted or decrypts to
something of another length or another version. -/
theorem decryptPreMaster_of_not_yields (nothing : ∀ secret, ¬identity.Yields ciphertext secret) :
    identity.decryptPreMaster ciphertext = .error .decryptionFailed := by
  rw [decryptPreMaster]
  cases decrypted : Rsa.decrypt? identity.privateKey (identity.blinding ciphertext) ciphertext with
  | none => rfl
  | some secret => exact if_neg fun found => nothing secret ⟨decrypted, found.1, found.2⟩

end Identity

/-- A message that is a key exchange is not longer than what is waited for. -/
theorem ClientKeyExchange.length_of_decode {message : Octets} {exchange : ClientKeyExchange}
    (decoded : Body.decode ClientKeyExchange message = .ok exchange) :
    message.length ≤ Body.headerLength + Assembly.maxLength := by
  obtain ⟨body, _, rfl, read⟩ := Body.decode_eq_ok.mp decoded
  obtain ⟨formed, written⟩ := ClientKeyExchange.scan_eq_ok.mp read
  have spelled : Field.sized16 exchange.encrypted = body := Except.ok.inj written
  have short : exchange.encrypted.length ≤ 65535 := formed
  simp only [← spelled, Field.sized16, List.length_cons, List.length_append,
    Octets.length_bigEndian, Body.headerLength, Assembly.maxLength]
  omega

namespace Endpoint

variable {G : Type} {e : Endpoint G} {settings : ServerSettings} {message secret : Octets}
  {exchange : ClientKeyExchange}

/-- A ciphertext that yields nothing leaves the endpoint as it is. -/
theorem receiveKeyExchange_of_not_yields
    (decoded : Body.decode ClientKeyExchange message = .ok exchange)
    (nothing : ∀ secret, ¬settings.identity.Yields exchange.encrypted secret) :
    Server.receiveKeyExchange settings message e = .error .decryptionFailed e := by
  refine bind_eq_error.mpr (Or.inr ⟨exchange, e, ofExcept_eq_ok.mpr ⟨decoded, rfl⟩, ?_⟩)
  rw [Identity.decryptPreMaster_of_not_yields nothing]
  rfl

/-- An endpoint that has accepted a key exchange: it remembers the message, and its secrets are made
of the pre-master secret and the random octets of both hellos. -/
def Keyed (e : Endpoint G) (settings : ServerSettings) (message secret : Octets)
    (f : Endpoint G) : Prop :=
  ∃ messages client server parameters keys, e.transcript = some ⟨messages⟩ ∧
    e.clientRandom = some client ∧ e.serverRandom = some server ∧
    e.suite.parameters = .ok parameters ∧
    KeyBlock.derive parameters (KeySchedule.master secret client.val server.val) server.val
      client.val = .ok keys ∧
    { e with
      transcript := some ⟨messages ++ [message]⟩
      secrets := some ⟨KeySchedule.master secret client.val server.val, keys⟩
      role := .server settings .changeCipherSpec } = f

/-- A ciphertext that yields a pre-master secret is accepted. -/
theorem receiveKeyExchange_of_yields (sound : e.Sound) (coherent : e.Coherent)
    (waits : e.role = .server settings .clientKeyExchange)
    (decoded : Body.decode ClientKeyExchange message = .ok exchange)
    (yields : settings.identity.Yields exchange.encrypted secret) :
    ∃ f, e.Keyed settings message secret f ∧
      Server.receiveKeyExchange settings message e = .ok () f := by
  obtain ⟨messages, found, length⟩ := sound.filled (n := 4) (by rw [waits]; rfl)
  obtain ⟨client, server, offered, chosen⟩ :=
    sound.randoms (by rw [waits]; rfl) (by rw [waits]; rfl)
  obtain ⟨parameters, keys, suite, derived, _⟩ := KeyBlock.derive_of_isSupported
    (coherent.isSupported (by rw [waits]; rfl)) (KeySchedule.master secret client.val server.val)
    server.val client.val
  refine ⟨_, ⟨messages, client, server, parameters, keys, found, offered, chosen, suite, derived,
    rfl⟩, ?_⟩
  exact Server.receiveKeyExchange_eq_ok.mpr ⟨exchange, secret, messages, parameters, client, server,
    keys, decoded, Identity.decryptPreMaster_eq_ok.mpr yields, found, length, suite, offered,
    chosen, derived, rfl⟩

/-- A server that waits for a key exchange handles a message that is one. -/
theorem receiveMessage_keyExchange [Entropy G]
    (waits : e.role = .server settings .clientKeyExchange)
    (decoded : Body.decode ClientKeyExchange message = .ok exchange) :
    receiveMessage message e =
      (do Server.receiveKeyExchange settings message; return [] : Step G Octets) e := by
  obtain ⟨body, _, spelled, _⟩ := Body.decode_eq_ok.mp decoded
  have type : MessageType.ofMessage message = .ok .clientKeyExchange :=
    MessageType.ofMessage_eq_ok.mpr ⟨_, spelled⟩
  rw [receiveMessage, get_bind, type, waits]
  rfl

end Endpoint

namespace Session

open Endpoint

variable {G : Type} [Entropy G] {session : Session G} {settings : ServerSettings}

omit [Entropy G] in
/-- A server that waits for a key exchange sends and receives in the clear. -/
theorem Orderly.clear_of_keyExchange (orderly : session.Orderly)
    (waits : session.endpoint.role = .server settings .clientKeyExchange) :
    session.endpoint.InClear ∧ session.endpoint.sendProtected = false := by
  have sound := orderly.endpoint
  refine ⟨⟨?_, ?_⟩, ?_⟩
  · rw [sound.stage, waits]
    rfl
  · rw [sound.receives, waits]
    rfl
  · rw [sound.sends, waits]
    rfl

/-- What becomes of a server that gets a ciphertext that yields nothing does not depend on the
ciphertext. -/
theorem receive_of_not_yields {fragment : Fragment} {exchange : ClientKeyExchange}
    (orderly : session.Orderly)
    (waits : session.endpoint.role = .server settings .clientKeyExchange)
    (inbox : session.inbox = []) (pending : session.pending = [])
    (decoded : Body.decode ClientKeyExchange fragment.payload = .ok exchange)
    (nothing : ∀ secret, ¬settings.identity.Yields exchange.encrypted secret) :
    session.receive fragment.record = (.failed ⟨.decryptionFailed,
        some (Record.encodePlain .alert (Alert.fatal .decryptionFailed).encode)⟩,
      (session.fail .decryptionFailed).2) := by
  obtain ⟨clear, silent⟩ := orderly.clear_of_keyExchange waits
  have refused : receiveMessage fragment.payload session.endpoint =
      .error .decryptionFailed session.endpoint := by
    rw [receiveMessage_keyExchange waits decoded,
      bind_of_error (receiveKeyExchange_of_not_yields decoded nothing)]
  have meets := meets_of_fragment clear inbox pending (Body.isWhole_of_decode decoded)
  rw [meets.refused orderly refused]
  simp only [fail, alertRecords, silent]
  rfl

/-- A server that waits for a key exchange and has nothing in its buffers gets one in the clear. If
the ciphertext yields no pre-master secret, the server fails, and whatever is wrong with it, what
the call returns and the session after it are the same. If it yields one, the server accepts it, in
one record or in many. -/
theorem receive_keyExchange (reachable : session.Reachable)
    (notFailed : session.endpoint.stage ≠ .failed)
    (waits : session.endpoint.role = .server settings .clientKeyExchange)
    (inbox : session.inbox = []) (pending : session.pending = []) :
    (∀ (first second : Fragment) (a b : ClientKeyExchange),
      Body.decode ClientKeyExchange first.payload = .ok a →
      Body.decode ClientKeyExchange second.payload = .ok b →
      (∀ secret, ¬settings.identity.Yields a.encrypted secret) →
      (∀ secret, ¬settings.identity.Yields b.encrypted secret) →
      session.receive first.record = session.receive second.record ∧
      session.receive first.record = (.failed ⟨.decryptionFailed,
          some (Record.encodePlain .alert (Alert.fatal .decryptionFailed).encode)⟩,
        (session.fail .decryptionFailed).2)) ∧
    ∀ (message secret : Octets) (exchange : ClientKeyExchange),
      Body.decode ClientKeyExchange message = .ok exchange →
      settings.identity.Yields exchange.encrypted secret →
      ∃ endpoint, session.endpoint.Keyed settings message secret endpoint ∧
        (∀ fragment : Fragment, fragment.payload = message →
          session.receive fragment.record = (.needMoreData, { session with endpoint })) ∧
        ∀ (fragments : List Fragment) (reads : List Octets),
          fragments.flatMap Fragment.payload = message →
          reads.flatten = fragments.flatMap Fragment.record →
          Outcome.firstFailure? (session.receiveAll reads).1 = none ∧
            Outcome.answers (session.receiveAll reads).1 = [] ∧
            (session.receiveAll reads).2 = { session with endpoint } := by
  obtain ⟨orderly, coherent⟩ := reachable.coherent notFailed
  obtain ⟨clear, _⟩ := orderly.clear_of_keyExchange waits
  constructor
  · intro first second a b decoded decoded' nothing nothing'
    have fails := receive_of_not_yields orderly waits inbox pending decoded nothing
    have fails' := receive_of_not_yields orderly waits inbox pending decoded' nothing'
    exact ⟨fails.trans fails'.symm, fails⟩
  · intro message secret exchange decoded yields
    have whole := Body.isWhole_of_decode decoded
    obtain ⟨endpoint, accepts, took⟩ :=
      receiveKeyExchange_of_yields orderly.endpoint coherent waits decoded yields
    have answers := (receiveMessage_keyExchange waits decoded).trans (bind_of_ok took)
    refine ⟨endpoint, accepts, ?_, ?_⟩
    · rintro fragment rfl
      exact receive_of_fragment orderly.endpoint clear inbox pending whole answers
    · intro fragments reads payload arrived
      have tells := tells_of_fragments (reachable.ready (Or.inl clear.1)) clear
        reachable.collecting (by rw [inbox]; exact arrived)
      rw [pending, payload, List.nil_append, receiveStream_of_message whole
        (ClientKeyExchange.length_of_decode decoded) answers] at tells
      generalize session.receiveAll reads = told at tells ⊢
      cases tells with
      | handled fine said => exact ⟨fine, said, by rw [inbox, pending]⟩

/-- After its flight the rehearsed server waits for a key exchange, and the rehearsed client makes
one. -/
theorem exists_keyExchange : ∃ (session : Session Reproducible) (message secret : Octets)
    (exchange : ClientKeyExchange), session.Reachable ∧ session.endpoint.stage ≠ .failed ∧
    session.endpoint.role = .server Rehearsal.serverSettings .clientKeyExchange ∧
    session.inbox = [] ∧ session.pending = [] ∧
    Body.decode ClientKeyExchange message = .ok exchange ∧
    Rehearsal.identity.Yields exchange.encrypted secret := by
  obtain ⟨_, supplied⟩ := Rehearsal.pairing.exists_supplied
  obtain ⟨hello, e, f, clientStarts, serverStarts, _, ⟨serverClear, serverSound⟩, ⟨handshake⟩⟩ :=
    supplied.exists_start
  obtain ⟨_, _, made⟩ := Rehearsal.pairing.serverMade
  obtain ⟨script, spelled, _, _, opened, takes, clear⟩ :=
    takes_encodePlain handshake.answers serverClear
  rw [List.flatten_singleton] at spelled
  have arrived : ([] : Octets) ++ Record.encodePlain .handshake hello =
      Handled.stream script ++ [] := by
    rw [spelled, List.append_nil, List.nil_append]
  have received : (Rehearsal.server.start.2.receive (Record.encodePlain .handshake hello)).2 =
      { endpoint := handshake.answered } := by
    rw [serverStarts, receive_eq_drain (Or.inl serverClear.1),
      drain_of_takes (by exact takes) opened arrived, drain_of_nothing rfl]
  have reachable : Session.Reachable { endpoint := handshake.answered } := by
    rw [← received]
    exact ⟨_, .server made, .receive (.start .refl) _⟩
  have running : handshake.answered.stage ≠ .failed := by
    rw [clear.1]
    exact Stage.noConfusion
  -- what the server waits for is told by the message that it takes next
  obtain ⟨said, answers⟩ :
      ∃ said, Answers handshake.exchange handshake.answered said handshake.keyed := by
    have keys := handshake.keys
    generalize ([] : Octets) = said at keys
    cases keys with
    | cons whole short answers clear later =>
      cases later
      exact ⟨_, answers⟩
  have keyed : handshake.keyed.role = .server Rehearsal.serverSettings .changeCipherSpec :=
    congrArg Endpoint.role handshake.keyedFields
  have waits : handshake.answered.role = .server Rehearsal.serverSettings .clientKeyExchange := by
    have advances := (advances_answers (takes.sound serverSound) answers).1
    rw [keyed] at advances
    generalize handshake.answered.role = role at advances
    cases advances
    rfl
  cases answers with
  | clientKeyExchange waits' took =>
    cases waits.symm.trans waits'
    obtain ⟨exchange, secret, _, _, _, _, _, decoded, decrypted, _⟩ :=
      Server.receiveKeyExchange_eq_ok.mp took
    exact ⟨_, _, secret, exchange, reachable, running, waits, rfl, rfl, decoded,
      Identity.decryptPreMaster_eq_ok.mp decrypted⟩
  | _ waits' => cases waits.symm.trans waits'

/-- The rehearsed server answers an empty and an oversized ciphertext alike, and it accepts the one
that the rehearsed client has encrypted for it. -/
theorem receive_keyExchange_rehearsal : ∃ (session : Session Reproducible)
    (endpoint : Endpoint Reproducible) (first second : Fragment) (a b exchange : ClientKeyExchange)
    (message secret : Octets), session.Reachable ∧ session.endpoint.stage ≠ .failed ∧
    session.endpoint.role = .server Rehearsal.serverSettings .clientKeyExchange ∧
    session.inbox = [] ∧ session.pending = [] ∧
    Body.decode ClientKeyExchange first.payload = .ok a ∧
    Body.decode ClientKeyExchange second.payload = .ok b ∧
    (∀ secret, ¬Rehearsal.identity.Yields a.encrypted secret) ∧
    (∀ secret, ¬Rehearsal.identity.Yields b.encrypted secret) ∧
    a.encrypted = [] ∧ b.encrypted = List.replicate 61 255 ∧
    session.receive first.record = session.receive second.record ∧
    Body.decode ClientKeyExchange message = .ok exchange ∧
    Rehearsal.identity.Yields exchange.encrypted secret ∧
    session.endpoint.Keyed Rehearsal.serverSettings message secret endpoint ∧
    (session.receiveAll [Record.encodePlain .handshake message]).2 = { session with endpoint } := by
  obtain ⟨session, message, secret, exchange, reachable, notFailed, waits, inbox, pending, decoded,
    yields⟩ := exists_keyExchange
  let empty : Fragment := ⟨.current, [16, 0, 0, 2, 0, 0], ⟨rfl, Nat.le_refl 3⟩, by decide⟩
  let oversized : Fragment :=
    ⟨.current, [16, 0, 0, 63, 0, 61] ++ List.replicate 61 255, ⟨rfl, Nat.le_refl 3⟩, by decide⟩
  have emptyDecoded : Body.decode ClientKeyExchange empty.payload = .ok ⟨[]⟩ := by decide +kernel
  have oversizedDecoded : Body.decode ClientKeyExchange oversized.payload =
      .ok ⟨List.replicate 61 255⟩ := by decide +kernel
  have nothing : ∀ secret, ¬Rehearsal.identity.Yields [] secret :=
    Identity.not_yields_of_none (by decide +kernel)
  have nothingEither : ∀ secret, ¬Rehearsal.identity.Yields (List.replicate 61 255) secret :=
    Identity.not_yields_of_none (by decide +kernel)
  obtain ⟨fragments, records, payloads⟩ := @Fragment.exists_of_pieces (Record.pieces message)
    fun _ => Record.length_le_of_mem_pieces
  rw [← Record.encodePlain_eq] at records
  rw [Record.pieces_flatten] at payloads
  obtain ⟨alike, accepts⟩ := receive_keyExchange reachable notFailed waits inbox pending
  obtain ⟨endpoint, accepted, _, all⟩ := accepts _ _ _ decoded yields
  obtain ⟨_, _, last⟩ := all fragments [Record.encodePlain .handshake message] payloads
    (by rw [List.flatten_singleton, records])
  exact ⟨session, endpoint, empty, oversized, _, _, exchange, message, secret, reachable, notFailed,
    waits, inbox, pending, emptyDecoded, oversizedDecoded, nothing, nothingEither, rfl, rfl,
    (alike _ _ _ _ emptyDecoded oversizedDecoded nothing nothingEither).1, decoded, yields,
    accepted, last⟩

end Session

end TransportSecurity
