import TransportSecurity.Proofs.Session.Failing

/-!
What leaves a session, and in which order.

All that a session gives out to be sent is a `Transmission`: handshake records in the clear, and,
once this end has changed to protected records, the record that says so and protected records under
numbers that go up from zero (`Secured`). The first of these carries this end's Finished message,
the others carry the data written. The invariant is `Endpoint.HasSent`, which ties the keys and
numbers of an endpoint to what it has sent. Every message taken keeps it, every record of data too,
and a failed session sends nothing any more.
-/

namespace TransportSecurity

/-- How many messages the Finished message of an end vouches for. -/
def End.vouches : End → Nat
  | .client => Slot.clientFinished.place
  | .server => Slot.clientFinished.place + 1

namespace Sealed

variable {G : Type} [Entropy G]

/-- A record was protected under keys for what its tag vouches for. -/
def Protects (G : Type) [Entropy G] (keys : WriteKeys) (sealed : Sealed) (record : Octets) : Prop :=
  sealed.version = .current ∧ ∃ (source : G) (after : Record.Sealer G),
    Record.protectPiece keys sealed.type sealed.fragment ⟨sealed.number, source⟩ = .ok record after

/-- Pieces that are protected in a row make one record each. -/
theorem exists_records {keys : WriteKeys} {type : ContentType} {list : List Octets}
    {sealer after : Record.Sealer G} {octets : Octets}
    (made : Record.protectPieces keys type list sealer = .ok octets after) :
    ∃ records, octets = records.flatten ∧
      List.Forall₂ (Protects G keys) (row type sealer.number list) records := by
  induction list generalizing sealer octets with
  | nil =>
    obtain ⟨rfl, _⟩ := pure_eq_ok.mp made
    exact ⟨[], rfl, .nil⟩
  | cons piece list ih =>
    obtain ⟨record, between, tail, first, others, rfl⟩ := Record.protectPieces_cons.mp made
    obtain ⟨records, rfl, protects⟩ := ih others
    rw [Record.number_of_protectPiece first] at protects
    exact ⟨record :: records, rfl, .cons ⟨rfl, sealer.source, between, first⟩ protects⟩

end Sealed

/-- Handshake records in the clear. -/
def InTheClear (octets : Octets) : Prop := ∃ pieces : List Octets,
  (∀ piece ∈ pieces, piece.length ≤ Record.maxPiece) ∧
    octets = pieces.flatMap (Record.plainRecord .handshake)

namespace InTheClear

theorem nil : InTheClear [] := ⟨[], by simp, rfl⟩

theorem append {a b : Octets} (first : InTheClear a) (second : InTheClear b) :
    InTheClear (a ++ b) := by
  obtain ⟨front, short, rfl⟩ := first
  obtain ⟨back, fits, rfl⟩ := second
  refine ⟨front ++ back, ?_, List.flatMap_append.symm⟩
  intro piece found
  rcases List.mem_append.mp found with found | found
  · exact short piece found
  · exact fits piece found

theorem encodePlain (payload : Octets) : InTheClear (Record.encodePlain .handshake payload) :=
  ⟨Record.pieces payload, fun _ => Record.length_le_of_mem_pieces, rfl⟩

end InTheClear

/-- What an end sends from its change to protected records on, up to the number that it uses next:
the record that announces it, and records under its keys, numbered upwards from zero. The first
carries its Finished message, all others carry data. -/
inductive Secured (G : Type) [Entropy G] (side : End) (secrets : Secrets) :
    List Sealed → UInt64 → Octets → Prop
  | intro {transcript : Transcript} {finished : Octets} {data : List Sealed} {next : UInt64}
    {records : List Octets} (vouched : transcript.messages.length = side.vouches)
    (encoded : Body.encode (Finished.mk (KeySchedule.verifyData (KeySchedule.finishedLabel side)
      transcript.hash secrets.master)) = .ok finished)
    (type : ∀ sealed ∈ data, sealed.type = .applicationData)
    (upwards : (⟨0, .handshake, .current, finished⟩ :: data).Pairwise fun a b =>
      a.number < b.number)
    (below : ∀ sealed ∈ (⟨0, .handshake, .current, finished⟩ :: data : List Sealed),
      sealed.number.toNat < next.toNat)
    (protects : List.Forall₂ (Sealed.Protects G (secrets.keys.writer side))
      (⟨0, .handshake, .current, finished⟩ :: data) records) :
    Secured G side secrets data next
      (Record.plainRecord .changeCipherSpec ChangeCipherSpec.payload ++ records.flatten)

/-- All that an end sends, and the data in it: handshake records in the clear, and then perhaps what
follows its change to protected records. -/
inductive Transmission (G : Type) [Entropy G] (side : End) : Octets → Octets → Prop
  | clear {sent : Octets} (clear : InTheClear sent) : Transmission G side [] sent
  | secured {front back : Octets} {secrets : Secrets} {data : List Sealed} {next : UInt64}
    (clear : InTheClear front) (secured : Secured G side secrets data next back) :
    Transmission G side (Sealed.fragments data) (front ++ back)

namespace Secured

variable {G : Type} [Entropy G] {side : End} {secrets : Secrets} {data : List Sealed}
  {next : UInt64} {octets : Octets}

/-- Numbers may be left out. -/
theorem skip {later : UInt64} (secured : Secured G side secrets data next octets)
    (more : next.toNat ≤ later.toNat) : Secured G side secrets data later octets := by
  cases secured with
  | intro vouched encoded type upwards below protects =>
    refine .intro vouched encoded type upwards ?_ protects
    intro sealed found
    exact Nat.lt_of_lt_of_le (below sealed found) more

/-- Data goes on where the numbers have come to. -/
theorem append {list : List Octets} {records : Octets} {source : G} {after : Record.Sealer G}
    (secured : Secured G side secrets data next octets)
    (made : Record.protectPieces (secrets.keys.writer side) .applicationData list ⟨next, source⟩ =
      .ok records after) :
    Secured G side secrets (data ++ Sealed.row .applicationData next list) after.number
      (octets ++ records) := by
  have counted := Record.number_of_protectPieces made
  have room := after.number.toNat_lt
  rw [counted] at room
  have row := @Sealed.number_of_mem_row .applicationData _ _ room
  dsimp only at counted row
  obtain ⟨more, rfl, protectsMore⟩ := Sealed.exists_records made
  cases secured with
  | intro vouched encoded type upwards below protects =>
    rw [List.append_assoc, ← List.flatten_append]
    refine .intro vouched encoded ?_ ?_ ?_ (List.rel_append protects protectsMore)
    · intro sealed found
      rcases List.mem_append.mp found with found | found
      · exact type sealed found
      · exact Sealed.type_of_mem_row found
    · rw [← List.cons_append]
      refine List.pairwise_append.mpr ⟨upwards, Sealed.pairwise_row room, ?_⟩
      intro old before new found
      have low := below old before
      have high := (row new found).1
      rw [UInt64.lt_iff_toNat_lt]
      omega
    · rw [← List.cons_append]
      intro sealed found
      rcases List.mem_append.mp found with before | found
      · have low := below sealed before
        omega
      · have low := (row sealed found).2
        omega

end Secured

namespace Endpoint

theorem Changes.side {role next : Role} (changes : Changes role next) : next.side = role.side := by
  cases changes <;> rfl

variable {G : Type} [Entropy G] {e f : Endpoint G}

/-- What an endpoint has sent, and the data in it: before its change only handshake records in the
clear, after it also protected records under its keys and below its next number. -/
structure HasSent (written sent : Octets) (e : Endpoint G) : Prop where
  clear : e.sendProtected = false → written = [] ∧ InTheClear sent
  secured : e.sendProtected = true → ∃ front back secrets data, sent = front ++ back ∧
    written = Sealed.fragments data ∧ InTheClear front ∧ e.secrets = some secrets ∧
    Secured G e.role.side secrets data e.sendNumber back

theorem HasSent.transmission {written sent : Octets} (hasSent : e.HasSent written sent) :
    Transmission G e.role.side written sent := by
  cases change : e.sendProtected with
  | false =>
    obtain ⟨rfl, clear⟩ := hasSent.clear change
    exact .clear clear
  | true =>
    obtain ⟨front, back, secrets, data, rfl, rfl, clear, _, secured⟩ := hasSent.secured change
    exact .secured clear secured

/-- The first protected record carries the Finished message. -/
theorem secured_of_encode {side : End} {secrets : Secrets} {transcript : Transcript}
    {finished records : Octets} (encodes : encode .handshake finished e = .ok records f)
    (same : e.role.side = side) (change : e.sendProtected = true)
    (known : e.secrets = some secrets) (first : e.sendNumber = 0)
    (vouched : transcript.messages.length = side.vouches)
    (encoded : Body.encode (Finished.mk (KeySchedule.verifyData (KeySchedule.finishedLabel side)
      transcript.hash secrets.master)) = .ok finished) :
    Secured G side secrets [] f.sendNumber
      (Record.encodePlain .changeCipherSpec ChangeCipherSpec.payload ++ records) := by
  obtain ⟨proof, carries, short⟩ := Carries.finished (KeySchedule.length_expand secrets.master
    (KeySchedule.finishedLabel side) transcript.hash KeySchedule.verifyLength)
  cases carries.encoded.symm.trans encoded
  rw [encode_protected change known, same] at encodes
  obtain ⟨sealer, made, rfl⟩ := withSealer_eq_ok.mp encodes
  rw [Record.protect, Record.pieces_of_short short, first] at made
  have counted := Record.number_of_protectPieces made
  obtain ⟨list, rfl, protects⟩ := Sealed.exists_records made
  rw [encodePlain_change]
  refine .intro vouched encoded (by simp) (List.pairwise_singleton ..) ?_ protects
  intro sealed found
  rw [List.mem_singleton.mp found]
  dsimp only at counted ⊢
  rw [counted, List.length_singleton]
  decide

/-- What is still in the clear goes behind what was sent before. -/
theorem HasSent.append_clear {written sent records : Octets} (hasSent : e.HasSent written sent)
    (before : e.sendProtected = false) (after : f.sendProtected = false)
    (clear : InTheClear records) : f.HasSent written (sent ++ records) := by
  obtain ⟨nothing, front⟩ := hasSent.clear before
  refine ⟨fun _ => ⟨nothing, front.append clear⟩, fun change => ?_⟩
  cases after.symm.trans change

/-- A step that sends nothing and leaves keys, number and side alone. -/
theorem HasSent.of_same {written sent : Octets} (hasSent : e.HasSent written sent)
    (sends : f.sendProtected = e.sendProtected) (secrets : f.secrets = e.secrets)
    (number : f.sendNumber = e.sendNumber) (side : f.role.side = e.role.side) :
    f.HasSent written (sent ++ []) := by
  rw [List.append_nil]
  refine ⟨?_, ?_⟩
  · rw [sends]
    exact hasSent.clear
  · rw [sends, secrets, number, side]
    exact hasSent.secured

/-- The change to protected records goes behind what was sent in the clear. -/
theorem HasSent.append_secured {written sent records front back : Octets} {secrets : Secrets}
    (hasSent : e.HasSent written sent) (before : e.sendProtected = false)
    (after : f.sendProtected = true) (known : f.secrets = some secrets) (clear : InTheClear front)
    (secured : Secured G f.role.side secrets [] f.sendNumber back)
    (parts : front ++ back = records) : f.HasSent written (sent ++ records) := by
  subst parts
  obtain ⟨rfl, first⟩ := hasSent.clear before
  refine ⟨fun clear => ?_, fun _ => ?_⟩
  · cases after.symm.trans clear
  · exact ⟨sent ++ front, back, secrets, [], (List.append_assoc ..).symm, rfl,
      first.append clear, known, secured⟩

/-- Every message keeps an endpoint to the order in which it sends. -/
theorem hasSent_answers {written sent message records : Octets} (sound : e.Sound)
    (hasSent : e.HasSent written sent) (answers : Answers message e records f) :
    f.HasSent written (sent ++ records) := by
  have clear (shape : e.role.shape.sends = false) : e.sendProtected = false :=
    sound.sends.trans shape
  cases answers with
  | serverHello waits took =>
    obtain ⟨_, _, _, _, _, _, _, rfl⟩ := Client.receiveHello_eq_ok.mp took
    exact hasSent.of_same rfl rfl rfl (by rw [waits]; rfl)
  | certificates waits took =>
    obtain ⟨_, _, _, _, _, _, _, _, _, _, rfl⟩ := Client.receiveCertificate_eq_ok.mp took
    exact hasSent.of_same rfl rfl rfl (by rw [waits]; rfl)
  | serverHelloDone waits exchanged finished =>
    have before := clear (by rw [waits]; rfl)
    obtain ⟨messages, _, work, made, rfl, rfl⟩ := (Client.sendExchange_eq_ok before).mp exchanged
    obtain ⟨_, secrets, proof, _, found, next, known, encoded, encodes, rfl⟩ :=
      Client.sendFinished_eq_ok.mp finished
    have secured := secured_of_encode encodes (by rw [waits]; rfl) rfl known rfl next encoded
    obtain ⟨_, _, rfl⟩ := encode_frame encodes
    exact hasSent.append_secured before rfl known (.encodePlain _) secured
      (List.append_assoc ..).symm
  | serverFinished waits took =>
    obtain ⟨_, _, _, _, _, rfl⟩ := Client.receiveFinished_eq_ok.mp took
    exact hasSent.of_same rfl rfl rfl (by rw [waits]; rfl)
  | clientHello waits took =>
    have before := clear (by rw [waits]; rfl)
    obtain ⟨_, work, made, rfl, rfl⟩ := (Server.receiveHello_eq_ok before).mp took
    exact hasSent.append_clear before before (.encodePlain _)
  | clientKeyExchange waits took =>
    have before := clear (by rw [waits]; rfl)
    obtain ⟨_, _, _, _, _, _, _, _, _, _, _, _, _, _, _, rfl⟩ :=
      Server.receiveKeyExchange_eq_ok.mp took
    exact hasSent.append_clear before before .nil
  | clientFinished waits took =>
    have before := clear (by rw [waits]; rfl)
    obtain ⟨messages, work, _, made, rfl, rfl⟩ := (Server.receiveFinished_eq_ok before).mp took
    have vouched : (messages ++ [message]).length = End.server.vouches := by
      rw [List.length_append, made.next]
      rfl
    have secured := secured_of_encode made.encodes (by rw [waits]; rfl) rfl made.known rfl vouched
      made.encoded
    have known := made.known
    obtain ⟨_, _, rfl⟩ := encode_frame made.encodes
    exact hasSent.append_secured before rfl known .nil secured rfl

/-- Whatever an endpoint takes, it keeps to the order in which it sends. -/
theorem kept_hasSent (written : Octets) : Kept fun sent (e : Endpoint G) =>
    e.HasSent written sent where
  opened _ hasSent := ⟨hasSent.clear, hasSent.secured⟩
  changed {_ e _} _ hasSent changed := by
    obtain ⟨_, role, changes, rfl⟩ := receiveChange_eq_ok.mp changed
    refine ⟨hasSent.clear, ?_⟩
    dsimp only
    rw [changes.side]
    exact hasSent.secured
  answered := hasSent_answers

theorem hasSent_begins {written sent records : Octets} (begins : Begins e records f)
    (clear : e.sendProtected = false) (hasSent : e.HasSent written sent) :
    f.HasSent written (sent ++ records) := by
  cases begins with
  | client role sends =>
    obtain ⟨_, _, message, _, _, _, _, _, encodes⟩ := Client.sendHello_eq_ok.mp sends
    cases (encode_clear (by exact clear)).symm.trans encodes
    exact hasSent.append_clear clear clear (.encodePlain message)
  | server role => exact hasSent.append_clear clear clear .nil

section Data

variable {secrets : Secrets} {list : List Sealed} {data records octets : Octets}

/-- Data that is sent goes on where the numbers of an endpoint have come to. -/
theorem secured_of_sent (secured : Secured G e.role.side secrets list e.sendNumber octets)
    (change : e.sendProtected = true) (known : e.secrets = some secrets)
    (sends : encode .applicationData data e = .ok records f) :
    Secured G f.role.side secrets
      (list ++ Sealed.row .applicationData e.sendNumber (Record.pieces data)) f.sendNumber
      (octets ++ records) := by
  rw [encode_protected change known] at sends
  obtain ⟨sealer, made, rfl⟩ := withSealer_eq_ok.mp sends
  exact secured.append made

/-- Data that cannot be sent only uses up numbers. -/
theorem secured_of_unsent {error : Error}
    (secured : Secured G e.role.side secrets list e.sendNumber octets)
    (change : e.sendProtected = true) (known : e.secrets = some secrets)
    (failed : encode .applicationData data e = .error error f) :
    Secured G f.role.side secrets list f.sendNumber octets := by
  rw [encode_protected change known, withSealer] at failed
  cases made : Record.protect (secrets.keys.writer e.role.side) .applicationData data
      ⟨e.sendNumber, e.source⟩ with
  | ok records sealer =>
    rw [made] at failed
    cases failed
  | error cause sealer =>
    rw [made] at failed
    cases failed
    exact secured.skip (Record.number_le_of_error made)

/-- Data that is sent is protected. -/
theorem HasSent.append_data {written sent : Octets} (hasSent : e.HasSent written sent)
    (change : e.sendProtected = true) (sends : encode .applicationData data e = .ok records f) :
    f.HasSent (written ++ data) (sent ++ records) := by
  obtain ⟨front, back, secrets, released, rfl, rfl, clear, known, secured⟩ :=
    hasSent.secured change
  have later := secured_of_sent secured change known sends
  obtain ⟨_, _, rfl⟩ := encode_frame sends
  refine ⟨fun clear => ?_, fun _ => ?_⟩
  · cases change.symm.trans clear
  · refine ⟨front, back ++ records, secrets, _, List.append_assoc .., ?_, clear, known, later⟩
    rw [Sealed.fragments_append, Sealed.fragments_row, Record.pieces_flatten]

theorem HasSent.of_encode_error {written sent : Octets} {error : Error}
    (hasSent : e.HasSent written sent) (change : e.sendProtected = true)
    (failed : encode .applicationData data e = .error error f) : f.HasSent written sent := by
  obtain ⟨front, back, secrets, released, rfl, rfl, clear, known, secured⟩ :=
    hasSent.secured change
  have later := secured_of_unsent secured change known failed
  obtain ⟨_, _, rfl⟩ := encode_frame_of_error failed
  refine ⟨fun clear => ?_, fun _ => ?_⟩
  · cases change.symm.trans clear
  · exact ⟨front, back, secrets, released, rfl, rfl, clear, known, later⟩

end Data

end Endpoint

/-- The data that a call has written, given its reply. -/
def Call.written : Call → Reply → Octets
  | .start, _ => []
  | .receive _, _ => []
  | .send data, .answered (.ok _) => data
  | .send _, _ => []

/-- A call that is refused writes nothing. -/
theorem Call.written_of_refused {call : Call} {reply : Reply}
    (refused : reply.error?.isSome = true) : call.written reply = [] := by
  rcases reply with ⟨_ | _⟩ | _
  · cases call <;> rfl
  · cases refused
  · cases call <;> rfl

namespace Session

open Endpoint Handled

variable {G : Type}

theorem emitted_stop (session : Session G) (error : Error) (data : Octets) :
    (Reply.received (session.stop error data).1).emitted = [] := by
  by_cases nothing : data = []
  · rw [nothing, stop_nil]
    rfl
  · rw [stop_of_ne_nil session error nothing]
    rfl

variable [Entropy G] {session : Session G} {written sent : Octets}

/-- The data that calls have written, one after the other. -/
def writtenBy (session : Session G) : List Call → Octets
  | [] => []
  | call :: calls =>
    call.written (session.perform call).1 ++ (session.perform call).2.writtenBy calls

/-- What a session has given out is in order, and as long as it has not failed its endpoint can go
on with it. -/
structure Emitting (session : Session G) (written sent : Octets) : Prop where
  running : session.endpoint.stage ≠ .failed → session.endpoint.HasSent written sent
  transmission : Transmission G session.endpoint.role.side written sent

theorem emitting_of_hasSent (hasSent : session.endpoint.HasSent written sent) :
    session.Emitting written sent := ⟨fun _ => hasSent, hasSent.transmission⟩

/-- A session that fails has given out what it had. -/
theorem Emitting.of_failed {after : Session G} (emitting : session.Emitting written sent)
    (failed : after.endpoint.stage = .failed)
    (idle : after.endpoint.role.idle = session.endpoint.role.idle) :
    after.Emitting written sent := by
  refine ⟨fun notFailed => (notFailed failed).elim, ?_⟩
  rw [Role.side_eq_of_idle idle]
  exact emitting.transmission

theorem emitting_of_performs {after : Session G} {call : Call} {reply : Reply}
    (orderly : session.Orderly) (emitting : session.Emitting written sent)
    (performs : Performs session call reply after)
    (idle : after.endpoint.role.idle = session.endpoint.role.idle) :
    after.Emitting (written ++ call.written reply) (sent ++ reply.emitted) := by
  have sound := orderly.endpoint
  have hasSent := emitting.running orderly.not_failed
  have same : session.Emitting (written ++ []) (sent ++ []) := by simpa using emitting
  cases performs with
  | starts fresh begins =>
    have clear : session.endpoint.sendProtected = false := by
      rw [sound.sends, Role.shape_eq_idle (sound.stage.symm.trans fresh)]
    refine emitting_of_hasSent ?_
    rw [Call.written, List.append_nil]
    exact hasSent_begins begins clear ⟨hasSent.clear, hasSent.secured⟩
  | cannotStart fresh failed => exact same.of_failed rfl idle
  | started begun => exact same
  | notStarted fresh => exact same
  | reads active arrived takes rests answer fine =>
    refine emitting_of_hasSent ?_
    rw [Call.written, List.append_nil, Reply.emitted_received fine, answer]
    exact (kept_hasSent written).takes takes sound hasSent
  | cannotRead script active arrived takes opened refuses =>
    rw [emitted_stop]
    exact same.of_failed (failed_of_stop ..) idle
  | sends isOver encodes =>
    exact emitting_of_hasSent (hasSent.append_data (sound.established isOver).2.2.1 encodes)
  | cannotSend isOver failed =>
    refine emitting_of_hasSent ?_
    change HasSent (written ++ []) (sent ++ []) _
    rw [List.append_nil, List.append_nil]
    exact hasSent.of_encode_error (sound.established isOver).2.2.1 failed
  | notEstablished unfinished => exact same

theorem Emitting.perform (reachable : session.Reachable) (emitting : session.Emitting written sent)
    (call : Call) : (session.perform call).2.Emitting
      (written ++ call.written (session.perform call).1)
      (sent ++ (session.perform call).1.emitted) := by
  have idle : (session.perform call).2.endpoint.role.idle = session.endpoint.role.idle :=
    (Becomes.perform .refl call).idle
  by_cases failed : session.endpoint.stage = .failed
  · obtain ⟨empty, wiped⟩ := reachable.isEmpty failed call
    rw [Call.written_of_refused empty.refused, empty.emitted, List.append_nil, List.append_nil]
    exact emitting.of_failed wiped.failed idle
  · have orderly := reachable.orderly.resolve_right failed
    exact emitting_of_performs orderly emitting (orderly.performs call) idle

theorem Emitting.performAll (reachable : session.Reachable)
    (emitting : session.Emitting written sent) (calls : List Call) :
    (session.performAll calls).2.Emitting (written ++ session.writtenBy calls)
      (sent ++ (session.performAll calls).1.flatMap Reply.emitted) := by
  induction calls generalizing session written sent with
  | nil => simpa [Session.writtenBy, Session.performAll] using emitting
  | cons call calls ih =>
    have later := ih (reachable.perform call) (emitting.perform reachable call)
    rw [performAll_cons, Session.writtenBy, List.flatMap_cons]
    rwa [List.append_assoc, List.append_assoc] at later

theorem idle_performAll (session : Session G) (calls : List Call) :
    (session.performAll calls).2.endpoint.role.idle = session.endpoint.role.idle := by
  induction calls generalizing session with
  | nil => rfl
  | cons call calls ih =>
    have first : (session.perform call).2.endpoint.role.idle = session.endpoint.role.idle :=
      (Becomes.perform .refl call).idle
    exact (ih (session.perform call).2).trans first

/-- A new session has given out nothing. -/
theorem emitting_of_fresh (orderly : session.Orderly) (fresh : session.endpoint.stage = .initial) :
    session.Emitting [] [] := by
  have sound := orderly.endpoint
  have clear : session.endpoint.sendProtected = false := by
    rw [sound.sends, Role.shape_eq_idle (sound.stage.symm.trans fresh)]
  refine emitting_of_hasSent ⟨fun _ => ⟨rfl, .nil⟩, fun change => ?_⟩
  cases clear.symm.trans change

/-- An alert goes with an error only as long as this end has not changed to protected records. -/
theorem clear_of_alert {call : Call} {alert : Octets} (reachable : session.Reachable)
    (told : (session.perform call).1.alert? = some alert) :
    session.endpoint.stage ≠ .failed ∧ session.endpoint.sendProtected = false := by
  by_cases failed : session.endpoint.stage = .failed
  · cases (reachable.isEmpty failed call).1.alert.symm.trans told
  · refine ⟨failed, ?_⟩
    obtain ⟨orderly, coherent⟩ := reachable.coherent failed
    have performs := orderly.performs call
    generalize (session.perform call).1 = reply at performs told
    generalize (session.perform call).2 = after at performs
    cases performs with
    | reads active arrived takes rests answer fine =>
      rw [Reply.alert?, fine] at told
      cases told
    | cannotRead script active arrived takes opened refuses =>
      have sends := (takes.refusal orderly.endpoint coherent refuses).2
      by_contra change
      have silent := alertRecords_of_sends (sends (by simpa using change))
      by_cases nothing : contents script = []
      · rw [nothing, stop_nil] at told
        cases (silent _).symm.trans told
      · rw [stop_of_ne_nil _ _ nothing] at told
        cases told
    | starts | cannotStart | started | notStarted | sends | cannotSend | notEstablished =>
      cases told

/-- What a call that writes gives out is protected. -/
theorem protect_of_send {data records : Octets} (reachable : session.Reachable)
    (emitting : session.Emitting written sent)
    (sends : (session.perform (.send data)).1 = .answered (.ok records)) : ∃ secrets sealer,
    session.endpoint.secrets = some secrets ∧
      Record.protect (secrets.keys.writer session.endpoint.role.side) .applicationData data
        ⟨session.endpoint.sendNumber, session.endpoint.source⟩ = .ok records sealer := by
  by_cases failed : session.endpoint.stage = .failed
  · rw [perform_of_refused failed (Or.inr rfl)] at sends
    cases sends
  · have orderly := reachable.orderly.resolve_right failed
    have performs := orderly.performs (.send data)
    rw [sends] at performs
    generalize (session.perform (.send data)).2 = after at performs
    cases performs with
    | sends isOver encodes =>
      have change := (orderly.endpoint.established isOver).2.2.1
      obtain ⟨_, _, secrets, _, _, _, _, known, _⟩ := (emitting.running failed).secured change
      rw [encode_protected change known] at encodes
      obtain ⟨sealer, made, _⟩ := withSealer_eq_ok.mp encodes
      exact ⟨secrets, sealer, known, made⟩

/-- Whatever is asked of a new session, all that it gives out is in the order of a `Transmission`:
handshake records in the clear, then at most one record that announces its change, and then only
records under its own keys, numbered upwards from zero, of which the first carries its Finished
message and the others exactly the data written. As long as the session has not failed, this goes on
whatever records it takes, also for what is lost because a later record makes it fail: the keys are
those that it has, and nothing that it encodes after the change is in the clear. All data that it
sends is protected, and an alert goes with an error only while all that it has given out was
handshake records in the clear. -/
theorem nothing_in_clear_after_change (reachable : session.Reachable)
    (fresh : session.endpoint.stage = .initial) {calls : List Call} {replies : List Reply}
    {last : Session G} (run : session.performAll calls = (replies, last)) :
    Transmission G session.endpoint.role.side (session.writtenBy calls)
        (replies.flatMap Reply.emitted) ∧
      (last.endpoint.stage ≠ .failed → ∀ script endpoint pending,
        Takes last.endpoint last.pending script endpoint pending →
        endpoint.HasSent (session.writtenBy calls)
          (replies.flatMap Reply.emitted ++ answers script) ∧
        (endpoint.sendProtected = true → ∃ secrets, endpoint.secrets = some secrets ∧
          ∀ type payload, encode type payload endpoint = withSealer (Record.protect
            (secrets.keys.writer endpoint.role.side) type payload) endpoint)) ∧
      (∀ data records, (last.perform (.send data)).1 = .answered (.ok records) →
        ∃ secrets sealer, last.endpoint.secrets = some secrets ∧
          Record.protect (secrets.keys.writer last.endpoint.role.side) .applicationData data
            ⟨last.endpoint.sendNumber, last.endpoint.source⟩ = .ok records sealer) ∧
      ∀ call alert, (last.perform call).1.alert? = some alert →
        InTheClear (replies.flatMap Reply.emitted) := by
  have notFailed : session.endpoint.stage ≠ .failed := by
    intro failed
    cases fresh.symm.trans failed
  have side := Role.side_eq_of_idle (idle_performAll session calls)
  have later := reachable.performAll calls
  have emitting :=
    (emitting_of_fresh (reachable.orderly.resolve_right notFailed) fresh).performAll reachable calls
  rw [List.nil_append, List.nil_append] at emitting
  rw [run] at side later emitting
  have running := emitting.running
  have transmission := emitting.transmission
  rw [side] at transmission
  refine ⟨transmission, ?_, ?_, ?_⟩
  · intro active script endpoint pending takes
    have sound := (later.orderly.resolve_right active).endpoint
    have hasSent := (kept_hasSent _).takes takes sound (running active)
    refine ⟨hasSent, ?_⟩
    intro change
    obtain ⟨_, _, secrets, _, _, _, _, known, _⟩ := hasSent.secured change
    exact ⟨secrets, known, fun type payload => encode_protected change known⟩
  · intro data records sends
    exact protect_of_send later emitting sends
  · intro call alert told
    obtain ⟨active, clear⟩ := clear_of_alert later told
    exact ((running active).clear clear).2

/-- A client gives out its part of a rehearsed handshake, fails to protect what takes two records and
loses a number, and then gives out data, which is protected. -/
theorem nothing_in_clear_after_change_rehearsal : ∃ (session last : Session Faltering)
    (calls : List Call) (replies : List Reply) (hello flight : Reply) (records : Octets),
    session.Reachable ∧ session.endpoint.stage = .initial ∧
      session.performAll calls = (replies, last) ∧
      session.writtenBy calls = KeySchedule.ascii "ping" ∧
      replies = [hello, flight, .answered (.error .entropyExhausted), .answered (.ok records)] ∧
      last.endpoint.sendNumber = 3 ∧ ∃ front back secrets data next,
        replies.flatMap Reply.emitted = front ++ back ∧ InTheClear front ∧
          Secured Faltering .client secrets data next back ∧
          Sealed.fragments data = KeySchedule.ascii "ping" := by
  obtain ⟨_, supplied⟩ := Rehearsal.exists_supplied [false, true]
  obtain ⟨_, _, toClient, _, rfl, _, _, _, agree, able, _⟩ := supplied.exists_agreed
  obtain ⟨_, _, made⟩ := supplied.clientMade
  have side : (Rehearsal.faltering [false, true]).endpoint.role.side = .client := rfl
  have fresh : (Rehearsal.faltering [false, true]).endpoint.stage = .initial := rfl
  generalize Rehearsal.faltering [false, true] = session at *
  have reachable : session.Reachable := ⟨_, .client made, .refl⟩
  have writing := ((reachable.perform .start).perform (.receive toClient)).orderly_of_established
    agree.clientOver
  obtain ⟨between, records, last, failed, _, sent, number⟩ := exists_lapse writing agree.clientOver
    able (by exact agree.numbers.1 ▸ by decide)
    (by decide : (KeySchedule.ascii "ping").length ≤ _)
  have fails := perform_of_send failed
  have sends := perform_of_send sent
  have run : session.performAll [.start, .receive toClient, .send (List.replicate 16293 0),
      .send (KeySchedule.ascii "ping")] = ([(session.perform .start).1,
        ((session.perform .start).2.perform (.receive toClient)).1,
        .answered (.error .entropyExhausted), .answered (.ok records)], last) := by
    simp only [performAll_cons, fails, sends]
    rfl
  have written : session.writtenBy [.start, .receive toClient, .send (List.replicate 16293 0),
      .send (KeySchedule.ascii "ping")] = KeySchedule.ascii "ping" := by
    simp only [writtenBy, fails, sends]
    rfl
  obtain ⟨transmission, _⟩ := nothing_in_clear_after_change reachable fresh run
  rw [written, side] at transmission
  refine ⟨session, last, _, _, _, _, records, reachable, fresh, run, written, rfl, ?_, ?_⟩
  · exact number.trans (congrArg (· + 1 + 1) agree.numbers.1)
  generalize List.flatMap Reply.emitted _ = emitted at transmission ⊢
  generalize spelled : KeySchedule.ascii "ping" = data at transmission
  cases transmission with
  | clear => cases spelled
  | secured clear secured => exact ⟨_, _, _, _, _, rfl, clear, secured, rfl⟩

end Session

end TransportSecurity
