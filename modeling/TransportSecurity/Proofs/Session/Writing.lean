import TransportSecurity.Proofs.Session.Agreement

/-!
What an established session writes.

A write that succeeds gives out protected records with the next numbers (`Session.send_eq_ok`), and
one that fails uses up numbers and random octets, and nothing else (`Session.send_eq_error`). A reader
that has read all that a writer has sent reads what it writes next (`Session.InStep.receive`). A
source that falters lets a write fail, and later ones succeed (`Session.exists_lapse`).
-/

namespace TransportSecurity

namespace Endpoint

variable {H : Type} [Entropy H] {e : Endpoint H} {pending : Octets}

/-- A record of data that was protected under a reader's keys and next number is read by it. -/
theorem receiveRecord_of_protectPiece {G : Type} [Entropy G] {keys : WriteKeys}
    {sealer after : Record.Sealer G} {piece record : Octets} {secrets : Secrets}
    (isOver : e.stage = .established) (known : e.secrets = some secrets)
    (change : e.receiveProtected = true) (same : secrets.keys.writer e.role.side.peer = keys)
    (number : e.receiveNumber = sealer.number) (short : piece.length ≤ Record.maxPiece)
    (made : Record.protectPiece keys .applicationData piece sealer = .ok record after) :
    receiveRecord (Record.protectedHeader keys .applicationData piece) record pending e =
      .ok (.data piece, pending) { e with receiveNumber := after.number } := by
  have opens := (Record.unprotect_protectPiece short made).2
  rw [← number, ← same] at opens
  exact receiveRecord_eq_ok.mpr (.data rfl
    (open?_eq_ok.mpr (Or.inl ⟨secrets, _, known, change, rfl, opens, rfl⟩)) isOver)

/-- Records of data that were protected under a reader's keys and numbers are taken by it. -/
theorem takes_of_protectPieces {G : Type} [Entropy G] {keys : WriteKeys}
    {sealer after : Record.Sealer G} {list : List Octets} {octets : Octets} {secrets : Secrets}
    (isOver : e.stage = .established) (known : e.secrets = some secrets)
    (change : e.receiveProtected = true) (same : secrets.keys.writer e.role.side.peer = keys)
    (number : e.receiveNumber = sealer.number)
    (short : ∀ piece ∈ list, piece.length ≤ Record.maxPiece)
    (made : Record.protectPieces keys .applicationData list sealer = .ok octets after) :
    ∃ script, Handled.stream script = octets ∧ Handled.contents script = list.flatten ∧
      Handled.answers script = [] ∧ Handled.Open script ∧
      Takes e pending script { e with receiveNumber := after.number } pending := by
  induction list generalizing e sealer octets with
  | nil =>
    obtain ⟨rfl, rfl⟩ := pure_eq_ok.mp made
    rw [← number]
    exact ⟨[], rfl, rfl, rfl, Handled.open_nil, .nil⟩
  | cons piece list ih =>
    obtain ⟨record, between, tail, first, others, rfl⟩ := Record.protectPieces_cons.mp made
    obtain ⟨fits, shorter⟩ := List.forall_mem_cons.mp short
    have whole := (Record.unprotect_protectPiece fits first).1
    have handled := @receiveRecord_of_protectPiece H _ e pending G _ _ _ _ _ _ _ isOver known change
      same number fits first
    obtain ⟨script, spelled, read, quiet, opened, takes⟩ :=
      @ih { e with receiveNumber := between.number } between tail isOver known change same rfl
        shorter others
    refine ⟨⟨_, record, .data piece⟩ :: script, ?_, ?_, quiet,
      (Handled.open_cons_iff ..).mpr ⟨rfl, opened⟩, .cons whole handled takes⟩
    · rw [Handled.stream_cons, spelled]
    · rw [Handled.contents_cons, read]
      rfl

end Endpoint

open Endpoint Handled

namespace Session

variable {G : Type} [Entropy G] {session : Session G}

/-- An established session protects what it sends, under its own keys and the next numbers. -/
theorem send_eq_protect (orderly : session.Orderly)
    (isOver : session.endpoint.stage = .established) (data : Octets) : ∃ secrets,
    session.endpoint.secrets = some secrets ∧
    session.send data = session.act (Endpoint.withSealer (Record.protect
      (secrets.keys.writer session.endpoint.role.side) .applicationData data)) := by
  obtain ⟨_, known, change, _⟩ := orderly.endpoint.established isOver
  obtain ⟨secrets, known⟩ := Option.isSome_iff_exists.mp known
  refine ⟨secrets, known, ?_⟩
  unfold send
  rw [isOver]
  unfold act
  rw [Endpoint.encode_protected change known]

/-- What an established session sends are protected records with the next numbers. -/
theorem send_eq_ok (orderly : session.Orderly) (isOver : session.endpoint.stage = .established)
    {data records : Octets} {after : Session G} : session.send data = (.ok records, after) ↔
    ∃ secrets sealer, session.endpoint.secrets = some secrets ∧
      Record.protect (secrets.keys.writer session.endpoint.role.side) .applicationData data
        ⟨session.endpoint.sendNumber, session.endpoint.source⟩ = .ok records sealer ∧
      { session with endpoint := { session.endpoint with
        sendNumber := sealer.number
        source := sealer.source } } = after := by
  obtain ⟨secrets, known, sends⟩ := send_eq_protect orderly isOver data
  rw [sends, act, Endpoint.withSealer]
  constructor
  · intro sent
    cases made : Record.protect (secrets.keys.writer session.endpoint.role.side) .applicationData
        data ⟨session.endpoint.sendNumber, session.endpoint.source⟩ with
    | error error sealer =>
      rw [made] at sent
      cases sent
    | ok octets sealer =>
      rw [made] at sent
      cases sent
      exact ⟨secrets, sealer, known, made, rfl⟩
  · rintro ⟨other, sealer, known', made, rfl⟩
    cases known.symm.trans known'
    rw [made]

/-- What an established session cannot send has used up numbers and random octets, and nothing
else. -/
theorem send_eq_error (orderly : session.Orderly) (isOver : session.endpoint.stage = .established)
    {error : Error} {data : Octets} {after : Session G} :
    session.send data = (.error error, after) ↔
    ∃ secrets sealer, session.endpoint.secrets = some secrets ∧
      Record.protect (secrets.keys.writer session.endpoint.role.side) .applicationData data
        ⟨session.endpoint.sendNumber, session.endpoint.source⟩ = .error error sealer ∧
      { session with endpoint := { session.endpoint with
        sendNumber := sealer.number
        source := sealer.source } } = after := by
  obtain ⟨secrets, known, sends⟩ := send_eq_protect orderly isOver data
  rw [sends, act, Endpoint.withSealer]
  constructor
  · intro sent
    cases made : Record.protect (secrets.keys.writer session.endpoint.role.side) .applicationData
        data ⟨session.endpoint.sendNumber, session.endpoint.source⟩ with
    | ok octets sealer =>
      rw [made] at sent
      cases sent
    | error error sealer =>
      rw [made] at sent
      cases sent
      exact ⟨secrets, sealer, known, made, rfl⟩
  · rintro ⟨other, sealer, known', made, rfl⟩
    cases known.symm.trans known'
    rw [made]

/-- A session that has keys and a source that serves once more can send a piece. -/
theorem exists_send {left : G → Prop} {count : Nat} (orderly : session.Orderly)
    (isOver : session.endpoint.stage = .established)
    (able : session.endpoint.Equipped (Entropy.Serves left (count + 1))) {data : Octets}
    (short : data.length ≤ Record.maxPiece)
    (room : session.endpoint.sendNumber.toNat + 1 < 2 ^ 64) : ∃ records after,
      session.send data = (.ok records, after) ∧ ∃ source, Entropy.Serves left count source ∧
        { session with endpoint := { session.endpoint with
          sendNumber := session.endpoint.sendNumber + 1
          source } } = after := by
  obtain ⟨serves, keys, found, usable⟩ := able
  obtain ⟨secrets, known, rfl⟩ := Option.map_eq_some_iff.mp found
  obtain ⟨record, next, made, later⟩ :=
    @Record.protectPiece_of_serves G _ _ _ _ _ _ .applicationData data usable short room serves
  have pieces : Record.protectPieces (secrets.keys.writer session.endpoint.role.side)
      .applicationData [data] ⟨session.endpoint.sendNumber, session.endpoint.source⟩ =
        .ok (record ++ []) _ := Record.protectPieces_cons.mpr ⟨record, _, [], made, rfl, rfl⟩
  rw [← Record.pieces_of_short short] at pieces
  exact ⟨_, _, (send_eq_ok orderly isOver).mpr ⟨secrets, _, known, pieces, rfl⟩, next, later, rfl⟩

omit [Entropy G] in
theorem Orderly.renumbered (orderly : session.Orderly) (sendNumber : UInt64) (source : G) :
    Orderly { session with endpoint := { session.endpoint with sendNumber, source } } :=
  ⟨orderly.endpoint, orderly.deferred, orderly.fresh⟩

/-- A session whose source gives one starting block and declines the next cannot send what takes two
records, and loses a number. -/
theorem send_of_declined {left next : G} {start : Fixed Aes.blockLength} (orderly : session.Orderly)
    (isOver : session.endpoint.stage = .established)
    (able : ∃ keys, session.endpoint.writeKeys? = some keys ∧ keys.Usable)
    (room : session.endpoint.sendNumber.toNat + 1 < 2 ^ 64)
    (drawn : (Entropy.demand Aes.blockLength : EStateM Error G _) session.endpoint.source =
      .ok start left)
    (declined : (Entropy.demand Aes.blockLength : EStateM Error G _) left =
      .error .entropyExhausted next) :
    session.send (List.replicate 16293 0) = (.error .entropyExhausted,
      { session with endpoint := { session.endpoint with
        sendNumber := session.endpoint.sendNumber + 1
        source := next } }) := by
  obtain ⟨keys, found, usable⟩ := able
  obtain ⟨secrets, known, rfl⟩ := Option.map_eq_some_iff.mp found
  exact (send_eq_error orderly isOver).mpr ⟨secrets, _, known,
    Record.protect_of_declined usable room drawn declined, rfl⟩

/-- A reader that has read all that a writer has sent. -/
structure InStep {H : Type} (writer : Session G) (reader : Session H) : Prop where
  writing : writer.endpoint.stage = .established
  reading : reader.endpoint.stage = .established
  keys : writer.endpoint.writeKeys? = reader.endpoint.readKeys?
  numbers : writer.endpoint.sendNumber = reader.endpoint.receiveNumber
  inbox : reader.inbox = []

section InStep

variable {H : Type} [Entropy H] {reader : Session H} {after : Session G} {data records : Octets}

/-- What is written in step is read, and both are in step again. -/
theorem InStep.receive (step : InStep session reader) (orderly : session.Orderly)
    (readerOrderly : reader.Orderly) (sent : session.send data = (.ok records, after)) :
    (reader.receive records).1 = Outcome.waiting [] data ∧
      InStep after (reader.receive records).2 := by
  obtain ⟨secrets, sealer, known, made, rfl⟩ := (send_eq_ok orderly step.writing).mp sent
  have keys := step.keys
  rw [Endpoint.writeKeys?, known, Endpoint.readKeys?, Option.map_some] at keys
  obtain ⟨shared, readable, same⟩ := Option.map_eq_some_iff.mp keys.symm
  obtain ⟨script, spelled, told, quiet, opened, takes⟩ :=
    @takes_of_protectPieces H _ reader.endpoint reader.pending G _ _ _ _ _ _ _ step.reading readable
      (readerOrderly.endpoint.established step.reading).2.2.2 same step.numbers.symm
      (fun _ => Record.length_le_of_mem_pieces) made
  have arrived : reader.inbox ++ records = stream script ++ [] := by
    rw [step.inbox, spelled, List.append_nil, List.nil_append]
  have received : reader.receive records = (Outcome.waiting [] data, { reader with
      endpoint := { reader.endpoint with receiveNumber := sealer.number }, inbox := [] }) := by
    rw [receive_eq_drain (Or.inr step.reading), drain_of_takes (by exact takes) opened arrived,
      quiet, told, Record.pieces_flatten]
    exact drain_of_nothing rfl
  rw [received]
  exact ⟨rfl, step.writing, step.reading, step.keys, rfl, rfl⟩

end InStep

/-- A source that declines the second of the next two draws, and none after it, makes a write of two
records fail. A number is lost, and the next write succeeds. -/
theorem exists_lapse {session : Session Faltering} (orderly : session.Orderly)
    (isOver : session.endpoint.stage = .established)
    (able : session.endpoint.Equipped fun source => source.declines = [false, true])
    (room : session.endpoint.sendNumber.toNat + 2 < 2 ^ 64) {data : Octets}
    (short : data.length ≤ Record.maxPiece) : ∃ between records after,
      session.send (List.replicate 16293 0) = (.error .entropyExhausted, between) ∧
      between.endpoint.sendNumber = session.endpoint.sendNumber + 1 ∧
      between.send data = (.ok records, after) ∧
      after.endpoint.sendNumber = session.endpoint.sendNumber + 1 + 1 := by
  obtain ⟨falters, able⟩ := able
  obtain ⟨start, left, drawn, serves⟩ :=
    (@Faltering.serves _ [true] 1 falters).demand Aes.blockLength
  have declined := @Faltering.demand_of_declined _ [] serves.served Aes.blockLength
  have number := Record.toNat_succ (by omega : session.endpoint.sendNumber.toNat + 1 < 2 ^ 64)
  have again := orderly.renumbered (session.endpoint.sendNumber + 1) { left with declines := [] }
  obtain ⟨records, _, sent, _, _, rfl⟩ := exists_send again (by exact isOver)
    ⟨(Faltering.lasting rfl).serves 1, by exact able⟩ short (by dsimp only; omega)
  exact ⟨_, records, _, send_of_declined orderly isOver able (by omega) drawn declined, rfl, sent,
    rfl⟩

end Session

end TransportSecurity
