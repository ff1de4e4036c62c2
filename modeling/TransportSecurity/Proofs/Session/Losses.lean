import TransportSecurity.Proofs.Record.RoundTrip
import TransportSecurity.Proofs.Session.Failing

/-!
What a write that fails costs.

A payload that cannot be protected to its end has used up the numbers of the pieces before the one
that failed, and the records made of them are given to nobody (`Record.lost_of_error`). The session
stays established, so it may write again, from a source that has recovered: the next records are
numbered as if the lost ones had been sent. A reader that has read all there was takes them if none
were lost, and otherwise refuses the first of them, unless its tag is the same under both numbers
(`Session.number_after_failures`).
-/

namespace TransportSecurity

namespace Record

variable {keys : WriteKeys} {type : ContentType} {number other : UInt64}

theorem pieces_eq_cons (payload : Octets) :
    ∃ rest, pieces payload = payload.take maxPiece :: rest := by
  rw [pieces]
  split
  · next last =>
    have short : payload.length ≤ maxPiece := by
      have nothing := congrArg List.length (List.isEmpty_iff.mp last)
      rw [List.length_drop, List.length_nil] at nothing
      omega
    rw [List.take_of_length_le short]
    exact ⟨_, rfl⟩
  · exact ⟨_, rfl⟩

/-- Under another number a record is refused, if the tag is another one under that number. -/
theorem IsProtected.unprotect_other {header : Header} {content record : Octets}
    (protects : IsProtected keys number header content record)
    (apart : tag keys other header.type header.version content ≠
      tag keys number header.type header.version content) :
    Record.unprotect keys other record = .error .badRecordMac := by
  obtain ⟨given, tagged, judged⟩ := protects.judged
  rw [judged]
  cases checked : checkTag keys other header.type header.version content given with
  | error error => rfl
  | ok accepted => exact (apart ((eq_of_checkTag checked).trans tagged.symm)).elim

section Protecting

variable {G : Type} [Entropy G] {sealer after : Sealer G} {error : Error}

/-- Of a payload that fails, the pieces before the one that does have used up their numbers. -/
theorem lost_of_error {payload : Octets}
    (failed : protect keys type payload sealer = .error error after) :
    ∃ lost octets between, lost < recordCount payload ∧
      protectPieces keys type ((pieces payload).take lost) sealer = .ok octets between ∧
      after.number = between.number ∧ after.number.toNat = sealer.number.toNat + lost := by
  obtain ⟨done, piece, rest, octets, between, split, made, fails⟩ :=
    protectPieces_eq_error.mp failed
  have count := congrArg List.length split
  rw [length_pieces, List.length_append, List.length_cons] at count
  have numbers := number_of_protectPieces made
  rw [← number_of_error fails] at numbers
  refine ⟨done.length, octets, between, by omega, ?_, number_of_error fails, numbers⟩
  rw [split, List.take_left]
  exact made

end Protecting

/-- A payload of two pieces that fails with the second leaves another number than before. -/
theorem number_lost : ∃ after,
    protect rehearsalKeys .applicationData (List.replicate 16293 0)
      ⟨0, Reproducible.ofSeed 0 [] (some 16)⟩ = .error .entropyExhausted after ∧
    after.number ≠ 0 := by
  refine ⟨_, protect_of_declined (Or.inl rfl) (by decide) rfl rfl, ?_⟩
  decide

end Record

namespace Endpoint

variable {G H : Type} [Entropy G] [Entropy H] {e : Endpoint H} {pending : Octets}

/-- A record of data that was protected under another number than the next is refused, if its tag is
another one under the next. -/
theorem receiveRecord_of_otherNumber {keys : WriteKeys} {sealer after : Record.Sealer G}
    {piece record : Octets} (readable : e.readKeys? = some keys)
    (change : e.receiveProtected = true) (short : piece.length ≤ Record.maxPiece)
    (made : Record.protectPiece keys .applicationData piece sealer = .ok record after)
    (apart : Record.tag keys e.receiveNumber .applicationData .current piece ≠
      Record.tag keys sealer.number .applicationData .current piece) :
    receiveRecord (Record.protectedHeader keys .applicationData piece) record pending e =
      .error .badRecordMac e := by
  have protects := Record.isProtected_protectPiece short made
  refine bind_of_error ?_
  rw [open?_of_protected readable change rfl, protects.unprotect_other apart]

end Endpoint

namespace Session

open Endpoint Handled

variable {G : Type}

/-- The session, if its source has become another one meanwhile. -/
def renew (session : Session G) (source : G) : Session G :=
  { session with endpoint := { session.endpoint with source } }

variable [Entropy G]

/-- What a session becomes by writes that all fail. What its source has become is anew at every
write. -/
inductive FailedWrites (first : Session G) : Session G → Prop
  | none : FailedWrites first first
  | more {session after : Session G} {source : G} {data : Octets} {error : Error}
    (before : FailedWrites first session)
    (failed : (session.renew source).send data = (.error error, after)) : FailedWrites first after

variable {session after : Session G} {data records : Octets}

omit [Entropy G] in
theorem Orderly.renew (orderly : session.Orderly) (source : G) : (session.renew source).Orderly :=
  orderly.renumbered session.endpoint.sendNumber source

/-- A write that fails loses the numbers of some pieces, but not of all, and changes nothing else
but the source. -/
theorem lost_of_send (orderly : session.Orderly) (isOver : session.endpoint.stage = .established)
    {error : Error} (failed : session.send data = (.error error, after)) :
    ∃ lost sendNumber source, lost < Record.recordCount data ∧
      sendNumber.toNat = session.endpoint.sendNumber.toNat + lost ∧
      { session with endpoint := { session.endpoint with sendNumber, source } } = after := by
  obtain ⟨secrets, sealer, _, made, same⟩ := (send_eq_error orderly isOver).mp failed
  obtain ⟨lost, _, _, few, _, _, numbers⟩ := Record.lost_of_error made
  exact ⟨lost, sealer.number, sealer.source, few, numbers, same⟩

/-- After writes that failed a session is as it was, apart from its source and from numbers that
are lost. -/
theorem FailedWrites.frame (writes : FailedWrites session after) (orderly : session.Orderly)
    (isOver : session.endpoint.stage = .established) : ∃ lost sendNumber source,
      sendNumber.toNat = session.endpoint.sendNumber.toNat + lost ∧
      { session with endpoint := { session.endpoint with sendNumber, source } } = after := by
  induction writes with
  | none => exact ⟨0, _, _, rfl, rfl⟩
  | @more between after source data error before failed ih =>
    obtain ⟨lost, sendNumber, _, numbers, rfl⟩ := ih
    obtain ⟨more, next, left, _, later, same⟩ :=
      lost_of_send (orderly.renumbered sendNumber source) isOver failed
    refine ⟨lost + more, next, left, ?_, same⟩
    rw [later, ← Nat.add_assoc, ← numbers]

variable {H : Type} [Entropy H] {reader : Session H}

/-- What is written under other numbers than a reader expects is refused with its first record, if
the tag of its first piece is another one under the number that is expected. -/
theorem receive_of_otherNumber {keys : WriteKeys} (orderly : session.Orderly)
    (writing : session.endpoint.stage = .established) (readerOrderly : reader.Orderly)
    (reading : reader.endpoint.stage = .established)
    (writable : session.endpoint.writeKeys? = some keys)
    (readable : reader.endpoint.readKeys? = some keys) (inbox : reader.inbox = [])
    (sent : session.send data = (.ok records, after))
    (apart : Record.tag keys reader.endpoint.receiveNumber .applicationData .current
        (data.take Record.maxPiece) ≠
      Record.tag keys session.endpoint.sendNumber .applicationData .current
        (data.take Record.maxPiece)) :
    reader.receive records = (.failed ⟨.badRecordMac, none⟩, (reader.fail .badRecordMac).2) := by
  obtain ⟨secrets, sealer, known, made, _⟩ := (send_eq_ok orderly writing).mp sent
  rw [Endpoint.writeKeys?, known] at writable
  cases writable
  obtain ⟨_, _, sends, receives⟩ := readerOrderly.endpoint.established reading
  obtain ⟨rest, pieces⟩ := Record.pieces_eq_cons data
  rw [Record.protect, pieces] at made
  obtain ⟨record, between, tail, first, _, rfl⟩ := Record.protectPieces_cons.mp made
  have short : (data.take Record.maxPiece).length ≤ Record.maxPiece := List.length_take_le ..
  have whole := (Record.unprotect_protectPiece short first).1
  have refuses : Refuses reader.endpoint reader.pending (record ++ tail) .badRecordMac
      reader.endpoint := .refused (Record.next?_eq_some_iff.mpr ⟨whole, rfl⟩)
    (receiveRecord_of_otherNumber readable receives short first apart)
  have arrived : reader.inbox ++ (record ++ tail) = stream [] ++ (record ++ tail) := by
    rw [inbox]
    rfl
  have stops := receive_of_refuses (Or.inr reading) arrived .nil open_nil refuses
  have silent : reader.endpoint.alertRecords .badRecordMac = none := by
    rw [alertRecords, sends]
    rfl
  rw [stops, contents_nil, stop_nil, fail, silent]

/-- Records of a payload that fails are numbered up to the piece that does, and these numbers are
lost. An established session that cannot write stays as it was, apart from its source and from
such numbers. If it writes again later, a reader that has read all there was before is in step with
it if no number is lost; otherwise it fails with the first record, unless the tag of the first piece
is the same under the number that is expected and the one that was given. -/
theorem number_after_failures {G H : Type} [Entropy G] [Entropy H] :
    (∀ (keys : WriteKeys) (type : ContentType) (payload : Octets) (sealer after : Record.Sealer G)
      (error : Error), Record.protect keys type payload sealer = .error error after →
      ∃ lost octets between, lost < Record.recordCount payload ∧
        Record.protectPieces keys type ((Record.pieces payload).take lost) sealer =
          .ok octets between ∧
        after.number = between.number ∧ after.number.toNat = sealer.number.toNat + lost) ∧
    ∀ {writer : Session G} {reader : Session H}, writer.Reachable → reader.Reachable →
      InStep writer reader →
      (∀ source data error after, (writer.renew source).send data = (.error error, after) →
        ∃ lost sendNumber source, lost < Record.recordCount data ∧
          sendNumber.toNat = writer.endpoint.sendNumber.toNat + lost ∧
          { writer with endpoint := { writer.endpoint with sendNumber, source } } = after) ∧
      ∀ between source data records after, FailedWrites writer between →
        (between.renew source).send data = (.ok records, after) → ∃ lost keys,
          between.endpoint.sendNumber.toNat = writer.endpoint.sendNumber.toNat + lost ∧
          writer.endpoint.writeKeys? = some keys ∧
          (lost = 0 → (reader.receive records).1 = Outcome.waiting [] data ∧
            InStep after (reader.receive records).2) ∧
          (Record.tag keys reader.endpoint.receiveNumber .applicationData .current
              (data.take Record.maxPiece) =
            Record.tag keys between.endpoint.sendNumber .applicationData .current
              (data.take Record.maxPiece) ∨
            reader.receive records =
              (.failed ⟨.badRecordMac, none⟩, (reader.fail .badRecordMac).2)) := by
  refine ⟨fun keys type payload sealer after error failed => Record.lost_of_error failed, ?_⟩
  intro writer reader writerReachable readerReachable step
  have orderly := writerReachable.orderly_of_established step.writing
  have readerOrderly := readerReachable.orderly_of_established step.reading
  constructor
  · intro source data error after failed
    obtain ⟨lost, sendNumber, left, few, numbers, same⟩ :=
      lost_of_send (orderly.renew source) step.writing failed
    exact ⟨lost, sendNumber, left, few, numbers, same⟩
  · intro between source data records after writes sent
    obtain ⟨lost, sendNumber, _, numbers, rfl⟩ := writes.frame orderly step.writing
    obtain ⟨_, known, _, _⟩ := orderly.endpoint.established step.writing
    obtain ⟨secrets, known⟩ := Option.isSome_iff_exists.mp known
    have writable : writer.endpoint.writeKeys? =
        some (secrets.keys.writer writer.endpoint.role.side) := by
      rw [Endpoint.writeKeys?, known]
      rfl
    have again := orderly.renumbered sendNumber source
    refine ⟨lost, _, numbers, writable, ?_, ?_⟩
    · rintro rfl
      have same : sendNumber = reader.endpoint.receiveNumber :=
        (UInt64.toNat_inj.mp numbers).trans step.numbers
      have still : InStep { writer with endpoint := { writer.endpoint with sendNumber, source } }
          reader := ⟨step.writing, step.reading, step.keys, same, step.inbox⟩
      exact still.receive again readerOrderly sent
    · refine Classical.or_iff_not_imp_left.mpr fun apart => ?_
      exact receive_of_otherNumber again (by exact step.writing) readerOrderly step.reading
        (by exact writable) (step.keys.symm.trans writable) step.inbox sent apart

/-- After a rehearsed handshake the client's source fails it in the middle of a write; what it writes
after that is refused, unless the tags are the same. -/
theorem number_after_failures_rehearsal : ∃ writer reader : Session Reproducible,
    ∃ keys between records after,
      writer.Reachable ∧ reader.Reachable ∧ InStep writer reader ∧
      (writer.renew (.ofSeed 0 [] (some 16))).send (List.replicate 16293 0) =
        (.error .entropyExhausted, between) ∧
      between.endpoint.sendNumber.toNat = writer.endpoint.sendNumber.toNat + 1 ∧
      FailedWrites writer between ∧
      (between.renew (.ofSeed 0 [] none)).send (KeySchedule.ascii "ping") = (.ok records, after) ∧
      writer.endpoint.writeKeys? = some keys ∧
      (Record.tag keys reader.endpoint.receiveNumber .applicationData .current
          ((KeySchedule.ascii "ping").take Record.maxPiece) =
        Record.tag keys between.endpoint.sendNumber .applicationData .current
          ((KeySchedule.ascii "ping").take Record.maxPiece) ∨
        reader.receive records =
          (.failed ⟨.badRecordMac, none⟩, (reader.fail .badRecordMac).2)) := by
  obtain ⟨_, writer, reader, toClient, toServer, rfl, rfl, _, ⟨inbox, _⟩, agree, able, _⟩ :=
    Rehearsal.pairing.exists_agreed
  obtain ⟨_, _, clientMade⟩ := Rehearsal.pairing.clientMade
  obtain ⟨_, _, serverMade⟩ := Rehearsal.pairing.serverMade
  have writes : (Rehearsal.client.start.2.receive toClient).2.Reachable :=
    ⟨_, .client clientMade, .receive (.start .refl) toClient⟩
  have reads : (Rehearsal.server.start.2.receive toServer).2.Reachable :=
    ⟨_, .server serverMade, .receive (.start .refl) toServer⟩
  generalize (Rehearsal.client.start.2.receive toClient).2 = writer at *
  generalize (Rehearsal.server.start.2.receive toServer).2 = reader at *
  obtain ⟨keys, writeKeys, readKeys⟩ := agree.forth
  have step : InStep writer reader := ⟨agree.clientOver, agree.serverOver,
    writeKeys.trans readKeys.symm, agree.numbers.1.trans agree.numbers.2.2.2.symm, inbox⟩
  have orderly := writes.orderly_of_established agree.clientOver
  have failed := send_of_declined (orderly.renew (.ofSeed 0 [] (some 16))) (by exact agree.clientOver)
    (by exact able.2) (by exact agree.numbers.1 ▸ by decide) rfl rfl
  have lost : (writer.endpoint.sendNumber + 1).toNat = writer.endpoint.sendNumber.toNat + 1 := by
    rw [agree.numbers.1]
    rfl
  have again := orderly.renumbered (writer.endpoint.sendNumber + 1) (.ofSeed 0 [] none)
  obtain ⟨records, after, sent, _⟩ := exists_send again (by exact agree.clientOver)
    ⟨(Reproducible.lasting rfl).serves 1, by exact able.2⟩
    (by decide : (KeySchedule.ascii "ping").length ≤ _)
    (by
      dsimp only
      rw [lost, agree.numbers.1]
      decide)
  obtain ⟨_, keys, _, writable, _, refused⟩ := (number_after_failures.2 writes reads step).2 _ _ _ _
    _ (.more .none failed) sent
  exact ⟨writer, reader, keys, _, records, after, writes, reads, step, failed, lost,
    .more .none failed, sent, writable, refused⟩

end Session

end TransportSecurity
