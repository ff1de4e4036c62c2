import Mathlib.Data.List.Induction
import TransportSecurity.Proofs.Record.Sealed
import TransportSecurity.Proofs.Session.Writing

/-!
Data one way, with anybody in between.

One session writes, and somebody else decides what the other session gets to read, and when. A tag
vouches for the number of its record (`Sealed`), so as long as nobody else can make tags
(`Flow.Unforged`), what is read is the front of what was written: nothing is changed, left out,
repeated or taken out of order (`read_isPrefix_written`).

The invariant is `Flow.Inv`: what was released is numbered upwards, and what was read is exactly the
part of it below the number that the reader expects next.
-/

namespace TransportSecurity

namespace Endpoint

variable {H : Type} [Entropy H]

/-- While an endpoint handles octets it comes to a protected record, which decrypts under `keys` to
some content and a tag, `given`. What the tag would have to vouch for is `sealed`. -/
inductive Offers : Endpoint H → Octets → Octets → WriteKeys → Sealed → Octets → Prop
  | now {e : Endpoint H} {pending record rest content given : Octets} {header : Record.Header}
    {keys : WriteKeys} (whole : Record.IsWhole header record) (readable : e.readKeys? = some keys)
    (change : e.receiveProtected = true) (notAlert : isClearAlert header = false)
    (holds : Record.Holds keys record content given) :
    Offers e pending (record ++ rest) keys
      ⟨e.receiveNumber, header.type, header.version, content⟩ given
  | later {e f : Endpoint H} {pending left record rest given : Octets} {header : Record.Header}
    {progress : Progress} {keys : WriteKeys} {sealed : Sealed}
    (whole : Record.IsWhole header record)
    (handled : receiveRecord header record pending e = .ok (progress, left) f)
    (offers : Offers f left rest keys sealed given) :
    Offers e pending (record ++ rest) keys sealed given

variable {e f : Endpoint H} {pending left read : Octets} {script : List Handled}
  {released : List Sealed}

/-- No tag is offered by octets in which there is no room for a record. -/
theorem Offers.length_le {keys : WriteKeys} {octets given : Octets} {sealed : Sealed}
    (offers : Offers e pending octets keys sealed given) :
    Record.headerLength ≤ octets.length := by
  cases offers with
  | now whole | later whole =>
    rw [List.length_append, whole.length, Record.Header.recordLength]
    omega

/-- What is read stays in step with what was released, if tags verify only for what was released. -/
theorem Takes.readBelow {floor : UInt64} {bound : Nat} (takes : Takes e pending script f left)
    (rest : Octets) (sound : e.Sound) (isOver : e.stage = .established)
    (upwards : released.Pairwise fun a b => a.number < b.number)
    (numbered : ∀ sealed ∈ released, sealed.number.toNat < bound)
    (unforged : ∀ keys sealed given,
      Offers e pending (Handled.stream script ++ rest) keys sealed given →
      sealed.Verifies keys given → floor ≤ sealed.number → sealed ∈ released)
    (begun : floor ≤ e.receiveNumber) (within : e.receiveNumber.toNat ≤ bound)
    (below : Sealed.ReadBelow released e.receiveNumber.toNat read) :
    floor ≤ f.receiveNumber ∧ f.receiveNumber.toNat ≤ bound ∧
      Sealed.ReadBelow released f.receiveNumber.toNat (read ++ Handled.contents script) := by
  induction takes generalizing read with
  | nil =>
    rw [Handled.contents_nil, List.append_nil]
    exact ⟨begun, within, below⟩
  | @cons e f g pending left _ record header progress script whole handled later ih =>
    have handles := receiveRecord_eq_ok.mp handled
    obtain ⟨content, secrets, next, type, known, opens, rfl, rfl, rfl⟩ :=
      handles_established sound isOver handles
    have numberedNext := Record.number_of_unprotect opens
    -- the record was taken, so it holds a tag that verifies
    obtain ⟨given, holds, verifies⟩ := Record.holds_of_unprotect whole opens
    have offered : Offers e left
        (Handled.stream (⟨header, record, .data content⟩ :: script) ++ rest)
        (secrets.keys.writer e.role.side.peer)
        ⟨e.receiveNumber, header.type, header.version, content⟩ given := by
      rw [Handled.stream_cons, List.append_assoc]
      refine .now whole (Option.map_eq_some_iff.mpr ⟨_, known, rfl⟩)
        (sound.established isOver).2.2.2 ?_ holds
      simp [isClearAlert, type]
    have found := unforged _ _ _ offered verifies begun
    have bounded := numbered _ found
    rw [Handled.contents_cons, ← List.append_assoc]
    refine ih (sound_handles sound handles) isOver ?_ ?_ ?_ ?_
    · intro keys sealed given offers verifies high
      refine unforged keys sealed given ?_ verifies high
      rw [Handled.stream_cons, List.append_assoc]
      exact .later whole handled offers
    · rw [UInt64.le_iff_toNat_le] at begun ⊢
      dsimp only
      omega
    · dsimp only at bounded ⊢
      omega
    · dsimp only
      rw [numberedNext]
      exact below.accept upwards found rfl

/-- Records as they were protected offer tags for what these were made for. -/
theorem mem_row_of_offers {G : Type} [Entropy G] {keys other : WriteKeys}
    {sealer after : Record.Sealer G} {list : List Octets} {octets given : Octets} {secrets : Secrets}
    {sealed : Sealed} (isOver : e.stage = .established) (known : e.secrets = some secrets)
    (change : e.receiveProtected = true) (same : secrets.keys.writer e.role.side.peer = keys)
    (number : e.receiveNumber = sealer.number)
    (short : ∀ piece ∈ list, piece.length ≤ Record.maxPiece)
    (made : Record.protectPieces keys .applicationData list sealer = .ok octets after)
    (offers : Offers e pending octets other sealed given) :
    sealed ∈ Sealed.row .applicationData sealer.number list := by
  induction list generalizing e sealer octets with
  | nil =>
    obtain ⟨rfl, _⟩ := pure_eq_ok.mp made
    exact (offers.length_le.not_gt (by decide)).elim
  | cons piece list ih =>
    obtain ⟨record, between, tail, first, others, rfl⟩ := Record.protectPieces_cons.mp made
    obtain ⟨fits, shorter⟩ := List.forall_mem_cons.mp short
    obtain ⟨whole, opens⟩ := Record.unprotect_protectPiece fits first
    rw [Sealed.row]
    generalize arrived : record ++ tail = octets at offers
    cases offers with
    | now whole' readable _ _ holds' =>
      obtain ⟨rfl, rfl, rfl⟩ := whole.append_inj whole' arrived
      obtain ⟨shared, known', rfl⟩ := Option.map_eq_some_iff.mp readable
      cases known.symm.trans known'
      obtain ⟨_, holds, _⟩ := Record.holds_of_unprotect whole opens
      rw [← same] at holds
      obtain ⟨rfl, _⟩ := holds.inj holds'
      rw [number]
      exact List.mem_cons_self ..
    | later whole' handled offers =>
      obtain ⟨rfl, rfl, rfl⟩ := whole.append_inj whole' arrived
      have taken := @receiveRecord_of_protectPiece H _ e pending G _ _ _ _ _ _ _ isOver known change
        same number fits first
      cases taken.symm.trans handled
      have more := @ih { e with receiveNumber := between.number } between tail isOver known change
        same rfl shorter others offers
      rw [Record.number_of_protectPiece first] at more
      exact List.mem_cons_of_mem _ more

end Endpoint

/-- What happens: somebody writes, or somebody in between lets the reader have octets. -/
inductive Flow.Event where
  | write (data : Octets)
  | deliver (octets : Octets)

/-- A writer and a reader, and what happened so far: the octets that the writer gave away and what
their tags vouch for, what it was told to write and did, and what the reader handed out. -/
structure Flow (G H : Type) where
  writer : Session G
  reader : Session H
  wire : Octets := []
  released : List Sealed := []
  written : Octets := []
  read : Octets := []

namespace Flow

variable {G H : Type} [Entropy G] [Entropy H]

/-- One event. A write that fails gives nothing away. -/
def step (flow : Flow G H) : Event → Flow G H
  | .write data =>
    match flow.writer.send data with
    | (.ok records, writer) =>
      { flow with
        writer
        wire := flow.wire ++ records
        released := flow.released ++
          Sealed.row .applicationData flow.writer.endpoint.sendNumber (Record.pieces data)
        written := flow.written ++ data }
    | (.error _, writer) => { flow with writer }
  | .deliver octets =>
    let (outcome, reader) := flow.reader.receive octets
    { flow with reader, read := flow.read ++ outcome.content }

/-- A write that succeeds. -/
theorem step_of_sent {flow : Flow G H} {data records : Octets} {writer : Session G}
    (sent : flow.writer.send data = (.ok records, writer)) :
    flow.step (.write data) = { flow with
      writer
      wire := flow.wire ++ records
      released := flow.released ++
        Sealed.row .applicationData flow.writer.endpoint.sendNumber (Record.pieces data)
      written := flow.written ++ data } := by
  unfold step
  dsimp only
  rw [sent]

/-- Events one after the other. -/
def run (flow : Flow G H) (events : List Event) : Flow G H := events.foldl step flow

/-- Nobody else makes tags: whenever octets are delivered, the tag in one of their records verifies
only for what was released by then, or had been before the flow began. -/
def Unforged (flow : Flow G H) (events : List Event) : Prop :=
  ∀ before octets after, events = before ++ .deliver octets :: after →
    ∀ keys sealed given, (flow.run before).reader.endpoint.Offers (flow.run before).reader.pending
      ((flow.run before).reader.inbox ++ octets) keys sealed given →
      sealed.Verifies keys given → sealed ∈ (flow.run before).released ∨
        sealed.number < flow.writer.endpoint.sendNumber

/-- Every write succeeds. -/
def AllWritten (flow : Flow G H) (events : List Event) : Prop :=
  ∀ before data after, events = before ++ .write data :: after →
    ∃ records writer, (flow.run before).writer.send data = (.ok records, writer)

/-- All that is delivered. -/
def deliveries (events : List Event) : List Octets :=
  events.filterMap fun
    | .write _ => none
    | .deliver octets => some octets

/-- Where a flow stands: what was released is numbered upwards, below the writer's number, and the
reader has failed or has read what was released below its own number. -/
structure Inv (floor : UInt64) (flow : Flow G H) : Prop where
  writer : flow.writer.Orderly
  writing : flow.writer.endpoint.stage = .established
  started : floor ≤ flow.writer.endpoint.sendNumber
  written : flow.written = Sealed.fragments flow.released
  upwards : flow.released.Pairwise fun a b => a.number < b.number
  numbered : ∀ sealed ∈ flow.released,
    sealed.number.toNat < flow.writer.endpoint.sendNumber.toNat
  front : flow.read <+: flow.written
  reader : flow.reader.endpoint.stage = .failed ∨
    flow.reader.Orderly ∧ flow.reader.endpoint.stage = .established ∧
      floor ≤ flow.reader.endpoint.receiveNumber ∧
      flow.reader.endpoint.receiveNumber.toNat ≤ flow.writer.endpoint.sendNumber.toNat ∧
      Sealed.ReadBelow flow.released flow.reader.endpoint.receiveNumber.toNat flow.read

variable {flow : Flow G H} {floor : UInt64}

/-- A write releases records above all that were released before. -/
theorem inv_write (inv : Inv floor flow) (data : Octets) : Inv floor (flow.step (.write data)) := by
  obtain ⟨secrets, known, sends⟩ := Session.send_eq_protect inv.writer inv.writing data
  have orderly := Session.orderly_send inv.writer data
  rw [sends, Session.act, Endpoint.withSealer] at orderly
  unfold step
  dsimp only
  rw [sends, Session.act, Endpoint.withSealer]
  cases made : Record.protect (secrets.keys.writer flow.writer.endpoint.role.side)
      .applicationData data ⟨flow.writer.endpoint.sendNumber, flow.writer.endpoint.source⟩ with
  | error error sealer =>
    rw [made] at orderly
    have later := Record.number_le_of_error made
    have started := UInt64.le_iff_toNat_le.mp inv.started
    refine ⟨orderly, inv.writing, ?_, inv.written, inv.upwards, ?_, inv.front, ?_⟩
    · rw [UInt64.le_iff_toNat_le]
      exact Nat.le_trans started later
    · intro sealed found
      exact Nat.lt_of_lt_of_le (inv.numbered sealed found) later
    · rcases inv.reader with failed | ⟨orderly, isOver, begun, within, below⟩
      · exact Or.inl failed
      · exact Or.inr ⟨orderly, isOver, begun, Nat.le_trans within later, below⟩
  | ok records sealer =>
    rw [made] at orderly
    have counted := Record.number_of_protectPieces made
    dsimp only at counted
    have room := sealer.number.toNat_lt
    rw [counted] at room
    have row := @Sealed.number_of_mem_row .applicationData _ _ room
    have started := UInt64.le_iff_toNat_le.mp inv.started
    refine ⟨orderly, inv.writing, ?_, ?_, ?_, ?_, ?_, ?_⟩
    · rw [UInt64.le_iff_toNat_le]
      dsimp only
      omega
    · dsimp only
      rw [inv.written, Sealed.fragments, Sealed.fragments, List.flatMap_append, ← Sealed.fragments,
        ← Sealed.fragments, Sealed.fragments_row, Record.pieces_flatten]
    · refine List.pairwise_append.mpr ⟨inv.upwards, Sealed.pairwise_row room, ?_⟩
      intro old before new found
      have high := (row new found).1
      have low := inv.numbered old before
      rw [UInt64.lt_iff_toNat_lt]
      omega
    · intro sealed found
      dsimp only
      rcases List.mem_append.mp found with before | found
      · have low := inv.numbered sealed before
        omega
      · have low := (row sealed found).2
        omega
    · exact inv.front.trans (List.prefix_append ..)
    · rcases inv.reader with failed | ⟨orderly, isOver, begun, within, below⟩
      · exact Or.inl failed
      · refine Or.inr ⟨orderly, isOver, begun, ?_, below.release ?_⟩
        · dsimp only
          omega
        · intro sealed found
          exact Nat.le_trans within (row sealed found).1

/-- What is delivered is read as long as its tags are in order. -/
theorem inv_deliver (inv : Inv floor flow) {octets : Octets}
    (unforged : ∀ keys sealed given, flow.reader.endpoint.Offers flow.reader.pending
      (flow.reader.inbox ++ octets) keys sealed given → sealed.Verifies keys given →
      sealed ∈ flow.released ∨ sealed.number < floor) :
    Inv floor (flow.step (.deliver octets)) := by
  unfold step
  dsimp only
  rcases inv.reader with failed | ⟨orderly, isOver, begun, within, below⟩
  · have still := Session.failed_receive failed octets
    rw [Session.receive_of_failed failed] at still ⊢
    refine ⟨inv.writer, inv.writing, inv.started, inv.written, inv.upwards, inv.numbered, ?_,
      Or.inl still⟩
    rw [show Outcome.content (.failed flow.reader.takeFailure.1) = [] from rfl, List.append_nil]
    exact inv.front
  · rw [Session.receive_eq_drain (Or.inr isOver)]
    obtain ⟨script, endpoint, inbox, pending, arrived, takes, opened, ended⟩ :=
      Session.drain_takes [] [] { flow.reader with inbox := flow.reader.inbox ++ octets }
    dsimp only at arrived takes
    obtain ⟨begun, within, below⟩ := takes.readBelow inbox orderly.endpoint isOver inv.upwards
      inv.numbered (fun keys sealed given offers verifies high => by
        rw [← arrived] at offers
        rcases unforged keys sealed given offers verifies with found | low
        · exact found
        · exact absurd high (UInt64.not_le.mpr low)) begun within below
    have front : flow.read ++ Handled.contents script <+: flow.written := by
      rw [inv.written]
      exact below.isPrefix
    have sound := takes.sound orderly.endpoint
    have still := takes.stays_over orderly.endpoint isOver
    generalize Session.drain [] [] { flow.reader with inbox := flow.reader.inbox ++ octets } =
      result at ended
    cases ended with
    | waits nothing =>
      refine ⟨inv.writer, inv.writing, inv.started, inv.written, inv.upwards, inv.numbered, ?_, ?_⟩
      · rw [Outcome.content_waiting]
        exact front
      · refine Or.inr ⟨?_, still.1, begun, within, ?_⟩
        · exact Session.orderly_of_active sound (Or.inr still.1) orderly.deferred
        · rw [Outcome.content_waiting]
          exact below
    | completes found handled =>
      have handles := Endpoint.receiveRecord_eq_ok.mp handled
      obtain ⟨_, _, _, _, _, _, same, _⟩ :=
        Endpoint.handles_established sound still.1 handles
      cases same
    | malformed found =>
      refine ⟨inv.writer, inv.writing, inv.started, inv.written, inv.upwards, inv.numbered, ?_,
        Or.inl (Session.failed_of_stop ..)⟩
      rw [Session.content_stop]
      exact front
    | refused found refused =>
      refine ⟨inv.writer, inv.writing, inv.started, inv.written, inv.upwards, inv.numbered, ?_,
        Or.inl (Session.failed_of_stop ..)⟩
      rw [Session.content_stop]
      exact front

/-- At every moment of a run the reader is in step with the writer. -/
theorem inv_run {events : List Event} (inv : Inv floor flow)
    (floors : flow.writer.endpoint.sendNumber = floor) (unforged : flow.Unforged events)
    (done rest : List Event) (same : events = done ++ rest) : Inv floor (flow.run done) := by
  revert rest
  induction done using List.reverseRecOn with
  | nil => exact fun _ _ => inv
  | append_singleton done event ih =>
    intro rest same
    rw [List.append_assoc] at same
    have before := ih _ same
    rw [run, List.foldl_append]
    cases event with
    | write data => exact inv_write before data
    | deliver octets =>
      refine inv_deliver before ?_
      rw [← floors]
      exact unforged done octets rest same

/-- The reader reads what is delivered, whatever is written meanwhile. -/
theorem reader_run (flow : Flow G H) (events : List Event) :
    (flow.run events).reader = (flow.reader.receiveAll (deliveries events)).2 ∧
      (flow.run events).read =
        flow.read ++ Outcome.contents (flow.reader.receiveAll (deliveries events)).1 := by
  induction events generalizing flow with
  | nil => exact ⟨rfl, (List.append_nil _).symm⟩
  | cons event events ih =>
    obtain ⟨reader, read⟩ := ih (flow.step event)
    rw [run, List.foldl_cons, ← run, reader, read]
    cases event with
    | write data =>
      change _ = (flow.reader.receiveAll (deliveries events)).2 ∧
        _ = flow.read ++ Outcome.contents (flow.reader.receiveAll (deliveries events)).1
      unfold step
      dsimp only
      split <;> exact ⟨rfl, rfl⟩
    | deliver octets =>
      refine ⟨rfl, ?_⟩
      change flow.read ++ _ ++ _ = flow.read ++ _
      rw [List.append_assoc]
      rfl

/-- What the writer gives away is what a reader would take that began as `first`. -/
structure Given (first : Endpoint H) (flow : Flow G H) : Prop where
  writer : flow.writer.Orderly
  writing : flow.writer.endpoint.stage = .established
  keys : flow.writer.endpoint.writeKeys? = first.readKeys?
  script : ∃ script, Handled.stream script = flow.wire ∧ Handled.contents script = flow.written ∧
    Handled.answers script = [] ∧ Handled.Open script ∧ Endpoint.Takes first [] script
      { first with receiveNumber := flow.writer.endpoint.sendNumber } []

variable {first : Endpoint H}

theorem given_write (given : Given first flow) (reading : first.stage = .established)
    (change : first.receiveProtected = true) {data : Octets}
    (writes : ∃ records writer, flow.writer.send data = (.ok records, writer)) :
    Given first (flow.step (.write data)) := by
  obtain ⟨records, writer, sent⟩ := writes
  have orderly := Session.orderly_send given.writer data
  rw [sent] at orderly
  obtain ⟨secrets, sealer, known, made, rfl⟩ :=
    (Session.send_eq_ok given.writer given.writing).mp sent
  obtain ⟨script, spelled, told, quiet, opened, takes⟩ := given.script
  have keys := given.keys
  rw [Endpoint.writeKeys?, known, Endpoint.readKeys?, Option.map_some] at keys
  obtain ⟨shared, readable, same⟩ := Option.map_eq_some_iff.mp keys.symm
  obtain ⟨more, moreSpelled, moreTold, moreQuiet, moreOpened, moreTakes⟩ :=
    @Endpoint.takes_of_protectPieces H _
      { first with receiveNumber := flow.writer.endpoint.sendNumber } [] G _ _ _ _ _ _ shared
      reading readable change same rfl (fun _ => Record.length_le_of_mem_pieces) made
  rw [step_of_sent sent]
  refine ⟨orderly, given.writing, given.keys, script ++ more, ?_, ?_, ?_,
    Handled.open_append_iff.mpr ⟨opened, moreOpened⟩, takes.append moreTakes⟩
  · rw [Handled.stream_append, spelled, moreSpelled]
  · rw [Handled.contents_append, told, moreTold, Record.pieces_flatten]
  · rw [Handled.answers_append, quiet, moreQuiet, List.append_nil]

theorem given_run {events : List Event} (given : Given first flow)
    (reading : first.stage = .established) (change : first.receiveProtected = true)
    (all : flow.AllWritten events) : Given first (flow.run events) := by
  suffices kept : ∀ done rest, events = done ++ rest → Given first (flow.run done) by
    exact kept events [] (List.append_nil _).symm
  intro done
  induction done using List.reverseRecOn with
  | nil => exact fun _ _ => given
  | append_singleton done event ih =>
    intro rest same
    rw [List.append_assoc] at same
    have before := ih _ same
    rw [run, List.foldl_append]
    cases event with
    | write data => exact given_write before reading change (all done data rest same)
    | deliver octets => exact ⟨before.writer, before.writing, before.keys, before.script⟩

end Flow

open TransportSecurity.Flow in
/-- Nobody in between can make a reader read anything but the front of what was written, and if all
that was given away is delivered, in any pieces, it reads all that was written. -/
theorem read_isPrefix_written {G H : Type} [Entropy G] [Entropy H] {writer : Session G}
    {reader : Session H} (writerReachable : writer.Reachable) (readerReachable : reader.Reachable)
    (writing : writer.isEstablished) (reading : reader.isEstablished)
    (keys : writer.endpoint.writeKeys? = reader.endpoint.readKeys?)
    (numbers : writer.endpoint.sendNumber = reader.endpoint.receiveNumber)
    (inbox : reader.inbox = []) (pending : reader.pending = []) (events : List Event) :
    (Unforged { writer, reader } events → ∀ done rest, events = done ++ rest →
      (run { writer, reader } done).read <+: (run { writer, reader } done).written) ∧
    (AllWritten { writer, reader } events →
      (deliveries events).flatten = (run { writer, reader } events).wire →
      (run { writer, reader } events).read = (run { writer, reader } events).written) := by
  have writing : writer.endpoint.stage = .established := of_decide_eq_true writing
  have reading : reader.endpoint.stage = .established := of_decide_eq_true reading
  have writerOrderly : writer.Orderly := writerReachable.orderly_of_established writing
  have readerOrderly : reader.Orderly := readerReachable.orderly_of_established reading
  constructor
  · intro unforged done rest same
    have inv : Inv writer.endpoint.sendNumber ({ writer, reader } : Flow G H) := by
      refine ⟨writerOrderly, writing, UInt64.le_refl _, rfl, List.Pairwise.nil, by simp,
        List.prefix_refl _, Or.inr ⟨readerOrderly, reading, ?_, ?_, ?_⟩⟩
      · exact UInt64.le_iff_toNat_le.mpr (Nat.le_of_eq (congrArg UInt64.toNat numbers))
      · exact Nat.le_of_eq (congrArg UInt64.toNat numbers.symm)
      · exact ⟨[], [], rfl, rfl, by simp, by simp⟩
    exact (inv_run inv rfl unforged done rest same).front
  · intro all delivered
    obtain ⟨_, _, _, change⟩ := readerOrderly.endpoint.established reading
    have given : Given reader.endpoint (run { writer, reader } events) := by
      refine given_run ⟨writerOrderly, writing, keys, [], rfl, rfl, rfl, Handled.open_nil, ?_⟩
        reading change all
      dsimp only
      rw [numbers]
      exact .nil
    obtain ⟨script, spelled, told, quiet, opened, takes⟩ := given.script
    rw [← pending] at takes
    have arrives : reader.inbox ++ (deliveries events).flatten = Handled.stream script := by
      rw [inbox, delivered, spelled, List.nil_append]
    have finished : (deliveries events).flatten = [] → script = [] := by
      intro nothing
      rw [inbox, nothing] at arrives
      exact Handled.eq_nil_of_stream takes.whole arrives.symm
    obtain ⟨_, reads, _⟩ := Session.receiveAll_of_takes readerOrderly.endpoint (Or.inr reading) takes
      (.isOpen opened) (Or.inr ⟨quiet, opened⟩) arrives finished
    rw [(reader_run _ events).2, reads, told]
    rfl

namespace Flow

variable {G H : Type} [Entropy G] [Entropy H] {writer after : Session G} {reader : Session H}
  {data records : Octets}

/-- What a writer gave away for one write offers the tags of that write. -/
theorem mem_row_of_sent (inStep : Session.InStep writer reader) (writing : writer.Orderly)
    (reading : reader.Orderly) (sent : writer.send data = (.ok records, after)) {keys : WriteKeys}
    {sealed : Sealed} {given : Octets}
    (offers : reader.endpoint.Offers reader.pending records keys sealed given) :
    sealed ∈ Sealed.row .applicationData writer.endpoint.sendNumber (Record.pieces data) := by
  obtain ⟨secrets, sealer, known, made, rfl⟩ := (Session.send_eq_ok writing inStep.writing).mp sent
  have shares := inStep.keys
  rw [Endpoint.writeKeys?, known, Endpoint.readKeys?, Option.map_some] at shares
  obtain ⟨shared, readable, same⟩ := Option.map_eq_some_iff.mp shares.symm
  exact Endpoint.mem_row_of_offers inStep.reading readable
    (reading.endpoint.established inStep.reading).2.2.2 same inStep.numbers.symm
    (fun _ => Record.length_le_of_mem_pieces) made offers

/-- A write and its delivery, two more writes, and the delivery of some octets. -/
def lapse (data records second third front : Octets) : List Event :=
  [.write data, .deliver records, .write second, .write third, .deliver front]

/-- If what is delivered in the end is too little for a record, nothing in that is forged. -/
theorem unforged_lapse (inStep : Session.InStep writer reader) (writing : writer.Orderly)
    (reading : reader.Orderly) (sent : writer.send data = (.ok records, after))
    (second third : Octets) {front : Octets} (short : front.length < Record.headerLength) :
    Unforged { writer, reader } (lapse data records second third front) := by
  intro before octets rest same keys sealed given offers _
  rw [lapse] at same
  rcases before with _ | ⟨_, _ | ⟨_, _ | ⟨_, _ | ⟨_, _ | ⟨_, before⟩⟩⟩⟩⟩
  · cases same
  · -- the records of the write
    cases same
    rw [run, List.foldl_cons, List.foldl_nil, step_of_sent sent] at offers ⊢
    dsimp only at offers
    rw [inStep.inbox] at offers
    exact Or.inl (mem_row_of_sent inStep writing reading sent offers)
  · cases same
  · cases same
  · -- too little for a record
    cases same
    have long := offers.length_le
    rw [(reader_run ..).1] at long
    have emptied := (inStep.receive writing reading sent).2.inbox
    change _ ≤ ((reader.receive records).2.inbox ++ front).length at long
    rw [emptied] at long
    exact absurd long (Nat.not_le.mpr short)
  · have length := congrArg List.length same
    simp only [List.length_cons, List.length_append, List.length_nil] at length
    omega

/-- Of three writes the one in the middle fails, and the others are all that is written. -/
theorem written_of_lapse {between last : Session G} {second third more front : Octets}
    {error : Error} (sent : writer.send data = (.ok records, after))
    (failed : after.send second = (.error error, between))
    (again : between.send third = (.ok more, last)) :
    (run { writer, reader } (lapse data records second third front)).written = data ++ third := by
  simp only [lapse, run, List.foldl_cons, List.foldl_nil, step, sent, failed, again, List.nil_append]

/-- A single write that succeeds is all that is written. -/
theorem allWritten_of_sent (sent : writer.send data = (.ok records, after)) :
    AllWritten { writer, reader } [.write data, .deliver records] ∧
      (run { writer, reader } [.write data, .deliver records]).wire = records ∧
      (run { writer, reader } [.write data, .deliver records]).written = data := by
  refine ⟨?_, by rw [run, List.foldl_cons, step_of_sent sent]; exact ⟨rfl, rfl⟩⟩
  intro before other rest same
  rcases before with _ | ⟨_, _ | ⟨_, before⟩⟩
  · cases same
    exact ⟨records, after, sent⟩
  · cases same
  · have length := congrArg List.length same
    simp only [List.length_cons, List.length_append, List.length_nil] at length
    omega

end Flow

open TransportSecurity.Flow in
/-- After a rehearsed handshake the client writes, a longer write fails and loses a number, and the
next write succeeds; at every moment the server has read the front of what was written. If only the
first write is made and delivered, it has read all. -/
theorem read_isPrefix_written_rehearsal : ∃ (writer between after : Session Faltering)
    (reader : Session Reproducible) (records more : Octets) (events : List Event),
    events = lapse (KeySchedule.ascii "ping") records (List.replicate 16293 0)
      (KeySchedule.ascii "pong") (more.take 3) ∧
    (writer.Reachable ∧ reader.Reachable ∧ writer.isEstablished ∧ reader.isEstablished ∧
      writer.endpoint.writeKeys? = reader.endpoint.readKeys? ∧
      writer.endpoint.sendNumber = reader.endpoint.receiveNumber ∧ reader.inbox = [] ∧
      reader.pending = []) ∧
    (run { writer, reader } [.write (KeySchedule.ascii "ping")]).writer.send
        (List.replicate 16293 0) = (.error .entropyExhausted, between) ∧
    between.endpoint.sendNumber = writer.endpoint.sendNumber + 2 ∧
    between.send (KeySchedule.ascii "pong") = (.ok more, after) ∧
    Unforged { writer, reader } events ∧
    (∀ done rest, events = done ++ rest →
      (run { writer, reader } done).read <+: (run { writer, reader } done).written) ∧
    (run { writer, reader } events).written = KeySchedule.ascii "pingpong" ∧
    AllWritten { writer, reader } [.write (KeySchedule.ascii "ping"), .deliver records] ∧
    (run { writer, reader } [.write (KeySchedule.ascii "ping"), .deliver records]).read =
      KeySchedule.ascii "ping" := by
  obtain ⟨_, supplied⟩ := Rehearsal.exists_supplied [false, false, true]
  obtain ⟨writer, reader, toClient, toServer, rfl, rfl, _, ⟨inbox, pending⟩, agree, able, _⟩ :=
    supplied.exists_agreed
  obtain ⟨_, _, clientMade⟩ := supplied.clientMade
  obtain ⟨_, _, serverMade⟩ := supplied.serverMade
  have writes : ((Rehearsal.faltering _).start.2.receive toClient).2.Reachable :=
    ⟨_, .client clientMade, .receive (.start .refl) toClient⟩
  have reads : (Rehearsal.server.start.2.receive toServer).2.Reachable :=
    ⟨_, .server serverMade, .receive (.start .refl) toServer⟩
  generalize ((Rehearsal.faltering _).start.2.receive toClient).2 = writer at *
  generalize (Rehearsal.server.start.2.receive toServer).2 = reader at *
  obtain ⟨keys, writeKeys, readKeys⟩ := agree.forth
  have inStep : Session.InStep writer reader := ⟨agree.clientOver, agree.serverOver,
    writeKeys.trans readKeys.symm, agree.numbers.1.trans agree.numbers.2.2.2.symm, inbox⟩
  have writing := writes.orderly_of_established agree.clientOver
  have reading := reads.orderly_of_established agree.serverOver
  obtain ⟨falters, able⟩ := able
  -- the first write is granted, and so is half of the second
  obtain ⟨records, _, sent, source, serves, rfl⟩ := Session.exists_send writing agree.clientOver
    ⟨@Faltering.serves _ [false, true] 1 falters, able⟩
    (by decide : (KeySchedule.ascii "ping").length ≤ _) (by rw [agree.numbers.1]; decide)
  have again := writing.renumbered (writer.endpoint.sendNumber + 1) source
  obtain ⟨between, more, after, failed, number, succeeds, _⟩ := Session.exists_lapse again
    (by exact agree.clientOver) ⟨serves.served, by exact able⟩
    (by dsimp only; rw [agree.numbers.1]; decide)
    (by decide : (KeySchedule.ascii "pong").length ≤ _)
  have unforged := unforged_lapse inStep writing reading sent (List.replicate 16293 0)
    (KeySchedule.ascii "pong") (Nat.lt_of_le_of_lt (List.length_take_le 3 more) (by decide))
  obtain ⟨all, wire, written⟩ := @allWritten_of_sent _ _ _ _ _ _ reader _ _ sent
  have isOver := decide_eq_true agree.clientOver
  have isOver' := decide_eq_true agree.serverOver
  have first : run { writer, reader } [.write (KeySchedule.ascii "ping")] = _ := step_of_sent sent
  obtain ⟨front, _⟩ := read_isPrefix_written writes reads isOver isOver' inStep.keys inStep.numbers
    inbox pending (lapse (KeySchedule.ascii "ping") records (List.replicate 16293 0)
      (KeySchedule.ascii "pong") (more.take 3))
  obtain ⟨_, whole⟩ := read_isPrefix_written writes reads isOver isOver' inStep.keys inStep.numbers
    inbox pending [.write (KeySchedule.ascii "ping"), .deliver records]
  refine ⟨writer, between, after, reader, records, more, _, rfl,
    ⟨writes, reads, isOver, isOver', inStep.keys, inStep.numbers, inbox, pending⟩, ?_, ?_, succeeds,
    unforged, front unforged, ?_, all, ?_⟩
  · rw [first]
    exact failed
  · rw [number, agree.numbers.1]
    rfl
  · exact written_of_lapse sent failed succeeds
  · exact (whole all ((List.append_nil records).trans wire.symm)).trans written

end TransportSecurity
