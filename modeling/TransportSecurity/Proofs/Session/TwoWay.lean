import TransportSecurity.Proofs.Session.Failing
import TransportSecurity.Proofs.Session.Independence
import TransportSecurity.Proofs.Session.Writing

/-!
Sending and receiving do not disturb one another.

After its handshake a session that receives changes only what it receives with
(`Session.receive_eq_reread`), and to send it looks at nothing of that (`Session.send_reread`); the
other way round what it receives is the same whatever it has sent (`Session.receive_renumber`). So
writes and reads commute one by one (`Session.send_receiveAll`), and in every interleaving each call
comes to the same as without the calls of the other kind (`Session.performAll_of_interleaves`).
-/

namespace TransportSecurity

namespace Reply

/-- What the calls among these that send have returned. -/
def results (replies : List Reply) : List (Except Error Octets) :=
  replies.filterMap fun
    | .answered result => some result
    | .received _ => none

/-- What the calls among these that take octets have led to. -/
def outcomes (replies : List Reply) : List Outcome :=
  replies.filterMap fun
    | .answered _ => none
    | .received outcome => some outcome

variable (result : Except Error Octets) (outcome : Outcome) (replies : List Reply)

@[simp] theorem results_answered :
    results (.answered result :: replies) = result :: results replies := rfl

@[simp] theorem results_received : results (.received outcome :: replies) = results replies := rfl

@[simp] theorem outcomes_answered : outcomes (.answered result :: replies) = outcomes replies := rfl

@[simp] theorem outcomes_received :
    outcomes (.received outcome :: replies) = outcome :: outcomes replies := rfl

end Reply

/-- Calls that send some payloads and take some octets, each in their order. -/
inductive Interleaves : List Octets → List Octets → List Call → Prop
  | nil : Interleaves [] [] []
  | write {writes reads : List Octets} {calls : List Call} (data : Octets)
    (later : Interleaves writes reads calls) :
    Interleaves (data :: writes) reads (.send data :: calls)
  | read {writes reads : List Octets} {calls : List Call} (octets : Octets)
    (later : Interleaves writes reads calls) :
    Interleaves writes (octets :: reads) (.receive octets :: calls)

namespace Endpoint

variable {G : Type} [Entropy G] {e : Endpoint G}

omit [Entropy G] in
theorem blind_withSealer {α : Type} (receiveNumber : UInt64)
    (action : EStateM Error (Record.Sealer G) α) :
    Blind (fun e : Endpoint G => { e with receiveNumber }) (withSealer action) e := by
  constructor
  · intro value f
    unfold withSealer
    dsimp only
    cases action ⟨e.sendNumber, e.source⟩ with
    | ok value sealer => rintro ⟨⟩; rfl
    | error error sealer => rintro ⟨⟩
  · intro error f
    unfold withSealer
    dsimp only
    cases action ⟨e.sendNumber, e.source⟩ with
    | ok value sealer => rintro ⟨⟩
    | error error sealer => rintro ⟨⟩; rfl

/-- An endpoint sends the same no matter what it has received. -/
theorem blind_encode (receiveNumber : UInt64) (type : ContentType) (payload : Octets) :
    Blind (fun e : Endpoint G => { e with receiveNumber }) (encode type payload) e := by
  refine .get_bind rfl ?_
  split
  · exact blind_withSealer ..
  · exact .pure _

/-- After its handshake an endpoint changes by what it takes only in the number of the next record
to be received. -/
theorem Takes.reread {f : Endpoint G} {p q : Octets} {script : List Handled}
    (takes : Takes e p script f q) (sound : e.Sound) (isOver : e.stage = .established) :
    ∃ receiveNumber, { e with receiveNumber } = f ∧ p = q := by
  induction takes with
  | nil => exact ⟨_, rfl, rfl⟩
  | cons whole handled later ih =>
    have handles := receiveRecord_eq_ok.mp handled
    obtain ⟨_, _, _, _, _, _, _, rfl, rfl⟩ := handles_established sound isOver handles
    exact ih (sound_handles sound handles) isOver

end Endpoint

namespace Session

open Endpoint Handled

variable {G : Type} [Entropy G] {session : Session G}

/-- Protects payloads, one after the other, whether or not all of them can be sent. -/
def sendAll (session : Session G) : List Octets → List (Except Error Octets) × Session G
  | [] => ([], session)
  | data :: rest =>
    let (result, next) := session.send data
    let (results, last) := next.sendAll rest
    (result :: results, last)

theorem sendAll_cons (session : Session G) (data : Octets) (rest : List Octets) :
    session.sendAll (data :: rest) =
      ((session.send data).1 :: ((session.send data).2.sendAll rest).1,
        ((session.send data).2.sendAll rest).2) := rfl

/-- A session that has received, or has not received. -/
def reread (receiveNumber : UInt64) (inbox : Octets) (session : Session G) : Session G :=
  { session with endpoint := { session.endpoint with receiveNumber }, inbox }

/-- After its handshake a session makes the same of octets no matter what it has sent. -/
theorem receive_renumber (orderly : session.Orderly)
    (isOver : session.endpoint.stage = .established) (sendNumber : UInt64) (source : G)
    (octets : Octets) : (session.renumber sendNumber source).receive octets =
      ((session.receive octets).1, (session.receive octets).2.renumber sendNumber source) := by
  have receives := receives_receive (Or.inr isOver) octets
  generalize session.receive octets = result at receives
  cases receives with
  | waits arrived takes opened nothing =>
    have again := takes.renumbered sendNumber source orderly.endpoint isOver
    rw [receive_eq_drain (Or.inr (by exact isOver)),
      drain_of_takes (by exact again) opened (by exact arrived)]
    exact drain_of_nothing nothing
  | completes arrived takes opened ends =>
    obtain ⟨_, goesOn⟩ := takes.stays_over orderly.endpoint isOver
    cases (goesOn _ (by simp)).symm.trans ends
  | @stops script endpoint failing inbox pending error arrived takes opened refuses =>
    have stays := (takes.stays_over orderly.endpoint isOver).1
    rw [receive_of_refuses (Or.inr (by exact isOver)) (by exact arrived)
      (by exact takes.renumbered sendNumber source orderly.endpoint isOver) opened
      (refuses.renumbered sendNumber source stays)]
    by_cases silent : contents script = []
    · rw [silent]
      rfl
    · rw [stop_of_ne_nil _ _ silent, stop_of_ne_nil _ _ silent]
      rfl

/-- What a session receives after its handshake changes only what it receives with, unless it
fails. -/
theorem receive_eq_reread (orderly : session.Orderly)
    (isOver : session.endpoint.stage = .established) {octets : Octets}
    (fine : (session.receive octets).2.endpoint.stage ≠ .failed) : ∃ receiveNumber inbox,
    (session.receive octets).2 = session.reread receiveNumber inbox := by
  have receives := receives_receive (Or.inr isOver) octets
  generalize session.receive octets = result at receives fine
  cases receives with
  | waits arrived takes opened nothing =>
    obtain ⟨receiveNumber, rfl, rfl⟩ := takes.reread orderly.endpoint isOver
    exact ⟨receiveNumber, _, rfl⟩
  | completes arrived takes opened ends =>
    obtain ⟨receiveNumber, rfl, rfl⟩ := takes.reread orderly.endpoint isOver
    exact ⟨receiveNumber, _, rfl⟩
  | stops arrived takes opened refuses => exact (fine (failed_of_stop ..)).elim

/-- A session sends the same no matter what it has received. -/
theorem send_reread (receiveNumber : UInt64) (inbox data : Octets) :
    (session.reread receiveNumber inbox).send data =
      ((session.send data).1, (session.send data).2.reread receiveNumber inbox) := by
  have blind := blind_encode (e := session.endpoint) receiveNumber .applicationData data
  unfold send reread
  dsimp only
  split
  · unfold act
    dsimp only
    cases sent : encode .applicationData data session.endpoint with
    | ok records endpoint =>
      rw [blind.ok sent]
    | error error endpoint =>
      rw [blind.error sent]
  · rfl
  · rfl

theorem sendAll_reread (receiveNumber : UInt64) (inbox : Octets) (writes : List Octets) :
    (session.reread receiveNumber inbox).sendAll writes =
      ((session.sendAll writes).1, (session.sendAll writes).2.reread receiveNumber inbox) := by
  induction writes generalizing session with
  | nil => rfl
  | cons data writes ih => rw [sendAll_cons, sendAll_cons, send_reread, ih]

/-- Sending leaves a session in use after its handshake. -/
theorem send_eq_renumber (orderly : session.Orderly)
    (isOver : session.endpoint.stage = .established) (data : Octets) :
    (session.send data).2.Orderly ∧ (session.send data).2.endpoint.stage = .established ∧
      ∃ sendNumber source, (session.send data).2 = session.renumber sendNumber source := by
  obtain ⟨sendNumber, source, same⟩ := send_frame session data
  rw [← same]
  exact ⟨orderly.renumbered sendNumber source, isOver, sendNumber, source, rfl⟩

omit [Entropy G] in
/-- A session that does not fail at what it takes is still in use after its handshake. -/
theorem Orderly.reread (orderly : session.Orderly)
    (isOver : session.endpoint.stage = .established) (receiveNumber : UInt64) (inbox : Octets) :
    (session.reread receiveNumber inbox).Orderly := by
  refine ⟨orderly.endpoint, orderly.deferred, fun fresh => ?_⟩
  cases isOver.symm.trans fresh

/-- A session that has not failed at all that it took did not fail at the first. -/
theorem not_failed_of_receiveAll {octets : Octets} {reads : List Octets}
    (fine : (session.receiveAll (octets :: reads)).2.endpoint.stage ≠ .failed) :
    (session.receive octets).2.endpoint.stage ≠ .failed := by
  intro failed
  rw [receiveAll_cons] at fine
  rcases reads with _ | ⟨more, reads⟩
  · exact fine failed
  · rw [((receiveAll_of_failed failed (more :: reads)).2 (by simp)).2] at fine
    exact fine failed

/-- What a session receives after its handshake changes only what it receives with, unless it fails
in the end. -/
theorem receiveAll_eq_reread (orderly : session.Orderly)
    (isOver : session.endpoint.stage = .established) {reads : List Octets}
    (fine : (session.receiveAll reads).2.endpoint.stage ≠ .failed) : ∃ receiveNumber inbox,
    (session.receiveAll reads).2 = session.reread receiveNumber inbox := by
  induction reads generalizing session with
  | nil => exact ⟨session.endpoint.receiveNumber, session.inbox, rfl⟩
  | cons octets reads ih =>
    obtain ⟨receiveNumber, inbox, same⟩ :=
      receive_eq_reread orderly isOver (not_failed_of_receiveAll fine)
    rw [receiveAll_cons, same] at fine ⊢
    exact ih (orderly.reread isOver receiveNumber inbox) isOver fine

/-- After its handshake a session makes the same of all octets no matter what it has sent. -/
theorem receiveAll_renumber (orderly : session.Orderly)
    (isOver : session.endpoint.stage = .established) (sendNumber : UInt64) (source : G)
    {reads : List Octets} (fine : (session.receiveAll reads).2.endpoint.stage ≠ .failed) :
    (session.renumber sendNumber source).receiveAll reads =
      ((session.receiveAll reads).1, (session.receiveAll reads).2.renumber sendNumber source) := by
  induction reads generalizing session with
  | nil => rfl
  | cons octets reads ih =>
    obtain ⟨receiveNumber, inbox, same⟩ :=
      receive_eq_reread orderly isOver (not_failed_of_receiveAll fine)
    rw [receiveAll_cons, receiveAll_cons, receive_renumber orderly isOver]
    rw [receiveAll_cons, same] at fine
    rw [same, ih (orderly.reread isOver receiveNumber inbox) isOver fine]

/-- A write may come after what is received, or before. -/
theorem send_receiveAll (orderly : session.Orderly)
    (isOver : session.endpoint.stage = .established) {reads : List Octets}
    (fine : (session.receiveAll reads).2.endpoint.stage ≠ .failed) (data : Octets) :
    (session.receiveAll reads).2.send data =
      ((session.send data).1, ((session.send data).2.receiveAll reads).2) := by
  obtain ⟨receiveNumber, inbox, received⟩ := receiveAll_eq_reread orderly isOver fine
  obtain ⟨_, _, sendNumber, source, sent⟩ := send_eq_renumber orderly isOver data
  rw [sent, receiveAll_renumber orderly isOver sendNumber source fine, received, send_reread, sent]
  rfl

/-- All writes may come after what is received, or before. -/
theorem sendAll_receiveAll (orderly : session.Orderly)
    (isOver : session.endpoint.stage = .established) {reads : List Octets}
    (fine : (session.receiveAll reads).2.endpoint.stage ≠ .failed) (writes : List Octets) :
    ((session.receiveAll reads).2.sendAll writes).2 =
      ((session.sendAll writes).2.receiveAll reads).2 := by
  induction writes generalizing session with
  | nil => rfl
  | cons data writes ih =>
    obtain ⟨stays, still, sendNumber, source, sent⟩ := send_eq_renumber orderly isOver data
    have later : ((session.send data).2.receiveAll reads).2.endpoint.stage ≠ .failed := by
      rw [sent, receiveAll_renumber orderly isOver sendNumber source fine]
      exact fine
    rw [sendAll_cons, sendAll_cons, send_receiveAll orderly isOver fine, ih stays still later]

/-- Every interleaving of writes and reads comes to the same as to receive everything first. -/
theorem readsFirst_of_interleaves {writes reads : List Octets} {calls : List Call}
    (interleaves : Interleaves writes reads calls) (orderly : session.Orderly)
    (isOver : session.endpoint.stage = .established)
    (fine : (session.receiveAll reads).2.endpoint.stage ≠ .failed) :
    Reply.results (session.performAll calls).1 = (session.sendAll writes).1 ∧
    Reply.outcomes (session.performAll calls).1 = (session.receiveAll reads).1 ∧
    (session.performAll calls).2 = ((session.receiveAll reads).2.sendAll writes).2 := by
  induction interleaves generalizing session with
  | nil => exact ⟨rfl, rfl, rfl⟩
  | @write writes reads calls data later ih =>
    obtain ⟨stays, still, sendNumber, source, sent⟩ := send_eq_renumber orderly isOver data
    have received : (session.send data).2.receiveAll reads = ((session.receiveAll reads).1,
        (session.receiveAll reads).2.renumber sendNumber source) := by
      rw [sent, receiveAll_renumber orderly isOver sendNumber source fine]
    -- the later reads do not notice this write, and it can wait until after them
    obtain ⟨results, outcomes, last⟩ := ih stays still (by rw [received]; exact fine)
    rw [performAll_cons, Session.perform]
    refine ⟨?_, ?_, ?_⟩
    · rw [Reply.results_answered, results, sendAll_cons]
    · rw [Reply.outcomes_answered, outcomes, received]
    · rw [last, sendAll_cons, send_receiveAll orderly isOver fine]
  | @read writes reads calls octets later ih =>
    obtain ⟨receiveNumber, inbox, same⟩ :=
      receive_eq_reread orderly isOver (not_failed_of_receiveAll fine)
    have stays := orderly.reread isOver receiveNumber inbox
    rw [receiveAll_cons] at fine ⊢
    obtain ⟨results, outcomes, last⟩ := ih (same ▸ stays) (by rw [same]; exact isOver) fine
    rw [performAll_cons, Session.perform]
    refine ⟨?_, ?_, last⟩
    · rw [Reply.results_received, results, same, sendAll_reread]
    · rw [Reply.outcomes_received, outcomes]

/-- However an established session is made to send and to receive, as long as it would not fail at
what it receives alone: every write returns what it returns without the reads, every read returns
what it returns without the writes, and the session ends as if it had received everything first, or
had sent everything first. -/
theorem performAll_of_interleaves (reachable : session.Reachable)
    (isOver : session.endpoint.stage = .established) {writes reads : List Octets}
    (fine : (session.receiveAll reads).2.endpoint.stage ≠ .failed) {calls : List Call}
    (interleaves : Interleaves writes reads calls) :
    Reply.results (session.performAll calls).1 = (session.sendAll writes).1 ∧
    Reply.outcomes (session.performAll calls).1 = (session.receiveAll reads).1 ∧
    (session.performAll calls).2 = ((session.receiveAll reads).2.sendAll writes).2 ∧
    (session.performAll calls).2 = ((session.sendAll writes).2.receiveAll reads).2 := by
  have orderly := reachable.orderly_of_established isOver
  obtain ⟨results, outcomes, last⟩ := readsFirst_of_interleaves interleaves orderly isOver fine
  exact ⟨results, outcomes, last, last.trans (sendAll_receiveAll orderly isOver fine writes)⟩

/-- Octets that are too few for a header only wait for what comes next. -/
theorem receiveAll_of_short (isOver : session.endpoint.stage = .established) {front : Octets}
    (short : (session.inbox ++ front).length < Record.headerLength) (back : Octets) :
    session.receiveAll [front, back] =
      ([.needMoreData, (session.receive (front ++ back)).1],
        (session.receive (front ++ back)).2) := by
  have nothing : Record.next? (session.inbox ++ front) = .ok none := by
    rw [Record.next?, Record.Header.ofFront?_of_short short]
  have first : session.receive front =
      (.needMoreData, { session with inbox := session.inbox ++ front }) := by
    rw [receive_eq_drain (Or.inr isOver)]
    exact drain_of_nothing nothing
  have second : ({ session with inbox := session.inbox ++ front } : Session G).receive back =
      session.receive (front ++ back) := by
    rw [receive_eq_drain (Or.inr (by exact isOver)), receive_eq_drain (Or.inr isOver)]
    dsimp only
    rw [List.append_assoc]
  rw [receiveAll_cons, first, receiveAll_cons, second]
  rfl

/-- After a rehearsed handshake the client writes twice, while it reads what the server wrote in two
parts. The first write takes two records and fails with the second of them; the other succeeds. -/
theorem performAll_of_interleaves_rehearsal : ∃ (session : Session Faltering)
    (front back records : Octets),
    session.Reachable ∧ session.endpoint.stage = .established ∧
    (session.receiveAll [front, back]).2.endpoint.stage ≠ .failed ∧
    Interleaves [List.replicate 16293 0, [1]] [front, back]
      [.receive front, .send (List.replicate 16293 0), .receive back, .send [1]] ∧
    Reply.results (session.performAll
        [.receive front, .send (List.replicate 16293 0), .receive back, .send [1]]).1 =
      [.error .entropyExhausted, .ok records] ∧
    Reply.outcomes (session.performAll
        [.receive front, .send (List.replicate 16293 0), .receive back, .send [1]]).1 =
      [.needMoreData, .applicationData (KeySchedule.ascii "ping")] := by
  obtain ⟨_, supplied⟩ := Rehearsal.exists_supplied [false, true]
  obtain ⟨session, writer, toClient, toServer, same, rfl, ⟨inbox, _⟩, _, agree, able, ready⟩ :=
    supplied.exists_agreed
  obtain ⟨_, _, clientMade⟩ := supplied.clientMade
  obtain ⟨_, _, serverMade⟩ := supplied.serverMade
  have writes : (Rehearsal.server.start.2.receive toServer).2.Reachable :=
    ⟨_, .server serverMade, .receive (.start .refl) toServer⟩
  have reads : session.Reachable := same ▸ ⟨_, .client clientMade, .receive (.start .refl) toClient⟩
  obtain ⟨keys, writeKeys, readKeys⟩ := agree.back
  have step : InStep _ session := ⟨agree.serverOver, agree.clientOver,
    writeKeys.trans readKeys.symm, agree.numbers.2.2.1.trans agree.numbers.2.1.symm, inbox⟩
  have orderly := writes.orderly_of_established agree.serverOver
  have reading := reads.orderly_of_established agree.clientOver
  obtain ⟨records, after, sent, _⟩ := exists_send orderly agree.serverOver
    (Endpoint.CanSend.served ready) (by decide : (KeySchedule.ascii "ping").length ≤ _)
    (by rw [agree.numbers.2.2.1]; decide)
  obtain ⟨outcome, later⟩ := step.receive orderly reading sent
  obtain ⟨between, more, last, failed, _, succeeds, _⟩ := exists_lapse reading agree.clientOver able
    (by rw [agree.numbers.1]; decide) (by decide : ([1] : Octets).length ≤ Record.maxPiece)
  have all := @receiveAll_of_short _ _ session agree.clientOver (records.take 3)
    (by rw [inbox]; simp [Record.headerLength]) (records.drop 3)
  rw [List.take_append_drop] at all
  have fine : (session.receiveAll [records.take 3, records.drop 3]).2.endpoint.stage ≠ .failed := by
    rw [all, later.reading]
    exact Stage.noConfusion
  have interleaves : Interleaves [List.replicate 16293 0, [1]] [records.take 3, records.drop 3]
      [.receive (records.take 3), .send (List.replicate 16293 0), .receive (records.drop 3),
        .send [1]] :=
    .read _ (.write _ (.read _ (.write _ .nil)))
  obtain ⟨results, outcomes, _⟩ :=
    performAll_of_interleaves reads agree.clientOver fine interleaves
  rw [sendAll_cons, failed, sendAll_cons, succeeds] at results
  rw [all, outcome] at outcomes
  exact ⟨session, _, _, more, reads, agree.clientOver, fine, interleaves, results, outcomes⟩

end Session

end TransportSecurity
