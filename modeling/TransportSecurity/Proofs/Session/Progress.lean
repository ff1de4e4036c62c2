import TransportSecurity.Proofs.Session.Agreement
import TransportSecurity.Proofs.Session.Packing

/-!
Sessions get on, and keep little.

Octets from the other end are worked off by two loops, one over the records in the inbox and inside
it one over the messages among the octets collected. Both are given here turn by turn
(`Draining.turn`, `Collecting.turn`). A turn after which the loop goes on has used up a whole record
or a whole message, five or four octets at the least, so that the loops end whatever has arrived
(`loop_draining`, `loop_collecting`).

What a loop leaves is the beginning of a record or of a message that the two checks of lengths let
through, so a session never keeps more than one record and one message would fill, and nothing of a
message once the handshake is over (`receive_progresses`).
-/

namespace TransportSecurity

/-! ### Loops -/

/-- What one turn of a loop comes to: another turn, or the end of the loop. -/
inductive Turn (State Result : Type) where
  | again (next : State)
  | last (result : Result)

namespace Turn

variable {State Result : Type}

/-- What a loop comes to, if it ends within so many turns. -/
def loop (turn : State → Turn State Result) : Nat → State → Option Result
  | 0, _ => none
  | turns + 1, state =>
    match turn state with
    | .again next => loop turn turns next
    | .last result => some result

/-- If every turn after which it goes on uses up some of what there is, a loop ends, and comes to
what every turn leads to. -/
theorem loop_eq_some {turn : State → Turn State Result} {value : State → Result}
    {size : State → Nat} {cost : Nat}
    (uses : ∀ state next, turn state = .again next → size next + cost ≤ size state)
    (goesOn : ∀ state next, turn state = .again next → value state = value next)
    (ends : ∀ state result, turn state = .last result → value state = result) {turns : Nat}
    {state : State} (enough : size state < cost * turns) :
    loop turn turns state = some (value state) := by
  induction turns generalizing state with
  | zero =>
    rw [Nat.mul_zero] at enough
    exact (Nat.not_lt_zero _ enough).elim
  | succ turns ih =>
    rw [Nat.mul_succ] at enough
    cases turned : turn state with
    | again next =>
      have less := uses state next turned
      rw [loop, turned, goesOn state next turned]
      exact ih (by omega)
    | last result => rw [loop, turned, ends state result turned]

end Turn

/-! ### The loop over messages -/

/-- What the loop over messages holds: what is to be sent, the octets collected, and the
endpoint. -/
structure Collecting (G : Type) where
  records : Octets
  pending : Octets
  endpoint : Endpoint G

namespace Collecting

open Endpoint

variable {G : Type} [Entropy G]

/-- One turn of the loop: takes a message off the octets collected and handles it. -/
def turn (collecting : Collecting G) :
    Turn (Collecting G) (EStateM.Result Error (Endpoint G) (Progress × Octets)) :=
  match Assembly.next? collecting.pending with
  | .error error => .last (.error error collecting.endpoint)
  | .ok none => .last (.ok (.continued collecting.records, collecting.pending) collecting.endpoint)
  | .ok (some (message, rest)) =>
    match receiveMessage message collecting.endpoint with
    | .error error endpoint => .last (.error error endpoint)
    | .ok answer endpoint =>
      if endpoint.stage = .established then
        if rest.isEmpty then .last (.ok (.complete (collecting.records ++ answer), rest) endpoint)
        else .last (.error (.unexpectedMessage "handshake message after Finished") endpoint)
      else .again ⟨collecting.records ++ answer, rest, endpoint⟩

/-- All that the loop comes to. -/
def value (collecting : Collecting G) :
    EStateM.Result Error (Endpoint G) (Progress × Octets) :=
  receiveMessages collecting.records collecting.pending collecting.endpoint

/-- The loop goes on after a message that leaves the handshake going on. -/
theorem turn_eq_again {collecting next : Collecting G} (again : collecting.turn = .again next) :
    ∃ message answer, Assembly.next? collecting.pending = .ok (some (message, next.pending)) ∧
      receiveMessage message collecting.endpoint = .ok answer next.endpoint ∧
      next.endpoint.stage ≠ .established ∧ next.records = collecting.records ++ answer := by
  unfold turn at again
  split at again
  · cases again
  · cases again
  · next message rest found =>
    split at again
    · cases again
    · next answer endpoint took =>
      split at again
      · split at again <;> cases again
      · next unfinished =>
        cases again
        exact ⟨message, answer, found, took, unfinished, rfl⟩

theorem value_of_again {collecting next : Collecting G} (again : collecting.turn = .again next) :
    collecting.value = next.value := by
  obtain ⟨message, answer, found, took, unfinished, same⟩ := turn_eq_again again
  rw [value, receiveMessages_of_found found, bind_of_ok took, get_bind, if_neg unfinished, value,
    same]

theorem value_of_last {collecting : Collecting G}
    {result : EStateM.Result Error (Endpoint G) (Progress × Octets)}
    (last : collecting.turn = .last result) : collecting.value = result := by
  unfold turn at last
  split at last
  · next error found =>
    cases last
    rw [value, receiveMessages_of_refused found]
    rfl
  · next found =>
    cases last
    rw [value, receiveMessages_of_nothing found]
    rfl
  · next message rest found =>
    rw [value, receiveMessages_of_found found]
    split at last
    · next error endpoint failed =>
      cases last
      exact bind_of_error failed
    · next answer endpoint took =>
      rw [bind_of_ok took, get_bind]
      split at last
      · next isOver =>
        rw [if_pos isOver]
        split at last
        · next nothing =>
          cases last
          rw [if_pos nothing]
          rfl
        · next more =>
          cases last
          rw [if_neg more]
          rfl
      · cases last

end Collecting

/-- A message that is taken off the octets collected is whole, so there are four octets fewer at the
least. -/
theorem Assembly.whole_of_next? {pending message rest : Octets}
    (found : next? pending = .ok (some (message, rest))) :
    Message.IsWhole message ∧ pending = message ++ rest ∧ 4 ≤ message.length :=
  ⟨isWhole_of_next? found, (next?_eq_some found).1.symm, (next?_eq_some found).2⟩

/-- The loop over messages ends within one turn for every four octets collected and one more. -/
theorem loop_collecting {G : Type} [Entropy G] (collecting : Collecting G) {turns : Nat}
    (enough : collecting.pending.length < 4 * turns) :
    Turn.loop Collecting.turn turns collecting = some collecting.value := by
  refine @Turn.loop_eq_some _ _ _ _ (fun collecting => collecting.pending.length) 4 ?_
    (fun _ _ => Collecting.value_of_again) (fun _ _ => Collecting.value_of_last) _ _ enough
  intro before next again
  obtain ⟨message, _, found, _⟩ := Collecting.turn_eq_again again
  obtain ⟨_, split, long⟩ := Assembly.whole_of_next? found
  rw [split, List.length_append]
  omega

/-! ### The loop over records -/

/-- What the loop over records holds: what is to be sent, what is to be handed out, and the
session. -/
structure Draining (G : Type) where
  records : Octets
  data : Octets
  session : Session G

namespace Draining

open Endpoint Session

variable {G : Type} [Entropy G]

/-- One turn of the loop: takes a record off the inbox and handles it. -/
def turn (draining : Draining G) : Turn (Draining G) (Outcome × Session G) :=
  match Record.next? draining.session.inbox with
  | .error error => .last (draining.session.stop error draining.data)
  | .ok none => .last (Outcome.waiting draining.records draining.data, draining.session)
  | .ok (some (header, record, inbox)) =>
    match receiveRecord header record draining.session.pending draining.session.endpoint with
    | .ok (.continued answer, pending) endpoint =>
      .again ⟨draining.records ++ answer, draining.data,
        { draining.session with endpoint, inbox, pending }⟩
    | .ok (.data content, pending) endpoint =>
      .again ⟨draining.records, draining.data ++ content,
        { draining.session with endpoint, inbox, pending }⟩
    | .ok (.complete answer, pending) endpoint =>
      .last (.handshakeComplete (draining.records ++ answer),
        { draining.session with endpoint, inbox, pending })
    | .error error endpoint =>
      .last ({ draining.session with endpoint, inbox }.stop error draining.data)

/-- All that the loop comes to. -/
def value (draining : Draining G) : Outcome × Session G :=
  drain draining.records draining.data draining.session

/-- The loop goes on after a record that was handled. -/
theorem turn_eq_again {draining next : Draining G} (again : draining.turn = .again next) :
    ∃ header record, Record.next? draining.session.inbox =
      .ok (some (header, record, next.session.inbox)) ∧ draining.value = next.value := by
  unfold turn at again
  split at again
  · cases again
  · cases again
  · next header record inbox found =>
    have drained : draining.value = _ := drain_of_found found
    split at again
    · next answer pending endpoint handled =>
      cases again
      refine ⟨header, record, found, ?_⟩
      rw [drained, handled]
      rfl
    · next content pending endpoint handled =>
      cases again
      refine ⟨header, record, found, ?_⟩
      rw [drained, handled]
      rfl
    · cases again
    · cases again

theorem value_of_last {draining : Draining G} {result : Outcome × Session G}
    (last : draining.turn = .last result) : draining.value = result := by
  unfold turn at last
  split at last
  · next error found =>
    cases last
    exact drain_of_malformed found
  · next found =>
    cases last
    exact drain_of_nothing found
  · next header record inbox found =>
    have drained : draining.value = _ := drain_of_found found
    split at last
    · cases last
    · cases last
    · next answer pending endpoint handled =>
      cases last
      rw [drained, handled]
    · next error endpoint refused =>
      cases last
      rw [drained, refused]

end Draining

/-- A record that is taken off the inbox is whole, so there are five octets fewer at the least. -/
theorem Record.whole_of_next? {inbox record rest : Octets} {header : Header}
    (found : next? inbox = .ok (some (header, record, rest))) :
    IsWhole header record ∧ inbox = record ++ rest ∧ 5 ≤ record.length := by
  obtain ⟨whole, split⟩ := next?_eq_some_iff.mp found
  refine ⟨whole, split, ?_⟩
  rw [whole.length]
  exact Nat.le_add_right ..

/-- The loop over records ends within one turn for every five octets in the inbox and one more. -/
theorem loop_draining {G : Type} [Entropy G] (draining : Draining G) {turns : Nat}
    (enough : draining.session.inbox.length < 5 * turns) :
    Turn.loop Draining.turn turns draining = some draining.value := by
  refine @Turn.loop_eq_some _ _ _ _ (fun draining => draining.session.inbox.length) 5 ?_ ?_
    (fun _ _ => Draining.value_of_last) _ _ enough
  · intro before next again
    obtain ⟨header, record, found, _⟩ := Draining.turn_eq_again again
    obtain ⟨_, split, long⟩ := Record.whole_of_next? found
    rw [split, List.length_append]
    omega
  · intro before next again
    obtain ⟨_, _, _, same⟩ := Draining.turn_eq_again again
    exact same

/-! ### What is kept -/

/-- A record that is waited for has one octet less than the longest, at the most. -/
theorem Record.length_lt_of_nothing {inbox : Octets} (nothing : next? inbox = .ok none) :
    inbox.length < headerLength + maxLength := by
  unfold next? at nothing
  split at nothing
  · cases nothing
  · next short =>
    refine Nat.lt_of_not_le fun long => ?_
    have enough : headerLength ≤ inbox.length := Nat.le_trans (Nat.le_add_right ..) long
    have front : (inbox.take headerLength).length = headerLength := List.length_take_of_le enough
    unfold Header.ofFront? at short
    dsimp only at short
    rw [if_neg (by omega)] at short
    obtain ⟨_, _, impossible⟩ := except_bind_eq_ok.mp short
    cases impossible
  · next header found =>
    dsimp only at nothing
    split at nothing
    · next missing =>
      have short := (Header.ofFront?_eq_some_iff.mp found).1.length
      rw [List.length_take, Header.recordLength] at missing
      omega
    · cases nothing

/-- A message that is waited for has one octet less than the longest, at the most. -/
theorem Assembly.length_lt_of_nothing {pending : Octets} (nothing : next? pending = .ok none) :
    pending.length < Body.headerLength + maxLength := by
  obtain short | ⟨code, a, b, c, tail, rfl⟩ := short_or_header pending
  · omega
  · rw [next?_cons] at nothing
    split at nothing
    · cases nothing
    · next within =>
      split at nothing
      · next missing =>
        simp only [List.length_cons, Body.headerLength]
        omega
      · cases nothing

namespace Endpoint

variable {G : Type} [Entropy G] {e f : Endpoint G}

/-- Nothing is left of the octets collected when they have ended the handshake. -/
theorem Collects.nothing_left {records pending left : Octets} {progress : Progress}
    (collects : Collects records pending e progress left f) (unfinished : e.stage ≠ .established)
    (isOver : f.stage = .established) : left = [] := by
  induction collects with
  | waits nothing => exact (unfinished isOver).elim
  | completes found took isOver => rfl
  | goesOn found took goesOn later ih => exact ih goesOn isOver

/-- When the handshake is over, whether it has been or not, nothing waits to be a message. -/
theorem Takes.nothing_left {p q : Octets} {script : List Handled} (takes : Takes e p script f q)
    (sound : e.Sound) (active : e.stage = .handshaking ∨ e.stage = .established)
    (before : e.stage = .established → p = []) (isOver : f.stage = .established) : q = [] := by
  induction takes with
  | nil => exact before isOver
  | cons whole handled later ih =>
    have handles := receiveRecord_eq_ok.mp handled
    refine ih (sound_handles sound handles) (active_handles sound active handles) ?_ isOver
    intro now
    cases handles with
    | change type opened announces nothing changed => exact nothing
    | data type opened already =>
      obtain ⟨_, rfl⟩ := open?_frame opened
      exact before already
    | messages type opened unfinished collects => exact collects.nothing_left unfinished now

end Endpoint

namespace Session

open Endpoint

variable {G : Type} [Entropy G] {session : Session G}

/-- A call does not leave octets of a message behind when the handshake is over. -/
theorem nothing_pending_of_performs {after : Session G} {call : Call} {reply : Reply}
    (orderly : session.Orderly)
    (before : session.endpoint.stage = .established → session.pending = [])
    (performs : Performs session call reply after) (isOver : after.endpoint.stage = .established) :
    after.pending = [] := by
  cases performs with
  | starts fresh begins => exact (orderly.fresh fresh).2
  | cannotStart fresh failed => rfl
  | started begun => exact before isOver
  | notStarted fresh => exact before isOver
  | reads active arrived takes => exact takes.nothing_left orderly.endpoint active before isOver
  | cannotRead script active arrived takes opened refuses =>
    cases (failed_of_stop ..).symm.trans isOver
  | sends already sent => exact before already
  | cannotSend already failed => exact before already
  | notEstablished unfinished => exact (unfinished isOver).elim

/-- Once the handshake is over nothing waits to be a message. -/
theorem Reachable.nothing_pending (reachable : session.Reachable) :
    session.endpoint.stage = .established → session.pending = [] := by
  refine reachable.induct ?_ ?_ ?_
  · intro session made isOver
    have fresh := (blank_of_made made).idle
    rw [(orderly_of_made made).endpoint.stage, ← fresh, Role.shape_idle] at isOver
    cases isOver
  · intro session reachable before call isOver
    have notFailed : session.endpoint.stage ≠ .failed := fun failed => by
      cases (failed_perform failed call).symm.trans isOver
    have orderly := reachable.orderly.resolve_right notFailed
    exact nothing_pending_of_performs orderly before (orderly.performs call) isOver
  · intro session _ _ isOver
    cases isOver

/-- A call that neither fails nor ends the handshake leaves no whole record. -/
theorem rests_of_receive {octets : Octets} {outcome : Outcome} {after : Session G}
    (orderly : session.Orderly) (received : session.receive octets = (outcome, after))
    (fine : outcome.failure? = none) (unfinished : outcome.completes = false)
    (notFailed : after.endpoint.stage ≠ .failed) : Record.next? after.inbox = .ok none := by
  by_cases fresh : session.endpoint.stage = .initial
  · unfold receive at received
    rw [fresh] at received
    cases received
    cases fine
  · have receives := receives_receive (orderly.active fresh) octets
    rw [received] at receives
    generalize same : (outcome, after) = result at receives
    cases receives with
    | waits arrived takes opened nothing =>
      cases same
      exact nothing
    | completes arrived takes opened ends =>
      cases same
      cases unfinished
    | stops arrived takes opened refuses =>
      obtain rfl : after = _ := congrArg Prod.snd same
      exact (notFailed (failed_of_stop ..)).elim

/-- Whatever octets a session in use is given, it works them off and keeps little. Every turn after
which the loop over records goes on uses up a whole record, and every message that is taken off the
octets collected is whole, so that both loops end, within one turn for every five and every four
octets and one more. After a call that asks for more, answers, or hands out data, without a failure
that waits, what is kept is less than the longest record and the longest message. Once the handshake
is over nothing is kept of a message. -/
theorem receive_progresses (reachable : session.Reachable) (octets : Octets) :
    (∀ draining next : Draining G, draining.turn = .again next → ∃ header record,
      Record.IsWhole header record ∧ draining.session.inbox = record ++ next.session.inbox ∧
        5 ≤ record.length) ∧
    (∀ pending message rest : Octets, Assembly.next? pending = .ok (some (message, rest)) →
      Message.IsWhole message ∧ pending = message ++ rest ∧ 4 ≤ message.length) ∧
    (∀ collecting next : Collecting G, collecting.turn = .again next → ∃ message,
      Assembly.next? collecting.pending = .ok (some (message, next.pending))) ∧
    (session.endpoint.stage = .handshaking ∨ session.endpoint.stage = .established →
      Turn.loop Draining.turn ((session.inbox ++ octets).length / 5 + 1)
        ⟨[], [], { session with inbox := session.inbox ++ octets }⟩ =
          some (session.receive octets)) ∧
    (∀ records pending : Octets, ∀ endpoint : Endpoint G,
      Turn.loop Collecting.turn (pending.length / 4 + 1) ⟨records, pending, endpoint⟩ =
        some (receiveMessages records pending endpoint)) ∧
    (∀ outcome after, session.receive octets = (outcome, after) →
      (outcome = .needMoreData ∨ (∃ records, outcome = .output records) ∨
        ∃ data, outcome = .applicationData data) → after.endpoint.stage ≠ .failed →
      after.inbox.length < 5 + 16448 ∧ after.pending.length < 4 + 2 ^ 17) ∧
    (session.endpoint.stage = .established → session.pending = []) := by
  refine ⟨?_, fun _ _ _ => Assembly.whole_of_next?, ?_, ?_, ?_, ?_, reachable.nothing_pending⟩
  · intro draining next again
    obtain ⟨header, record, found, _⟩ := Draining.turn_eq_again again
    exact ⟨header, record, Record.whole_of_next? found⟩
  · intro collecting next again
    obtain ⟨message, _, found, _⟩ := Collecting.turn_eq_again again
    exact ⟨message, found⟩
  · intro active
    rw [receive_eq_drain active]
    exact loop_draining _ (Nat.lt_mul_div_succ _ (by decide))
  · intro records pending endpoint
    exact loop_collecting _ (Nat.lt_mul_div_succ _ (by decide))
  · intro outcome after received goesOn notFailed
    have later : after.Reachable := by
      have reached := reachable.perform (.receive octets)
      rwa [show (session.perform (.receive octets)).2 = after from congrArg Prod.snd received]
        at reached
    have orderly : session.Orderly := by
      refine reachable.orderly.resolve_right fun failed => notFailed ?_
      rw [← show (session.receive octets).2 = after from congrArg Prod.snd received]
      exact failed_receive failed octets
    have rests : Record.next? after.inbox = .ok none := by
      rcases goesOn with rfl | ⟨records, rfl⟩ | ⟨data, rfl⟩ <;>
        exact rests_of_receive orderly received rfl rfl notFailed
    exact ⟨Record.length_lt_of_nothing rests, Assembly.length_lt_of_nothing later.collecting⟩

end Session

namespace Rehearsal

/-- The beginning of a record: its header and the first octets of a message. -/
def beginning : Octets := [22, 3, 3, 0, 43, 1, 0, 0]

end Rehearsal

/-- The rehearsed server, given the beginning of a record, asks for more after two turns at the most
and keeps it. -/
theorem Session.receive_progresses_rehearsal : Rehearsal.server.start.2.Reachable ∧
    Rehearsal.server.start.2.receive Rehearsal.beginning =
      (.needMoreData, { Rehearsal.server.start.2 with inbox := Rehearsal.beginning }) ∧
    Turn.loop Draining.turn 2 ⟨[], [], { Rehearsal.server.start.2 with
      inbox := Rehearsal.beginning }⟩ =
        some (Rehearsal.server.start.2.receive Rehearsal.beginning) ∧
    Rehearsal.beginning.length < 5 + 16448 := by
  obtain ⟨_, _, made⟩ := Rehearsal.pairing.serverMade
  have reachable : Rehearsal.server.start.2.Reachable := ⟨_, .server made, .start .refl⟩
  have running : Rehearsal.server.start.2.endpoint.stage = .handshaking := rfl
  have received : Rehearsal.server.start.2.receive Rehearsal.beginning =
      (.needMoreData, { Rehearsal.server.start.2 with inbox := Rehearsal.beginning }) := by
    rw [receive_eq_drain (Or.inl running)]
    exact drain_of_nothing (by decide)
  obtain ⟨_, _, _, loops, _, keeps, _⟩ := receive_progresses reachable Rehearsal.beginning
  obtain ⟨short, _⟩ := keeps _ _ received (Or.inl rfl) (by rw [running]; decide)
  exact ⟨reachable, received, loops (Or.inl running), short⟩

end TransportSecurity
