import TransportSecurity.Proofs.Link.Handshaking

/-!
What a connection hears, over any transport.

In the course of sends and receives that may fail, a transport delivers octets (`Hears`), and any
transport can be made to keep a record of them (`Recorder`). A handshake that succeeds has heard the
records that its session took up to the one that ended it (`completed_of_ok`). After it, what a
connection that waits for data comes to is what its session makes of what is heard meanwhile
(`awaits_awaitData`).
-/

namespace TransportSecurity

section Hearing

variable {T : Type} [Transport T]

/-- In the course of sends and receives a transport has delivered octets. -/
inductive Hears (first : T) : Octets → T → Prop
  | silent : Hears first [] first
  | sent {octets records : Octets} {now after : T} (before : Hears first octets now)
    (done : Transport.send records now = .ok () after) : Hears first octets after
  | notSent {octets records : Octets} {now after : T} {error : Error}
    (before : Hears first octets now) (failed : Transport.send records now = .error error after) :
    Hears first octets after
  | received {octets read : Octets} {now after : T} (before : Hears first octets now)
    (done : Transport.receive Connection.room now = .ok read after) :
    Hears first (octets ++ read) after
  | notReceived {octets : Octets} {now after : T} {error : Error} (before : Hears first octets now)
    (failed : Transport.receive Connection.room now = .error error after) :
    Hears first octets after

theorem Hears.trans {first now after : T} {octets more : Octets} (before : Hears first octets now)
    (later : Hears now more after) : Hears first (octets ++ more) after := by
  induction later with
  | silent =>
    rw [List.append_nil]
    exact before
  | sent _ done ih => exact ih.sent done
  | notSent _ failed ih => exact ih.notSent failed
  | received _ done ih =>
    rw [← List.append_assoc]
    exact ih.received done
  | notReceived _ failed ih => exact ih.notReceived failed

theorem Hears.quietly {first now after : T} {octets : Octets} (before : Hears first octets now)
    (later : Hears now [] after) : Hears first octets after :=
  List.append_nil octets ▸ before.trans later

/-- What a read may return on its way: data, or an error of the transport, or that the other end has
closed. -/
inductive Passing (T : Type) [Transport T] : Except Error Octets → Prop
  | data {data : Octets} (some : data ≠ []) : Passing T (.ok data)
  | interrupted {error : Error} {now after : T}
    (failed : Transport.receive Connection.room now = .error error after) : Passing T (.error error)
  | closed {now after : T} (none : Transport.receive Connection.room now = .ok [] after) :
    Passing T (.error .connectionClosed)

/-- A transport, with a record of all that it has delivered. -/
structure Recorder (T : Type) where
  transport : T
  heard : Octets

namespace Recorder

def send (octets : Octets) : EStateM Error (Recorder T) Unit := fun recorder =>
  match Transport.send octets recorder.transport with
  | .ok () transport => .ok () { recorder with transport }
  | .error error transport => .error error { recorder with transport }

def receive (room : Nat) : EStateM Error (Recorder T) Octets := fun recorder =>
  match Transport.receive room recorder.transport with
  | .ok octets transport => .ok octets ⟨transport, recorder.heard ++ octets⟩
  | .error error transport => .error error { recorder with transport }

theorem receive_eq_ok {room : Nat} {recorder after : Recorder T} {octets : Octets}
    (done : receive room recorder = .ok octets after) :
    Transport.receive room recorder.transport = .ok octets after.transport ∧
      after.heard = recorder.heard ++ octets := by
  unfold receive at done
  split at done
  · next received =>
    cases done
    exact ⟨received, rfl⟩
  · cases done

instance : Transport (Recorder T) where
  send := send
  receive := receive
  supply recorder := Transport.supply recorder.transport
  supply_lt done some := Transport.supply_lt (receive_eq_ok done).1 some

/-- What is heard is what is recorded. -/
theorem heard_of_hears {first last : Recorder T} {octets : Octets}
    (hears : Hears first octets last) : last.heard = first.heard ++ octets := by
  induction hears with
  | silent => exact (List.append_nil _).symm
  | sent _ done ih =>
    change send _ _ = _ at done
    unfold send at done
    split at done <;> cases done
    exact ih
  | notSent _ failed ih =>
    change send _ _ = _ at failed
    unfold send at failed
    split at failed <;> cases failed
    exact ih
  | received _ done ih => rw [(receive_eq_ok done).2, ih, List.append_assoc]
  | notReceived _ failed ih =>
    change receive _ _ = _ at failed
    unfold receive at failed
    split at failed <;> cases failed
    exact ih

/-- A record changes nothing of what a transport delivers. -/
theorem delivers {ending : Error} {reads : List Octets} {transport : T} (heard : Octets)
    (delivers : Delivers ending reads transport) :
    Delivers ending reads (⟨transport, heard⟩ : Recorder T) := by
  obtain ⟨fine, holds, steady, held⟩ := delivers
  refine ⟨fine, fun left recorder => holds left recorder.transport, ?_, held⟩
  constructor
  · intro left recorder octets held
    obtain ⟨after, sent, held⟩ := steady.send octets held
    refine ⟨{ recorder with transport := after }, ?_, held⟩
    change send octets recorder = _
    rw [send, sent]
  · intro read left recorder held
    obtain ⟨after, received, held⟩ := steady.receive held
    refine ⟨⟨after, recorder.heard ++ read⟩, ?_, held⟩
    change receive Connection.room recorder = _
    rw [receive, received]
  · intro recorder held
    change (∃ after, receive Connection.room recorder = _) ∨
      _ ∧ ∃ after, receive Connection.room recorder = _
    rw [receive]
    rcases steady.ends held with ⟨_, failed⟩ | ⟨same, _, closed⟩
    · rw [failed]
      exact Or.inl ⟨_, rfl⟩
    · rw [closed]
      exact Or.inr ⟨same, _, rfl⟩

end Recorder

end Hearing

namespace Connection

open Session Handled Endpoint

variable {T G : Type} [Transport T] {c d : Connection T G} {octets : Octets}

theorem hears_send_ok {records : Octets} (sent : send records c = .ok () d) :
    ∃ transport, Hears c.transport [] transport ∧ { c with transport } = d := by
  unfold send at sent
  split at sent
  · next done =>
    cases sent
    exact ⟨_, .sent .silent done, rfl⟩
  · cases sent

theorem hears_send_error {records : Octets} {error : Error}
    (failed : send records c = .error error d) :
    ∃ transport, Hears c.transport [] transport ∧ { c with transport } = d := by
  unfold send at failed
  split at failed
  · cases failed
  · next failed' =>
    cases failed
    exact ⟨_, .notSent .silent failed', rfl⟩

theorem hears_sendSome {records : Octets} (sent : sendSome records c = .ok () d) :
    ∃ transport, Hears c.transport [] transport ∧ { c with transport } = d := by
  unfold sendSome at sent
  split at sent
  · cases sent
    exact ⟨_, .silent, rfl⟩
  · exact hears_send_ok sent

/-- Reporting a failure sends at most the alert. -/
theorem hears_report (α : Type) (failure : Failure) (c : Connection T G) :
    ∃ transport, Hears c.transport [] transport ∧
      (report failure : EStateM Error (Connection T G) α) c =
        .error failure.error { c with transport } := by
  unfold report
  split
  · exact ⟨_, .silent, rfl⟩
  · split
    · next done => exact ⟨_, .sent .silent done, rfl⟩
    · next failed => exact ⟨_, .notSent .silent failed, rfl⟩

variable [Entropy G]

/-- A handshake that is complete has heard the records that its session took. -/
inductive Completed (c : Connection T G) : Connection T G → Prop
  | mk {octets inbox pending : Octets} {script : List Handled} {closing : Handled}
    {endpoint : Endpoint G} {transport : T} (heard : Hears c.transport octets transport)
    (arrived : c.session.inbox ++ octets = stream (script ++ [closing]) ++ inbox)
    (takes : Takes c.session.endpoint c.session.pending (script ++ [closing]) endpoint pending)
    (opened : Open script) (ends : closing.progress.ends = true) :
    Completed c ⟨transport, { c.session with endpoint, inbox, pending }, c.unread⟩

/-- What is heard first comes first. -/
theorem Completed.cons {done : List Handled} {endpoint : Endpoint G} {inbox pending : Octets}
    {transport : T} (heard : Hears c.transport octets transport)
    (arrived : c.session.inbox ++ octets = stream done ++ inbox)
    (takes : Takes c.session.endpoint c.session.pending done endpoint pending) (opened : Open done)
    (later : Completed { c with transport, session := { c.session with endpoint, inbox, pending } }
      d) : Completed c d := by
  cases later with
  | mk others rest following opened' ends =>
    have all := takes.append following
    rw [← List.append_assoc] at all
    refine .mk (heard.trans others) ?_ all (open_append_iff.mpr ⟨opened, opened'⟩) ends
    rw [← List.append_assoc, arrived, List.append_assoc, rest, ← List.append_assoc,
      ← stream_append, List.append_assoc]

theorem completed_of_ok {answers : Nat} (ready : c.session.Ready)
    (running : c.session.endpoint.stage = .handshaking)
    (done : completeHandshake answers c = .ok () d) : Completed c d := by
  induction answers, c using completeHandshake.induct with
  | case1 answers c error transport failed =>
    cases done.symm.trans (completeHandshake_of_error failed answers)
  | case2 answers c transport closed =>
    cases done.symm.trans (completeHandshake_of_closed closed answers)
  | case3 answers c first rest transport received session connection outcome ih =>
    rw [completeHandshake_of_read received (by simp), outcome] at done
    cases proceeds_of_receive ready running outcome rfl with
    | waits unfinished arrived takes opened nothing =>
      exact .cons (.received .silent received) arrived takes opened
        (ih (ready.goesOn takes (Or.inl nothing)) (takes.running ready.sound running opened) done)
  | case4 c first rest transport received session records outcome =>
    rw [completeHandshake_of_read received (by simp), outcome] at done
    cases done
  | case5 c first rest transport received session connection records answers next sent outcome ih =>
    rw [completeHandshake_of_read received (by simp), outcome] at done
    dsimp only at done
    rw [sent] at done
    obtain ⟨after, heard, rfl⟩ := hears_send_ok sent
    cases proceeds_of_receive ready running outcome rfl with
    | waits unfinished arrived takes opened nothing =>
      exact .cons ((Hears.received .silent received).quietly heard) arrived takes opened
        (ih (ready.goesOn takes (Or.inl nothing)) (takes.running ready.sound running opened) done)
  | case6 c first rest transport received session connection records answers error next failed
      outcome =>
    rw [completeHandshake_of_read received (by simp), outcome] at done
    dsimp only at done
    rw [failed] at done
    cases done
  | case7 answers c first rest transport received session records outcome =>
    rw [completeHandshake_of_read received (by simp), outcome] at done
    obtain ⟨after, heard, rfl⟩ := hears_sendSome done
    cases proceeds_of_receive ready running outcome rfl with
    | waits unfinished => cases unfinished
    | completes arrived takes opened ends =>
      exact .mk ((Hears.received .silent received).quietly heard) arrived takes opened ends
  | case8 answers c first rest transport received session data outcome =>
    rw [completeHandshake_of_read received (by simp), outcome] at done
    cases done
  | case9 answers c first rest transport received session failure outcome =>
    rw [completeHandshake_of_read received (by simp), outcome] at done
    obtain ⟨_, reported⟩ := exists_report Unit failure { c with transport, session }
    cases done.symm.trans reported

/-- What a connection that waits for data comes to: data, behind which a failure may wait, or what a
failure without data means, or an error of the transport. -/
inductive Awaits (c : Connection T G) : EStateM.Result Error (Connection T G) Octets → Prop
  | data {octets : Octets} {transport : T} {script : List Handled} {session : Session G}
    (heard : Hears c.transport octets transport) (idle : session.Idle)
    (comes : ComesTo c.session (c.session.inbox ++ octets) script none session)
    (data : contents script ≠ []) :
    Awaits c (.ok (contents script) { c with transport, session })
  | defers {octets : Octets} {transport : T} {script : List Handled} {failure : Failure}
    {session : Session G} (heard : Hears c.transport octets transport)
    (failed : session.endpoint.stage = .failed)
    (comes : ComesTo c.session (c.session.inbox ++ octets) script (some failure) session)
    (data : contents script ≠ []) :
    Awaits c (.ok (contents script)
      { c with transport, session := { session with deferred := some failure } })
  | fails {octets : Octets} {transport : T} {script : List Handled} {failure : Failure}
    {session : Session G} (heard : Hears c.transport octets transport)
    (failed : session.endpoint.stage = .failed) (deferred : session.deferred = none)
    (comes : ComesTo c.session (c.session.inbox ++ octets) script (some failure) session)
    (silent : contents script = []) : Awaits c (conclude failure { c with transport, session })
  | passes {octets : Octets} {transport : T} {script : List Handled} {error : Error}
    {session : Session G} (heard : Hears c.transport octets transport) (idle : session.Idle)
    (comes : ComesTo c.session (c.session.inbox ++ octets) script none session)
    (silent : contents script = []) (passing : Passing T (.error error)) :
    Awaits c (.error error { c with transport, session })

/-- What is heard first without data comes first. -/
theorem Awaits.cons {script : List Handled} {transport : T} {session : Session G}
    {result : EStateM.Result Error (Connection T G) Octets}
    (first : Hears c.transport octets transport)
    (before : ComesTo c.session (c.session.inbox ++ octets) script none session)
    (nothing : contents script = []) (later : Awaits { c with transport, session } result) :
    Awaits c result := by
  have joined : ∀ {more : Octets} {others : List Handled} {failure : Option Failure}
      {last : Session G}, ComesTo session (session.inbox ++ more) others failure last →
      ComesTo c.session (c.session.inbox ++ (octets ++ more)) (script ++ others) failure last := by
    intro more others failure last comes
    rw [← List.append_assoc]
    exact before.trans comes
  have same : ∀ others, contents others = contents (script ++ others) := by
    intro others
    rw [contents_append, nothing, List.nil_append]
  cases later with
  | data heard idle comes data =>
    rw [same] at data ⊢
    exact .data (first.trans heard) idle (joined comes) data
  | defers heard failed comes data =>
    rw [same] at data ⊢
    exact .defers (first.trans heard) failed (joined comes) data
  | fails heard failed deferred comes silent =>
    rw [same] at silent
    exact .fails (first.trans heard) failed deferred (joined comes) silent
  | passes heard idle comes silent passing =>
    rw [same] at silent
    exact .passes (first.trans heard) idle (joined comes) silent passing

theorem awaits_awaitData (idle : c.session.Idle) : Awaits c (awaitData c) := by
  induction supply : Transport.supply c.transport using Nat.strong_induction_on generalizing c with
  | _ n ih =>
    have waits : ComesTo c.session (c.session.inbox ++ []) [] none c.session :=
      .waits (List.append_nil _) .nil idle.nothing
    match received : Transport.receive room c.transport with
    | .error error transport =>
      rw [awaitData_of_error received]
      exact .passes (.notReceived .silent received) idle waits contents_nil (.interrupted received)
    | .ok [] transport =>
      rw [awaitData_of_closed received]
      exact .passes (.received .silent received) idle waits contents_nil (.closed received)
    | .ok (first :: rest) transport =>
      have heard : Hears c.transport (first :: rest) transport := .received .silent received
      rw [awaitData_of_read received (by simp)]
      have makes := makes_receive idle.ready idle.isOver (first :: rest)
      generalize c.session.receive (first :: rest) = result at makes ⊢
      cases makes with
      | @goesOn script session later comes =>
        by_cases silent : contents script = []
        · rw [silent]
          have less := supply ▸ Transport.supply_lt received (by simp)
          exact .cons heard comes silent (@ih _ less { c with transport, session } later rfl)
        · rw [Outcome.waiting_of_ne_nil silent]
          exact .data heard later comes silent
      | fails failed deferred comes silent => exact .fails heard failed deferred comes silent
      | defers failed comes data => exact .defers heard failed comes data

end Connection

end TransportSecurity
