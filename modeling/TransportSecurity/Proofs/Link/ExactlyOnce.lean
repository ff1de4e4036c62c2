import TransportSecurity.Proofs.Link.Farewell
import TransportSecurity.Proofs.Link.Hearing
import TransportSecurity.Proofs.Session.Independence

/-!
Reads after a handshake.

After a handshake that succeeded a connection is read from and written to (`Use`), over a transport
that delivers whatever it does. All data of the records that the session takes is returned, once and
in order; a failure is told after the data from before it, once, as the end of the data if it is the
other end's farewell (`Told`). Each read and write keeps this
(`Connection.Stands.afterRead`, `Connection.Stands.afterWrite`), so it is true of all of them
(`Connection.useAll_of_handshake`).
-/

namespace TransportSecurity

/-- What someone who has a connection does with it. -/
inductive Use where
  | read
  | write (data : Octets)

/-- What a read returns when it is told of a failure: that the data has come to its end, if it is
the other end's farewell. -/
def Failure.told (failure : Failure) : Except Error Octets := failure.error.told.map fun _ => []

/-- The data that reads returned. -/
def received (results : List (Except Error Octets)) : Octets :=
  results.flatMap fun
    | .ok data => data
    | .error _ => []

theorem received_append (results more : List (Except Error Octets)) :
    received (results ++ more) = received results ++ received more := List.flatMap_append

theorem Failure.told_eq_ok_iff (failure : Failure) :
    failure.told = .ok [] ↔ failure.error = .alertReceived .warning .closeNotify := by
  unfold told Error.told
  split
  · next farewell => exact iff_of_true rfl farewell
  · next unfriendly => exact iff_of_false (fun same => by cases same) unfriendly

theorem Failure.received_told (failure : Failure) : received [failure.told] = [] := by
  unfold told Error.told
  split <;> rfl

/-- What reads return, one after the other, of the failure of the session, if it failed, and what is
still to be told. -/
inductive Told (T : Type) [Transport T] :
    Option Failure → Option Failure → List (Except Error Octets) → Prop
  | goesOn {results : List (Except Error Octets)} (passing : ∀ result ∈ results, Passing T result) :
    Told T none none results
  | waits {failure : Failure} {results : List (Except Error Octets)}
    (passing : ∀ result ∈ results, Passing T result) : Told T (some failure) (some failure) results
  | told {failure : Failure} {results : List (Except Error Octets)}
    (passing : ∀ result ∈ results, Passing T result) (again : Nat) :
    Told T (some failure) none
      (results ++ failure.told :: List.replicate again (.error .sessionFailed))

namespace Told

variable {T : Type} [Transport T] {failure waits : Option Failure}
  {results : List (Except Error Octets)}

/-- The end of the data is told once if the other end's farewell has been told, and otherwise
never. -/
theorem count_end (told : Told T failure waits results) : results.count (.ok []) =
    if waits = none ∧ failure.map Failure.error = some (.alertReceived .warning .closeNotify) then 1
    else 0 := by
  have silent : ∀ {results : List (Except Error Octets)},
      (∀ result ∈ results, Passing T result) → results.count (.ok []) = 0 := by
    intro results passing
    refine List.count_eq_zero.mpr fun found => ?_
    cases passing _ found with
    | data some => exact some rfl
  cases told with
  | goesOn passing =>
    rw [silent passing, if_neg]
    rintro ⟨_, impossible⟩
    cases impossible
  | waits passing =>
    rw [silent passing, if_neg]
    rintro ⟨impossible, _⟩
    cases impossible
  | @told failure results passing again =>
    have rest : (List.replicate again (Except.error Error.sessionFailed)).count
        (.ok [] : Except Error Octets) = 0 := by
      refine List.count_eq_zero.mpr fun found => ?_
      cases List.eq_of_mem_replicate found
    rw [List.count_append, silent passing, List.count_cons, rest]
    by_cases farewell : failure.error = .alertReceived .warning .closeNotify
    · simp [farewell, failure.told_eq_ok_iff.mpr farewell]
    · simp [farewell, mt failure.told_eq_ok_iff.mp farewell]

/-- Before anything is returned no failure has been told. -/
theorem untold (told : Told T failure waits []) : failure = waits := by
  generalize nothing : ([] : List (Except Error Octets)) = results at told
  cases told with
  | goesOn => rfl
  | waits => rfl
  | told passing again => cases List.append_eq_nil_iff.mp nothing.symm |>.2

/-- Before the failure has been told all that is returned passes. -/
theorem passing (told : Told T failure waits results) (untold : failure = waits) :
    ∀ result ∈ results, Passing T result := by
  cases told with
  | goesOn passing => exact passing
  | waits passing => exact passing
  | told passing again => cases untold

variable {result : Except Error Octets}

theorem pass (told : Told T failure waits results) (untold : failure = waits)
    (passing : Passing T result) : Told T failure waits (results ++ [result]) := by
  subst untold
  have all : ∀ other ∈ results ++ [result], Passing T other :=
    List.forall_mem_append.mpr ⟨told.passing rfl, List.forall_mem_singleton.mpr passing⟩
  cases failure with
  | none => exact .goesOn all
  | some failure => exact .waits all

theorem wait (told : Told T failure failure results) (passing : Passing T result)
    (failure : Failure) : Told T (some failure) (some failure) (results ++ [result]) :=
  .waits (List.forall_mem_append.mpr ⟨told.passing rfl, List.forall_mem_singleton.mpr passing⟩)

theorem tell (told : Told T failure failure results) (failure : Failure) :
    Told T (some failure) none (results ++ [failure.told]) :=
  .told (told.passing rfl) 0

/-- What a failed session reports is what is still to be told, or that it has failed. -/
theorem takeFailure {G : Type} {session : Session G} {failure : Failure}
    (told : Told T (some failure) session.deferred results) :
    Told T (some failure) session.takeFailure.2.deferred
      (results ++ [session.takeFailure.1.told]) := by
  obtain ⟨endpoint, inbox, pending, deferred⟩ := session
  cases deferred with
  | none =>
    cases told with
    | told passing again =>
      rw [List.append_assoc, List.cons_append]
      have longer := @Told.told T _ failure _ passing (again + 1)
      rwa [List.replicate_succ'] at longer
  | some other =>
    cases told with
    | waits passing => exact .told passing 0

end Told

namespace Connection

open Session Handled Endpoint

variable {T G : Type} [Transport T] [Entropy G]

/-- A read: what it returns, and the connection after it. -/
def tryRead (c : Connection T G) : Except Error Octets × Connection T G :=
  match read c with
  | .ok data after => (.ok data, after)
  | .error error after => (.error error, after)

theorem tryRead_of_ok {c after : Connection T G} {data : Octets} (got : read c = .ok data after) :
    c.tryRead = (.ok data, after) := by rw [tryRead, got]

theorem tryRead_of_error {c after : Connection T G} {error : Error}
    (failed : read c = .error error after) : c.tryRead = (.error error, after) := by
  rw [tryRead, failed]

/-- A write: the connection after it, whether or not it succeeded. -/
def tryWrite (c : Connection T G) (data : Octets) : Connection T G :=
  match write data c with
  | .ok () after => after
  | .error _ after => after

/-- Reads and writes, one after the other: what the reads return, and the connection after them. -/
def useAll (c : Connection T G) : List Use → List (Except Error Octets) × Connection T G
  | [] => ([], c)
  | .read :: uses =>
    let (result, next) := c.tryRead
    let (results, last) := next.useAll uses
    (result :: results, last)
  | .write data :: uses => (c.tryWrite data).useAll uses

end Connection

/-- After its handshake an endpoint takes only records of data. -/
theorem Endpoint.Takes.data_of_over {G : Type} [Entropy G] {e f : Endpoint G} {p q : Octets}
    {script : List Handled} (takes : Takes e p script f q) (sound : e.Sound)
    (isOver : e.stage = .established) :
    ∀ handled ∈ script, handled.header.type = .applicationData := by
  induction takes with
  | nil => simp
  | cons whole handled later ih =>
    have handles := receiveRecord_eq_ok.mp handled
    obtain ⟨_, _, _, type, _, _, _, _, rfl⟩ := handles_established sound isOver handles
    exact List.forall_mem_cons.mpr ⟨type, ih (sound_handles sound handles) isOver⟩

namespace Session

open Endpoint Handled

variable {G : Type} [Entropy G] {first session : Session G} {octets : Octets} {taken : List Handled}
  {failure : Option Failure}

/-- After its handshake, and possibly after sends, a session is where a stream has brought it. -/
inductive Follows (first : Session G) (octets : Octets) (taken : List Handled) :
    Option Failure → Session G → Prop
  | waits {last : Session G} (idle : last.Idle) (comes : ComesTo first octets taken none last)
    (sendNumber : UInt64) (source : G) :
    Follows first octets taken none (last.renumber sendNumber source)
  | fails {failure : Failure} {last session : Session G}
    (comes : ComesTo first octets taken (some failure) last)
    (failed : session.endpoint.stage = .failed) : Follows first octets taken (some failure) session

namespace Follows

theorem exists_takes (follows : Follows first octets taken failure session) :
    ∃ endpoint pending, Takes first.endpoint first.pending taken endpoint pending := by
  cases follows with
  | waits idle comes =>
    obtain ⟨_, _, _, takes, _⟩ := comes.exists_takes
    exact ⟨_, _, takes⟩
  | fails comes failed =>
    obtain ⟨_, _, _, takes, _⟩ := comes.exists_takes
    exact ⟨_, _, takes⟩

theorem renumbered (follows : Follows first octets taken failure session) (sendNumber : UInt64)
    (source : G) : Follows first octets taken failure (session.renumber sendNumber source) := by
  cases follows with
  | waits idle comes _ _ => exact .waits idle comes sendNumber source
  | fails comes failed => exact .fails comes failed

theorem idle (follows : Follows first octets taken none session) : session.Idle := by
  cases follows with
  | waits idle comes sendNumber source => exact idle.renumbered sendNumber source

theorem failed {failure : Failure} (follows : Follows first octets taken (some failure) session) :
    session.endpoint.stage = .failed := by
  cases follows with
  | fails comes failed => exact failed

theorem idle_or_failed (follows : Follows first octets taken failure session) :
    session.Idle ∨ session.endpoint.stage = .failed := by
  cases failure with
  | none => exact Or.inl follows.idle
  | some failure => exact Or.inr follows.failed

/-- A failed session stays so. -/
theorem still {failure : Failure} (follows : Follows first octets taken (some failure) session)
    {now : Session G} (failed : now.endpoint.stage = .failed) :
    Follows first octets taken (some failure) now := by
  cases follows with
  | fails comes _ => exact .fails comes failed

variable {more : Octets} {script : List Handled} {last : Session G}

/-- Records that are taken first come first. -/
theorem prepend {endpoint : Endpoint G} {inbox pending : Octets} {done : List Handled}
    (takes : Takes first.endpoint first.pending done endpoint pending)
    (follows : Follows { first with endpoint, inbox, pending } octets taken failure session) :
    Follows first (stream done ++ octets) (done ++ taken) failure session := by
  cases follows with
  | waits idle comes sendNumber source => exact .waits idle (comes.prepend takes) sendNumber source
  | fails comes failed => exact .fails (comes.prepend takes) failed

/-- A session goes on with what follows as if it had sent nothing. -/
theorem exists_joined (follows : Follows first octets taken none session)
    (comes : ComesTo session (session.inbox ++ more) script failure last) :
    ∃ sendNumber source, ComesTo first (octets ++ more) (taken ++ script) failure
      (last.renumber sendNumber source) := by
  cases follows with
  | @waits between idle before sendNumber source =>
    exact ⟨_, _, before.trans (comes.renumbered between.endpoint.sendNumber between.endpoint.source
      idle.ready.sound idle.isOver)⟩

theorem goesOn (follows : Follows first octets taken none session)
    (comes : ComesTo session (session.inbox ++ more) script none last) (idle : last.Idle) :
    Follows first (octets ++ more) (taken ++ script) none last := by
  obtain ⟨sendNumber, source, joined⟩ := follows.exists_joined comes
  exact .waits (idle.renumbered sendNumber source) joined last.endpoint.sendNumber
    last.endpoint.source

theorem stops (follows : Follows first octets taken none session) {failure : Failure}
    (comes : ComesTo session (session.inbox ++ more) script (some failure) last)
    {now : Session G} (failed : now.endpoint.stage = .failed) :
    Follows first (octets ++ more) (taken ++ script) (some failure) now := by
  obtain ⟨_, _, joined⟩ := follows.exists_joined comes
  exact .fails joined failed

end Follows

end Session

namespace Connection

open Session Handled Endpoint

variable {T G : Type} [Transport T] [Entropy G] {c d : Connection T G} {first : Session G}
  {octets : Octets} {taken : List Handled} {failure : Option Failure}
  {results : List (Except Error Octets)}

/-- What reads returned accounts for the records that were taken since the handshake, and for the
failure after them. -/
structure Accounts (results : List (Except Error Octets)) (taken : List Handled)
    (failure : Option Failure) (c : Connection T G) : Prop where
  /-- The data that was returned is that of the records, but for what is at hand. -/
  content : received results ++ c.unread = contents taken
  /-- Nothing is at hand once there was a read. -/
  prompt : results ≠ [] → c.unread = []
  /-- The failure is told after all data, and then no more. -/
  told : Told T failure c.session.deferred results

/-- Where reads and writes after a handshake stand: the session is where the stream has brought it,
and what the reads returned accounts for it. -/
structure Stands (first : Session G) (octets : Octets) (taken : List Handled)
    (failure : Option Failure) (results : List (Except Error Octets)) (c : Connection T G) :
    Prop extends Accounts results taken failure c where
  follows : Follows first octets taken failure c.session

/-- A write changes nothing that a reader looks at, and hears nothing. -/
theorem exists_tryWrite (c : Connection T G) (data : Octets) : ∃ transport sendNumber source,
    Hears c.transport [] transport ∧
      { c with transport, session := c.session.renumber sendNumber source } = c.tryWrite data := by
  obtain ⟨sendNumber, source, same⟩ := c.session.send_frame data
  have begins : withSession (·.send data) c =
      .ok (c.session.send data).1 { c with session := (c.session.send data).2 } := rfl
  have result : write data c = (ofExcept (c.session.send data).1 >>= send)
      { c with session := (c.session.send data).2 } := bind_of_ok begins
  unfold tryWrite
  rw [result, ← same]
  cases (c.session.send data).1 with
  | error error => exact ⟨_, sendNumber, source, .silent, rfl⟩
  | ok records =>
    rw [bind_of_ok (ofExcept_eq_ok.mpr ⟨rfl, rfl⟩)]
    split
    · next sent =>
      obtain ⟨transport, heard, rfl⟩ := hears_send_ok sent
      exact ⟨transport, sendNumber, source, heard, rfl⟩
    · next failed =>
      obtain ⟨transport, heard, rfl⟩ := hears_send_error failed
      exact ⟨transport, sendNumber, source, heard, rfl⟩

theorem Stands.afterWrite (stands : Stands first octets taken failure results c) (data : Octets) :
    Hears c.transport [] (c.tryWrite data).transport ∧
      Stands first octets taken failure results (c.tryWrite data) := by
  obtain ⟨transport, sendNumber, source, heard, same⟩ := c.exists_tryWrite data
  rw [← same]
  exact ⟨heard, ⟨stands.content, stands.prompt, stands.told⟩,
    stands.follows.renumbered sendNumber source⟩

/-- A read that is told of a failure sends at most the alert. -/
theorem exists_tryRead_of_conclude {failure : Failure} (last : read c = conclude failure d) :
    ∃ transport, Hears d.transport [] transport ∧
      c.tryRead = (failure.told, { d with transport }) := by
  unfold tryRead
  rw [last]
  unfold conclude Failure.told Error.told
  by_cases farewell : failure.error = .alertReceived .warning .closeNotify
  · rw [if_pos farewell, if_pos farewell]
    exact ⟨_, .silent, rfl⟩
  · rw [if_neg farewell, if_neg farewell]
    obtain ⟨transport, heard, reported⟩ := hears_report Octets failure d
    rw [reported]
    exact ⟨transport, heard, rfl⟩

omit [Entropy G] in
/-- One more read returns the content of the records that are taken meanwhile. -/
theorem Accounts.content_concat (accounts : Accounts results taken failure c)
    (nothing : c.unread = []) {script : List Handled} {result : Except Error Octets}
    (same : received [result] = contents script) :
    received (results ++ [result]) ++ c.unread = contents (taken ++ script) := by
  rw [received_append, same, contents_append, ← accounts.content, nothing, List.append_nil,
    List.append_nil]

/-- A read of a session that waits returns what becomes of it. -/
theorem Stands.afterRead_of_idle (stands : Stands first octets taken none results c)
    (nothing : c.unread = []) (idle : c.session.Idle) :
    ∃ more script failure, Hears c.transport more c.tryRead.2.transport ∧
      Stands first (octets ++ more) (taken ++ script) failure (results ++ [c.tryRead.1])
        c.tryRead.2 := by
  have told : Told T none none results := idle.ready.deferred ▸ stands.told
  have awaits := awaits_awaitData idle
  rw [← read_of_over nothing idle.isOver] at awaits
  generalize returned : read c = result at awaits
  cases awaits with
  | data heard later comes data =>
    rw [tryRead_of_ok returned]
    exact ⟨_, _, none, heard, ⟨stands.content_concat nothing (List.append_nil _),
      fun _ => nothing, later.ready.deferred ▸ told.pass rfl (.data data)⟩,
      stands.follows.goesOn comes later⟩
  | defers heard failed comes data =>
    rw [tryRead_of_ok returned]
    exact ⟨_, _, some _, heard, ⟨stands.content_concat nothing (List.append_nil _),
      fun _ => nothing, told.wait (.data data) _⟩, stands.follows.stops comes failed⟩
  | @fails _ _ script failure _ heard failed deferred comes silent =>
    obtain ⟨transport, alerted, same⟩ := exists_tryRead_of_conclude returned
    rw [same]
    have ends : received [failure.told] = contents script := failure.received_told.trans silent.symm
    have content := stands.content_concat nothing ends
    exact ⟨_, _, some _, heard.quietly alerted,
      ⟨content, fun _ => nothing, deferred ▸ told.tell _⟩, stands.follows.stops comes failed⟩
  | passes heard later comes silent passing =>
    rw [tryRead_of_error returned]
    exact ⟨_, _, none, heard, ⟨stands.content_concat nothing silent.symm, fun _ => nothing,
      later.ready.deferred ▸ told.pass rfl passing⟩, stands.follows.goesOn comes later⟩

/-- A read of a session that has failed returns what is still to be told. -/
theorem Stands.afterRead_of_failed {failure : Failure}
    (stands : Stands first octets taken (some failure) results c) (nothing : c.unread = []) :
    Hears c.transport [] c.tryRead.2.transport ∧
      Stands first octets taken (some failure) (results ++ [c.tryRead.1]) c.tryRead.2 := by
  have failed := stands.follows.failed
  obtain ⟨transport, heard, same⟩ := exists_tryRead_of_conclude (read_of_failed nothing failed)
  have still : Follows first octets taken (some failure) c.session.takeFailure.2 :=
    stands.follows.still (by rw [endpoint_takeFailure]; exact failed)
  have silent : received [c.session.takeFailure.1.told] = contents [] := Failure.received_told _
  have content := stands.content_concat nothing silent
  rw [List.append_nil] at content
  rw [same]
  exact ⟨heard, ⟨content, fun _ => nothing, stands.told.takeFailure⟩, still⟩

/-- A read of data that came with the end of the handshake returns it, and hears nothing. -/
theorem Stands.afterRead_of_unread (stands : Stands first octets taken failure results c)
    (some : c.unread ≠ []) : Hears c.transport [] c.tryRead.2.transport ∧
      Stands first octets taken failure (results ++ [c.tryRead.1]) c.tryRead.2 := by
  rw [tryRead_of_ok (read_of_unread some)]
  -- this is the first read
  obtain rfl : results = [] := Classical.not_not.mp fun before => some (stands.prompt before)
  refine ⟨.silent, ⟨?_, fun _ => rfl, stands.told.pass stands.told.untold (.data some)⟩,
    stands.follows⟩
  rw [List.append_nil, ← stands.content]
  exact List.append_nil _

/-- Each read leaves it so that all that was taken has been returned. -/
theorem Stands.afterRead (stands : Stands first octets taken failure results c) :
    ∃ more script failure, Hears c.transport more c.tryRead.2.transport ∧
      Stands first (octets ++ more) (taken ++ script) failure (results ++ [c.tryRead.1])
        c.tryRead.2 := by
  have quiet : Hears c.transport [] c.tryRead.2.transport ∧
      Stands first octets taken failure (results ++ [c.tryRead.1]) c.tryRead.2 →
      ∃ more script failure, Hears c.transport more c.tryRead.2.transport ∧
        Stands first (octets ++ more) (taken ++ script) failure (results ++ [c.tryRead.1])
          c.tryRead.2 := by
    rintro ⟨heard, later⟩
    refine ⟨[], [], failure, heard, ?_⟩
    rw [List.append_nil, List.append_nil]
    exact later
  by_cases nothing : c.unread = []
  · cases failure with
    | none => exact stands.afterRead_of_idle nothing stands.follows.idle
    | some failure => exact quiet (stands.afterRead_of_failed nothing)
  · exact quiet (stands.afterRead_of_unread nothing)

/-- So does every row of reads and writes. -/
theorem Stands.afterAll (stands : Stands first octets taken failure results c)
    (uses : List Use) :
    ∃ more script failure, Hears c.transport more (c.useAll uses).2.transport ∧
      Stands first (octets ++ more) (taken ++ script) failure (results ++ (c.useAll uses).1)
        (c.useAll uses).2 := by
  induction uses generalizing c octets taken failure results with
  | nil =>
    refine ⟨[], [], failure, .silent, ?_⟩
    rw [List.append_nil, List.append_nil]
    exact (List.append_nil results).symm ▸ stands
  | cons use uses ih =>
    cases use with
    | read =>
      obtain ⟨more, script, _, heard, later⟩ := stands.afterRead
      obtain ⟨rest, others, failure, heard', last⟩ := ih later
      rw [List.append_assoc, List.append_assoc, List.append_assoc] at last
      exact ⟨more ++ rest, script ++ others, failure, heard.trans heard', last⟩
    | write data =>
      obtain ⟨heard, later⟩ := stands.afterWrite data
      obtain ⟨more, script, failure, heard', last⟩ := ih later
      exact ⟨more, script, failure, heard.trans heard', last⟩

/-- The parts of a handshake that succeeds. -/
theorem exists_of_handshake (completed : handshake c = .ok () d) :
    ∃ records begun transport e, c.session.start = (.ok records, begun) ∧
      Hears c.transport [] transport ∧
      completeHandshake maxAnswers { c with transport, session := begun } = .ok () e ∧
      finish e = .ok () d := by
  rcases started : c.session.start with ⟨_ | records, begun⟩
  · cases completed.symm.trans (handshake_of_start_error started)
  · cases sent : sendSome records { c with session := begun } with
    | error error after =>
      have failed : handshake c = .error error after := by
        have begins : withSession Session.start c =
            .ok (.ok records) { c with session := begun } := by
          rw [withSession, started]
        unfold handshake
        rw [bind_of_ok begins, bind_of_ok (ofExcept_eq_ok.mpr ⟨rfl, rfl⟩), bind_of_error sent]
      cases completed.symm.trans failed
    | ok _ after =>
      cases done : completeHandshake maxAnswers after with
      | error error last => cases completed.symm.trans (handshake_of_error started sent done)
      | ok _ e =>
        obtain ⟨transport, heard, rfl⟩ := hears_sendSome sent
        exact ⟨records, begun, transport, e, rfl, heard, done,
          (handshake_of_completed started sent done).symm.trans completed⟩

/-- What trails the end of a handshake is at hand for the first read. -/
theorem exists_stands_of_trailing {e : Connection T G} (ready : e.session.Ready)
    (isOver : e.session.endpoint.stage = .established) (nothing : e.unread = [])
    (completed : finish e = .ok () c) :
    e.transport = c.transport ∧
      ∃ taken failure, Stands e.session e.session.inbox taken failure [] c := by
  have makes := makes_receive ready isOver []
  unfold finish at completed
  generalize e.session.receive [] = result at completed makes
  cases makes with
  | @goesOn script after idle comes =>
    rw [List.append_nil] at comes
    have follows : Follows e.session e.session.inbox script none after :=
      .waits idle comes after.endpoint.sendNumber after.endpoint.source
    have told : Told T none after.deferred [] := by
      rw [idle.ready.deferred]
      exact .goesOn (by simp)
    by_cases silent : contents script = []
    · rw [silent] at completed
      cases completed
      exact ⟨rfl, script, none, ⟨nothing.trans silent.symm, fun some => (some rfl).elim, told⟩,
        follows⟩
    · rw [Outcome.waiting_of_ne_nil silent] at completed
      cases completed
      refine ⟨rfl, script, none, ⟨?_, fun some => (some rfl).elim, told⟩, follows⟩
      dsimp only
      rw [nothing]
      rfl
  | fails failed deferred comes silent =>
    obtain ⟨_, _, reported⟩ := hears_report Unit _ { e with session := _ }
    cases completed.symm.trans reported
  | @defers script failure after failed comes data =>
    rw [List.append_nil] at comes
    cases completed
    refine ⟨rfl, script, some failure, ⟨?_, fun some => (some rfl).elim, .waits (by simp)⟩,
      .fails comes failed⟩
    dsimp only
    rw [nothing]
    rfl

/-- What reads returned is all that a reader is to be told. -/
structure Truthful (results : List (Except Error Octets)) (taken : List Handled)
    (failure : Option Failure) (c : Connection T G) : Prop
    extends Accounts results taken failure c where
  /-- All records that were taken since the handshake are of data. -/
  types : ∀ handled ∈ taken, handled.header.type = .applicationData
  /-- The end of the data is told once, if the failure that was told is the other end's farewell,
  and otherwise never. -/
  farewell : results.count (.ok []) =
    if c.session.deferred = none ∧
      failure.map Failure.error = some (.alertReceived .warning .closeNotify) then 1 else 0
  /-- A failure that is still to be told is told by the next read. -/
  next : ∀ waits, c.session.deferred = some waits →
    ({ c with unread := [] } : Connection T G).tryRead.1 = waits.told
  /-- Whatever the session is brought, it never asks to send anything, nor says again that the
  handshake is complete. -/
  never : ∀ reads, ∀ outcome ∈ (c.session.receiveAll reads).1, ∀ records,
    outcome ≠ .output records ∧ outcome ≠ .handshakeComplete records

theorem Stands.truthful (stands : Stands first octets taken failure results c)
    (ready : first.Ready) (isOver : first.endpoint.stage = .established) :
    Truthful results taken failure c where
  toAccounts := stands.toAccounts
  types := by
    obtain ⟨_, _, takes⟩ := stands.follows.exists_takes
    exact takes.data_of_over ready.sound isOver
  farewell := stands.told.count_end
  next := by
    intro failure waits
    have failed : c.session.endpoint.stage = .failed := by
      refine stands.follows.idle_or_failed.resolve_left fun idle => ?_
      cases waits.symm.trans idle.ready.deferred
    obtain ⟨_, _, same⟩ := exists_tryRead_of_conclude
      (read_of_failed (c := { c with unread := [] }) rfl failed)
    rw [same, takeFailure, waits]
  never _ _ found := ne_of_mem_receiveAll stands.follows.idle_or_failed found

/-- After a handshake that succeeded, whatever the transport delivers and however it is read from
and written to, the session is where the stream has brought it, and the reads have returned the data
of the records that it took after the one that ended the handshake, once and in order. If the stream
fails the session, that is told after all data from before, once, as the end of the data if and only
if the failure is the other end's farewell. The stream is what is heard from the handshake on: over
a transport with a record of it, what is recorded (`Recorder.heard_of_hears`). -/
theorem useAll_of_handshake {session : Session G} (reachable : session.Reachable) {transport : T}
    (completed : handshake ⟨transport, session, []⟩ = .ok () c) (uses : List Use) :
    ∃ octets front closing taken failure,
      Hears transport octets (c.useAll uses).2.transport ∧
      Follows session.start.2 octets (front ++ closing :: taken) failure
        (c.useAll uses).2.session ∧
      Open front ∧ closing.progress.ends = true ∧
      Truthful (c.useAll uses).1 taken failure (c.useAll uses).2 := by
  obtain ⟨records, begun, _, e, started, heard, done, trailing⟩ := exists_of_handshake completed
  obtain ⟨ready, running, _, empty⟩ := reachable.ready_of_start started
  cases completed_of_ok ready running done with
  | @mk octets inbox pending front closing endpoint _ heard' arrived takes opened ends =>
    obtain ⟨_, isOver, _⟩ := takes.completes ready.sound (Or.inl running) ends
    have later : Ready { begun with endpoint, inbox, pending } :=
      ready.goesOn takes (Or.inr ⟨running, isOver, by simp⟩)
    obtain ⟨same, taken, failure, stands⟩ := exists_stands_of_trailing later isOver rfl trailing
    obtain ⟨more, script, failure, heard'', stands⟩ := stands.afterAll uses
    rw [empty, List.nil_append] at arrived
    dsimp only at same
    subst same
    have follows := stands.follows.prepend takes
    rw [← List.append_assoc, ← arrived, List.append_assoc, List.singleton_append] at follows
    refine ⟨octets ++ more, front, closing, taken ++ script, failure, ?_, ?_, opened, ends,
      stands.truthful later isOver⟩
    · exact heard.trans (heard'.trans heard'')
    · rw [started]
      exact follows

/-- In a rehearsal whose farewell comes by itself, two reads tell the end of the data once. -/
theorem useAll_of_handshake_rehearsal : ∃ (reads : List Octets)
    (c : Connection (Recorder Tape) Reproducible) (front : List Handled) (closing : Handled)
    (taken : List Handled) (failure : Option Failure), Rehearsal.client.Reachable ∧
      handshake ⟨⟨⟨reads⟩, []⟩, Rehearsal.client, []⟩ = .ok () c ∧
      Follows Rehearsal.client.start.2 (c.useAll [.read, .read]).2.transport.heard
        (front ++ closing :: taken) failure (c.useAll [.read, .read]).2.session ∧
      Truthful (c.useAll [.read, .read]).1 taken failure (c.useAll [.read, .read]).2 ∧
      (c.useAll [.read, .read]).1.count (.ok []) = 1 := by
  obtain ⟨front, last, results⟩ := Rehearsal.exists_farewell
  have delivers := Recorder.delivers [] (Tape.delivers_singles front [[last], closeNotify]
    (by simp [closeNotify_eq, room]))
  have apart := results (Recorder Tape) _ [] [closeNotify] delivers (by simp)
  rw [if_pos (by rw [closeNotify_eq]; decide)] at apart
  obtain ⟨c, after, completed, done⟩ := apart
  obtain ⟨octets, front, closing, taken, failure, heard, follows, _, _, truthful⟩ :=
    useAll_of_handshake Rehearsal.client_reachable completed [.read, .read]
  have same := Recorder.heard_of_hears heard
  rw [List.nil_append] at same
  rw [← same] at follows
  refine ⟨_, c, front, closing, taken, failure, Rehearsal.client_reachable, completed, follows,
    truthful, ?_⟩
  have some : (c.useAll [.read, .read]).1.count (.ok []) ≠ 0 := by
    refine mt List.count_eq_zero.mp (Classical.not_not.mpr ?_)
    exact List.mem_cons.mpr (Or.inl (congrArg Prod.fst (tryRead_of_ok done)).symm)
  have counted := truthful.farewell
  split at counted
  · exact counted
  · exact (some counted).elim

end Connection

end TransportSecurity
