import TransportSecurity.Proofs.Link.Delivery

/-!
Handshakes over a transport that delivers one stream.

While its handshake goes on a connection feeds its session read by read, and answers as often as its
role owes it (`Takes.owed`). One of the reads completes the handshake, or the session fails, or the
stream ends (`handshakes_completeHandshake`). What came with the end of the handshake is handled
before it returns (`finishes`).
-/

namespace TransportSecurity

/-- How often a role may still ask to send something before its handshake ends. -/
def Role.owed : Role → Nat
  | .client _ phase =>
    match phase with
    | .idle | .serverHello | .certificate | .serverHelloDone => 1
    | .changeCipherSpec | .finished | .done => 0
  | .server _ phase =>
    match phase with
    | .idle | .clientHello => 2
    | .clientKeyExchange | .changeCipherSpec | .finished => 1
    | .done => 0

namespace Endpoint

open Handled

variable {G : Type} [Entropy G] {e f : Endpoint G}

/-- A message that is answered leaves one answer less. -/
theorem owed_answers {message records : Octets} (sound : e.Sound)
    (answers : Answers message e records f) :
    f.role.owed ≤ e.role.owed ∧ (records ≠ [] → f.role.owed < e.role.owed) := by
  obtain ⟨advances, _⟩ := advances_answers sound answers
  generalize next : f.role = role at advances ⊢
  cases answers with
  | serverHello waits took | certificates waits took | serverFinished waits took
  | clientKeyExchange waits took =>
    rw [waits] at advances ⊢
    cases advances
    exact ⟨Nat.le_refl _, fun some => (some rfl).elim⟩
  | serverHelloDone waits exchanged finished =>
    rw [waits] at advances ⊢
    cases advances
    exact ⟨Nat.zero_le _, fun _ => Nat.zero_lt_one⟩
  | clientHello waits took =>
    rw [waits] at advances ⊢
    cases advances
    exact ⟨Nat.le_succ _, fun _ => Nat.lt_succ_self _⟩
  | clientFinished waits took =>
    rw [waits] at advances ⊢
    cases advances
    exact ⟨Nat.zero_le _, fun _ => Nat.zero_lt_one⟩

theorem kept_owed (n : Nat) : Kept fun s (e : Endpoint G) =>
    e.role.owed ≤ n ∧ (s ≠ [] → e.role.owed < n) where
  opened _ before := before
  changed := by
    intro s e f sound before changed
    obtain ⟨_, role, changes, rfl⟩ := receiveChange_eq_ok.mp changed
    have same : role.owed = e.role.owed := by
      generalize e.role = waiting at changes
      cases changes <;> rfl
    dsimp only
    rwa [same]
  answered := by
    intro s e message records f sound before answers
    obtain ⟨fewer, less⟩ := owed_answers sound answers
    refine ⟨fewer.trans before.1, fun some => ?_⟩
    by_cases nothing : records = []
    · rw [nothing, List.append_nil] at some
      exact Nat.lt_of_le_of_lt fewer (before.2 some)
    · exact Nat.lt_of_lt_of_le (less nothing) before.1

/-- Records that are answered leave one answer less. -/
theorem Takes.owed {p q : Octets} {script : List Handled} (takes : Takes e p script f q)
    (sound : e.Sound) :
    f.role.owed ≤ e.role.owed ∧ (answers script ≠ [] → f.role.owed < e.role.owed) :=
  (kept_owed e.role.owed).takes (s := []) takes sound ⟨Nat.le_refl _, fun some => (some rfl).elim⟩

/-- A handshake begins with as many answers owed as a connection allows for. -/
theorem owed_of_begins {records : Octets} (begins : Begins e records f) :
    f.role.owed ≤ Connection.maxAnswers := by
  cases begins with
  | client role sent =>
    obtain ⟨_, _, _, _, _, _, _, _, encodes⟩ := Client.sendHello_eq_ok.mp sent
    obtain ⟨_, _, rfl⟩ := encode_frame encodes
    exact Nat.le_succ _
  | server role => exact Nat.le_refl _

end Endpoint

/-- A session that begins its handshake waits for the other end, and nothing has arrived. -/
theorem Session.Reachable.ready_of_start {G : Type} [Entropy G] {session begun : Session G}
    {records : Octets} (reachable : session.Reachable)
    (started : session.start = (.ok records, begun)) : begun.Ready ∧
      begun.endpoint.stage = .handshaking ∧
        begun.endpoint.role.owed ≤ Connection.maxAnswers ∧ begun.inbox = [] := by
  have reachable' : begun.Reachable := by
    have after : session.start.2.Reachable := reachable.perform .start
    rwa [started] at after
  obtain ⟨fresh, endpoint, begins, rfl⟩ := start_eq_ok.mp started
  have orderly := reachable.orderly.resolve_right (by rw [fresh]; exact Stage.noConfusion)
  have running := (running_of_begins orderly.endpoint fresh begins).2
  exact ⟨reachable'.ready (Or.inl running), running, Endpoint.owed_of_begins begins,
    (orderly.fresh fresh).1⟩

namespace Connection

open Session Handled Endpoint

variable {T G : Type} [Transport T] [Entropy G]

/-- The read that completes a handshake brings the last octet of its last record. -/
theorem needed_of_completes {old octets inbox : Octets} {script : List Handled} {last : Handled}
    (waits : Record.next? old = .ok none)
    (arrived : old ++ octets = stream (script ++ [last]) ++ inbox)
    (whole : ∀ handled ∈ script ++ [last], Record.IsWhole handled.header handled.record) :
    inbox.length < octets.length := by
  refine Nat.lt_of_not_le fun enough => ?_
  have front : stream (script ++ [last]) <+: old := by
    have lengths := congrArg List.length arrived
    rw [List.length_append, List.length_append] at lengths
    exact List.prefix_of_prefix_length_le ⟨inbox, arrived.symm⟩ (List.prefix_append ..) (by omega)
  obtain ⟨more, rfl⟩ := front
  obtain ⟨handled, rest, same⟩ := List.exists_cons_of_ne_nil (l := script ++ [last]) (by simp)
  rw [same, stream_cons, List.append_assoc] at waits
  have first : Record.IsWhole handled.header handled.record := whole _ (by simp [same])
  cases waits.symm.trans (Record.next?_eq_some_iff.mpr ⟨first, rfl⟩)

/-- How a handshake ends on a row of reads: the stream comes to a failure or to its end before the
handshake is complete, or one of the reads completes it. -/
inductive Handshakes (ending : Error) (holds : List Octets → T → Prop) (session : Session G)
    (reads : List Octets) (unread : Octets) : EStateM.Result Error (Connection T G) Unit → Prop
  | fails {script : List Handled} {failure : Option Failure} {last : Session G}
    {after : Connection T G}
    (comes : ComesTo session (session.inbox ++ reads.flatten) script failure last)
    (opened : Open script) :
    Handshakes ending holds session reads unread (.error (failure.elim ending Failure.error) after)
  | completes {before after : List Octets} {read inbox pending : Octets} {script : List Handled}
    {last : Handled} {endpoint : Endpoint G} {transport : T}
    (cut : reads = before ++ read :: after)
    (arrived : session.inbox ++ (before.flatten ++ read) = stream (script ++ [last]) ++ inbox)
    (takes : Takes session.endpoint session.pending (script ++ [last]) endpoint pending)
    (opened : Open script) (ends : last.progress.ends = true) (needed : inbox.length < read.length)
    (held : holds after transport) :
    Handshakes ending holds session reads unread
      (.ok () ⟨transport, { session with endpoint, inbox, pending }, unread⟩)

namespace Handshakes

variable {ending : Error} {holds : List Octets → T → Prop} {session : Session G}
  {reads : List Octets} {unread octets inbox pending : Octets} {done : List Handled}
  {endpoint : Endpoint G} {result : EStateM.Result Error (Connection T G) Unit}

omit [Transport T] in
/-- A read that does not complete the handshake comes first. -/
theorem cons (arrived : session.inbox ++ octets = stream done ++ inbox)
    (takes : Takes session.endpoint session.pending done endpoint pending) (opened : Open done)
    (later : Handshakes ending holds { session with endpoint, inbox, pending } reads unread result) :
    Handshakes ending holds session (octets :: reads) unread result := by
  cases later with
  | fails comes others =>
    have all := comes.prepend takes
    dsimp only at all
    rw [← List.append_assoc, ← arrived, List.append_assoc, ← List.flatten_cons] at all
    exact .fails all (open_append_iff.mpr ⟨opened, others⟩)
  | @completes before after read _ _ script last _ _ cut rest following others ends needed held =>
    have all := takes.append following
    rw [← List.append_assoc] at all
    have reads' : octets :: reads = (octets :: before) ++ read :: after := by
      rw [cut, List.cons_append]
    refine .completes reads' ?_ all (open_append_iff.mpr ⟨opened, others⟩) ends needed held
    · rw [List.flatten_cons, List.append_assoc, ← List.append_assoc, arrived, List.append_assoc,
        rest, List.append_assoc, stream_append done, List.append_assoc]

end Handshakes

/-- A handshake that goes on comes to what the session makes of the reads. -/
theorem handshakes_completeHandshake {ending : Error} {holds : List Octets → T → Prop}
    (steady : Steady ending holds) {reads : List Octets} (some : ∀ read ∈ reads, read ≠ [])
    {c : Connection T G} (held : holds reads c.transport) (ready : c.session.Ready)
    (running : c.session.endpoint.stage = .handshaking) {answers : Nat}
    (owed : c.session.endpoint.role.owed ≤ answers) :
    Handshakes ending holds c.session reads c.unread (completeHandshake answers c) := by
  induction reads generalizing c answers with
  | nil =>
    obtain ⟨_, ended⟩ := exists_completeHandshake_of_nil steady held answers
    rw [ended]
    have comes : ComesTo c.session (c.session.inbox ++ [].flatten) [] none _ :=
      .waits (List.append_nil _) .nil (ready.waits running)
    exact .fails comes open_nil
  | cons octets reads ih =>
    obtain ⟨first, others⟩ := List.forall_mem_cons.mp some
    obtain ⟨transport, received, held⟩ := steady.receive held
    rw [completeHandshake_of_read received first]
    have receives := receives_receive (Or.inl running) octets
    generalize c.session.receive octets = result at receives ⊢
    cases receives with
    | @waits script endpoint inbox pending arrived takes opened waits =>
      obtain ⟨fewer, less⟩ := takes.owed ready.sound
      have again : ∀ {transport : T} {answers : Nat}, holds reads transport →
          endpoint.role.owed ≤ answers → Handshakes ending holds c.session (octets :: reads) c.unread
            (completeHandshake answers
              { c with transport, session := { c.session with endpoint, inbox, pending } }) := by
        intro transport answers held owed
        refine .cons arrived takes opened ?_
        exact @ih others { c with transport, session := { c.session with endpoint, inbox, pending } }
          held (ready.goesOn takes (Or.inl waits)) (takes.running ready.sound running opened) _ owed
      rw [takes.silent ready.sound running opened]
      by_cases quiet : Handled.answers script = []
      · rw [quiet]
        exact again held (fewer.trans owed)
      · rw [Outcome.waiting_nil quiet]
        obtain ⟨answers, rfl⟩ := Nat.exists_eq_add_one_of_ne_zero
          (Nat.ne_of_gt (Nat.lt_of_lt_of_le (Nat.zero_lt_of_lt (less quiet)) owed))
        obtain ⟨after, sent, held⟩ := steady.send (Handled.answers script) held
        dsimp only
        rw [send, sent]
        exact again held (Nat.le_of_lt_succ (Nat.lt_of_lt_of_le (less quiet) owed))
    | @completes script last endpoint inbox pending arrived takes opened ends =>
      obtain ⟨after, sent, held⟩ := exists_sendSome steady
        (c := { c with transport, session := { c.session with endpoint, inbox, pending } }) held
        (Handled.answers (script ++ [last]))
      dsimp only
      rw [sent]
      exact .completes (List.nil_append _).symm arrived takes opened ends
        (needed_of_completes (ready.waits running) arrived takes.whole) held
    | @stops script endpoint failing inbox pending error arrived takes opened refuses =>
      have all : c.session.inbox ++ (octets :: reads).flatten =
          stream script ++ (inbox ++ reads.flatten) := by
        rw [List.flatten_cons, ← List.append_assoc, arrived, List.append_assoc]
      have comes := ComesTo.fails all takes (refuses.append reads.flatten)
      rw [takes.silent ready.sound running opened, stop_nil]
      generalize Session.fail { c.session with endpoint := failing } error = failed at comes ⊢
      obtain ⟨failure, session⟩ := failed
      obtain ⟨_, reported⟩ := exists_report Unit failure { c with transport, session }
      dsimp only
      rw [reported]
      exact .fails comes opened

/-- What trails the end of a handshake is handled before the handshake returns. Data in it is left
for the reader, and so is a failure that follows data; a failure without data is what the handshake
reports. -/
theorem finishes {ending : Error} {holds : List Octets → T → Prop} (steady : Steady ending holds)
    {reads : List Octets} (nonempty : ∀ read ∈ reads, read ≠ []) {c e : Connection T G}
    (held : holds reads e.transport) (nothing : e.unread = []) (ready : e.session.Ready)
    (isOver : e.session.endpoint.stage = .established) (finished : handshake c = finish e) :
    ∃ script failure last,
      ComesTo e.session (e.session.inbox ++ reads.flatten) script failure last ∧
        (((contents script = [] →
              ∃ script last, ComesTo e.session e.session.inbox script none last) ∧
            ∃ after, handshake c = .ok () after ∧
              ReadsOut after (contents script) (conclusion ending failure)) ∨
          contents script = [] ∧
            (∃ script failure last,
              ComesTo e.session e.session.inbox script (some failure) last) ∧
            ∃ error after, handshake c = .error error after ∧
              conclusion ending failure = error.told) := by
  have makes := makes_receive ready isOver []
  unfold finish at finished
  generalize e.session.receive [] = result at finished makes
  rw [nothing] at finished
  cases makes with
  | @goesOn script session idle comes =>
    obtain ⟨more, failure, last, rest, later⟩ :=
      @readsOut_of_over _ _ _ _ _ _ steady _ nonempty { e with session, unread := [] } held rfl idle
    rw [List.append_nil] at comes
    refine ⟨script ++ more, failure, last, comes.trans rest, Or.inl ⟨fun _ => ⟨_, _, comes⟩, ?_⟩⟩
    rw [contents_append]
    by_cases silent : contents script = []
    · rw [silent] at finished ⊢
      exact ⟨_, finished, later⟩
    · rw [Outcome.waiting_of_ne_nil silent] at finished
      exact ⟨_, finished, .of_unread rfl later⟩
  | @fails script failure session failed deferred comes silent =>
    rw [List.append_nil] at comes
    obtain ⟨after, reported⟩ : ∃ after, handshake c = .error failure.error after := by
      rw [finished]
      exact exists_report ..
    exact ⟨script, _, session, comes.append_of_fails reads.flatten,
      Or.inr ⟨silent, ⟨_, _, _, comes⟩, failure.error, after, reported, rfl⟩⟩
  | @defers script failure session failed comes data =>
    rw [List.append_nil] at comes
    refine ⟨script, _, session, comes.append_of_fails reads.flatten,
      Or.inl ⟨fun silent => (data silent).elim, _, finished, ?_⟩⟩
    nth_rewrite 2 [← List.append_nil (contents script)]
    exact .of_unread rfl (readsOut_of_deferred failed rfl rfl)

end Connection

end TransportSecurity
