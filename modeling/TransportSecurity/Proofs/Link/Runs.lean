import TransportSecurity.Proofs.Link.Handshaking

/-!
A handshake and the reads after it, as one reading of the stream.

A session makes one thing of a stream. `Runs` says what a connection makes of it, and every way to
deliver the stream is run so (`exists_runs`). What the cut can decide is only whether a failure that
follows the handshake at once has arrived with the handshake's last octet; `arrivedBy` counts what
has.
-/

namespace TransportSecurity

namespace Handled

/-- Records end a handshake at one place only. -/
theorem first_end_unique {front front' back back' : List Handled} {last last' : Handled}
    (opened : Open front) (opened' : Open front') (ends : last.progress.ends = true)
    (ends' : last'.progress.ends = true) (same : front ++ last :: back = front' ++ last' :: back') :
    front = front' ∧ last = last' ∧ back = back' := by
  induction front generalizing front' with
  | nil =>
    cases front' with
    | nil => exact ⟨rfl, List.cons.inj same⟩
    | cons handled front' =>
      cases (List.cons.inj same).1
      cases ends.symm.trans (opened' _ (List.mem_cons_self ..))
  | cons handled front ih =>
    cases front' with
    | nil =>
      cases (List.cons.inj same).1
      cases ends'.symm.trans (opened _ (List.mem_cons_self ..))
    | cons handled' front' =>
      obtain ⟨rfl, tails⟩ := List.cons.inj same
      obtain ⟨rfl, rest⟩ :=
        ih ((open_cons_iff ..).mp opened).2 ((open_cons_iff ..).mp opened').2 tails
      exact ⟨rfl, rest⟩

/-- Records go on with the handshake, or one of them is the first to end it. -/
theorem open_or_ends (script : List Handled) : Open script ∨ ∃ front last back,
    script = front ++ last :: back ∧ Open front ∧ last.progress.ends = true := by
  induction script with
  | nil => exact Or.inl open_nil
  | cons handled script ih =>
    cases ends : handled.progress.ends with
    | true => exact Or.inr ⟨[], handled, script, rfl, open_nil, ends⟩
    | false =>
      rcases ih with opened | ⟨front, last, back, rfl, opened, ends'⟩
      · exact Or.inl ((open_cons_iff ..).mpr ⟨ends, opened⟩)
      · have all : Open (handled :: front) := (open_cons_iff ..).mpr ⟨ends, opened⟩
        exact Or.inr ⟨handled :: front, last, back, rfl, all, ends'⟩

end Handled

/-- How many octets have been delivered once as many as `place` have, if they come read by read. -/
def arrivedBy : List Octets → Nat → Nat
  | [], _ => 0
  | read :: reads, place =>
    if place ≤ read.length then read.length
    else read.length + arrivedBy reads (place - read.length)

theorem arrivedBy_append {before after : List Octets} {read : Octets} {place : Nat}
    (more : before.flatten.length < place) (enough : place ≤ (before.flatten ++ read).length) :
    arrivedBy (before ++ read :: after) place = (before.flatten ++ read).length := by
  induction before generalizing place with
  | nil =>
    rw [List.flatten_nil, List.nil_append] at enough
    exact if_pos enough
  | cons first before ih =>
    simp only [List.flatten_cons, List.length_append] at more enough ih ⊢
    rw [List.cons_append, arrivedBy, if_neg (by omega), ih (by omega) (by omega)]
    omega

theorem arrivedBy_le (reads : List Octets) (place : Nat) :
    arrivedBy reads place ≤ reads.flatten.length := by
  induction reads generalizing place with
  | nil => exact Nat.le_refl 0
  | cons read reads ih =>
    rw [arrivedBy, List.flatten_cons, List.length_append]
    split
    · exact Nat.le_add_right ..
    · exact Nat.add_le_add_left (ih _) _

theorem le_arrivedBy {reads : List Octets} {place : Nat} (enough : place ≤ reads.flatten.length) :
    place ≤ arrivedBy reads place := by
  induction reads generalizing place with
  | nil => exact enough
  | cons read reads ih =>
    rw [List.flatten_cons, List.length_append] at enough
    rw [arrivedBy]
    split
    · assumption
    · have later : place - read.length ≤ arrivedBy reads (place - read.length) := ih (by omega)
      omega

namespace Connection

open Session Handled Endpoint

variable {T G : Type} [Transport T] [Entropy G]

/-- A handshake and the reads after it, as a session makes them of one row of reads: the stream does
not complete the handshake, or the reads go on after it, or the handshake reports a failure that has
arrived with its end. -/
inductive Runs (ending : Error) (session : Session G) (reads : List Octets) (c : Connection T G) :
    List Handled → Option Failure → Prop
  | fails {script : List Handled} {failure : Option Failure} {after : Connection T G}
    (opened : Open script)
    (failed : handshake c = .error (failure.elim ending Failure.error) after) :
    Runs ending session reads c script failure
  | readsOut {front back : List Handled} {closing : Handled} {failure : Option Failure}
    {after : Connection T G} (opened : Open front) (ends : closing.progress.ends = true)
    (apart : contents back = [] → ∃ script last, ComesTo session
      (reads.flatten.take (arrivedBy reads (stream (front ++ [closing])).length)) script none last)
    (completed : handshake c = .ok () after)
    (readsOut : ReadsOut after (contents back) (conclusion ending failure)) :
    Runs ending session reads c (front ++ closing :: back) failure
  | reports {front back : List Handled} {closing : Handled} {failure : Option Failure}
    {error : Error} {after : Connection T G} (opened : Open front)
    (ends : closing.progress.ends = true) (silent : contents back = [])
    (joined : ∃ script failure last, ComesTo session
      (reads.flatten.take (arrivedBy reads (stream (front ++ [closing])).length)) script
      (some failure) last)
    (failed : handshake c = .error error after) (told : conclusion ending failure = error.told) :
    Runs ending session reads c (front ++ closing :: back) failure

/-- Which way a handshake that the stream completes is run depends on what has arrived with its
end. -/
theorem Runs.of_completes {ending : Error} {session : Session G}
    {reads : List Octets} {c : Connection T G} {front back : List Handled} {closing : Handled}
    {failure : Option Failure} {cause : Nat}
    (runs : Runs ending session reads c (front ++ closing :: back) failure) (opened : Open front)
    (ends : closing.progress.ends = true)
    (known : cause ≤ arrivedBy reads (stream (front ++ [closing])).length ↔
      ∃ script failure last, ComesTo session
        (reads.flatten.take (arrivedBy reads (stream (front ++ [closing])).length)) script
        (some failure) last) :
    if contents back = [] ∧ cause ≤ arrivedBy reads (stream (front ++ [closing])).length then
      ∃ error after, handshake c = .error error after ∧ conclusion ending failure = error.told
    else
      ∃ after, handshake c = .ok () after ∧
        ReadsOut after (contents back) (conclusion ending failure) := by
  generalize script : front ++ closing :: back = all at runs
  cases runs with
  | fails opened' failed => cases (opened' closing (by simp [← script])).symm.trans ends
  | readsOut opened' ends' apart completed readsOut =>
    obtain ⟨rfl, rfl, rfl⟩ := first_end_unique opened opened' ends ends' script
    rw [if_neg ?_]
    · exact ⟨_, completed, readsOut⟩
    · rintro ⟨silent, enough⟩
      obtain ⟨_, _, waits⟩ := apart silent
      exact waits.not_fails (known.mp enough)
  | reports opened' ends' silent joined failed told =>
    obtain ⟨rfl, rfl, rfl⟩ := first_end_unique opened opened' ends ends' script
    rw [if_pos ⟨silent, known.mpr joined⟩]
    exact ⟨_, _, failed, told⟩

/-- Every delivery is run as the session makes it of the stream. -/
theorem exists_runs {ending : Error} {c : Connection T G} {records : Octets} {session : Session G}
    {reads : List Octets} (started : c.session.start = (.ok records, session))
    (nothing : c.unread = []) (ready : session.Ready)
    (running : session.endpoint.stage = .handshaking)
    (owed : session.endpoint.role.owed ≤ maxAnswers) (empty : session.inbox = [])
    (delivers : Delivers ending reads c.transport) : ∃ script failure last,
      ComesTo session reads.flatten script failure last ∧
        Runs ending session reads c script failure := by
  obtain ⟨fine, holds, steady, held⟩ := delivers
  have nonempty : ∀ read ∈ reads, read ≠ [] := fun read found => (fine read found).1
  obtain ⟨transport, sent, held⟩ :=
    exists_sendSome steady (c := { c with session }) held records
  have handshakes := handshakes_completeHandshake steady nonempty
    (c := { c with transport, session }) held ready running owed
  generalize ended : completeHandshake maxAnswers ({ c with transport, session } : Connection T G) =
    result at handshakes
  cases handshakes with
  | fails comes opened =>
    rw [empty] at comes
    exact ⟨_, _, _, comes, .fails opened (handshake_of_error started sent ended)⟩
  | @completes before after read inbox pending front closing endpoint transport cut arrived takes
      opened ends needed held =>
    have finished := handshake_of_completed started sent ended
    obtain ⟨_, isOver, _⟩ := takes.completes ready.sound (Or.inl running) ends
    have later : ∀ read ∈ after, read ≠ [] := by
      intro read found
      exact nonempty read (by rw [cut]; simp [found])
    have ready' : Ready { session with endpoint, inbox, pending } :=
      ready.goesOn takes (Or.inr ⟨running, isOver, by simp⟩)
    obtain ⟨back, failure, last, comes, ends'⟩ := @finishes _ _ _ _ _ _ steady _ later _
      ⟨transport, { session with endpoint, inbox, pending }, c.unread⟩ held nothing ready' isOver
      finished
    rw [empty, List.nil_append] at arrived
    have all := comes.prepend takes
    dsimp only at all
    rw [← List.append_assoc, ← arrived, List.append_assoc, ← List.flatten_cons,
      ← List.flatten_append, ← cut, List.append_assoc, List.singleton_append] at all
    refine ⟨front ++ closing :: back, failure, last, all, ?_⟩
    -- what has arrived by the end of the handshake is what its last read brought
    have so_far : reads.flatten.take (arrivedBy reads (stream (front ++ [closing])).length) =
        stream (front ++ [closing]) ++ inbox := by
      have lengths := congrArg List.length arrived
      rw [List.length_append, List.length_append] at lengths
      rw [cut, arrivedBy_append (by omega) (by rw [List.length_append]; omega), ← arrived,
        List.flatten_append, List.flatten_cons, ← List.append_assoc, List.take_left]
    rcases ends' with ⟨apart, _, completed, readsOut⟩ | ⟨silent, joined, error, _, failed, told⟩
    · refine .readsOut opened ends ?_ completed readsOut
      intro silent
      obtain ⟨_, _, waits⟩ := apart silent
      rw [so_far]
      exact ⟨_, _, waits.prepend takes⟩
    · obtain ⟨_, _, _, fails⟩ := joined
      refine .reports opened ends silent ?_ failed told
      rw [so_far]
      exact ⟨_, _, _, fails.prepend takes⟩

end Connection

end TransportSecurity
