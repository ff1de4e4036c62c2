import TransportSecurity.Proofs.Record.Delimited
import TransportSecurity.Session.Basic

/-!
Sessions as rows of records.

`Endpoint.Takes` says that an endpoint handled records one after the other, apart from how their
octets arrived. `Session.drain` comes to that: it takes what whole records there are, and stops at
the end of a handshake, at a failure or for want of octets (`drain_takes`). In turn records that an
endpoint would take are taken whatever pieces they arrive in (`drain_of_takes`, `stream_cut`).
-/

namespace TransportSecurity

namespace Progress

/-- What a record asks to send. -/
def answer : Progress → Octets
  | .continued records => records
  | .data _ => []
  | .complete records => records

/-- What a record hands out. -/
def content : Progress → Octets
  | .continued _ => []
  | .data content => content
  | .complete _ => []

/-- Whether a record ends the handshake. -/
def ends : Progress → Bool
  | .continued _ => false
  | .data _ => false
  | .complete _ => true

end Progress

namespace Outcome

/-- What an outcome asks to send. -/
def answer : Outcome → Octets
  | .needMoreData => []
  | .output records => records
  | .handshakeComplete records => records
  | .applicationData _ => []
  | .failed failure => failure.alert.getD []

/-- What an outcome hands out. -/
def content : Outcome → Octets
  | .applicationData data => data
  | _ => []

/-- What is reported when no whole record is left. -/
def waiting (records data : Octets) : Outcome :=
  if !data.isEmpty then .applicationData data
  else if !records.isEmpty then .output records
  else .needMoreData

end Outcome

/-- A record that was handled: its header, all its octets, and what it led to. -/
structure Handled where
  header : Record.Header
  record : Octets
  progress : Progress

namespace Handled

/-- Records as they arrive. -/
def stream (script : List Handled) : Octets := script.flatMap record

/-- What records ask to send. -/
def answers (script : List Handled) : Octets := script.flatMap fun handled => handled.progress.answer

/-- What records hand out. -/
def contents (script : List Handled) : Octets :=
  script.flatMap fun handled => handled.progress.content

/-- No record ends the handshake. -/
def Open (script : List Handled) : Prop := ∀ handled ∈ script, handled.progress.ends = false

section Append

variable (handled : Handled) (a b : List Handled)

@[simp] theorem stream_nil : stream [] = [] := rfl

@[simp] theorem stream_cons : stream (handled :: a) = handled.record ++ stream a := rfl

@[simp] theorem stream_append : stream (a ++ b) = stream a ++ stream b := List.flatMap_append

@[simp] theorem answers_nil : answers [] = [] := rfl

@[simp] theorem answers_cons :
    answers (handled :: a) = handled.progress.answer ++ answers a := rfl

@[simp] theorem answers_append : answers (a ++ b) = answers a ++ answers b := List.flatMap_append

@[simp] theorem contents_nil : contents [] = [] := rfl

@[simp] theorem contents_cons :
    contents (handled :: a) = handled.progress.content ++ contents a := rfl

@[simp] theorem contents_append : contents (a ++ b) = contents a ++ contents b :=
  List.flatMap_append

theorem open_nil : Open [] := by simp [Open]

theorem open_cons_iff : Open (handled :: a) ↔ handled.progress.ends = false ∧ Open a :=
  List.forall_mem_cons

end Append

/-- Whole records are not empty. -/
theorem eq_nil_of_stream {script : List Handled}
    (whole : ∀ handled ∈ script, Record.IsWhole handled.header handled.record)
    (nothing : stream script = []) : script = [] := by
  cases script with
  | nil => rfl
  | cons handled script =>
    have some := (whole handled (List.mem_cons_self ..)).ne_nil
    exact (some (List.append_eq_nil_iff.mp nothing).1).elim

/-- Whole records of which only a part has arrived: those that are whole, and octets that are not
yet a record. -/
theorem stream_cut {script : List Handled} {front back : Octets}
    (whole : ∀ handled ∈ script, Record.IsWhole handled.header handled.record)
    (cut : front ++ back = stream script) : ∃ done left rest, script = done ++ rest ∧
      front = stream done ++ left ∧ left ++ back = stream rest ∧
      Record.next? left = .ok none ∧ (back = [] → rest = []) := by
  induction script generalizing front with
  | nil =>
    obtain ⟨rfl, rfl⟩ := List.append_eq_nil_iff.mp cut
    exact ⟨[], [], [], rfl, rfl, rfl, rfl, fun _ => rfl⟩
  | cons handled script ih =>
    obtain ⟨first, others⟩ := List.forall_mem_cons.mp whole
    rw [stream_cons] at cut
    by_cases arrived : handled.record.length ≤ front.length
    · -- the first record is whole, and the rest is cut by induction
      have begins : front.take handled.record.length = handled.record := by
        rw [← List.take_append_of_le_length arrived, cut, List.take_left]
      have remains : front.drop handled.record.length ++ back = stream script := by
        rw [← List.drop_append_of_le_length arrived, cut, List.drop_left]
      obtain ⟨done, left, rest, rfl, same, tail, waits, finished⟩ := ih others remains
      refine ⟨handled :: done, left, rest, rfl, ?_, tail, waits, finished⟩
      rw [stream_cons, List.append_assoc, ← same]
      conv => lhs; rw [← List.take_append_drop handled.record.length front, begins]
    · -- the first record has not all arrived
      have taken : front = handled.record.take front.length := by
        have inside : front.length ≤ handled.record.length := by omega
        have begins : (handled.record ++ stream script).take front.length =
            handled.record.take front.length := List.take_append_of_le_length inside
        rw [← begins, ← cut, List.take_left]
      have more : handled.record.drop front.length ≠ [] := by
        refine List.length_pos_iff.mp ?_
        rw [List.length_drop]
        omega
      have split : front ++ handled.record.drop front.length = handled.record := by
        conv => lhs; arg 1; rw [taken]
        exact List.take_append_drop ..
      refine ⟨[], front, handled :: script, rfl, rfl, cut, ?_, ?_⟩
      · rw [← split] at first
        exact Record.next?_of_part first more
      · rintro rfl
        rw [List.append_nil] at cut
        rw [cut, List.length_append] at arrived
        omega

end Handled

namespace Endpoint

variable {G : Type} [Entropy G]

/-- An endpoint, with the octets of a message that is not whole yet, handles records one after the
other. -/
inductive Takes : Endpoint G → Octets → List Handled → Endpoint G → Octets → Prop
  | nil {e : Endpoint G} {p : Octets} : Takes e p [] e p
  | cons {e f g : Endpoint G} {p q r record : Octets} {header : Record.Header}
      {progress : Progress} {script : List Handled} (whole : Record.IsWhole header record)
      (handled : receiveRecord header record p e = .ok (progress, q) f)
      (later : Takes f q script g r) : Takes e p (⟨header, record, progress⟩ :: script) g r

namespace Takes

variable {e f g : Endpoint G} {p q r : Octets} {script first second : List Handled}

theorem whole (takes : Takes e p script f q) :
    ∀ handled ∈ script, Record.IsWhole handled.header handled.record := by
  induction takes with
  | nil => simp
  | cons whole _ _ ih => exact List.forall_mem_cons.mpr ⟨whole, ih⟩

theorem append (before : Takes e p first f q) (after : Takes f q second g r) :
    Takes e p (first ++ second) g r := by
  induction before with
  | nil => exact after
  | cons whole handled _ ih => exact .cons whole handled (ih after)

/-- Records in a row are handled in any two parts. -/
theorem split (takes : Takes e p (first ++ second) g r) :
    ∃ f q, Takes e p first f q ∧ Takes f q second g r := by
  induction first generalizing e p with
  | nil => exact ⟨e, p, .nil, takes⟩
  | cons handled first ih =>
    cases takes with
    | cons whole handled later =>
      obtain ⟨f, q, before, after⟩ := ih later
      exact ⟨f, q, .cons whole handled before, after⟩

end Takes

end Endpoint

namespace Session

open Handled

variable {G : Type} [Entropy G]

/-- What `drain` comes to once no whole record is left that it could take without stopping. -/
inductive DrainEnd (records data : Octets) (session : Session G) : Outcome × Session G → Prop
  | waits (nothing : Record.next? session.inbox = .ok none) :
    DrainEnd records data session (Outcome.waiting records data, session)
  | completes {header : Record.Header} {record inbox answer pending : Octets}
      {endpoint : Endpoint G}
      (found : Record.next? session.inbox = .ok (some (header, record, inbox)))
      (handled : Endpoint.receiveRecord header record session.pending session.endpoint =
        .ok (.complete answer, pending) endpoint) :
    DrainEnd records data session
      (.handshakeComplete (records ++ answer), { session with endpoint, inbox, pending })
  | malformed {error : Error} (found : Record.next? session.inbox = .error error) :
    DrainEnd records data session (session.stop error data)
  | refused {header : Record.Header} {record inbox : Octets} {error : Error}
      {endpoint : Endpoint G}
      (found : Record.next? session.inbox = .ok (some (header, record, inbox)))
      (refused : Endpoint.receiveRecord header record session.pending session.endpoint =
        .error error endpoint) :
    DrainEnd records data session ({ session with endpoint, inbox }.stop error data)

/-- `drain` takes whole records from the front of the inbox until it has to stop. -/
theorem drain_takes (records data : Octets) (session : Session G) :
    ∃ script endpoint inbox pending, session.inbox = stream script ++ inbox ∧
      Endpoint.Takes session.endpoint session.pending script endpoint pending ∧ Open script ∧
      DrainEnd (records ++ answers script) (data ++ contents script)
        { session with endpoint, inbox, pending } (drain records data session) := by
  -- an end reached at once needs no record
  have atOnce : ∀ {records data : Octets} {session : Session G} {result : Outcome × Session G},
      DrainEnd records data session result →
      ∃ script endpoint inbox pending, session.inbox = stream script ++ inbox ∧
        Endpoint.Takes session.endpoint session.pending script endpoint pending ∧ Open script ∧
        DrainEnd (records ++ answers script) (data ++ contents script)
          { session with endpoint, inbox, pending } result := by
    intro records data session result ended
    refine ⟨[], session.endpoint, session.inbox, session.pending, rfl, .nil, open_nil, ?_⟩
    rw [answers_nil, contents_nil, List.append_nil, List.append_nil]
    exact ended
  fun_induction drain records data session with
  | case1 records data session error found => exact atOnce (.malformed found)
  | case2 records data session found some =>
    have ended : DrainEnd records data session (Outcome.waiting records data, session) :=
      .waits found
    rw [Outcome.waiting, if_pos some] at ended
    exact atOnce ended
  | case3 records data session found none some =>
    have ended : DrainEnd records data session (Outcome.waiting records data, session) :=
      .waits found
    rw [Outcome.waiting, if_neg none, if_pos some] at ended
    exact atOnce ended
  | case4 records data session found none nothing =>
    have ended : DrainEnd records data session (Outcome.waiting records data, session) :=
      .waits found
    rw [Outcome.waiting, if_neg none, if_neg nothing] at ended
    exact atOnce ended
  | case5 records data session header record inbox found answer pending endpoint handled ih =>
    obtain ⟨whole, same⟩ := Record.next?_eq_some_iff.mp found
    obtain ⟨script, last, left, unfinished, rest, takes, opened, ended⟩ := ih
    refine ⟨⟨header, record, .continued answer⟩ :: script, last, left, unfinished, ?_,
      .cons whole handled takes, (open_cons_iff ..).mpr ⟨rfl, opened⟩, ?_⟩
    · change inbox = _ at rest
      rw [same, rest, stream_cons, List.append_assoc]
    · rw [answers_cons, ← List.append_assoc]
      exact ended
  | case6 records data session header record inbox found content pending endpoint handled ih =>
    obtain ⟨whole, same⟩ := Record.next?_eq_some_iff.mp found
    obtain ⟨script, last, left, unfinished, rest, takes, opened, ended⟩ := ih
    refine ⟨⟨header, record, .data content⟩ :: script, last, left, unfinished, ?_,
      .cons whole handled takes, (open_cons_iff ..).mpr ⟨rfl, opened⟩, ?_⟩
    · change inbox = _ at rest
      rw [same, rest, stream_cons, List.append_assoc]
    · rw [contents_cons, ← List.append_assoc]
      exact ended
  | case7 records data session header record inbox found answer pending endpoint handled =>
    exact atOnce (.completes found handled)
  | case8 records data session header record inbox found error endpoint handled =>
    exact atOnce (.refused found handled)

variable {records data left : Octets} {session : Session G} {script : List Handled}
  {endpoint : Endpoint G} {pending : Octets}

/-- What is not a whole record is waited for. -/
theorem drain_of_nothing (nothing : Record.next? session.inbox = .ok none) :
    drain records data session = (Outcome.waiting records data, session) := by
  rw [drain]
  split
  · next error found => cases found.symm.trans nothing
  · rw [Outcome.waiting]
    split
    · rfl
    · split <;> rfl
  · next found => cases found.symm.trans nothing

/-- Octets that are no record are not taken off the inbox. -/
theorem drain_of_malformed {error : Error} (found : Record.next? session.inbox = .error error) :
    drain records data session = session.stop error data := by
  rw [drain]
  split
  · next other =>
    cases other.symm.trans found
    rfl
  · next other => cases other.symm.trans found
  · next other => cases other.symm.trans found

/-- A whole record is handled first. -/
theorem drain_of_found {header : Record.Header} {record inbox : Octets}
    (found : Record.next? session.inbox = .ok (some (header, record, inbox))) :
    drain records data session =
      match Endpoint.receiveRecord header record session.pending session.endpoint with
      | .ok (.continued answer, pending) endpoint =>
        drain (records ++ answer) data { session with endpoint, inbox, pending }
      | .ok (.data content, pending) endpoint =>
        drain records (data ++ content) { session with endpoint, inbox, pending }
      | .ok (.complete answer, pending) endpoint =>
        (.handshakeComplete (records ++ answer), { session with endpoint, inbox, pending })
      | .error error endpoint => { session with endpoint, inbox }.stop error data := by
  rw [drain]
  split
  · next error other => cases other.symm.trans found
  · next other => cases other.symm.trans found
  · next other =>
    cases other.symm.trans found
    rfl

/-- Records that an endpoint takes without ending its handshake are drained first. -/
theorem drain_of_takes
    (takes : Endpoint.Takes session.endpoint session.pending script endpoint pending)
    (opened : Open script) (arrived : session.inbox = stream script ++ left) :
    drain records data session = drain (records ++ answers script) (data ++ contents script)
      { session with endpoint, inbox := left, pending } := by
  obtain ⟨first, inbox, before, deferred⟩ := session
  dsimp only at takes arrived ⊢
  subst arrived
  induction takes generalizing records data with
  | nil => simp
  | @cons e f g p q r record header progress script whole handled later ih =>
    obtain ⟨continues, others⟩ := (open_cons_iff ..).mp opened
    have found : Record.next? (stream (⟨header, record, progress⟩ :: script) ++ left) =
        .ok (some (header, record, stream script ++ left)) := by
      rw [stream_cons, List.append_assoc]
      exact Record.next?_eq_some_iff.mpr ⟨whole, rfl⟩
    rw [drain_of_found found, handled]
    cases progress with
    | continued answer =>
      rw [answers_cons, ← List.append_assoc]
      exact ih others
    | data content =>
      rw [contents_cons, ← List.append_assoc]
      exact ih others
    | complete answer => cases continues

/-- The record that ends the handshake ends the call. -/
theorem drain_of_completes {header : Record.Header} {record answer : Octets}
    (whole : Record.IsWhole header record)
    (handled : Endpoint.receiveRecord header record session.pending session.endpoint =
      .ok (.complete answer, pending) endpoint) (arrived : session.inbox = record ++ left) :
    drain records data session = (.handshakeComplete (records ++ answer),
      { session with endpoint, inbox := left, pending }) := by
  rw [drain_of_found (Record.next?_eq_some_iff.mpr ⟨whole, arrived⟩), handled]

end Session

end TransportSecurity
