import TransportSecurity.Proofs.Link.Runs
import TransportSecurity.Proofs.Session.Agreement

/-!
The other end's farewell as the first thing after a handshake.

The reader is told of it, unless one read brings it whole together with the last octet of the
handshake: then the handshake fails with it (`handshake_of_farewell`).
-/

namespace TransportSecurity

open Session Handled Endpoint

variable {G : Type} [Entropy G]

omit [Entropy G] in
theorem eq_of_told {error : Error} (told : error.told = .ok ()) :
    error = .alertReceived .warning .closeNotify := by
  unfold Error.told at told
  split at told
  · assumption
  · cases told

omit [Entropy G] in
theorem Session.closeNotify_eq : closeNotify = [21, 3, 3, 0, 2, 1, 0] := by
  rw [closeNotify, Record.encodePlain_eq, Record.pieces_of_short (by decide)]
  rfl

/-- The other end's farewell stops every endpoint, and no part of it does. -/
theorem Endpoint.refuses_closeNotify (e : Endpoint G) (pending : Octets) :
    Refuses e pending closeNotify (.alertReceived .warning .closeNotify) e ∧
      ∀ n < closeNotify.length, Record.next? (closeNotify.take n) = .ok none := by
  have found : Record.next? closeNotify = .ok (some (⟨.alert, .current, 2⟩, closeNotify, [])) := by
    rw [closeNotify_eq]
    decide
  have opened : open? ⟨.alert, .current, 2⟩ closeNotify e = .ok [1, 0] e := by
    refine open?_eq_ok.mpr (Or.inr ⟨by simp [isClearAlert], by decide, ?_, rfl⟩)
    rw [closeNotify_eq]
    rfl
  refine ⟨.refused found ?_, fun n short => ?_⟩
  · rw [receiveRecord, bind_of_ok opened]
    rfl
  · obtain ⟨whole, _⟩ := Record.next?_eq_some_iff.mp found
    rw [← List.take_append_drop n closeNotify] at whole
    refine Record.next?_of_part whole (List.length_pos_iff.mp ?_)
    rw [List.length_drop]
    omega

namespace Connection

variable {T : Type} [Transport T]

theorem ReadsOut.read_of_farewell {c : Connection T G} (readsOut : ReadsOut c [] (.ok ())) :
    ∃ after, read c = .ok [] after := by
  generalize nothing : ([] : Octets) = data, farewell : Except.ok () = ends at readsOut
  cases readsOut with
  | farewell done => exact ⟨_, done⟩
  | fails failed => cases farewell
  | goesOn got some later => exact (some (List.append_eq_nil_iff.mp nothing.symm).1).elim

/-- If all that the other end sends is what completes the handshake, and then its farewell, the
handshake succeeds and the first read is told of the farewell; but if one read of the transport
brings the handshake's last octet and the farewell's, the handshake fails with the farewell. -/
theorem handshake_of_farewell {session begun : Session G} {records octets : Octets}
    (reachable : session.Reachable) (started : session.start = (.ok records, begun))
    (completed : (begun.receive octets).2.endpoint.stage = .established)
    (nothing : (begun.receive octets).2.inbox = []) {ending : Error} {reads : List Octets}
    {transport : T} (delivers : Delivers ending reads transport)
    (whole : reads.flatten = octets ++ closeNotify) :
    if arrivedBy reads octets.length < reads.flatten.length then
      ∃ after last, handshake ⟨transport, session, []⟩ = .ok () after ∧ read after = .ok [] last
    else ∃ after, handshake ⟨transport, session, []⟩ =
      .error (.alertReceived .warning .closeNotify) after := by
  obtain ⟨ready, running, owed, empty⟩ := reachable.ready_of_start started
  obtain ⟨script, failure, last, comes, runs⟩ := exists_runs (c := ⟨transport, session, []⟩) started
    rfl ready running owed empty delivers
  have receives := receives_receive (Or.inl running) octets
  generalize begun.receive octets = result at receives completed nothing
  cases receives with
  | waits arrived takes opened waits =>
    cases (takes.running ready.sound running opened).symm.trans completed
  | stops arrived takes opened refuses => cases (failed_of_stop ..).symm.trans completed
  | @completes front closing endpoint inbox pending arrived takes opened ends =>
    cases nothing
    rw [empty, List.nil_append, List.append_nil] at arrived
    subst arrived
    obtain ⟨refuses, part⟩ := endpoint.refuses_closeNotify pending
    have fails := ComesTo.fails rfl takes refuses
    rw [whole] at comes
    obtain ⟨rfl, rfl, _⟩ := comes.unique fails
    have known : reads.flatten.length ≤ arrivedBy reads (stream (front ++ [closing])).length ↔
        ∃ script failure last, ComesTo begun
          (reads.flatten.take (arrivedBy reads (stream (front ++ [closing])).length)) script
          (some failure) last := by
      constructor
      · intro all
        rw [List.take_of_length_le all, whole]
        exact ⟨_, _, _, fails⟩
      · -- a part of the farewell is not yet a failure
        refine fun failed => Nat.le_of_not_lt fun early => ?_
        have enough : (stream (front ++ [closing])).length ≤
            arrivedBy reads (stream (front ++ [closing])).length := by
          refine le_arrivedBy ?_
          rw [whole, List.length_append]
          exact Nat.le_add_right ..
        rw [whole, List.length_append] at early
        rw [whole, List.take_append, List.take_of_length_le enough] at failed
        have waits := ComesTo.waits rfl takes (part _ (Nat.sub_lt_left_of_lt_add enough early))
        exact waits.not_fails failed
    have result := runs.of_completes opened ends known
    by_cases early : arrivedBy reads (stream (front ++ [closing])).length < reads.flatten.length
    · rw [if_neg fun both => Nat.not_le_of_lt early both.2] at result
      rw [if_pos early]
      obtain ⟨_, completed', readsOut⟩ := result
      obtain ⟨last, done⟩ := readsOut.read_of_farewell
      exact ⟨_, last, completed', done⟩
    · rw [if_pos ⟨rfl, Nat.le_of_not_lt early⟩] at result
      rw [if_neg early]
      obtain ⟨_, _, failed, told⟩ := result
      exact ⟨_, eq_of_told told.symm ▸ failed⟩

end Connection

/-- A transport in memory that delivers reads in a row, and then says that the other end has closed.
What is sent is lost. -/
structure Tape where
  reads : List Octets

namespace Tape

/-- Delivers the next read, or as much of it as there is room for. -/
def next (room : Nat) : EStateM Error Tape Octets := fun tape =>
  match tape.reads with
  | [] => .ok [] tape
  | read :: reads =>
    if read.length ≤ room then .ok read ⟨reads⟩
    else .ok (read.take room) ⟨read.drop room :: reads⟩

theorem length_lt_of_next {room : Nat} {tape after : Tape} {octets : Octets}
    (delivered : next room tape = .ok octets after) (some : octets ≠ []) :
    after.reads.flatten.length < tape.reads.flatten.length := by
  obtain ⟨_ | ⟨read, reads⟩⟩ := tape
  · cases delivered
    exact (some rfl).elim
  · simp only [next] at delivered
    have positive := List.length_pos_iff.mpr some
    split at delivered
    · cases delivered
      simp only [List.flatten_cons, List.length_append]
      omega
    · cases delivered
      simp only [List.flatten_cons, List.length_append, List.length_drop, List.length_take] at *
      omega

instance : Transport Tape where
  send _ := pure ()
  receive := next
  supply tape := tape.reads.flatten.length
  supply_lt := length_lt_of_next

/-- A tape delivers its reads, if none is empty or too large. -/
theorem delivers {reads : List Octets}
    (fine : ∀ read ∈ reads, read ≠ [] ∧ read.length ≤ Connection.room) :
    Delivers .connectionClosed reads (⟨reads⟩ : Tape) := by
  refine ⟨fine, fun left tape => tape.reads = left ∧ ∀ read ∈ left, read.length ≤ Connection.room,
    ?_, rfl, fun read found => (fine read found).2⟩
  constructor
  · rintro left tape octets held
    exact ⟨tape, rfl, held⟩
  · rintro read left ⟨_⟩ ⟨rfl, short⟩
    obtain ⟨first, others⟩ := List.forall_mem_cons.mp short
    exact ⟨⟨left⟩, if_pos first, rfl, others⟩
  · rintro ⟨_⟩ ⟨rfl, _⟩
    exact Or.inr ⟨rfl, _, rfl⟩

/-- A tape may deliver octet by octet at first. -/
theorem delivers_singles (front : Octets) (reads : List Octets)
    (fine : ∀ read ∈ reads, read ≠ [] ∧ read.length ≤ Connection.room) :
    Delivers .connectionClosed (front.map ([·]) ++ reads) (⟨front.map ([·]) ++ reads⟩ : Tape) := by
  refine delivers fun read found => ?_
  rcases List.mem_append.mp found with single | other
  · obtain ⟨octet, _, rfl⟩ := List.mem_map.mp single
    exact ⟨List.cons_ne_nil octet [], by simp [Connection.room]⟩
  · exact fine read other

end Tape

namespace Rehearsal

theorem client_reachable : client.Reachable := by
  obtain ⟨_, _, made⟩ := pairing.clientMade
  exact ⟨client, .client made, .refl⟩

/-- In a rehearsal the client's last octets come octet by octet, and then the farewell. -/
theorem exists_farewell : ∃ (front : Octets) (last : UInt8), ∀ (T : Type) [Transport T]
    (transport : T) (read : Octets) (rest : List Octets),
    Delivers .connectionClosed (front.map ([·]) ++ (last :: read) :: rest) transport →
    read ++ rest.flatten = closeNotify →
    if read.length < closeNotify.length then
      ∃ after done, Connection.handshake ⟨transport, client, []⟩ = .ok () after ∧
        Connection.read after = .ok [] done
    else ∃ after, Connection.handshake ⟨transport, client, []⟩ =
      .error (.alertReceived .warning .closeNotify) after := by
  obtain ⟨_, now, _, octets, _, received, _, ⟨inbox, _⟩, _, agree, _⟩ := pairing.exists_agreed
  obtain ⟨_, lasting, made⟩ := pairing.clientMade
  obtain ⟨_, _, _, _, _, started⟩ := exists_client_start made pairing.few (lasting.serves 1)
  generalize begun : ({ endpoint := _ } : Session Reproducible) = now' at started
  have completed := agree.clientOver
  rw [← received, started] at completed inbox
  rcases List.eq_nil_or_concat octets with rfl | ⟨front, last, rfl⟩
  · -- without octets the handshake would still go on
    obtain ⟨ready, running, _, _⟩ := client_reachable.ready_of_start started
    rw [receive_of_waiting (Or.inl running) (ready.waits running)] at completed
    cases running.symm.trans completed
  · rw [List.concat_eq_append] at completed inbox
    refine ⟨front, last, ?_⟩
    intro T _ transport read rest delivers farewell
    have singles : (front.map ([·])).flatten = front := by
      rw [← List.flatMap_def, List.flatMap_singleton']
    have whole : (front.map ([·]) ++ (last :: read) :: rest).flatten =
        (front ++ [last]) ++ closeNotify := by
      rw [← farewell, List.flatten_append, List.flatten_cons, singles]
      simp
    have result := Connection.handshake_of_farewell client_reachable started completed inbox
      delivers whole
    have cut : arrivedBy (front.map ([·]) ++ (last :: read) :: rest) (front ++ [last]).length =
        (front ++ [last]).length + read.length := by
      rw [arrivedBy_append]
      · simp [singles]
        omega
      · simp [singles]
      · simp [singles]
    have same : arrivedBy (front.map ([·]) ++ (last :: read) :: rest) (front ++ [last]).length <
        (front.map ([·]) ++ (last :: read) :: rest).flatten.length ↔
          read.length < closeNotify.length := by
      rw [cut, whole]
      simp only [List.length_append]
      omega
    rwa [if_congr same rfl rfl] at result

end Rehearsal

end TransportSecurity
