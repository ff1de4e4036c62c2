import Mathlib.Data.List.Induction
import TransportSecurity.Proofs.Session.Agreement

/-!
What it takes to complete a handshake.

A session that becomes established has received exactly the records of one handshake, however their
octets were cut: the other end's messages in the clear, each once and in order, the announcement, and
then a proof in protected records (`Completed`). `Heard` says what a role has heard at each phase,
and `History` what the records so far have come to; the octets of a message that is not whole yet are
a part of it, so nothing can be kept over the change of keys.
-/

namespace TransportSecurity

/-- What a role has heard in the clear when it waits in a phase, and the messages of the transcript
by then: its own and the other end's. -/
inductive Heard : Role → (heard transcript : List Octets) → Prop
  | noServerHello {settings : ClientSettings} {clientHello : Octets} :
    Heard (.client settings .serverHello) [] [clientHello]
  | serverHello {settings : ClientSettings} {clientHello serverHello : Octets} {hello : ServerHello}
    (decoded : Body.decode ServerHello serverHello = .ok hello) :
    Heard (.client settings .certificate) [serverHello] [clientHello, serverHello]
  | certificates {settings : ClientSettings}
    {clientHello serverHello certificates : Octets} {list : Certificates}
    (heard : Heard (.client settings .certificate) [serverHello] [clientHello, serverHello])
    (decoded : Body.decode Certificates certificates = .ok list) :
    Heard (.client settings .serverHelloDone) [serverHello, certificates]
      [clientHello, serverHello, certificates]
  | serverHelloDone {settings : ClientSettings}
    {clientHello serverHello certificates helloDone exchange finished : Octets}
    {done : ServerHelloDone}
    (heard : Heard (.client settings .serverHelloDone) [serverHello, certificates]
      [clientHello, serverHello, certificates])
    (decoded : Body.decode ServerHelloDone helloDone = .ok done) :
    Heard (.client settings .changeCipherSpec) [serverHello, certificates, helloDone]
      [clientHello, serverHello, certificates, helloDone, exchange, finished]
  | noClientHello {settings : ServerSettings} : Heard (.server settings .clientHello) [] []
  | clientHello {settings : ServerSettings} {clientHello serverHello certificates helloDone : Octets}
    {hello : ClientHello} (decoded : Body.decode ClientHello clientHello = .ok hello) :
    Heard (.server settings .clientKeyExchange) [clientHello]
      [clientHello, serverHello, certificates, helloDone]
  | clientKeyExchange {settings : ServerSettings}
    {clientHello serverHello certificates helloDone exchange : Octets} {body : ClientKeyExchange}
    (heard : Heard (.server settings .clientKeyExchange) [clientHello]
      [clientHello, serverHello, certificates, helloDone])
    (decoded : Body.decode ClientKeyExchange exchange = .ok body) :
    Heard (.server settings .changeCipherSpec) [clientHello, exchange]
      [clientHello, serverHello, certificates, helloDone, exchange]

/-- Records of handshake messages that open under keys, numbered on from a number, and all that they
hold. -/
inductive OpensInTurn (keys : WriteKeys) : UInt64 → List Handled → UInt64 → Octets → Prop
  | nil {number : UInt64} : OpensInTurn keys number [] number []
  | snoc {first number next : UInt64} {script : List Handled} {contents content : Octets}
    (before : OpensInTurn keys first script number contents) (handled : Handled)
    (type : handled.header.type = .handshake)
    (opens : Record.unprotect keys number handled.record = .ok (content, next)) :
    OpensInTurn keys first (script ++ [handled]) next (contents ++ content)

namespace Handled

/-- The fragments of records in the clear. -/
def fragments (script : List Handled) : Octets :=
  script.flatMap fun handled => handled.record.drop Record.headerLength

/-- Every record carries handshake messages. -/
def AllHandshake (script : List Handled) : Prop :=
  ∀ handled ∈ script, handled.header.type = .handshake

variable {script : List Handled} {handled : Handled}

theorem AllHandshake.concat (all : AllHandshake script) (type : handled.header.type = .handshake) :
    AllHandshake (script ++ [handled]) :=
  List.forall_mem_append.mpr ⟨all, List.forall_mem_singleton.mpr type⟩

theorem fragments_concat (script : List Handled) (handled : Handled) :
    fragments (script ++ [handled]) =
      fragments script ++ handled.record.drop Record.headerLength := by
  simp [fragments]

end Handled

namespace Endpoint

open Handled

variable {G : Type} [Entropy G]

variable {e f : Endpoint G} {heard transcript : List Octets}

/-- A message that a role takes in the clear is heard next. -/
theorem heard_answers {message records : Octets} (sound : e.Sound)
    (hears : Heard e.role heard transcript) (filled : e.transcript = some ⟨transcript⟩)
    (answers : Answers message e records f) : ∃ transcript,
      Heard f.role (heard ++ [message]) transcript ∧ f.transcript = some ⟨transcript⟩ := by
  cases answers with
  | serverHello waits took =>
    obtain ⟨hello, messages, decoded, _, _, found, _, rfl⟩ := Client.receiveHello_eq_ok.mp took
    rw [waits] at hears
    cases hears
    cases found.symm.trans filled
    exact ⟨_, .serverHello decoded, rfl⟩
  | certificates waits took =>
    obtain ⟨_, _, _, _, messages, decoded, _, _, found, _, rfl⟩ :=
      Client.receiveCertificate_eq_ok.mp took
    rw [waits] at hears
    cases hears with
    | serverHello hello =>
      cases found.symm.trans filled
      exact ⟨_, .certificates (.serverHello hello) decoded, rfl⟩
  | serverHelloDone waits exchanged finished =>
    have clear : e.sendProtected = false := by rw [sound.sends, waits]; rfl
    obtain ⟨messages, _, work, made, rfl, _⟩ := (Client.sendExchange_eq_ok clear).mp exchanged
    obtain ⟨_, _, _, _, more, _, _, _, encodes, rfl⟩ := Client.sendFinished_eq_ok.mp finished
    obtain ⟨_, _, rfl⟩ := encode_frame encodes
    rw [waits] at hears
    cases hears with
    | certificates hello list =>
      cases made.found.symm.trans filled
      cases more
      exact ⟨_, .serverHelloDone (.certificates hello list) made.decoded, rfl⟩
  | serverFinished waits took =>
    rw [waits] at hears
    cases hears
  | clientHello waits took =>
    have clear : e.sendProtected = false := by rw [sound.sends, waits]; rfl
    obtain ⟨messages, work, made, rfl, _⟩ := (Server.receiveHello_eq_ok clear).mp took
    rw [waits] at hears
    cases hears
    cases made.found.symm.trans filled
    exact ⟨_, .clientHello made.decoded, rfl⟩
  | clientKeyExchange waits took =>
    obtain ⟨_, _, messages, _, _, _, _, decoded, _, found, _, _, _, _, _, rfl⟩ :=
      Server.receiveKeyExchange_eq_ok.mp took
    rw [waits] at hears
    cases hears with
    | clientHello hello =>
      cases found.symm.trans filled
      exact ⟨_, .clientKeyExchange (.clientHello hello) decoded, rfl⟩
  | clientFinished waits took =>
    rw [waits] at hears
    cases hears

omit [Entropy G] in
/-- As long as a role hears messages in the clear, its handshake goes on in the clear. -/
theorem Sound.of_heard (sound : e.Sound) (hears : Heard e.role heard transcript) :
    e.stage = .handshaking ∧ e.receiveProtected = false := by
  rw [sound.stage, sound.receives]
  generalize e.role = role at hears
  cases hears <;> exact ⟨rfl, rfl⟩

/-- Octets in the clear are messages that are heard, and a part of the next one. -/
theorem heard_collects {records pending left : Octets} {progress : Progress} (sound : e.Sound)
    (hears : Heard e.role heard transcript) (filled : e.transcript = some ⟨transcript⟩)
    (collects : Collects records pending e progress left f) : progress.ends = false ∧
      ∃ more transcript, pending = more.flatten ++ left ∧
        Heard f.role (heard ++ more) transcript ∧ f.transcript = some ⟨transcript⟩ := by
  induction collects generalizing heard transcript with
  | waits nothing => exact ⟨rfl, [], transcript, rfl, by rwa [List.append_nil], filled⟩
  | completes found took isOver =>
    have answers := receiveMessage_eq_ok.mp took
    obtain ⟨_, hears, _⟩ := heard_answers sound hears filled answers
    obtain ⟨running, _⟩ := (advances_answers sound answers).2.of_heard hears
    cases running.symm.trans isOver
  | @goesOn _ pending message rest _ left e f g progress found took unfinished later ih =>
    have answers := receiveMessage_eq_ok.mp took
    obtain ⟨_, hears, filled⟩ := heard_answers sound hears filled answers
    obtain ⟨goesOn, more, transcript, split, hears, filled⟩ :=
      ih (advances_answers sound answers).2 hears filled
    refine ⟨goesOn, message :: more, transcript, ?_, ?_, filled⟩
    · rw [List.flatten_cons, List.append_assoc, ← split]
      exact (Assembly.next?_eq_some found).1.symm
    · rw [List.append_assoc] at hears
      exact hears

/-- What the records since the beginning have come to: messages in the clear, or all of those, the
announcement, and octets of protected records that no message has been taken from. -/
inductive History (first : Endpoint G) : List Handled → Endpoint G → Octets → Prop
  | clear {script : List Handled} {e : Endpoint G} {pending : Octets}
    {heard transcript : List Octets} (types : AllHandshake script)
    (holds : fragments script = heard.flatten ++ pending) (hears : Heard e.role heard transcript)
    (filled : e.transcript = some ⟨transcript⟩) : History first script e pending
  | changed {clear proof : List Handled} {change : Handled} {waiting e : Endpoint G}
    {pending : Octets} {role : Role} {heard transcript : List Octets} {secrets : Secrets}
    (types : AllHandshake clear) (holds : fragments clear = heard.flatten)
    (hears : Heard role heard transcript) (changes : Changes role e.role)
    (changeType : change.header.type = .changeCipherSpec)
    (changeHolds : change.record.drop Record.headerLength = ChangeCipherSpec.payload)
    (arrived : Takes first [] (clear ++ [change]) waiting [])
    (since : { waiting with receiveNumber := e.receiveNumber } = e)
    (filled : e.transcript = some ⟨transcript⟩) (known : e.secrets = some secrets)
    (proves : OpensInTurn (secrets.keys.writer e.role.side.peer) 0 proof e.receiveNumber pending) :
    History first (clear ++ change :: proof) e pending

variable {script : List Handled} {header : Record.Header} {record pending left : Octets}
  {progress : Progress}

omit [Entropy G] in
/-- In the clear the content of a record is its fragment. -/
theorem open?_of_heard {content : Octets} (sound : e.Sound)
    (hears : Heard e.role heard transcript) (opened : open? header record e = .ok content f) :
    record.drop Record.headerLength = content ∧ e = f := by
  obtain ⟨_, clear⟩ := sound.of_heard hears
  rcases open?_eq_ok.mp opened with ⟨_, _, _, change, _⟩ | ⟨_, _, holds, same⟩
  · cases clear.symm.trans change
  · exact ⟨holds, same⟩

omit [Entropy G] in
/-- After the change the content of a record of messages is what its protection holds. -/
theorem open?_of_changed {content : Octets} {role : Role} {secrets : Secrets} (sound : e.Sound)
    (changes : Changes role e.role) (known : e.secrets = some secrets)
    (type : header.type = .handshake) (opened : open? header record e = .ok content f) :
    ∃ number, Record.unprotect (secrets.keys.writer e.role.side.peer) e.receiveNumber record =
      .ok (content, number) ∧ { e with receiveNumber := number } = f := by
  have change : e.receiveProtected = true := by
    rw [sound.receives]
    generalize e.role = role at changes
    cases changes <;> rfl
  rcases open?_eq_ok.mp opened with ⟨_, number, same, _, _, opens, rfl⟩ | ⟨clear, _⟩
  · cases same.symm.trans known
    exact ⟨number, opens, rfl⟩
  · simp [change, isClearAlert, type] at clear

/-- After the change the only message that is taken is the other end's proof, and it is the last. -/
theorem collects_changed {records : Octets} {role : Role} (sound : e.Sound)
    (changes : Changes role e.role) (collects : Collects records pending e progress left f) :
    (progress.ends = false ∧ left = pending ∧ e = f) ∨
      (progress.ends = true ∧ left = [] ∧ ∃ answer, Answers pending e answer f) := by
  cases collects with
  | waits nothing => exact Or.inl ⟨rfl, rfl, rfl⟩
  | completes found took isOver =>
    have whole := (Assembly.next?_eq_some found).1
    rw [List.append_nil] at whole
    rw [whole] at took
    exact Or.inr ⟨rfl, rfl, _, receiveMessage_eq_ok.mp took⟩
  | @goesOn _ _ _ _ _ _ _ next _ _ found took unfinished later =>
    obtain ⟨advances, sound⟩ := advances_answers sound (receiveMessage_eq_ok.mp took)
    refine (unfinished ?_).elim
    rw [sound.stage]
    generalize e.role = role, next.role = last at changes advances ⊢
    cases changes <;> cases advances <;> rfl

/-- The message that is taken after the change vouches for the transcript. -/
theorem vouches_answers {message answer : Octets} {role : Role} {secrets : Secrets}
    (sound : e.Sound) (changes : Changes role e.role) (filled : e.transcript = some ⟨transcript⟩)
    (known : e.secrets = some secrets) (answers : Answers message e answer f) :
    f.secrets = some secrets ∧ Body.decode Finished message = .ok ⟨KeySchedule.verifyData
        (KeySchedule.finishedLabel e.role.side.peer)
        (KeySchedule.handshakeHash transcript.flatten) secrets.master⟩ := by
  cases answers with
  | serverFinished waits took =>
    obtain ⟨_, _, found, same, decoded, rfl⟩ := Client.receiveFinished_eq_ok.mp took
    cases found.symm.trans filled
    cases same.symm.trans known
    rw [waits]
    rw [Transcript.hash_eq] at decoded
    exact ⟨known, decoded⟩
  | clientFinished waits took =>
    have clear : e.sendProtected = false := by rw [sound.sends, waits]; rfl
    obtain ⟨messages, work, sent, made, rfl, _⟩ := (Server.receiveFinished_eq_ok clear).mp took
    obtain ⟨_, _, rfl⟩ := encode_frame made.encodes
    cases made.found.symm.trans filled
    cases made.known.symm.trans known
    have decoded := made.decoded
    rw [waits]
    rw [Transcript.hash_eq] at decoded
    exact ⟨known, decoded⟩
  | serverHello waits | certificates waits | serverHelloDone waits | clientHello waits
  | clientKeyExchange waits =>
    rw [waits] at changes
    cases changes

variable {first : Endpoint G}

/-- Every record that does not end the handshake adds to its history. -/
theorem history_handles (arrived : Takes first [] script e pending) (sound : e.Sound)
    (running : e.stage = .handshaking) (history : History first script e pending)
    (whole : Record.IsWhole header record)
    (handled : receiveRecord header record pending e = .ok (progress, left) f)
    (goesOn : progress.ends = false) :
    History first (script ++ [⟨header, record, progress⟩]) f left := by
  have now := arrived.append (.cons whole handled .nil)
  have handles := receiveRecord_eq_ok.mp handled
  rcases history with ⟨types, holds, hears, filled⟩ |
    ⟨types, holds, hears, changes, changeType, changeHolds, waited, since, filled, known, proves⟩
  · rcases handles with ⟨type, opened, announces, nothing, changed⟩ | ⟨type, opened, isOver⟩ |
      ⟨type, opened, unfinished, collects⟩
    · -- the announcement, with no part of a message left
      obtain ⟨content, rfl⟩ := open?_of_heard sound hears opened
      obtain ⟨known, role, changes, rfl⟩ := receiveChange_eq_ok.mp changed
      obtain ⟨secrets, known⟩ := Option.isSome_iff_exists.mp known
      subst nothing
      rw [List.append_nil] at holds
      exact .changed types holds hears changes type (content.trans announces) now rfl filled
        known .nil
    · obtain ⟨_, rfl⟩ := open?_of_heard sound hears opened
      cases running.symm.trans isOver
    · -- more messages in the clear
      obtain ⟨content, rfl⟩ := open?_of_heard sound hears opened
      obtain ⟨_, more, _, split, hears, filled⟩ := heard_collects sound hears filled collects
      refine .clear (types.concat type) ?_ hears filled
      rw [fragments_concat, holds, List.append_assoc, List.flatten_append, List.append_assoc,
        ← split, ← content]
  · rcases handles with ⟨type, opened, announces, nothing, changed⟩ | ⟨type, opened, isOver⟩ |
      ⟨type, opened, unfinished, collects⟩
    · -- no role waits for a second announcement
      obtain ⟨_, rfl⟩ := open?_frame opened
      obtain ⟨_, _, again, _⟩ := receiveChange_eq_ok.mp changed
      generalize e.role = role at changes again
      cases changes <;> cases again
    · obtain ⟨_, rfl⟩ := open?_frame opened
      cases running.symm.trans isOver
    · -- more of the proof
      have stays := sound_open? sound opened
      obtain ⟨number, opens, rfl⟩ := open?_of_changed sound changes known type opened
      rcases collects_changed stays changes collects with ⟨_, rfl, rfl⟩ | ⟨ends, _⟩
      · rw [List.append_assoc, List.cons_append]
        refine .changed types holds hears changes changeType changeHolds waited ?_ filled known
          (proves.snoc _ type opens)
        rw [← since]
      · cases goesOn.symm.trans ends

/-- The records of a whole handshake, up to the one that completed it: the other end's messages in
the clear, the announcement, and in protected records a proof that vouches for the transcript under
the master secret. -/
inductive Completed (first done : Endpoint G) : List Handled → Prop
  | intro {clear proof : List Handled} {change : Handled} {waiting : Endpoint G} {role : Role}
    {number : UInt64} {heard transcript : List Octets} {secrets : Secrets} {message : Octets}
    (arrived : Takes first [] (clear ++ [change]) waiting [])
    (types : AllHandshake clear) (holds : fragments clear = heard.flatten)
    (hears : Heard role heard transcript) (changes : Changes role waiting.role)
    (changeType : change.header.type = .changeCipherSpec)
    (changeHolds : change.record.drop Record.headerLength = ChangeCipherSpec.payload)
    (filled : waiting.transcript = some ⟨transcript⟩) (known : waiting.secrets = some secrets)
    (proves : OpensInTurn (secrets.keys.writer waiting.role.side.peer) 0 proof number message)
    (vouches : Body.decode Finished message = .ok ⟨KeySchedule.verifyData
      (KeySchedule.finishedLabel waiting.role.side.peer)
      (KeySchedule.handshakeHash transcript.flatten) secrets.master⟩)
    (advances : Advances waiting.role done.role) (kept : done.secrets = some secrets) :
    Completed first done (clear ++ change :: proof)

/-- The record that ends a handshake completes its history. -/
theorem completed_handles (sound : e.Sound) (history : History first script e pending)
    (handles : Handles header record pending e progress left f) (ends : progress.ends = true) :
    Completed first f (script ++ [⟨header, record, progress⟩]) ∧ left = [] := by
  rcases history with ⟨types, holds, hears, filled⟩ |
    ⟨types, holds, hears, changes, changeType, changeHolds, waited, since, filled, known, proves⟩
  · rcases handles with ⟨type, opened, announces, nothing, changed⟩ | ⟨type, opened, isOver⟩ |
      ⟨type, opened, unfinished, collects⟩
    · cases ends
    · cases ends
    · obtain ⟨content, rfl⟩ := open?_of_heard sound hears opened
      obtain ⟨goesOn, _⟩ := heard_collects sound hears filled collects
      cases goesOn.symm.trans ends
  · rcases handles with ⟨type, opened, announces, nothing, changed⟩ | ⟨type, opened, isOver⟩ |
      ⟨type, opened, unfinished, collects⟩
    · cases ends
    · cases ends
    · have stays := sound_open? sound opened
      obtain ⟨number, opens, rfl⟩ := open?_of_changed sound changes known type opened
      rcases collects_changed stays changes collects with ⟨goesOn, _⟩ | ⟨_, rfl, answer, answers⟩
      · cases goesOn.symm.trans ends
      · refine ⟨?_, rfl⟩
        obtain ⟨advances, _⟩ := advances_answers stays answers
        obtain ⟨kept, vouches⟩ := vouches_answers stays changes filled known answers
        have proved := proves.snoc ⟨header, record, progress⟩ type opens
        rw [← since] at changes filled known proved vouches advances
        rw [List.append_assoc, List.cons_append]
        exact .intro waited types holds hears changes changeType changeHolds filled known proved
          vouches advances kept

/-- At the beginning nothing was heard. -/
theorem history_of_begins {records : Octets} (begins : Begins
      { e with stage := .handshaking, transcript := some Transcript.empty } records f) :
    History f [] f [] := by
  cases begins with
  | client role sent =>
    obtain ⟨_, _, message, messages, _, _, found, _, encodes⟩ := Client.sendHello_eq_ok.mp sent
    obtain ⟨_, _, rfl⟩ := encode_frame encodes
    cases found
    exact .clear (List.forall_mem_nil _) rfl .noServerHello rfl
  | server role => exact .clear (List.forall_mem_nil _) rfl .noClientHello rfl

theorem Takes.history {done : List Handled} {p q : Octets} (takes : Takes e p script f q)
    (opened : Open script) (arrived : Takes first [] done e p) (sound : e.Sound)
    (running : e.stage = .handshaking) (history : History first done e p) :
    History first (done ++ script) f q := by
  induction takes generalizing done with
  | nil => rwa [List.append_nil]
  | cons whole handled later ih =>
    obtain ⟨goesOn, others⟩ := (open_cons_iff ..).mp opened
    have handles := receiveRecord_eq_ok.mp handled
    have next := history_handles arrived sound running history whole handled goesOn
    rcases ends_handles sound running handles with ⟨ends, _⟩ | ⟨_, running⟩
    · cases goesOn.symm.trans ends
    · have now := arrived.append (.cons whole handled .nil)
      rw [List.append_cons]
      exact ih others now (sound_handles sound handles) running next

end Endpoint

namespace Outcome

/-- Whether an outcome reports the end of the handshake. -/
def completes : Outcome → Bool
  | .handshakeComplete _ => true
  | _ => false

theorem completes_waiting (records data : Octets) : (waiting records data).completes = false := by
  unfold waiting
  split
  · rfl
  · split <;> rfl

/-- One more outcome counts if it reports the end of the handshake. -/
theorem countP_completes (outcomes : List Outcome) (outcome : Outcome) :
    (outcomes ++ [outcome]).countP completes =
      outcomes.countP completes + outcome.completes.toNat := by
  rw [List.countP_append, List.countP_singleton]
  cases outcome.completes <;> rfl

end Outcome

namespace Session

open Handled Endpoint

variable {G : Type} [Entropy G]

omit [Entropy G] in
theorem completes_stop (session : Session G) (error : Error) (data : Octets) :
    (session.stop error data).1.completes = false := by
  simp only [stop]
  split <;> rfl

theorem receiveAll_concat (session : Session G) (before : List Octets) (read : Octets) :
    session.receiveAll (before ++ [read]) =
      ((session.receiveAll before).1 ++ [((session.receiveAll before).2.receive read).1],
        ((session.receiveAll before).2.receive read).2) := by
  induction before generalizing session with
  | nil => rfl
  | cons octets before ih => rw [List.cons_append, receiveAll_cons, ih, receiveAll_cons]; rfl

/-- The read that completes a handshake: the records up to it are those of a whole handshake, and
what came after them waits. -/
def CompletesAt (started : Session G) (before : List Octets) (read : Octets) : Prop :=
  ∃ script answer completed,
    (started.receiveAll before).2.receive read = (.handshakeComplete answer, completed) ∧
    (before ++ [read]).flatten = stream script ++ completed.inbox ∧
    Takes started.endpoint [] script completed.endpoint completed.pending ∧
    Completed started.endpoint completed.endpoint script ∧ completed.pending = []

/-- Where a session stands after some reads: its handshake goes on, was completed by one of the
reads, or the session has failed. -/
inductive Stands (started : Session G) (reads : List Octets) : List Outcome → Session G → Prop
  | running {outcomes : List Outcome} {session : Session G} {script : List Handled}
    (sound : session.endpoint.Sound) (running : session.endpoint.stage = .handshaking)
    (arrived : reads.flatten = stream script ++ session.inbox)
    (takes : Takes started.endpoint [] script session.endpoint session.pending)
    (history : History started.endpoint script session.endpoint session.pending)
    (never : outcomes.countP Outcome.completes = 0) : Stands started reads outcomes session
  | ended {outcomes : List Outcome} {session : Session G} {before after : List Octets}
    {read : Octets} (sound : session.endpoint.Sound)
    (isOver : session.endpoint.stage = .established) (split : reads = before ++ read :: after)
    (completes : CompletesAt started before read)
    (once : outcomes.countP Outcome.completes = 1) : Stands started reads outcomes session
  | failed {outcomes : List Outcome} {session : Session G}
    (failed : session.endpoint.stage = .failed)
    (once : outcomes.countP Outcome.completes ≤ 1) : Stands started reads outcomes session

/-- A session whose handshake is over never completes it again. -/
theorem receive_of_over {session : Session G} (sound : session.endpoint.Sound)
    (isOver : session.endpoint.stage = .established) (octets : Octets) :
    (session.receive octets).1.completes = false ∧
      ((session.receive octets).2.endpoint.Sound ∧
        (session.receive octets).2.endpoint.stage = .established ∨
        (session.receive octets).2.endpoint.stage = .failed) := by
  rw [receive_eq_drain (Or.inr isOver)]
  obtain ⟨script, endpoint, inbox, pending, _, takes, _, ended⟩ :=
    drain_takes [] [] { session with inbox := session.inbox ++ octets }
  have still := takes.sound sound
  have isOver := (takes.stays_over sound isOver).1
  generalize drain [] [] { session with inbox := session.inbox ++ octets } = result at ended ⊢
  cases ended with
  | waits nothing => exact ⟨Outcome.completes_waiting .., Or.inl ⟨still, isOver⟩⟩
  | completes found handled =>
    obtain ⟨_, _, _, _, _, _, impossible, _⟩ :=
      handles_established still isOver (receiveRecord_eq_ok.mp handled)
    cases impossible
  | malformed found => exact ⟨completes_stop .., Or.inr (failed_of_stop ..)⟩
  | refused found refused => exact ⟨completes_stop .., Or.inr (failed_of_stop ..)⟩

/-- A read during a handshake leaves it going on, completes it or makes the session fail. -/
theorem stands_of_running {started session : Session G} {before : List Octets}
    {outcomes : List Outcome} {done : List Handled} (read : Octets)
    (now : started.receiveAll before = (outcomes, session)) (sound : session.endpoint.Sound)
    (running : session.endpoint.stage = .handshaking)
    (arrived : before.flatten = stream done ++ session.inbox)
    (takes : Takes started.endpoint [] done session.endpoint session.pending)
    (history : History started.endpoint done session.endpoint session.pending)
    (never : outcomes.countP Outcome.completes = 0) :
    Stands started (before ++ [read]) (outcomes ++ [(session.receive read).1])
      (session.receive read).2 := by
  have count := Outcome.countP_completes outcomes (session.receive read).1
  rw [never, Nat.zero_add] at count
  have received := receive_eq_drain (Or.inl running) read
  obtain ⟨script, endpoint, inbox, pending, same, more, opened, ended⟩ :=
    drain_takes [] [] { session with inbox := session.inbox ++ read }
  have still := more.sound sound
  have goesOn := more.running sound running opened
  have later := more.history opened takes sound running history
  have upTo := takes.append more
  generalize drain [] [] { session with inbox := session.inbox ++ read } = result at ended received
  dsimp only at same
  have octets : (before ++ [read]).flatten = stream (done ++ script) ++ inbox := by
    rw [List.flatten_append, List.flatten_singleton, arrived, List.append_assoc, same,
      stream_append, List.append_assoc]
  rw [received] at count ⊢
  cases ended with
  | waits nothing =>
    rw [Outcome.completes_waiting] at count
    exact .running still goesOn octets upTo later count
  | @completes header record inbox answer pending endpoint found handled =>
    obtain ⟨whole, rest⟩ := Record.next?_eq_some_iff.mp found
    have handles := receiveRecord_eq_ok.mp handled
    obtain ⟨completed, rfl⟩ := completed_handles still later handles rfl
    rcases ends_handles still goesOn handles with ⟨_, isOver⟩ | ⟨impossible, _⟩
    · have all := upTo.append (.cons whole handled .nil)
      have completes : CompletesAt started before read := by
        refine ⟨_, [] ++ answers script ++ answer, { session with endpoint, inbox, pending := [] },
          ?_, ?_, all, completed, rfl⟩
        · rw [now]
          exact received
        · dsimp only at rest ⊢
          rw [octets, rest, ← List.append_assoc, stream_append (done ++ script), stream_cons,
            stream_nil, List.append_nil]
      exact .ended (sound_handles still handles) isOver rfl completes count
    · cases impossible
  | malformed found =>
    rw [completes_stop] at count
    exact .failed (failed_of_stop ..) (by rw [count]; exact Nat.zero_le 1)
  | refused found refused =>
    rw [completes_stop] at count
    exact .failed (failed_of_stop ..) (by rw [count]; exact Nat.zero_le 1)

/-- Every read leads from where a session stands to where it stands then. -/
theorem stands_receive {started : Session G} {before : List Octets} (read : Octets)
    (stands : Stands started before (started.receiveAll before).1 (started.receiveAll before).2) :
    Stands started (before ++ [read]) (started.receiveAll (before ++ [read])).1
      (started.receiveAll (before ++ [read])).2 := by
  rw [receiveAll_concat]
  generalize now : started.receiveAll before = result at stands ⊢
  obtain ⟨outcomes, session⟩ := result
  dsimp only at stands ⊢
  have count := Outcome.countP_completes outcomes (session.receive read).1
  cases stands with
  | running sound running arrived takes history never =>
    exact stands_of_running read now sound running arrived takes history never
  | @ended earlier after last sound isOver split completes once =>
    obtain ⟨silent, ends⟩ := receive_of_over sound isOver read
    rw [silent, once] at count
    rcases ends with ⟨still, isOver⟩ | failed
    · have later : before ++ [read] = earlier ++ last :: (after ++ [read]) := by
        rw [split, List.append_assoc, List.cons_append]
      exact .ended still isOver later completes count
    · exact .failed failed (Nat.le_of_eq count)
  | failed failed once =>
    have silent : (session.receive read).1.completes = false := by
      rw [receive_of_failed failed]
      rfl
    rw [silent] at count
    exact .failed (failed_receive failed read) (Nat.le_trans (Nat.le_of_eq count) once)

/-- A handshake is completed by one read at most. If it is completed, then what was received by then
are the records of one whole handshake, with nothing left out, early, repeated or in between. -/
theorem handshake_completes_once {session started : Session G} {records : Octets}
    (reachable : session.Reachable) (begun : session.start = (.ok records, started))
    (reads : List Octets) : (started.receiveAll reads).1.countP Outcome.completes ≤ 1 ∧
      ((started.receiveAll reads).2.isEstablished = true → ∃ before read after,
        reads = before ++ read :: after ∧ CompletesAt started before read) := by
  obtain ⟨fresh, endpoint, begins, rfl⟩ := start_eq_ok.mp begun
  have orderly : session.Orderly := by
    refine reachable.orderly.resolve_right fun failed => ?_
    cases fresh.symm.trans failed
  obtain ⟨inbox, pending⟩ := orderly.fresh fresh
  obtain ⟨sound, running⟩ := running_of_begins orderly.endpoint fresh begins
  have stands : ∀ reads, Stands { session with endpoint } reads
      (({ session with endpoint } : Session G).receiveAll reads).1
      (({ session with endpoint } : Session G).receiveAll reads).2 := by
    intro reads
    induction reads using List.reverseRecOn with
    | nil =>
      have arrived : List.flatten [] = stream [] ++ session.inbox := by
        rw [inbox]
        rfl
      have takes : Takes endpoint [] [] endpoint session.pending := by
        rw [pending]
        exact .nil
      have history : History endpoint [] endpoint session.pending := by
        rw [pending]
        exact history_of_begins begins
      exact .running sound running arrived takes history rfl
    | append_singleton before read ih => exact stands_receive read ih
  have last := stands reads
  generalize ({ session with endpoint } : Session G).receiveAll reads = result at last ⊢
  cases last with
  | running sound running arrived takes history never =>
    refine ⟨by rw [never]; exact Nat.zero_le 1, fun isOver => ?_⟩
    rw [isEstablished, running] at isOver
    cases isOver
  | ended sound isOver split completes once =>
    exact ⟨Nat.le_of_eq once, fun _ => ⟨_, _, _, split, completes⟩⟩
  | failed failed once =>
    refine ⟨once, fun isOver => ?_⟩
    rw [isEstablished, failed] at isOver
    cases isOver

/-- A rehearsed handshake is completed by a read. -/
theorem handshake_completes_once_rehearsal : ∃ records started octets,
    Rehearsal.server.Reachable ∧ Rehearsal.server.start = (.ok records, started) ∧
      (started.receiveAll [octets]).1.countP Outcome.completes ≤ 1 ∧
      ∃ before read after, [octets] = before ++ read :: after ∧
        CompletesAt started before read := by
  obtain ⟨_, _, _, _, octets, _, rfl, _, _, agree, _⟩ := Rehearsal.pairing.exists_agreed
  obtain ⟨_, _, made⟩ := Rehearsal.pairing.serverMade
  have reachable : Rehearsal.server.Reachable := ⟨Rehearsal.server, .server made, .refl⟩
  have begun : Rehearsal.server.start = (.ok [], Rehearsal.server.start.2) := by
    rw [server_start made]
  obtain ⟨once, completes⟩ := handshake_completes_once reachable begun [octets]
  exact ⟨[], Rehearsal.server.start.2, octets, reachable, begun, once,
    completes (decide_eq_true agree.serverOver)⟩

end Session

end TransportSecurity
