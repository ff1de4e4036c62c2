import TransportSecurity.Proofs.Session.Outcomes

/-!
What is received does not depend on what has been sent.

After its handshake a session may send between the octets that it receives. Sending uses up record
numbers and random octets of its own and changes nothing else (`Session.send_frame`), and whoever
receives looks at neither: a step that is `Blind` to a change of the state does the same with the
changed one. So an endpoint takes the same records (`Endpoint.Takes.renumbered`), and a stream comes
to the same (`Session.ComesTo.of_renumbered`).
-/

namespace TransportSecurity

/-- A program does the same with a changed state, and leaves it changed in the same way. -/
structure Blind {ε σ α : Type} (change : σ → σ) (program : EStateM ε σ α) (s : σ) : Prop where
  ok : ∀ {a : α} {t : σ}, program s = .ok a t → program (change s) = .ok a (change t)
  error : ∀ {e : ε} {t : σ}, program s = .error e t → program (change s) = .error e (change t)

namespace Blind

variable {ε σ α β : Type} {change : σ → σ} {s : σ}

theorem pure (a : α) : Blind change (Pure.pure a : EStateM ε σ α) s where
  ok := by rintro _ _ ⟨⟩; rfl
  error := by rintro _ _ ⟨⟩

theorem throw (e : ε) : Blind change (throw e : EStateM ε σ α) s where
  ok := by rintro _ _ ⟨⟩
  error := by rintro _ _ ⟨⟩; rfl

theorem result (x : Except ε α) : Blind change (ofExcept x : EStateM ε σ α) s := by
  cases x with
  | ok a => exact pure a
  | error e => exact throw e

theorem bind {program : EStateM ε σ α} {next : α → EStateM ε σ β}
    (first : Blind change program s)
    (later : ∀ a t, program s = .ok a t → Blind change (next a) t) :
    Blind change (program >>= next) s where
  ok done := by
    obtain ⟨a, t, began, done⟩ := bind_eq_ok.mp done
    exact bind_eq_ok.mpr ⟨a, _, first.ok began, (later a t began).ok done⟩
  error failed := by
    rcases bind_eq_error.mp failed with failed | ⟨a, t, began, failed⟩
    · exact bind_of_error (first.error failed)
    · exact bind_eq_error.mpr (Or.inr ⟨a, _, first.ok began, (later a t began).error failed⟩)

/-- A program may give up first. -/
theorem guard {c : Prop} [Decidable c] {e : ε} {next : PUnit → EStateM ε σ α}
    (later : Blind change (next ⟨⟩) s) :
    Blind change (if c then next ⟨⟩ else do next (← MonadExcept.throw e)) s := by
  split
  · exact later
  · exact .bind (.throw e) (by rintro _ _ ⟨⟩)

/-- What a program reads of its state may not be what is changed. -/
theorem get_bind {next : σ → EStateM ε σ β} (same : next (change s) = next s)
    (later : Blind change (next s) s) : Blind change (get >>= next) s where
  ok done := by
    rw [TransportSecurity.get_bind] at done ⊢
    rw [same]
    exact later.ok done
  error failed := by
    rw [TransportSecurity.get_bind] at failed ⊢
    rw [same]
    exact later.error failed

/-- A change that the program makes itself has to be one apart from it. -/
theorem modify {f : σ → σ} (apart : f (change s) = change (f s)) :
    Blind change (modify f : EStateM ε σ PUnit) s where
  ok := by
    rintro _ _ ⟨⟩
    exact congrArg (EStateM.Result.ok PUnit.unit) apart
  error := by rintro _ _ ⟨⟩

end Blind

namespace Endpoint

variable {G : Type} {e f : Endpoint G} {p q inbox : Octets} {script : List Handled}
  {header : Record.Header} {record : Octets} {error : Error}

/-- An endpoint that has sent, or has not sent. -/
def renumber (sendNumber : UInt64) (source : G) (e : Endpoint G) : Endpoint G :=
  { e with sendNumber, source }

variable (sendNumber : UInt64) (source : G)

theorem blind_open? : Blind (renumber sendNumber source) (open? header record) e := by
  refine .get_bind rfl ?_
  dsimp only
  split
  · exact .bind (.result _) fun _ _ _ => .bind (.modify rfl) fun _ _ _ => .pure _
  · exact .throw _
  · split
    · exact .throw _
    · exact .pure _

theorem blind_protectReceiving : Blind (renumber sendNumber source) protectReceiving e := by
  refine .get_bind rfl ?_
  split
  · exact .throw _
  · exact .modify rfl

theorem blind_receiveChange : Blind (renumber sendNumber source) receiveChange e := by
  refine .get_bind rfl ?_
  split
  · unfold Client.receiveChange
    split
    · exact .bind (blind_protectReceiving ..) fun _ _ _ => .modify rfl
    · exact .throw _
  · unfold Server.receiveChange
    split
    · exact .bind (blind_protectReceiving ..) fun _ _ _ => .modify rfl
    · exact .throw _

variable [Entropy G]

/-- After its handshake an endpoint handles a record no matter what it has sent. -/
theorem blind_receiveRecord (isOver : e.stage = .established) :
    Blind (renumber sendNumber source) (receiveRecord header record p) e := by
  refine .bind (blind_open? ..) fun content t opened => ?_
  obtain ⟨_, rfl⟩ := open?_frame opened
  split
  · refine .bind (.result _) fun _ _ _ => .guard ?_
    exact .bind (blind_receiveChange ..) fun _ _ _ => .pure _
  · exact .bind (.result _) fun _ _ _ => .throw _
  · exact .get_bind rfl (.guard (.pure _))
  · refine .get_bind rfl ?_
    rw [if_pos isOver]
    exact .bind (.throw _) (by rintro _ _ ⟨⟩)

/-- After its handshake an endpoint takes the same records no matter what it has sent. -/
theorem Takes.renumbered (takes : Takes e p script f q) (sound : e.Sound)
    (isOver : e.stage = .established) : Takes (renumber sendNumber source e) p script
      (renumber sendNumber source f) q := by
  induction takes with
  | nil => exact .nil
  | cons whole handled later ih =>
    have handles := receiveRecord_eq_ok.mp handled
    obtain ⟨_, _, _, _, _, _, _, _, rfl⟩ := handles_established sound isOver handles
    exact .cons whole ((blind_receiveRecord sendNumber source isOver).ok handled)
      (ih (sound_handles sound handles) isOver)

/-- After its handshake an endpoint refuses the same octets no matter what it has sent. -/
theorem Refuses.renumbered (refuses : Refuses e p inbox error f) (isOver : e.stage = .established) :
    Refuses (renumber sendNumber source e) p inbox error (renumber sendNumber source f) := by
  cases refuses with
  | malformed found => exact .malformed found
  | refused found refused =>
    exact .refused found ((blind_receiveRecord sendNumber source isOver).error refused)

end Endpoint

namespace Session

open Endpoint

variable {G : Type} [Entropy G] {session : Session G} {octets : Octets} {script : List Handled}
  {failure : Option Failure} {last : Session G}

/-- A session that has sent, or has not sent. -/
def renumber (sendNumber : UInt64) (source : G) (session : Session G) : Session G :=
  { session with endpoint := session.endpoint.renumber sendNumber source }

omit [Entropy G] in
theorem Idle.renumbered (idle : session.Idle) (sendNumber : UInt64) (source : G) :
    (session.renumber sendNumber source).Idle :=
  ⟨⟨idle.ready.sound, idle.ready.active, idle.ready.deferred, idle.ready.waits⟩, idle.isOver,
    idle.nothing⟩

/-- After its handshake a session makes the same of a stream no matter what it has sent. -/
theorem ComesTo.renumbered (comes : ComesTo session octets script failure last)
    (sendNumber : UInt64) (source : G) (sound : session.endpoint.Sound)
    (isOver : session.endpoint.stage = .established) :
    ComesTo (session.renumber sendNumber source) octets script failure
      (last.renumber sendNumber source) := by
  cases comes with
  | waits arrived takes nothing =>
    exact .waits arrived (takes.renumbered sendNumber source sound isOver) nothing
  | fails arrived takes refuses =>
    exact .fails arrived (takes.renumbered sendNumber source sound isOver)
      (refuses.renumbered sendNumber source (takes.stays_over sound isOver).1)

end Session

end TransportSecurity
