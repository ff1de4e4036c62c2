import TransportSecurity.Proofs.Session.Dispatch
import TransportSecurity.Proofs.Session.Records

/-!
What an endpoint has at each point of the handshake.

The phase of a role fixes the `Shape` of its endpoint: the stage, how many messages the transcript
holds, which of randoms and secrets there are, which directions are protected, and whether the
server's key is known. `Endpoint.Sound` says that an endpoint has the shape of its phase. Every
handler keeps it, and so does every record.
-/

namespace TransportSecurity

/-- What there is of an endpoint, without the values. -/
structure Shape where
  stage : Stage
  messages : Option Nat := none
  clientRandom : Bool := false
  serverRandom : Bool := false
  secrets : Bool := false
  sends : Bool := false
  receives : Bool := false
  serverKey : Bool := false
  deriving DecidableEq

/-- The shape of an endpoint whose handshake is over. Only a client knows the server's key. -/
def Shape.done (side : End) : Shape :=
  ⟨.established, none, true, true, true, true, true, side = .client⟩

/-- The shape that the phase of a client asks for. -/
def ClientPhase.shape : ClientPhase → Shape
  | .idle => { stage := .initial }
  | .serverHello => { stage := .handshaking, messages := some 1, clientRandom := true }
  | .certificate =>
    { stage := .handshaking, messages := some 2, clientRandom := true, serverRandom := true }
  | .serverHelloDone => ⟨.handshaking, some 3, true, true, false, false, false, true⟩
  | .changeCipherSpec => ⟨.handshaking, some 6, true, true, true, true, false, true⟩
  | .finished => ⟨.handshaking, some 6, true, true, true, true, true, true⟩
  | .done => .done .client

/-- The shape that the phase of a server asks for. -/
def ServerPhase.shape : ServerPhase → Shape
  | .idle => { stage := .initial }
  | .clientHello => { stage := .handshaking, messages := some 0 }
  | .clientKeyExchange =>
    { stage := .handshaking, messages := some 4, clientRandom := true, serverRandom := true }
  | .changeCipherSpec => ⟨.handshaking, some 5, true, true, true, false, false, false⟩
  | .finished => ⟨.handshaking, some 5, true, true, true, false, true, false⟩
  | .done => .done .server

namespace Role

/-- The shape that the phase of a role asks for. -/
def shape : Role → Shape
  | .client _ phase => phase.shape
  | .server _ phase => phase.shape

/-- Only the last phase is established. -/
theorem shape_eq_done {role : Role} (isOver : role.shape.stage = .established) :
    role.shape = .done role.side := by
  cases role with
  | client settings phase => cases phase <;> first | rfl | cases isOver
  | server settings phase => cases phase <;> first | rfl | cases isOver

/-- Only the phase before the handshake is initial. -/
theorem shape_eq_idle {role : Role} (fresh : role.shape.stage = .initial) :
    role.shape = { stage := .initial } := by
  cases role with
  | client settings phase => cases phase <;> first | rfl | cases fresh
  | server settings phase => cases phase <;> first | rfl | cases fresh

theorem shape_idle (role : Role) : role.idle.shape = { stage := .initial } := by
  cases role <;> rfl

theorem idle_idle (role : Role) : role.idle.idle = role.idle := by
  cases role <;> rfl

/-- No phase is failed. -/
theorem shape_stage_ne_failed (role : Role) : role.shape.stage ≠ .failed := by
  cases role with
  | client settings phase => cases phase <;> exact Stage.noConfusion
  | server settings phase => cases phase <;> exact Stage.noConfusion

end Role

/-- What a role waits for, and what it waits for once it has that message. -/
inductive Advances : Role → Role → Prop
  | serverHello (settings : ClientSettings) :
    Advances (.client settings .serverHello) (.client settings .certificate)
  | certificates (settings : ClientSettings) :
    Advances (.client settings .certificate) (.client settings .serverHelloDone)
  | serverHelloDone (settings : ClientSettings) :
    Advances (.client settings .serverHelloDone) (.client settings .changeCipherSpec)
  | serverFinished (settings : ClientSettings) :
    Advances (.client settings .finished) (.client settings .done)
  | clientHello (settings : ServerSettings) :
    Advances (.server settings .clientHello) (.server settings .clientKeyExchange)
  | clientKeyExchange (settings : ServerSettings) :
    Advances (.server settings .clientKeyExchange) (.server settings .changeCipherSpec)
  | clientFinished (settings : ServerSettings) :
    Advances (.server settings .finished) (.server settings .done)

theorem Advances.active {role next : Role} (advances : Advances role next) :
    next.shape.stage = .handshaking ∨ next.shape.stage = .established := by
  cases advances <;> simp [Role.shape, ClientPhase.shape, ServerPhase.shape, Shape.done]

namespace Endpoint

variable {G : Type}

/-- What an endpoint is after a step, whether it succeeds or not. -/
def after {α : Type} (step : Step G α) (e : Endpoint G) : Endpoint G :=
  match step e with
  | .ok _ f => f
  | .error _ f => f

/-- The shape of an endpoint. -/
def shape (e : Endpoint G) : Shape where
  stage := e.stage
  messages := e.transcript.map fun transcript => transcript.messages.length
  clientRandom := e.clientRandom.isSome
  serverRandom := e.serverRandom.isSome
  secrets := e.secrets.isSome
  sends := e.sendProtected
  receives := e.receiveProtected
  serverKey := e.serverKey.isSome

/-- An endpoint has what its phase asks for. -/
def Sound (e : Endpoint G) : Prop := e.shape = e.role.shape

variable {e f : Endpoint G}

theorem Sound.stage (sound : e.Sound) : e.stage = e.role.shape.stage := congrArg Shape.stage sound

theorem Sound.sends (sound : e.Sound) : e.sendProtected = e.role.shape.sends :=
  congrArg Shape.sends sound

theorem Sound.receives (sound : e.Sound) : e.receiveProtected = e.role.shape.receives :=
  congrArg Shape.receives sound

theorem Sound.secrets (sound : e.Sound) : e.secrets.isSome = e.role.shape.secrets :=
  congrArg Shape.secrets sound

theorem Sound.serverKey (sound : e.Sound) : e.serverKey.isSome = e.role.shape.serverKey :=
  congrArg Shape.serverKey sound

/-- Once the handshake is over there are keys, and both directions are protected. -/
theorem Sound.established (sound : e.Sound) (isOver : e.stage = .established) :
    e.role.shape = .done e.role.side ∧ e.secrets.isSome = true ∧ e.sendProtected = true ∧
      e.receiveProtected = true := by
  have shape := Role.shape_eq_done (sound.stage.symm.trans isOver)
  rw [sound.secrets, sound.sends, sound.receives, shape]
  exact ⟨rfl, rfl, rfl, rfl⟩

section Encoding

variable [Entropy G]

/-- Encoding uses up numbers and random octets, and changes nothing else, also when it fails. -/
theorem after_encode (type : ContentType) (payload : Octets) (e : Endpoint G) :
    ∃ sendNumber source, { e with sendNumber, source } = after (encode type payload) e := by
  obtain ⟨role, stage, suite, sends, receives, sent, received, transcript, client, server, secrets,
    serverKey, source⟩ := e
  cases sends with
  | false =>
    rw [after, encode_clear rfl]
    exact ⟨sent, source, rfl⟩
  | true =>
    cases secrets with
    | none => exact ⟨sent, source, rfl⟩
    | some secrets =>
      rw [after, encode_protected rfl rfl, withSealer]
      cases Record.protect (secrets.keys.writer role.side) type payload ⟨sent, source⟩ with
      | ok _ sealer => exact ⟨sealer.number, sealer.source, rfl⟩
      | error _ sealer => exact ⟨sealer.number, sealer.source, rfl⟩

theorem encode_frame {type : ContentType} {payload records : Octets}
    (encodes : encode type payload e = .ok records f) :
    ∃ sendNumber source, { e with sendNumber, source } = f := by
  have ends := after_encode type payload e
  rw [after, encodes] at ends
  exact ends

theorem encode_frame_of_error {type : ContentType} {payload : Octets} {error : Error}
    (failed : encode type payload e = .error error f) :
    ∃ sendNumber source, { e with sendNumber, source } = f := by
  have ends := after_encode type payload e
  rw [after, failed] at ends
  exact ends

/-- The hello of a client that has just begun leaves it sound. -/
theorem sound_sendHello {settings : ClientSettings} {records : Octets}
    (begun : e.shape = { stage := .handshaking, messages := some 0 })
    (sent : Client.sendHello settings e = .ok records f) : f.Sound := by
  obtain ⟨random, source, message, messages, _, _, found, next, encodes⟩ :=
    Client.sendHello_eq_ok.mp sent
  obtain ⟨_, _, rfl⟩ := encode_frame encodes
  simp only [shape, Shape.mk.injEq] at begun
  simp only [Sound, shape, Role.shape, ClientPhase.shape, begun]
  simp [next, Slot.place]

/-- Every message advances the role and leaves the endpoint sound. -/
theorem advances_answers {message records : Octets} (sound : e.Sound)
    (answers : Answers message e records f) : Advances e.role f.role ∧ f.Sound := by
  cases answers with
  | serverHello waits took =>
    obtain ⟨hello, messages, _, _, _, found, next, rfl⟩ := Client.receiveHello_eq_ok.mp took
    refine ⟨by rw [waits]; exact .serverHello _, ?_⟩
    simp only [Sound, shape, waits, Role.shape, ClientPhase.shape, Shape.mk.injEq] at sound ⊢
    simp [sound, next, Slot.place]
  | certificates waits took =>
    obtain ⟨_, _, _, _, messages, _, _, _, found, next, rfl⟩ :=
      Client.receiveCertificate_eq_ok.mp took
    refine ⟨by rw [waits]; exact .certificates _, ?_⟩
    simp only [Sound, shape, waits, Role.shape, ClientPhase.shape, Shape.mk.injEq] at sound ⊢
    simp [sound, next, Slot.place]
  | serverHelloDone waits exchanged finished =>
    have clear : e.sendProtected = false := by rw [sound.sends, waits]; rfl
    obtain ⟨messages, _, work, made, rfl, _⟩ := (Client.sendExchange_eq_ok clear).mp exchanged
    obtain ⟨_, _, _, _, filled, last, _, _, encodes, rfl⟩ := Client.sendFinished_eq_ok.mp finished
    obtain ⟨_, _, rfl⟩ := encode_frame encodes
    cases filled
    refine ⟨by rw [waits]; exact .serverHelloDone _, ?_⟩
    simp only [Sound, shape, waits, Role.shape, ClientPhase.shape, Shape.mk.injEq] at sound ⊢
    simp [sound, made.next, Slot.place]
  | serverFinished waits took =>
    obtain ⟨_, _, _, known, _, rfl⟩ := Client.receiveFinished_eq_ok.mp took
    refine ⟨by rw [waits]; exact .serverFinished _, ?_⟩
    simp only [Sound, shape, waits, Role.shape, ClientPhase.shape, Shape.mk.injEq] at sound ⊢
    simp [sound, Shape.done]
  | clientHello waits took =>
    have clear : e.sendProtected = false := by rw [sound.sends, waits]; rfl
    obtain ⟨messages, work, made, rfl, _⟩ := (Server.receiveHello_eq_ok clear).mp took
    refine ⟨by rw [waits]; exact .clientHello _, ?_⟩
    simp only [Sound, shape, waits, Role.shape, ServerPhase.shape, Shape.mk.injEq] at sound ⊢
    simp [sound, made.next, Slot.place]
  | clientKeyExchange waits took =>
    obtain ⟨_, _, messages, _, _, _, _, _, _, found, next, _, _, _, _, rfl⟩ :=
      Server.receiveKeyExchange_eq_ok.mp took
    refine ⟨by rw [waits]; exact .clientKeyExchange _, ?_⟩
    simp only [Sound, shape, waits, Role.shape, ServerPhase.shape, Shape.mk.injEq] at sound ⊢
    simp [sound, next, Slot.place]
  | clientFinished waits took =>
    have clear : e.sendProtected = false := by rw [sound.sends, waits]; rfl
    obtain ⟨messages, work, sent, made, rfl, _⟩ := (Server.receiveFinished_eq_ok clear).mp took
    have known := made.known
    obtain ⟨_, _, rfl⟩ := encode_frame made.encodes
    refine ⟨by rw [waits]; exact .clientFinished _, ?_⟩
    simp only [Sound, shape, waits, Role.shape, ServerPhase.shape, Shape.mk.injEq] at sound ⊢
    simp [sound, Shape.done]

omit [Entropy G] in
/-- The other end's change leaves an endpoint sound. -/
theorem sound_receiveChange {u : Unit} (sound : e.Sound) (changed : receiveChange e = .ok u f) :
    f.Sound := by
  obtain ⟨known, role, changes, rfl⟩ := receiveChange_eq_ok.mp changed
  cases waits : e.role with
  | client settings phase =>
    rw [waits] at changes
    cases changes with
    | client =>
      simp only [Sound, shape, waits, Role.shape, ClientPhase.shape, Shape.mk.injEq] at sound ⊢
      simp [sound]
  | server settings phase =>
    rw [waits] at changes
    cases changes with
    | server =>
      simp only [Sound, shape, waits, Role.shape, ServerPhase.shape, Shape.mk.injEq] at sound ⊢
      simp [sound]

omit [Entropy G] in
/-- Taking the protection off a record uses up its number, and changes nothing else. -/
theorem open?_frame {header : Record.Header} {record content : Octets}
    (opened : open? header record e = .ok content f) :
    ∃ receiveNumber, { e with receiveNumber } = f := by
  rcases open?_eq_ok.mp opened with ⟨_, number, _, _, _, _, rfl⟩ | ⟨_, _, _, rfl⟩
  · exact ⟨number, rfl⟩
  · exact ⟨e.receiveNumber, rfl⟩

omit [Entropy G] in
theorem sound_open? {header : Record.Header} {record content : Octets} (sound : e.Sound)
    (opened : open? header record e = .ok content f) : f.Sound := by
  obtain ⟨_, rfl⟩ := open?_frame opened
  exact sound

theorem sound_collects {records pending left : Octets} {progress : Progress} (sound : e.Sound)
    (collects : Collects records pending e progress left f) : f.Sound := by
  induction collects with
  | waits nothing => exact sound
  | completes found took isOver => exact (advances_answers sound (receiveMessage_eq_ok.mp took)).2
  | goesOn found took unfinished later ih =>
    exact ih (advances_answers sound (receiveMessage_eq_ok.mp took)).2

/-- Every record leaves an endpoint sound. -/
theorem sound_handles {header : Record.Header} {record pending left : Octets}
    {progress : Progress} (sound : e.Sound)
    (handles : Handles header record pending e progress left f) : f.Sound := by
  cases handles with
  | change type opened announces nothing changed =>
    exact sound_receiveChange (sound_open? sound opened) changed
  | data type opened isOver => exact sound_open? sound opened
  | messages type opened unfinished collects =>
    exact sound_collects (sound_open? sound opened) collects

/-- Messages end the handshake exactly if they are the last that the role waits for. -/
theorem ends_collects {records pending left : Octets} {progress : Progress} (sound : e.Sound)
    (running : e.stage = .handshaking) (collects : Collects records pending e progress left f) :
    (progress.ends = true ∧ f.stage = .established) ∨
      (progress.ends = false ∧ f.stage = .handshaking) := by
  induction collects with
  | waits nothing => exact Or.inr ⟨rfl, running⟩
  | completes found took isOver => exact Or.inl ⟨rfl, isOver⟩
  | goesOn found took unfinished later ih =>
    obtain ⟨advances, sound⟩ := advances_answers sound (receiveMessage_eq_ok.mp took)
    have active := advances.active
    rw [← sound.stage] at active
    exact ih sound (active.resolve_right unfinished)

/-- While the handshake goes on, a record either ends it or leaves it going on. -/
theorem ends_handles {header : Record.Header} {record pending left : Octets} {progress : Progress}
    (sound : e.Sound) (running : e.stage = .handshaking)
    (handles : Handles header record pending e progress left f) :
    (progress.ends = true ∧ f.stage = .established) ∨
      (progress.ends = false ∧ f.stage = .handshaking) := by
  cases handles with
  | change type opened announces nothing changed =>
    obtain ⟨_, rfl⟩ := open?_frame opened
    obtain ⟨_, _, _, rfl⟩ := receiveChange_eq_ok.mp changed
    exact Or.inr ⟨rfl, running⟩
  | data type opened isOver =>
    obtain ⟨_, rfl⟩ := open?_frame opened
    cases running.symm.trans isOver
  | messages type opened unfinished collects =>
    refine ends_collects (sound_open? sound opened) ?_ collects
    obtain ⟨_, rfl⟩ := open?_frame opened
    exact running

/-- Once the handshake is over a record is taken only as data that its protection holds. -/
theorem handles_established {header : Record.Header} {record pending left : Octets}
    {progress : Progress} (sound : e.Sound) (isOver : e.stage = .established)
    (handles : Handles header record pending e progress left f) : ∃ content secrets number,
      header.type = .applicationData ∧ e.secrets = some secrets ∧
      Record.unprotect (secrets.keys.writer e.role.side.peer) e.receiveNumber record =
        .ok (content, number) ∧
      progress = .data content ∧ left = pending ∧ { e with receiveNumber := number } = f := by
  obtain ⟨done, _, _, change⟩ := sound.established isOver
  cases handles with
  | change type opened announces nothing changed =>
    obtain ⟨_, rfl⟩ := open?_frame opened
    obtain ⟨_, _, changes, _⟩ := receiveChange_eq_ok.mp changed
    generalize e.role = role at changes done
    cases changes <;> cases done
  | @data content _ type opened =>
    rcases open?_eq_ok.mp opened with ⟨secrets, number, known, _, _, opens, rfl⟩ | ⟨clear, _⟩
    · exact ⟨content, secrets, number, type, known, opens, rfl, rfl, rfl⟩
    · simp [change, isClearAlert, type] at clear
  | messages type opened unfinished collects =>
    obtain ⟨_, rfl⟩ := open?_frame opened
    exact (unfinished isOver).elim

/-- Every row of records leaves an endpoint sound. -/
theorem Takes.sound {p q : Octets} {script : List Handled} (takes : Takes e p script f q)
    (sound : e.Sound) : f.Sound := by
  induction takes with
  | nil => exact sound
  | cons whole handled later ih => exact ih (sound_handles sound (receiveRecord_eq_ok.mp handled))

/-- A session that is not new and has not failed stays so. -/
theorem active_handles {header : Record.Header} {record pending left : Octets}
    {progress : Progress} (sound : e.Sound)
    (active : e.stage = .handshaking ∨ e.stage = .established)
    (handles : Handles header record pending e progress left f) :
    f.stage = .handshaking ∨ f.stage = .established := by
  rcases active with running | isOver
  · rcases ends_handles sound running handles with ⟨_, isOver⟩ | ⟨_, running⟩
    · exact Or.inr isOver
    · exact Or.inl running
  · obtain ⟨_, _, _, _, _, _, _, _, rfl⟩ := handles_established sound isOver handles
    exact Or.inr isOver

theorem Takes.active {p q : Octets} {script : List Handled} (takes : Takes e p script f q)
    (sound : e.Sound) (active : e.stage = .handshaking ∨ e.stage = .established) :
    f.stage = .handshaking ∨ f.stage = .established := by
  induction takes with
  | nil => exact active
  | cons whole handled later ih =>
    have handles := receiveRecord_eq_ok.mp handled
    exact ih (sound_handles sound handles) (active_handles sound active handles)

/-- Records that do not end the handshake leave it going on. -/
theorem Takes.running {p q : Octets} {script : List Handled} (takes : Takes e p script f q)
    (sound : e.Sound) (running : e.stage = .handshaking) (opened : Handled.Open script) :
    f.stage = .handshaking := by
  induction takes with
  | nil => exact running
  | cons whole handled later ih =>
    have handles := receiveRecord_eq_ok.mp handled
    obtain ⟨goesOn, opened⟩ := (Handled.open_cons_iff ..).mp opened
    rcases ends_handles sound running handles with ⟨ends, _⟩ | ⟨_, running⟩
    · cases goesOn.symm.trans ends
    · exact ih (sound_handles sound handles) running opened

/-- Once the handshake is over it stays over. -/
theorem Takes.stays_over {p q : Octets} {script : List Handled} (takes : Takes e p script f q)
    (sound : e.Sound) (isOver : e.stage = .established) :
    f.stage = .established ∧ Handled.Open script := by
  induction takes with
  | nil => exact ⟨isOver, Handled.open_nil⟩
  | cons whole handled later ih =>
    have handles := receiveRecord_eq_ok.mp handled
    obtain ⟨content, _, _, _, _, _, rfl, _, rfl⟩ := handles_established sound isOver handles
    obtain ⟨isOver, opened⟩ := ih (sound_handles sound handles) isOver
    exact ⟨isOver, (Handled.open_cons_iff ..).mpr ⟨rfl, opened⟩⟩

/-- What holds of an endpoint and of all that it has asked to send, and stays so whatever it
takes. -/
structure Kept (holds : Octets → Endpoint G → Prop) : Prop where
  opened : ∀ {s e} receiveNumber, holds s e → holds s { e with receiveNumber }
  changed : ∀ {s e f}, e.Sound → holds s e → receiveChange e = .ok () f → holds s f
  answered : ∀ {s e message records f}, e.Sound → holds s e → Answers message e records f →
    holds (s ++ records) f

namespace Kept

variable {holds : Octets → Endpoint G → Prop}

theorem collects (kept : Kept holds) {s records pending left : Octets} {progress : Progress}
    (sound : e.Sound) (before : holds (s ++ records) e)
    (collects : Collects records pending e progress left f) :
    holds (s ++ progress.answer) f := by
  induction collects with
  | waits nothing => exact before
  | completes found took isOver =>
    have after := kept.answered sound before (receiveMessage_eq_ok.mp took)
    rwa [List.append_assoc] at after
  | goesOn found took unfinished later ih =>
    have answers := receiveMessage_eq_ok.mp took
    have after := kept.answered sound before answers
    rw [List.append_assoc] at after
    exact ih (advances_answers sound answers).2 after

theorem handles (kept : Kept holds) {header : Record.Header} {s record pending left : Octets}
    {progress : Progress} (sound : e.Sound) (before : holds s e)
    (handles : Handles header record pending e progress left f) :
    holds (s ++ progress.answer) f := by
  have opens : ∀ {content : Octets} {g : Endpoint G}, open? header record e = .ok content g →
      g.Sound ∧ holds (s ++ []) g := by
    intro content g opened
    obtain ⟨number, rfl⟩ := open?_frame opened
    rw [List.append_nil]
    exact ⟨sound, kept.opened number before⟩
  cases handles with
  | change type opened announces nothing changed =>
    exact kept.changed (opens opened).1 (opens opened).2 changed
  | data type opened isOver => exact (opens opened).2
  | messages type opened unfinished collects =>
    exact kept.collects (opens opened).1 (opens opened).2 collects

/-- What every step keeps is kept by every row of records. -/
theorem takes (kept : Kept holds) {s p q : Octets} {script : List Handled}
    (takes : Takes e p script f q) (sound : e.Sound) (before : holds s e) :
    holds (s ++ Handled.answers script) f := by
  induction takes generalizing s with
  | nil =>
    rw [Handled.answers_nil, List.append_nil]
    exact before
  | cons whole handled later ih =>
    have handles := receiveRecord_eq_ok.mp handled
    have after := ih (sound_handles sound handles) (kept.handles sound before handles)
    rwa [List.append_assoc] at after

end Kept

end Encoding

end Endpoint

end TransportSecurity
