import TransportSecurity.Proofs.Session.Reachable

/-!
What was decided beforehand stays as it is.

Handlers name the settings that they enter the next phase with, so it takes a proof that these are
the settings the session was made with, also after a step that failed half way.
-/

namespace TransportSecurity

namespace Endpoint

variable {G : Type}

/-- A step after which a role has the settings it had, whether the step succeeds or fails. -/
def Keeps {α : Type} (idle : Role) (step : Step G α) : Prop :=
  ∀ e : Endpoint G, e.role.idle = idle → (after step e).role.idle = idle

section Steps

variable {α β : Type} {idle : Role}

theorem Keeps.of_eq_ok {step : Step G α} {e f : Endpoint G} {a : α} (keeps : Keeps e.role.idle step)
    (made : step e = .ok a f) : f.role.idle = e.role.idle := by
  have kept := keeps e rfl
  rw [after, made] at kept
  exact kept

@[simp] theorem keeps_pure (a : α) : Keeps idle (pure a : Step G α) := fun _ same => same

@[simp] theorem keeps_throw (error : Error) : Keeps idle (throw error : Step G α) :=
  fun _ same => same

@[simp] theorem keeps_ofExcept (result : Except Error α) :
    Keeps idle (ofExcept result : Step G α) := by
  cases result <;> exact fun _ same => same

@[simp] theorem keeps_bind {step : Step G α} {next : α → Step G β} (first : Keeps idle step)
    (later : ∀ a, Keeps idle (next a)) : Keeps idle (step >>= next) := by
  intro e same
  have between := first e same
  cases made : step e with
  | error error f =>
    rw [after, made] at between
    rw [after, bind_of_error made]
    exact between
  | ok a f =>
    rw [after, made] at between
    rw [after, bind_of_ok made]
    exact later a f between

/-- What comes after reading the endpoint may count on its settings. -/
theorem keeps_get {next : Endpoint G → Step G β}
    (later : ∀ e, e.role.idle = idle → Keeps idle (next e)) : Keeps idle (get >>= next) :=
  fun e same => later e same e same

@[simp] theorem keeps_getting : Keeps idle (get : Step G (Endpoint G)) := fun _ same => same

@[simp] theorem keeps_ite {c : Prop} [Decidable c] {first second : Step G α}
    (yes : Keeps idle first) (no : Keeps idle second) :
    Keeps idle (if c then first else second) := by
  split <;> assumption

theorem keeps_modify {change : Endpoint G → Endpoint G}
    (same : ∀ e, e.role.idle = idle → (change e).role.idle = idle) :
    Keeps idle (modify change : Step G PUnit) := same

@[simp] theorem keeps_withSource (action : EStateM Error G α) : Keeps idle (withSource action) := by
  intro e same
  unfold after withSource
  cases action e.source <;> exact same

@[simp] theorem keeps_withSealer (action : EStateM Error (Record.Sealer G) α) :
    Keeps idle (withSealer action) := by
  intro e same
  unfold after withSealer
  cases action ⟨e.sendNumber, e.source⟩ <;> exact same

@[simp] theorem keeps_enterClient (settings : ClientSettings) (phase : ClientPhase) :
    Keeps (.client settings .idle) (enterClient settings phase : Step G Unit) := fun _ _ => rfl

@[simp] theorem keeps_enterServer (settings : ServerSettings) (phase : ServerPhase) :
    Keeps (.server settings .idle) (enterServer settings phase : Step G Unit) := fun _ _ => rfl

@[simp] theorem keeps_currentTranscript : Keeps idle (currentTranscript : Step G Transcript) := by
  refine keeps_get fun e _ => ?_
  cases e.transcript <;> simp

@[simp] theorem keeps_masterSecret : Keeps idle (masterSecret : Step G Octets) := by
  refine keeps_get fun e _ => ?_
  cases e.secrets <;> simp

@[simp] theorem keeps_record (slot : Slot) (message : Octets) :
    Keeps idle (record slot message : Step G Unit) := by
  unfold record
  repeat' with_reducible first | refine keeps_bind ?_ fun _ => ?_ | refine keeps_ite ?_ ?_
  all_goals simp [keeps_modify]

@[simp] theorem keeps_proof (side : End) : Keeps idle (proof side : Step G Octets) := by
  unfold proof
  repeat' with_reducible first | refine keeps_bind ?_ fun _ => ?_ | refine keeps_ite ?_ ?_
  all_goals simp

@[simp] theorem keeps_installSecrets (preMaster : Octets) :
    Keeps idle (installSecrets preMaster : Step G Unit) := by
  refine keeps_get fun e _ => keeps_bind (by simp) fun parameters => ?_
  cases e.clientRandom <;> cases e.serverRandom <;> simp [keeps_modify]

@[simp] theorem keeps_protectSending : Keeps idle (protectSending : Step G Unit) := by
  refine keeps_get fun e _ => ?_
  split <;> simp [keeps_modify]

@[simp] theorem keeps_protectReceiving : Keeps idle (protectReceiving : Step G Unit) := by
  refine keeps_get fun e _ => ?_
  split <;> simp [keeps_modify]

@[simp] theorem keeps_establish : Keeps idle (establish : Step G Unit) := by
  simp [establish, keeps_modify]

variable [Entropy G]

@[simp] theorem keeps_encode (type : ContentType) (payload : Octets) :
    Keeps idle (encode type payload : Step G Octets) := by
  refine keeps_get fun e _ => ?_
  split <;> simp

@[simp] theorem keeps_encodeChange : Keeps idle (encodeChange : Step G Octets) :=
  keeps_encode _ _

end Steps

section Handlers

variable [Entropy G] (message : Octets)

theorem keeps_sendHello (settings : ClientSettings) :
    Keeps (.client settings .idle) (Client.sendHello settings : Step G Octets) := by
  unfold Client.sendHello
  repeat' with_reducible first | refine keeps_bind ?_ fun _ => ?_ | refine keeps_ite ?_ ?_
  all_goals simp [keeps_modify]

omit [Entropy G] in
theorem keeps_await (settings : ServerSettings) :
    Keeps (.server settings .idle) (Server.await settings : Step G Octets) := by
  exact keeps_bind (by simp) fun _ => by simp

/-- The handlers of a client enter the next phase with the settings they were given. -/
theorem keeps_client (settings : ClientSettings) (phase : ClientPhase) (type : MessageType) :
    Keeps (.client settings .idle) (Client.receive settings phase type message : Step G Octets) := by
  unfold Client.receive Client.receiveHello Client.receiveCertificate Client.receiveHelloDone
    Client.sendExchange Client.sendFinished Client.receiveFinished
  split
  all_goals
    repeat' with_reducible first
      | refine keeps_bind ?_ fun _ => ?_
      | refine keeps_ite ?_ ?_
      | split
    all_goals simp [keeps_modify]

/-- The handlers of a server enter the next phase with the settings they were given. -/
theorem keeps_server (settings : ServerSettings) (phase : ServerPhase) (type : MessageType) :
    Keeps (.server settings .idle) (Server.receive settings phase type message : Step G Octets) := by
  unfold Server.receive Server.receiveHello Server.receiveKeyExchange Server.receiveFinished
  split
  · repeat' with_reducible first
      | refine keeps_bind ?_ fun _ => ?_
      | refine keeps_ite ?_ ?_
      | split
    all_goals simp [keeps_modify]
  all_goals
    repeat' with_reducible first | refine keeps_bind ?_ fun _ => ?_ | refine keeps_ite ?_ ?_
    all_goals simp

end Handlers

variable [Entropy G]

theorem keeps_startHandshake (idle : Role) : Keeps idle (startHandshake : Step G Octets) := by
  refine keeps_get fun e same => ?_
  split
  · next settings phase known =>
    rw [known] at same
    subst same
    exact keeps_sendHello settings
  · next settings phase known =>
    rw [known] at same
    subst same
    exact keeps_await settings

theorem keeps_receiveMessage (idle : Role) (message : Octets) :
    Keeps idle (receiveMessage message : Step G Octets) := by
  refine keeps_get fun e same => ?_
  dsimp only
  refine keeps_bind (by simp) fun type => ?_
  split
  · next settings phase known =>
    rw [known] at same
    subst same
    exact keeps_client message settings phase type
  · next settings phase known =>
    rw [known] at same
    subst same
    exact keeps_server message settings phase type

omit [Entropy G] in
theorem keeps_receiveChange (idle : Role) : Keeps idle (receiveChange : Step G Unit) := by
  refine keeps_get fun e same => ?_
  split
  · next settings phase known =>
    rw [known] at same
    subst same
    unfold Client.receiveChange
    split
    · exact keeps_bind (by simp) fun _ => keeps_enterClient _ _
    · simp
  · next settings phase known =>
    rw [known] at same
    subst same
    unfold Server.receiveChange
    split
    · exact keeps_bind (by simp) fun _ => keeps_enterServer _ _
    · simp

omit [Entropy G] in
theorem keeps_open? (idle : Role) (header : Record.Header) (record : Octets) :
    Keeps idle (open? header record : Step G Octets) := by
  refine keeps_get fun e _ => ?_
  dsimp only
  split
  · repeat' with_reducible first | refine keeps_bind ?_ fun _ => ?_ | refine keeps_ite ?_ ?_
    all_goals simp [keeps_modify]
  · simp
  · repeat' with_reducible first | refine keeps_bind ?_ fun _ => ?_ | refine keeps_ite ?_ ?_
    all_goals simp

theorem keeps_receiveMessages (idle : Role) (records pending : Octets) :
    Keeps idle (receiveMessages records pending : Step G (Progress × Octets)) := by
  fun_induction receiveMessages (G := G) records pending with
  | case1 records pending error found => exact keeps_throw error
  | case2 records pending found => exact keeps_pure _
  | case3 records pending message rest found ih =>
    refine keeps_bind (keeps_receiveMessage idle message) fun answer => keeps_get fun e _ => ?_
    split
    · split <;> simp
    · exact ih answer

theorem keeps_receiveRecord (idle : Role) (header : Record.Header) (record pending : Octets) :
    Keeps idle (receiveRecord header record pending : Step G (Progress × Octets)) := by
  refine keeps_bind (keeps_open? idle header record) fun content => ?_
  split
  · repeat' with_reducible first | refine keeps_bind ?_ fun _ => ?_ | refine keeps_ite ?_ ?_
    all_goals simp [keeps_receiveChange]
  · exact keeps_bind (by simp) fun _ => by simp
  · repeat' with_reducible first | refine keeps_bind ?_ fun _ => ?_ | refine keeps_ite ?_ ?_
    all_goals simp
  · repeat' with_reducible first | refine keeps_bind ?_ fun _ => ?_ | refine keeps_ite ?_ ?_
    all_goals simp [keeps_receiveMessages]

end Endpoint

namespace Session

variable {G : Type}

theorem role_stop (session : Session G) (error : Error) (data : Octets) :
    (session.stop error data).2.endpoint.role = session.endpoint.role := by
  simp only [stop]
  split <;> rfl

variable [Entropy G]

theorem idle_start (session : Session G) :
    session.start.2.endpoint.role.idle = session.endpoint.role.idle := by
  have kept := Endpoint.keeps_startHandshake session.endpoint.role.idle
    { session.endpoint with stage := .handshaking, transcript := some Transcript.empty } rfl
  unfold start
  split
  · dsimp only [act]
    unfold Endpoint.after at kept
    generalize Endpoint.startHandshake { session.endpoint with
      stage := .handshaking
      transcript := some Transcript.empty } = result at kept ⊢
    cases result <;> exact kept
  · rfl
  · rfl

theorem idle_drain (records data : Octets) (session : Session G) :
    (drain records data session).2.endpoint.role.idle = session.endpoint.role.idle := by
  have step {header : Record.Header} {record : Octets} (session : Session G) :=
    Endpoint.keeps_receiveRecord session.endpoint.role.idle header record session.pending
      session.endpoint rfl
  fun_induction drain records data session with
  | case1 records data session error found => rw [role_stop]
  | case2 => rfl
  | case3 => rfl
  | case4 => rfl
  | case5 records data session header record inbox found answer pending endpoint handled ih =>
    have kept := @step header record session
    rw [Endpoint.after, handled] at kept
    exact ih.trans kept
  | case6 records data session header record inbox found content pending endpoint handled ih =>
    have kept := @step header record session
    rw [Endpoint.after, handled] at kept
    exact ih.trans kept
  | case7 records data session header record inbox found answer pending endpoint handled =>
    have kept := @step header record session
    rw [Endpoint.after, handled] at kept
    exact kept
  | case8 records data session header record inbox found error endpoint handled =>
    have kept := @step header record session
    rw [Endpoint.after, handled] at kept
    rw [role_stop]
    exact kept

/-- Whatever a session goes through, it has the settings it was made with. -/
theorem Becomes.idle {first session : Session G} (becomes : first.Becomes session) :
    session.endpoint.role.idle = first.endpoint.role.idle := by
  induction becomes with
  | refl => rfl
  | @start session before ih => exact (idle_start session).trans ih
  | @receive session before octets ih =>
    rw [← ih]
    unfold Session.receive
    split
    · exact congrArg (fun e => e.role.idle) (endpoint_takeFailure session)
    · rfl
    · exact idle_drain ..
  | @send session before data ih =>
    obtain ⟨_, _, same⟩ := send_frame session data
    rw [← same]
    exact ih
  | @reset session before ih =>
    rw [← ih]
    exact Role.idle_idle _

end Session

end TransportSecurity
