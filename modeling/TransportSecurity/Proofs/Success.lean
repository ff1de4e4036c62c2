import TransportSecurity.Session.Endpoint

/-!
When a program succeeds.

A step of an endpoint, a scan and a sealer are all programs over a state that may fail and then keep
what they changed. Each lemma here says what it takes for one way of composing programs to end in a
given value and state; `simp only` with them turns a successful run into its intermediate states.
-/

namespace TransportSecurity

section Programs

variable {ε σ α β : Type} {s s' : σ}

theorem bind_eq_ok {x : EStateM ε σ α} {f : α → EStateM ε σ β} {b : β} :
    (x >>= f) s = .ok b s' ↔ ∃ a t, x s = .ok a t ∧ f a t = .ok b s' := by
  change EStateM.bind x f s = _ ↔ _
  unfold EStateM.bind
  cases x s with
  | error => simp
  | ok a t =>
    simp only [EStateM.Result.ok.injEq]
    constructor
    · exact fun h => ⟨a, t, ⟨rfl, rfl⟩, h⟩
    · rintro ⟨_, _, ⟨rfl, rfl⟩, h⟩
      exact h

/-- After a part that succeeds, a program goes on with its value and state. -/
theorem bind_of_ok {x : EStateM ε σ α} {f : α → EStateM ε σ β} {a : α} {t : σ}
    (done : x s = .ok a t) : (x >>= f) s = f a t := by
  change EStateM.bind x f s = _
  rw [EStateM.bind, done]

/-- After a part that fails, a program does nothing more. -/
theorem bind_of_error {x : EStateM ε σ α} {f : α → EStateM ε σ β} {e : ε} {t : σ}
    (failed : x s = .error e t) : (x >>= f) s = .error e t := by
  change EStateM.bind x f s = _
  rw [EStateM.bind, failed]

/-- A program that begins by reading its state does with it what comes next. -/
theorem get_bind {f : σ → EStateM ε σ β} : (get >>= f) s = f s s := bind_of_ok rfl

/-- A program that begins by changing its state goes on in the changed one. -/
theorem modify_bind {change : σ → σ} {f : PUnit → EStateM ε σ β} :
    (modify change >>= f) s = f () (change s) := bind_of_ok rfl

/-- A program fails where its first part fails, or where the rest does. -/
theorem bind_eq_error {x : EStateM ε σ α} {f : α → EStateM ε σ β} {e : ε} :
    (x >>= f) s = .error e s' ↔ x s = .error e s' ∨ ∃ a t, x s = .ok a t ∧ f a t = .error e s' := by
  change EStateM.bind x f s = _ ↔ _
  unfold EStateM.bind
  cases x s with
  | error => simp
  | ok a t =>
    simp only [reduceCtorEq, false_or, EStateM.Result.ok.injEq]
    constructor
    · exact fun h => ⟨a, t, ⟨rfl, rfl⟩, h⟩
    · rintro ⟨_, _, ⟨rfl, rfl⟩, h⟩
      exact h

theorem pure_eq_ok {a b : α} : (pure a : EStateM ε σ α) s = .ok b s' ↔ a = b ∧ s = s' := by
  change EStateM.Result.ok a s = _ ↔ _
  simp

theorem pure_eq_error {a : α} {e : ε} :
    (pure a : EStateM ε σ α) s = .error e s' ↔ False := by
  change EStateM.Result.ok a s = _ ↔ _
  simp

theorem throw_eq_ok {e : ε} {b : α} : (throw e : EStateM ε σ α) s = .ok b s' ↔ False := by
  change EStateM.Result.error e s = _ ↔ _
  simp

theorem get_eq_ok {b : σ} : (get : EStateM ε σ σ) s = .ok b s' ↔ b = s ∧ s = s' := by
  change EStateM.Result.ok s s = _ ↔ _
  simp [eq_comm]

theorem modify_eq_ok {f : σ → σ} {u : PUnit} :
    (modify f : EStateM ε σ PUnit) s = .ok u s' ↔ f s = s' := by
  change EStateM.Result.ok _ _ = _ ↔ _
  simp

theorem set_eq_ok {t : σ} {u : PUnit} :
    (set t : EStateM ε σ PUnit) s = .ok u s' ↔ t = s' := by
  change EStateM.Result.ok _ _ = _ ↔ _
  simp

theorem get_eq_error {e : ε} : (get : EStateM ε σ σ) s = .error e s' ↔ False := by
  change EStateM.Result.ok s s = _ ↔ _
  simp

theorem modify_eq_error {f : σ → σ} {e : ε} :
    (modify f : EStateM ε σ PUnit) s = .error e s' ↔ False := by
  change EStateM.Result.ok _ _ = _ ↔ _
  simp

theorem ofExcept_eq_ok {x : Except ε α} {b : α} :
    (ofExcept x : EStateM ε σ α) s = .ok b s' ↔ x = .ok b ∧ s = s' := by
  cases x with
  | error e =>
    change EStateM.Result.error e s = _ ↔ _
    simp
  | ok a =>
    change EStateM.Result.ok a s = _ ↔ _
    simp

theorem ofExcept_eq_error {x : Except ε α} {e : ε} :
    (ofExcept x : EStateM ε σ α) s = .error e s' ↔ x = .error e ∧ s = s' := by
  cases x with
  | error e =>
    change EStateM.Result.error e s = _ ↔ _
    simp
  | ok a =>
    change EStateM.Result.ok a s = _ ↔ _
    simp

theorem ite_eq_ok {c : Prop} [Decidable c] {x y : EStateM ε σ α} {b : α} :
    (if c then x else y) s = .ok b s' ↔ (c ∧ x s = .ok b s') ∨ (¬c ∧ y s = .ok b s') := by
  split <;> simp [*]

theorem except_bind_eq_ok {x : Except ε α} {f : α → Except ε β} {b : β} :
    (x >>= f) = .ok b ↔ ∃ a, x = .ok a ∧ f a = .ok b := by
  cases x <;> simp [bind, Except.bind]

theorem except_pure_eq_ok {a b : α} : (pure a : Except ε α) = .ok b ↔ a = b := by
  simp [pure, Except.pure]

theorem except_throw_eq_ok {e : ε} {b : α} : (throw e : Except ε α) = .ok b ↔ False := by
  simp [throw, throwThe, MonadExceptOf.throw]

theorem except_ite_eq_ok {c : Prop} [Decidable c] {x y : Except ε α} {b : α} :
    (if c then x else y) = .ok b ↔ (c ∧ x = .ok b) ∨ (¬c ∧ y = .ok b) := by
  split <;> simp [*]

end Programs

/-- The place of a slot among all. -/
def Slot.place : Slot → Nat
  | .clientHello => 0
  | .serverHello => 1
  | .serverCertificate => 2
  | .serverHelloDone => 3
  | .clientKeyExchange => 4
  | .clientFinished => 5

theorem Slot.all_eq_some_iff {slot : Slot} {n : Nat} :
    Slot.all[n]? = some slot ↔ n = slot.place := by
  match n with
  | 0 | 1 | 2 | 3 | 4 | 5 => cases slot <;> simp [Slot.all, Slot.place]
  | n + 6 => cases slot <;> simp [Slot.all, Slot.place]

/-- A slot is filled exactly when as many messages are there as slots before it. -/
theorem Transcript.record_eq_ok {before after : Transcript} {slot : Slot} {message : Octets} :
    before.record slot message = .ok after ↔
      before.messages.length = slot.place ∧ ⟨before.messages ++ [message]⟩ = after := by
  unfold Transcript.record
  simp only [Slot.all_eq_some_iff]
  split <;> simp [*]

namespace Endpoint

variable {G : Type} {e e' : Endpoint G}

theorem enterClient_eq_ok {settings : ClientSettings} {phase : ClientPhase} {u : Unit} :
    enterClient settings phase e = .ok u e' ↔ { e with role := .client settings phase } = e' :=
  modify_eq_ok

theorem enterServer_eq_ok {settings : ServerSettings} {phase : ServerPhase} {u : Unit} :
    enterServer settings phase e = .ok u e' ↔ { e with role := .server settings phase } = e' :=
  modify_eq_ok

theorem currentTranscript_eq_ok {transcript : Transcript} :
    currentTranscript e = .ok transcript e' ↔ e.transcript = some transcript ∧ e = e' := by
  simp only [currentTranscript, bind_eq_ok, get_eq_ok, and_assoc, exists_and_left, exists_eq_left,
    exists_eq_left']
  cases found : e.transcript with
  | none => simp [throw_eq_ok]
  | some transcript => simp [pure_eq_ok]

theorem record_eq_ok {slot : Slot} {message : Octets} {u : Unit} :
    record slot message e = .ok u e' ↔ ∃ messages, e.transcript = some ⟨messages⟩ ∧
      messages.length = slot.place ∧
      { e with transcript := some ⟨messages ++ [message]⟩ } = e' := by
  simp only [record, bind_eq_ok, currentTranscript_eq_ok, ofExcept_eq_ok, modify_eq_ok,
    Transcript.record_eq_ok]
  constructor
  · rintro ⟨⟨messages⟩, _, ⟨found, rfl⟩, _, _, ⟨⟨next, rfl⟩, rfl⟩, rfl⟩
    exact ⟨messages, found, next, rfl⟩
  · rintro ⟨messages, found, next, rfl⟩
    exact ⟨⟨messages⟩, e, ⟨found, rfl⟩, ⟨messages ++ [message]⟩, e, ⟨⟨next, rfl⟩, rfl⟩, rfl⟩

theorem masterSecret_eq_ok {master : Octets} :
    masterSecret e = .ok master e' ↔ (∃ keys, e.secrets = some ⟨master, keys⟩) ∧ e = e' := by
  simp only [masterSecret, bind_eq_ok, get_eq_ok, and_assoc, exists_and_left, exists_eq_left,
    exists_eq_left']
  cases found : e.secrets with
  | none => simp [throw_eq_ok]
  | some secrets =>
    simp only [pure_eq_ok, Option.some.injEq]
    constructor
    · rintro ⟨rfl, rfl⟩
      exact ⟨⟨secrets.keys, rfl⟩, rfl⟩
    · rintro ⟨⟨keys, rfl⟩, rfl⟩
      exact ⟨rfl, rfl⟩

/-- The proof of an end vouches for the transcript and the master secret there are. -/
theorem proof_eq_ok {side : End} {verifyData : Octets} :
    proof side e = .ok verifyData e' ↔ ∃ transcript secrets, e.transcript = some transcript ∧
      e.secrets = some secrets ∧ e = e' ∧ KeySchedule.verifyData (KeySchedule.finishedLabel side)
        transcript.hash secrets.master = verifyData := by
  simp only [proof, bind_eq_ok, currentTranscript_eq_ok, masterSecret_eq_ok, pure_eq_ok]
  constructor
  · rintro ⟨transcript, _, ⟨found, rfl⟩, master, _, ⟨⟨keys, secrets⟩, rfl⟩, rfl, rfl⟩
    exact ⟨transcript, ⟨master, keys⟩, found, secrets, rfl, rfl⟩
  · rintro ⟨transcript, secrets, found, known, rfl, rfl⟩
    exact ⟨transcript, e, ⟨found, rfl⟩, secrets.master, e, ⟨⟨secrets.keys, known⟩, rfl⟩, rfl, rfl⟩

/-- The secrets of an endpoint follow from the suite, the randoms and the pre-master secret. -/
theorem installSecrets_eq_ok {preMaster : Octets} {u : Unit} :
    installSecrets preMaster e = .ok u e' ↔ ∃ parameters client server keys,
      e.suite.parameters = .ok parameters ∧ e.clientRandom = some client ∧
      e.serverRandom = some server ∧
      KeyBlock.derive parameters (KeySchedule.master preMaster client.val server.val) server.val
        client.val = .ok keys ∧
      { e with
        secrets := some ⟨KeySchedule.master preMaster client.val server.val, keys⟩ } = e' := by
  obtain ⟨role, stage, suite, sends, receives, sent, received, transcript, client, server, secrets,
    source⟩ := e
  simp only [installSecrets, bind_eq_ok, get_eq_ok, ofExcept_eq_ok, and_assoc, exists_and_left,
    exists_eq_left, exists_eq_left']
  cases client with
  | none => simp [throw_eq_ok]
  | some client =>
    cases server with
    | none => simp [throw_eq_ok]
    | some server =>
      simp only [bind_eq_ok, ofExcept_eq_ok, modify_eq_ok, Option.some.injEq]
      constructor
      · rintro ⟨parameters, found, keys, _, ⟨derived, rfl⟩, rfl⟩
        exact ⟨parameters, found, client, rfl, server, rfl, keys, derived, rfl⟩
      · rintro ⟨parameters, found, _, rfl, _, rfl, keys, derived, rfl⟩
        exact ⟨parameters, found, keys, _, ⟨derived, rfl⟩, rfl⟩

theorem protectSending_eq_ok {u : Unit} : protectSending e = .ok u e' ↔
    e.secrets.isSome ∧ { e with sendProtected := true, sendNumber := 0 } = e' := by
  simp only [protectSending, bind_eq_ok, get_eq_ok, and_assoc, exists_and_left, exists_eq_left,
    exists_eq_left']
  cases known : e.secrets <;> simp [bind_eq_ok, throw_eq_ok, modify_eq_ok, known]

theorem protectReceiving_eq_ok {u : Unit} : protectReceiving e = .ok u e' ↔
    e.secrets.isSome ∧ { e with receiveProtected := true, receiveNumber := 0 } = e' := by
  simp only [protectReceiving, bind_eq_ok, get_eq_ok, and_assoc, exists_and_left, exists_eq_left,
    exists_eq_left']
  cases known : e.secrets <;> simp [bind_eq_ok, throw_eq_ok, modify_eq_ok, known]

theorem establish_eq_ok {u : Unit} :
    establish e = .ok u e' ↔ { e with stage := .established, transcript := none } = e' :=
  modify_eq_ok

theorem withSource_eq_ok {α : Type} {action : EStateM Error G α} {a : α} :
    withSource action e = .ok a e' ↔
      ∃ source, action e.source = .ok a source ∧ { e with source } = e' := by
  unfold withSource
  cases action e.source with
  | error => simp
  | ok b source =>
    simp only [EStateM.Result.ok.injEq]
    constructor
    · rintro ⟨rfl, rfl⟩
      exact ⟨source, ⟨rfl, rfl⟩, rfl⟩
    · rintro ⟨_, ⟨rfl, rfl⟩, rfl⟩
      exact ⟨rfl, rfl⟩

theorem withSealer_eq_ok {α : Type} {action : EStateM Error (Record.Sealer G) α} {a : α} :
    withSealer action e = .ok a e' ↔ ∃ sealer, action ⟨e.sendNumber, e.source⟩ = .ok a sealer ∧
      { e with sendNumber := sealer.number, source := sealer.source } = e' := by
  unfold withSealer
  cases action ⟨e.sendNumber, e.source⟩ with
  | error => simp
  | ok b sealer =>
    simp only [EStateM.Result.ok.injEq]
    constructor
    · rintro ⟨rfl, rfl⟩
      exact ⟨sealer, ⟨rfl, rfl⟩, rfl⟩
    · rintro ⟨_, ⟨rfl, rfl⟩, rfl⟩
      exact ⟨rfl, rfl⟩

section Encoding

variable [Entropy G] {type : ContentType} {payload : Octets}

/-- Before it has changed to protected records, an endpoint encodes in the clear. -/
theorem encode_clear (clear : e.sendProtected = false) :
    encode type payload e = .ok (Record.encodePlain type payload) e := by
  rw [encode, get_bind, clear]
  cases e.writeKeys? <;> rfl

/-- With keys, after the change, an endpoint protects what it encodes. -/
theorem encode_protected {secrets : Secrets} (change : e.sendProtected = true)
    (known : e.secrets = some secrets) : encode type payload e =
      withSealer (Record.protect (secrets.keys.writer e.role.side) type payload) e := by
  have keys : e.writeKeys? = some (secrets.keys.writer e.role.side) := by
    rw [writeKeys?, known]
    rfl
  rw [encode, get_bind, change, keys]

end Encoding

end Endpoint

end TransportSecurity
