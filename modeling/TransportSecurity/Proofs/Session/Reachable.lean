import TransportSecurity.Proofs.Session.Shape

/-!
The sessions there can be.

A session is made for one of the two roles and then only changed by its own operations, in any
order: `Session.Reachable`. Whatever was done, a session has failed or is `Session.Orderly`: its
endpoint has the shape of its phase and no failure waits to be reported.
-/

namespace TransportSecurity

namespace Suite

/-- Suites are accepted if there are some and all of them can be used. -/
theorem check_eq_ok {suites : List Suite} {u : Unit} :
    check suites = .ok u ↔ suites ≠ [] ∧ ∀ suite ∈ suites, suite.isSupported := by
  cases suites with
  | nil => simp [check]
  | cons first rest =>
    simp only [check, List.isEmpty_cons, Bool.false_eq_true, if_false]
    split
    · next suite found =>
      have unusable := List.find?_some found
      have mem := List.mem_of_find?_eq_some found
      simp only [reduceCtorEq, ne_eq, not_false_eq_true, true_and, false_iff]
      intro all
      simp [all suite mem] at unusable
    · next none =>
      simpa using none

/-- The suite that is chosen is the first of the preferred ones that is offered. -/
theorem choose?_eq_some {preferred offered : List Suite} {suite : Suite} :
    choose? preferred offered = some suite ↔ suite ∈ offered ∧ ∃ before after,
      preferred = before ++ suite :: after ∧ ∀ other ∈ before, other ∉ offered := by
  rw [choose?, List.find?_eq_some_iff_append]
  simp

end Suite

namespace Session

variable {G : Type} [Entropy G]

/-- What a session can become by its operations. -/
inductive Becomes (first : Session G) : Session G → Prop
  | refl : Becomes first first
  | start {session : Session G} (before : Becomes first session) :
    Becomes first session.start.2
  | receive {session : Session G} (before : Becomes first session) (octets : Octets) :
    Becomes first (session.receive octets).2
  | send {session : Session G} (before : Becomes first session) (data : Octets) :
    Becomes first (session.send data).2
  | reset {session : Session G} (before : Becomes first session) : Becomes first session.reset

/-- Sessions as they are made. -/
inductive Made : Session G → Prop
  | client {settings : ClientSettings} {source : G} {session : Session G}
    (made : client settings source = .ok session) : Made session
  | server {settings : ServerSettings} {source : G} {session : Session G}
    (made : server settings source = .ok session) : Made session

/-- A session that was made and used in any way. -/
def Reachable (session : Session G) : Prop := ∃ first, Made first ∧ Becomes first session

/-- A session that has not failed: its endpoint has what its phase asks for, no failure waits, and
before the handshake nothing does. -/
structure Orderly (session : Session G) : Prop where
  endpoint : session.endpoint.Sound
  deferred : session.deferred = none
  fresh : session.endpoint.stage = .initial → session.inbox = [] ∧ session.pending = []

omit [Entropy G] in
theorem Orderly.not_failed {session : Session G} (orderly : session.Orderly) :
    session.endpoint.stage ≠ .failed := by
  rw [orderly.endpoint.stage]
  exact Role.shape_stage_ne_failed _

omit [Entropy G] in
theorem Orderly.active {session : Session G} (orderly : session.Orderly)
    (begun : session.endpoint.stage ≠ .initial) :
    session.endpoint.stage = .handshaking ∨ session.endpoint.stage = .established := by
  have notFailed := orderly.not_failed
  match stage : session.endpoint.stage with
  | .initial => exact (begun stage).elim
  | .handshaking => exact Or.inl rfl
  | .established => exact Or.inr rfl
  | .failed => exact (notFailed stage).elim

omit [Entropy G] in
theorem orderly_of_active {session : Session G} (sound : session.endpoint.Sound)
    (active : session.endpoint.stage = .handshaking ∨ session.endpoint.stage = .established)
    (deferred : session.deferred = none) : session.Orderly := by
  refine ⟨sound, deferred, fun fresh => ?_⟩
  rw [fresh] at active
  simp at active

omit [Entropy G] in
theorem failed_of_fail (session : Session G) (error : Error) :
    (session.fail error).2.endpoint.stage = .failed := rfl

omit [Entropy G] in
theorem failed_of_stop (session : Session G) (error : Error) (data : Octets) :
    (session.stop error data).2.endpoint.stage = .failed := by
  simp only [stop, fail]
  split <;> rfl

omit [Entropy G] in
/-- A client is made of suites that can be used. -/
theorem client_eq_ok {settings : ClientSettings} {source : G} {session : Session G} :
    client settings source = .ok session ↔
      settings.suites ≠ [] ∧ (∀ suite ∈ settings.suites, suite.isSupported) ∧
        { endpoint := { role := .client settings .idle, source } } = session := by
  simp only [client, except_bind_eq_ok, Suite.check_eq_ok, except_pure_eq_ok]
  constructor
  · rintro ⟨_, ⟨nonempty, known⟩, made⟩
    exact ⟨nonempty, known, made⟩
  · rintro ⟨nonempty, known, made⟩
    exact ⟨(), ⟨nonempty, known⟩, made⟩

omit [Entropy G] in
/-- A server is made of suites that can be used. -/
theorem server_eq_ok {settings : ServerSettings} {source : G} {session : Session G} :
    server settings source = .ok session ↔
      settings.suites ≠ [] ∧ (∀ suite ∈ settings.suites, suite.isSupported) ∧
        { endpoint := { role := .server settings .idle, source } } = session := by
  simp only [server, except_bind_eq_ok, Suite.check_eq_ok, except_pure_eq_ok]
  constructor
  · rintro ⟨_, ⟨nonempty, known⟩, made⟩
    exact ⟨nonempty, known, made⟩
  · rintro ⟨nonempty, known, made⟩
    exact ⟨(), ⟨nonempty, known⟩, made⟩

omit [Entropy G] in
theorem orderly_of_made {session : Session G} (made : Made session) : session.Orderly := by
  rcases made with ⟨made⟩ | ⟨made⟩
  · obtain ⟨_, _, rfl⟩ := client_eq_ok.mp made
    exact ⟨rfl, rfl, fun _ => ⟨rfl, rfl⟩⟩
  · obtain ⟨_, _, rfl⟩ := server_eq_ok.mp made
    exact ⟨rfl, rfl, fun _ => ⟨rfl, rfl⟩⟩

omit [Entropy G] in
theorem orderly_reset (session : Session G) : session.reset.Orderly := by
  refine ⟨?_, rfl, fun _ => ⟨rfl, rfl⟩⟩
  change _ = session.endpoint.role.idle.shape
  cases session.endpoint.role <;> rfl

/-- A handshake begins soundly. -/
theorem running_of_begins {e f : Endpoint G} {records : Octets} (sound : e.Sound)
    (fresh : e.stage = .initial)
    (begins : Endpoint.Begins
      { e with stage := .handshaking, transcript := some Transcript.empty } records f) :
    f.Sound ∧ f.stage = .handshaking := by
  have idle : e.shape = { stage := .initial } := by
    have shape := Role.shape_eq_idle (sound.stage.symm.trans fresh)
    exact sound.trans shape
  simp only [Endpoint.shape, Shape.mk.injEq] at idle
  cases begins with
  | client role sent =>
    refine ⟨Endpoint.sound_sendHello ?_ sent, ?_⟩
    · simp [Endpoint.shape, idle, Transcript.empty]
    · obtain ⟨_, _, _, _, _, _, _, _, encodes⟩ := Client.sendHello_eq_ok.mp sent
      obtain ⟨_, _, rfl⟩ := Endpoint.encode_frame encodes
      rfl
  | server role =>
    refine ⟨?_, rfl⟩
    simp [Endpoint.Sound, Endpoint.shape, idle, Transcript.empty, Role.shape, ServerPhase.shape]

/-- A session starts by beginning its handshake. -/
theorem start_eq_ok {session after : Session G} {records : Octets} :
    session.start = (.ok records, after) ↔ session.endpoint.stage = .initial ∧ ∃ endpoint,
      Endpoint.Begins { session.endpoint with
        stage := .handshaking
        transcript := some Transcript.empty } records endpoint ∧
      { session with endpoint } = after := by
  simp only [← Endpoint.startHandshake_eq_ok]
  unfold start
  split
  · next fresh =>
    simp only [act]
    cases Endpoint.startHandshake { session.endpoint with
        stage := .handshaking
        transcript := some Transcript.empty } with
    | error error endpoint => simp [fresh]
    | ok sent endpoint =>
      simp only [fresh, true_and, Prod.mk.injEq, Except.ok.injEq, EStateM.Result.ok.injEq]
      constructor
      · rintro ⟨rfl, rfl⟩
        exact ⟨endpoint, ⟨rfl, rfl⟩, rfl⟩
      · rintro ⟨_, ⟨rfl, rfl⟩, rfl⟩
        exact ⟨rfl, rfl⟩
  · next failed => simp [failed]
  · next notFresh _ =>
    have : session.endpoint.stage ≠ .initial := notFresh
    simp [this]

/-- A session that cannot begin its handshake has failed, or is not new and stays as it is. -/
theorem start_of_error {session after : Session G} {error : Error}
    (failed : session.start = (.error error, after)) :
    after.endpoint.stage = .failed ∨ after = session := by
  unfold start at failed
  split at failed
  · dsimp only at failed
    split at failed
    · cases failed
    · cases failed
      exact Or.inl (failed_of_fail ..)
  · cases failed
    exact Or.inr rfl
  · cases failed
    exact Or.inr rfl

theorem orderly_start {session : Session G} (orderly : session.Orderly) :
    session.start.2.Orderly ∨ session.start.2.endpoint.stage = .failed := by
  match started : session.start with
  | (.error error, after) =>
    rcases start_of_error started with failed | rfl
    · exact Or.inr failed
    · exact Or.inl orderly
  | (.ok records, after) =>
    obtain ⟨fresh, endpoint, begins, rfl⟩ := start_eq_ok.mp started
    obtain ⟨sound, running⟩ := running_of_begins orderly.endpoint fresh begins
    exact Or.inl (orderly_of_active sound (Or.inl running) orderly.deferred)

/-- While it is not failed and not new, a session drains its inbox. -/
theorem receive_eq_drain {session : Session G} (active : session.endpoint.stage = .handshaking ∨
    session.endpoint.stage = .established) (octets : Octets) :
    session.receive octets = drain [] [] { session with inbox := session.inbox ++ octets } := by
  unfold receive
  split
  · next failed => simp [failed] at active
  · next new => simp [new] at active
  · rfl

theorem orderly_receive {session : Session G} (orderly : session.Orderly) (octets : Octets) :
    (session.receive octets).2.Orderly ∨ (session.receive octets).2.endpoint.stage = .failed := by
  by_cases fresh : session.endpoint.stage = .initial
  · left
    unfold receive
    rw [fresh]
    exact orderly
  · have active := orderly.active fresh
    rw [receive_eq_drain active]
    obtain ⟨script, endpoint, inbox, pending, _, takes, _, ended⟩ :=
      drain_takes [] [] { session with inbox := session.inbox ++ octets }
    have sound := takes.sound orderly.endpoint
    have still := takes.active orderly.endpoint active
    generalize drain [] [] { session with inbox := session.inbox ++ octets } = result at ended ⊢
    cases ended with
    | waits nothing => exact Or.inl (orderly_of_active sound still orderly.deferred)
    | completes found handled =>
      have handles := Endpoint.receiveRecord_eq_ok.mp handled
      exact Or.inl (orderly_of_active (Endpoint.sound_handles sound handles)
        (Endpoint.active_handles sound still handles) orderly.deferred)
    | malformed found => exact Or.inr (failed_of_stop ..)
    | refused found refused => exact Or.inr (failed_of_stop ..)

omit [Entropy G] in
theorem act_snd {α : Type} (session : Session G) (step : Step G α) :
    (session.act step).2 = { session with endpoint := Endpoint.after step session.endpoint } := by
  unfold act Endpoint.after
  cases step session.endpoint <;> rfl

/-- Sending leaves everything but numbers and random octets as it is, also when it fails. -/
theorem send_frame (session : Session G) (data : Octets) : ∃ sendNumber source,
    { session with endpoint := { session.endpoint with sendNumber, source } } =
      (session.send data).2 := by
  unfold send
  split
  · obtain ⟨sendNumber, source, same⟩ :=
      Endpoint.after_encode .applicationData data session.endpoint
    refine ⟨sendNumber, source, ?_⟩
    rw [act_snd, same]
  · exact ⟨session.endpoint.sendNumber, session.endpoint.source, rfl⟩
  · exact ⟨session.endpoint.sendNumber, session.endpoint.source, rfl⟩

theorem orderly_send {session : Session G} (orderly : session.Orderly) (data : Octets) :
    (session.send data).2.Orderly := by
  obtain ⟨_, _, same⟩ := send_frame session data
  rw [← same]
  exact ⟨orderly.endpoint, orderly.deferred, orderly.fresh⟩

/-- Nothing but `reset` brings a failed session back. -/
theorem failed_start {session : Session G} (failed : session.endpoint.stage = .failed) :
    session.start.2.endpoint.stage = .failed := by
  unfold start
  rw [failed]
  exact failed

theorem receive_of_failed {session : Session G} (failed : session.endpoint.stage = .failed)
    (octets : Octets) : session.receive octets =
      (.failed session.takeFailure.1, session.takeFailure.2) := by
  unfold receive
  rw [failed]

omit [Entropy G] in
theorem endpoint_takeFailure (session : Session G) :
    session.takeFailure.2.endpoint = session.endpoint := by
  unfold takeFailure
  split <;> rfl

theorem failed_receive {session : Session G} (failed : session.endpoint.stage = .failed)
    (octets : Octets) : (session.receive octets).2.endpoint.stage = .failed := by
  rw [receive_of_failed failed, endpoint_takeFailure]
  exact failed

theorem failed_send {session : Session G} (failed : session.endpoint.stage = .failed)
    (data : Octets) : (session.send data).2.endpoint.stage = .failed := by
  unfold send
  rw [failed]
  exact failed

/-- A session in use has failed or is orderly. -/
theorem Reachable.orderly {session : Session G} (reachable : session.Reachable) :
    session.Orderly ∨ session.endpoint.stage = .failed := by
  obtain ⟨first, made, becomes⟩ := reachable
  induction becomes with
  | refl => exact Or.inl (orderly_of_made made)
  | start before ih => exact ih.elim orderly_start fun failed => Or.inr (failed_start failed)
  | receive before octets ih =>
    exact ih.elim (orderly_receive · octets) fun failed => Or.inr (failed_receive failed octets)
  | send before data ih =>
    exact ih.elim (Or.inl <| orderly_send · data) fun failed => Or.inr (failed_send failed data)
  | reset before ih => exact Or.inl (orderly_reset _)

theorem Reachable.orderly_of_established {session : Session G} (reachable : session.Reachable)
    (isOver : session.endpoint.stage = .established) : session.Orderly := by
  refine reachable.orderly.resolve_right fun failed => ?_
  cases isOver.symm.trans failed

end Session

end TransportSecurity
