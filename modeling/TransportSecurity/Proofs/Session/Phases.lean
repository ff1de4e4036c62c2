import TransportSecurity.Proofs.Session.Calls
import TransportSecurity.Proofs.Session.Settings

/-!
What a phase says of its endpoint.

Beside the shape of its phase (`Endpoint.Sound`) an endpoint has a suite, which before the server's
hello stands for no protection and afterwards is one of those the role was given
(`Endpoint.Coherent`). From both together follows all that a phase determines of an endpoint
(`Endpoint.Determined`).
-/

namespace TransportSecurity

namespace Role

/-- The suites that a role was given. -/
def suites : Role → List Suite
  | .client settings _ => settings.suites
  | .server settings _ => settings.suites

/-- Whether the hellos have settled the suite. -/
def hasSuite : Role → Bool
  | .client _ .idle | .client _ .serverHello => false
  | .server _ .idle | .server _ .clientHello => false
  | _ => true

/-- Whether the handshake of a role is over. -/
def isDone : Role → Bool
  | .client _ .done => true
  | .server _ .done => true
  | _ => false

@[simp] theorem suites_idle (role : Role) : role.idle.suites = role.suites := by
  cases role <;> rfl

theorem side_eq_of_idle {role next : Role} (same : next.idle = role.idle) :
    next.side = role.side := by
  have sides := congrArg Role.side same
  cases role <;> cases next <;> exact sides

theorem hasSuite_idle (role : Role) : role.idle.hasSuite = false := by
  cases role <;> rfl

theorem shape_initial_iff (role : Role) : role.shape.stage = .initial ↔ role.idle = role := by
  cases role with
  | client settings phase =>
    cases phase <;> simp [shape, ClientPhase.shape, idle, Shape.done]
  | server settings phase =>
    cases phase <;> simp [shape, ServerPhase.shape, idle, Shape.done]

theorem shape_established_iff (role : Role) :
    role.shape.stage = .established ↔ role.isDone = true := by
  cases role with
  | client settings phase =>
    cases phase <;> simp [shape, ClientPhase.shape, isDone, Shape.done]
  | server settings phase =>
    cases phase <;> simp [shape, ServerPhase.shape, isDone, Shape.done]

/-- A client knows the server's key once it has the certificates, and then for good. -/
theorem shape_serverKey_iff (role : Role) : role.shape.serverKey = true ↔ role.side = .client ∧
    (role.shape.stage = .established ∨ ∃ n, role.shape.messages = some n ∧ 3 ≤ n) := by
  cases role with
  | client settings phase =>
    cases phase <;> simp [side, shape, ClientPhase.shape, Shape.done]
  | server settings phase =>
    cases phase <;> simp [side, shape, ServerPhase.shape, Shape.done]

end Role

theorem Advances.hasSuite {role next : Role} (advances : Advances role next) :
    next.hasSuite = true := by
  cases advances <;> rfl

theorem Changes.hasSuite {role next : Role} (changes : Endpoint.Changes role next) :
    role.hasSuite = true ∧ next.hasSuite = true := by
  cases changes <;> exact ⟨rfl, rfl⟩

namespace Endpoint

variable {G : Type}

/-- An endpoint has the suite that its phase asks for, and can use every suite it was given. -/
structure Coherent (e : Endpoint G) : Prop where
  before : e.role.hasSuite = false → e.suite = Suite.unprotected
  after : e.role.hasSuite = true → e.suite ∈ e.role.suites
  usable : ∀ suite ∈ e.role.suites, suite.isSupported = true

variable {e f : Endpoint G}

theorem Coherent.suite (coherent : e.Coherent) :
    e.role.hasSuite = false ∧ e.suite = Suite.unprotected ∨
      e.role.hasSuite = true ∧ e.suite ∈ e.role.suites := by
  cases known : e.role.hasSuite with
  | false => exact Or.inl ⟨rfl, coherent.before known⟩
  | true => exact Or.inr ⟨rfl, coherent.after known⟩

/-- Once a role has a suite it can use it. -/
theorem Coherent.isSupported (coherent : e.Coherent) (known : e.role.hasSuite = true) :
    e.suite.isSupported = true := coherent.usable _ (coherent.after known)

/-- All that a phase determines of its endpoint. -/
structure Determined (e : Endpoint G) : Prop where
  shape : e.shape = e.role.shape
  initial : e.stage = .initial ↔ e.role.idle = e.role
  established : e.stage = .established ↔ e.role.isDone = true
  serverKey : e.serverKey.isSome ↔ e.role.side = .client ∧ (e.stage = .established ∨
    ∃ transcript, e.transcript = some transcript ∧ 3 ≤ transcript.messages.length)
  suite : e.role.hasSuite = false ∧ e.suite = Suite.unprotected ∨
    e.role.hasSuite = true ∧ e.suite ∈ e.role.suites
  usable : ∀ suite ∈ e.role.suites, suite.isSupported = true

theorem Sound.determined (sound : e.Sound) (coherent : e.Coherent) : e.Determined where
  shape := sound
  initial := by rw [sound.stage, Role.shape_initial_iff]
  established := by rw [sound.stage, Role.shape_established_iff]
  serverKey := by
    have filled : e.transcript.map (fun transcript => transcript.messages.length) =
        e.role.shape.messages := congrArg Shape.messages sound
    rw [sound.serverKey, Role.shape_serverKey_iff, ← sound.stage, ← filled]
    cases e.transcript <;> simp
  suite := coherent.suite
  usable := coherent.usable

variable [Entropy G]

/-- The server's hello settles the suite of a client, the client's that of a server, and nothing
changes it afterwards. -/
theorem suite_of_answers {message records : Octets} (sound : e.Sound)
    (answers : Answers message e records f) :
    f.suite ∈ f.role.suites ∨ f.suite = e.suite ∧ e.role.hasSuite = true := by
  cases answers with
  | serverHello waits took =>
    obtain ⟨_, _, _, _, offered, _, _, rfl⟩ := Client.receiveHello_eq_ok.mp took
    exact Or.inl offered
  | certificates waits took =>
    obtain ⟨_, _, _, _, _, _, _, _, _, _, rfl⟩ := Client.receiveCertificate_eq_ok.mp took
    exact Or.inr ⟨rfl, by rw [waits]; rfl⟩
  | serverHelloDone waits exchanged finished =>
    have clear : e.sendProtected = false := by rw [sound.sends, waits]; rfl
    obtain ⟨_, _, _, _, rfl, _⟩ := (Client.sendExchange_eq_ok clear).mp exchanged
    obtain ⟨_, _, _, _, _, _, _, _, encodes, rfl⟩ := Client.sendFinished_eq_ok.mp finished
    obtain ⟨_, _, rfl⟩ := encode_frame encodes
    exact Or.inr ⟨rfl, by rw [waits]; rfl⟩
  | serverFinished waits took =>
    obtain ⟨_, _, _, _, _, rfl⟩ := Client.receiveFinished_eq_ok.mp took
    exact Or.inr ⟨rfl, by rw [waits]; rfl⟩
  | clientHello waits took =>
    have clear : e.sendProtected = false := by rw [sound.sends, waits]; rfl
    obtain ⟨_, _, made, rfl, _⟩ := (Server.receiveHello_eq_ok clear).mp took
    obtain ⟨_, before, after, listed, _⟩ := Suite.choose?_eq_some.mp made.chosen
    refine Or.inl ?_
    change _ ∈ ServerSettings.suites _
    rw [listed]
    exact List.mem_append_right _ (List.mem_cons_self ..)
  | clientKeyExchange waits took =>
    obtain ⟨_, _, _, _, _, _, _, _, _, _, _, _, _, _, _, rfl⟩ :=
      Server.receiveKeyExchange_eq_ok.mp took
    exact Or.inr ⟨rfl, by rw [waits]; rfl⟩
  | clientFinished waits took =>
    have clear : e.sendProtected = false := by rw [sound.sends, waits]; rfl
    obtain ⟨_, _, sent, made, rfl, _⟩ := (Server.receiveFinished_eq_ok clear).mp took
    obtain ⟨_, _, rfl⟩ := encode_frame made.encodes
    exact Or.inr ⟨rfl, by rw [waits]; rfl⟩

/-- Whatever an endpoint takes, it stays coherent. -/
theorem kept_coherent : Kept fun _ (e : Endpoint G) => e.Coherent where
  opened _ coherent := ⟨coherent.before, coherent.after, coherent.usable⟩
  changed _ coherent changed := by
    have same := (keeps_receiveChange _).of_eq_ok changed
    obtain ⟨_, role, changes, rfl⟩ := receiveChange_eq_ok.mp changed
    have suites := congrArg Role.suites same
    rw [Role.suites_idle, Role.suites_idle] at suites
    have known := Changes.hasSuite changes
    refine ⟨fun unknown => ?_, fun _ => ?_, ?_⟩
    · cases known.2.symm.trans unknown
    · rw [suites]
      exact coherent.after known.1
    · rw [suites]
      exact coherent.usable
  answered sound coherent answers := by
    have suites := congrArg Role.suites
      ((keeps_receiveMessage _ _).of_eq_ok (receiveMessage_eq_ok.mpr answers))
    rw [Role.suites_idle, Role.suites_idle] at suites
    have known := (advances_answers sound answers).1.hasSuite
    refine ⟨fun unknown => ?_, fun _ => ?_, ?_⟩
    · cases known.symm.trans unknown
    · rcases suite_of_answers sound answers with listed | ⟨same, before⟩
      · exact listed
      · rw [suites, same]
        exact coherent.after before
    · rw [suites]
      exact coherent.usable

theorem coherent_of_begins {records : Octets} (sound : e.Sound) (fresh : e.stage = .initial)
    (coherent : e.Coherent) (begins : Begins
      { e with stage := .handshaking, transcript := some Transcript.empty } records f) :
    f.Coherent := by
  have idle : e.role.idle = e.role := e.role.shape_initial_iff.mp (sound.stage.symm.trans fresh)
  have clear := coherent.before (by rw [← idle, Role.hasSuite_idle])
  have usable := coherent.usable
  cases begins with
  | client role sent =>
    obtain ⟨_, _, _, _, _, _, _, _, encodes⟩ := Client.sendHello_eq_ok.mp sent
    obtain ⟨_, _, rfl⟩ := encode_frame encodes
    dsimp only at role
    rw [role] at usable
    exact ⟨fun _ => clear, nofun, usable⟩
  | server role =>
    dsimp only at role
    rw [role] at usable
    exact ⟨fun _ => clear, nofun, usable⟩

end Endpoint

namespace Session

open Endpoint

variable {G : Type} [Entropy G] {session : Session G}

/-- Whatever was done to a session, it can use all suites that it was given. -/
theorem Reachable.usable (reachable : session.Reachable) :
    ∀ suite ∈ session.endpoint.role.suites, suite.isSupported = true := by
  obtain ⟨first, made, becomes⟩ := reachable
  have same := congrArg Role.suites becomes.idle
  rw [Role.suites_idle, Role.suites_idle] at same
  rw [same]
  rcases made with ⟨made⟩ | ⟨made⟩
  · obtain ⟨_, usable, rfl⟩ := client_eq_ok.mp made
    exact usable
  · obtain ⟨_, usable, rfl⟩ := server_eq_ok.mp made
    exact usable

theorem invariant_coherent : Invariant fun e : Endpoint G => e.Coherent where
  blank reachable blank := by
    refine ⟨fun _ => blank.suite, fun known => ?_, reachable.usable⟩
    rw [← blank.idle, Role.hasSuite_idle] at known
    cases known
  begun sound fresh coherent begins := coherent_of_begins sound fresh coherent begins
  taken := kept_coherent
  encoded _ _ coherent := ⟨coherent.before, coherent.after, coherent.usable⟩

/-- As long as a session in use has not failed, its parts fit together. -/
theorem Reachable.coherent (reachable : session.Reachable)
    (notFailed : session.endpoint.stage ≠ .failed) : session.Orderly ∧ session.endpoint.Coherent :=
  ⟨reachable.orderly.resolve_right notFailed, invariant_coherent.reachable reachable notFailed⟩

end Session

end TransportSecurity
