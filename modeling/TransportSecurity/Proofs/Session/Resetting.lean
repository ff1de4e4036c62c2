import TransportSecurity.Proofs.Session.Agreement
import TransportSecurity.Proofs.Session.Calls
import TransportSecurity.Proofs.Session.Settings

/-!
A session that is reset is a session that has just been made.

What a session goes through leaves traces all over it: the phase, a public key, the randoms, the
secrets, the numbers, what waits in the buffers and a failure that nobody was told of yet. `reset`
takes all of them away and keeps what a new session starts from, its settings and the source of
random octets where it stands (`reset_eq`). The settings are those the session was made with,
whatever was done with it (`idle_undergoAll`), so it is the session that is made of them now, and
nothing later can tell the two apart (`reset_eq_made`).

The parts of a handshake can also be called one by one. `Operation` has these calls next to those of
a session in use.
-/

namespace TransportSecurity

/-- What a session is made for: a role, with what was decided beforehand. -/
inductive Setup where
  | client (settings : ClientSettings)
  | server (settings : ServerSettings)

namespace Setup

/-- The role before its handshake. -/
def role : Setup → Role
  | client settings => .client settings .idle
  | server settings => .server settings .idle

/-- Makes a session. -/
def make {G : Type} (source : G) : Setup → Except Error (Session G)
  | client settings => Session.client settings source
  | server settings => Session.server settings source

/-- Whether a session can be made does not depend on the source of random octets, and there is
nothing in it but the role and the source. -/
theorem make_of_made {G : Type} {setup : Setup} {source : G} {first : Session G}
    (made : setup.make source = .ok first) :
    first.endpoint.role.idle = setup.role ∧ ∀ other : G,
      setup.make other = .ok { endpoint := { role := setup.role, source := other } } := by
  cases setup with
  | client settings =>
    obtain ⟨some, known, rfl⟩ := Session.client_eq_ok.mp made
    exact ⟨rfl, fun other => Session.client_eq_ok.mpr ⟨some, known, rfl⟩⟩
  | server settings =>
    obtain ⟨some, known, rfl⟩ := Session.server_eq_ok.mp made
    exact ⟨rfl, fun other => Session.server_eq_ok.mpr ⟨some, known, rfl⟩⟩

end Setup

/-- All that a session can be put through: what it is asked for in use, and the parts of a handshake
by themselves. -/
inductive Operation where
  | request (request : Request)
  | startHandshake
  | receiveMessage (message : Octets)
  | receiveChange
  | forgetPhase

namespace Session

open Endpoint

variable {G : Type} [Entropy G]

/-- Puts a session through an operation. A part of a handshake changes the endpoint, also if it
fails, and leaves the rest of the session alone. With the phase the server's key is forgotten. -/
def undergo (session : Session G) : Operation → Option Reply × Session G
  | .request request => session.serve request
  | .startHandshake =>
    let (result, next) := session.act Endpoint.startHandshake
    (some (.answered result), next)
  | .receiveMessage message =>
    let (result, next) := session.act (Endpoint.receiveMessage message)
    (some (.answered result), next)
  | .receiveChange =>
    let (result, next) := session.act Endpoint.receiveChange
    (some (.answered (result.map fun _ => [])), next)
  | .forgetPhase =>
    (none, { session with
      endpoint := { session.endpoint with
        role := session.endpoint.role.idle
        serverKey := none } })

/-- Puts a session through operations, one after the other. -/
def undergoAll (session : Session G) : List Operation → List (Option Reply) × Session G
  | [] => ([], session)
  | operation :: operations =>
    let (reply, next) := session.undergo operation
    let (replies, last) := next.undergoAll operations
    (reply :: replies, last)

theorem undergoAll_cons (session : Session G) (operation : Operation)
    (operations : List Operation) :
    session.undergoAll (operation :: operations) =
      ((session.undergo operation).1 :: ((session.undergo operation).2.undergoAll operations).1,
        ((session.undergo operation).2.undergoAll operations).2) := rfl

theorem undergoAll_append (session : Session G) (before after : List Operation) :
    session.undergoAll (before ++ after) =
      ((session.undergoAll before).1 ++ ((session.undergoAll before).2.undergoAll after).1,
        ((session.undergoAll before).2.undergoAll after).2) := by
  induction before generalizing session with
  | nil => rfl
  | cons operation before ih => rw [List.cons_append, undergoAll_cons, ih, undergoAll_cons]; rfl

omit [Entropy G] in
/-- Nothing is left of a session that is reset but its settings and its source of random octets. -/
theorem reset_eq (session : Session G) : session.reset =
    { endpoint := { role := session.endpoint.role.idle, source := session.endpoint.source } } :=
  rfl

omit [Entropy G] in
theorem idle_act {α : Type} (session : Session G) {step : Step G α}
    (keeps : Keeps session.endpoint.role.idle step) :
    (session.act step).2.endpoint.role.idle = session.endpoint.role.idle := by
  rw [act_snd]
  exact keeps session.endpoint rfl

/-- An operation leaves the settings as they are. -/
theorem idle_undergo (session : Session G) (operation : Operation) :
    (session.undergo operation).2.endpoint.role.idle = session.endpoint.role.idle := by
  cases operation with
  | request request => exact (Becomes.serve .refl request).idle
  | startHandshake => exact idle_act session (keeps_startHandshake _)
  | receiveMessage message => exact idle_act session (keeps_receiveMessage _ message)
  | receiveChange => exact idle_act session (keeps_receiveChange _)
  | forgetPhase => exact Role.idle_idle _

/-- Whatever a session is put through, it has the settings it had. -/
theorem idle_undergoAll (session : Session G) (operations : List Operation) :
    (session.undergoAll operations).2.endpoint.role.idle = session.endpoint.role.idle := by
  induction operations generalizing session with
  | nil => rfl
  | cons operation operations ih => exact (ih _).trans (idle_undergo session operation)

/-- A session that is reset, after it was put through anything whatever, is the session that is made
for the same setup with the source of random octets as it stands. All that follows is what follows
on that session. -/
theorem reset_eq_made {setup : Setup} {source : G} {first : Session G}
    (made : setup.make source = .ok first) (before after : List Operation) : ∃ fresh,
      setup.make (first.undergoAll before).2.endpoint.source = .ok fresh ∧
      (first.undergoAll before).2.reset = fresh ∧
      first.undergoAll (before ++ .request .reset :: after) =
        ((first.undergoAll before).1 ++ none :: (fresh.undergoAll after).1,
          (fresh.undergoAll after).2) := by
  obtain ⟨idle, remade⟩ := setup.make_of_made made
  have settings := (idle_undergoAll first before).trans idle
  refine ⟨(first.undergoAll before).2.reset, ?_, rfl, undergoAll_append first before _⟩
  rw [remade, reset_eq, settings]

end Session

namespace Rehearsal

/-- A handshake that is begun and broken off by octets that are no record. -/
def brokenOff : List Operation :=
  [.request (.call .start), .request (.call (.receive [0, 0, 0, 0, 0]))]

end Rehearsal

/-- The rehearsed client has failed when it is reset, and begins another handshake then. -/
theorem Session.reset_eq_made_rehearsal :
    (Setup.client Rehearsal.clientSettings).make (.ofSeed 1 [] none) = .ok Rehearsal.client ∧
    (Rehearsal.client.undergoAll Rehearsal.brokenOff).2.endpoint.stage = .failed ∧
    ∃ fresh, (Setup.client Rehearsal.clientSettings).make
        (Rehearsal.client.undergoAll Rehearsal.brokenOff).2.endpoint.source = .ok fresh ∧
      (Rehearsal.client.undergoAll Rehearsal.brokenOff).2.reset = fresh ∧
      fresh.start.2.endpoint.stage = .handshaking ∧
      Rehearsal.client.undergoAll
          (Rehearsal.brokenOff ++ [.request .reset, .request (.call .start)]) =
        ((Rehearsal.client.undergoAll Rehearsal.brokenOff).1 ++
          [none, some (.answered fresh.start.1)], fresh.start.2) := by
  have made : (Setup.client Rehearsal.clientSettings).make (.ofSeed 1 [] none) =
      .ok Rehearsal.client := rfl
  obtain ⟨fresh, remade, same, later⟩ :=
    reset_eq_made made Rehearsal.brokenOff [.request (.call .start)]
  refine ⟨made, by decide +kernel, fresh, remade, same, ?_, later⟩
  rw [← same]
  decide +kernel

end TransportSecurity
