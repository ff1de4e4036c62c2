import TransportSecurity.Link.Transport
import TransportSecurity.Session.Basic

/-!
A transport in memory, for rehearsing a connection: a queue of octets, and on its far side a session
that answers what is sent, or nobody.

Sends can be made to fail, receives to deliver little at a time, and a log says what happened.
-/

namespace TransportSecurity

/-- Something that the far side does of its own accord. -/
inductive FarAction where
  | raw (octets : Octets)
  | data (content : Octets) (spoiled : Option Nat)
  | farewell

/-- Something that happened on a transport in memory. -/
inductive LinkEvent where
  | sent (octets : Octets)
  | sendFailed (octets : Octets)
  | received (count : Nat)
  | receiveFailed
  | farOutcome (outcome : Outcome)
  | farRefusal (error : Error)

/-- A transport in memory: the octets under way to the near side, the session on the far side, how
it delivers, where it fails, how many sends there were, what the far side does once its handshake is
complete, and the log, latest first. -/
structure Loopback (G : Type) where
  queue : Octets := []
  far : Option (Session G) := none
  chunk : Option Nat := none
  emptyFailure : Option Error := none
  sendFailure : Nat → Option Error := fun _ => none
  sends : Nat := 0
  afterHandshake : List FarAction := []
  log : List LinkEvent := []

/-- The octets of an outcome that are meant for the other end. -/
def Outcome.records : Outcome → Octets
  | .output records | .handshakeComplete records => records
  | .failed failure => failure.alert.getD []
  | .needMoreData | .applicationData _ => []

namespace Loopback

variable {G : Type}

/-- Adds to the log. -/
def note (loopback : Loopback G) (event : LinkEvent) : Loopback G :=
  { loopback with log := event :: loopback.log }

/-- Puts octets under way. -/
def enqueue (loopback : Loopback G) (octets : Octets) : Loopback G :=
  { loopback with queue := loopback.queue ++ octets }

/-- Octets with the lowest bit of one of them turned over. -/
def spoil (octets : Octets) (place : Nat) : Octets := octets.modify place (· ^^^ 1)

/-- What the far side delivers of what waits in the queue. -/
def deliver (room : Nat) : EStateM Error (Loopback G) Octets := fun loopback =>
  match loopback.emptyFailure, loopback.queue with
  | some error, [] => .error error (loopback.note .receiveFailed)
  | _, _ =>
    let count := min room (loopback.chunk.getD room)
    let octets := loopback.queue.take count
    .ok octets ({ loopback with queue := loopback.queue.drop count }.note
      (.received octets.length))

theorem queue_lt_of_deliver {room : Nat} {loopback after : Loopback G} {octets : Octets}
    (delivered : deliver room loopback = .ok octets after) (some : octets ≠ []) :
    after.queue.length < loopback.queue.length := by
  unfold deliver at delivered
  split at delivered
  · simp at delivered
  · simp only [EStateM.Result.ok.injEq] at delivered
    obtain ⟨rfl, rfl⟩ := delivered
    have taken : 0 < (loopback.queue.take (min room (loopback.chunk.getD room))).length :=
      List.length_pos_iff.2 some
    simp only [note, List.length_take, List.length_drop] at taken ⊢
    omega

variable [Entropy G]

/-- The far side acts. -/
def perform (loopback : Loopback G) : FarAction → Loopback G
  | .raw octets => loopback.enqueue octets
  | .data content spoiled =>
    match loopback.far with
    | none => loopback
    | some far =>
      let (sent, far) := far.send content
      let loopback := { loopback with far := some far }
      match sent with
      | .ok records =>
        loopback.enqueue (match spoiled with
          | none => records
          | some place => spoil records place)
      | .error error => loopback.note (.farRefusal error)
  | .farewell =>
    match loopback.far with
    | none => loopback
    | some _ => loopback.enqueue Session.closeNotify

/-- The far side takes what was sent. -/
def answer (loopback : Loopback G) (octets : Octets) : Loopback G :=
  match loopback.far with
  | none => loopback
  | some far =>
    let (outcome, far) := far.receive octets
    let loopback := { loopback with far := some far }
    let loopback := (loopback.note (.farOutcome outcome)).enqueue outcome.records
    match outcome with
    | .handshakeComplete _ =>
      loopback.afterHandshake.foldl perform { loopback with afterHandshake := [] }
    | _ => loopback

/-- Sends to the far side. -/
def post (octets : Octets) : EStateM Error (Loopback G) Unit := fun loopback =>
  let number := loopback.sends
  let loopback := { loopback with sends := number + 1 }
  match loopback.sendFailure number with
  | some error => .error error (loopback.note (.sendFailed octets))
  | none => .ok () ((loopback.note (.sent octets)).answer octets)

instance : Transport (Loopback G) where
  send := post
  receive := deliver
  supply loopback := loopback.queue.length
  supply_lt := queue_lt_of_deliver

end Loopback

end TransportSecurity
