import TransportSecurity.Proofs.Session.Feeding

/-!
Two sessions and the octets between them.

Each end reads what the other has sent, as much at a time and in whatever turn it happens
(`Network.Move`). If the records that one end would take are those that the other asks to send while
it takes its own (`Conversation`), then every schedule comes to the same end: at most so many moves
read anything, and once nothing is left to be read, both ends have taken all their records
(`Conversation.settles`).
-/

namespace TransportSecurity

namespace Handled

/-- If all of some records has arrived and no whole record waits, then these records were taken. -/
theorem caught_up {done rest a b : List Handled} {inbox more : Octets}
    (whole : ∀ handled ∈ a, Record.IsWhole handled.header handled.record)
    (same : done ++ rest = a ++ b) (arrived : stream done ++ inbox = stream a ++ more)
    (waits : Record.next? inbox = .ok none) : ∃ c, done = a ++ c := by
  rcases List.append_eq_append_iff.mp same with ⟨left, rfl, _⟩ | ⟨c, rfl, _⟩
  · cases left with
    | nil => exact ⟨[], by simp⟩
    | cons handled left =>
      -- otherwise the next record would wait in the inbox
      rw [stream_append, List.append_assoc, stream_cons, List.append_assoc] at arrived
      have isWhole := whole handled (by simp)
      rw [List.append_cancel_left arrived] at waits
      cases waits.symm.trans (Record.next?_eq_some_iff.mpr ⟨isWhole, rfl⟩)
  · exact ⟨c, rfl⟩

end Handled

namespace Session

open Handled

variable {G : Type} [Entropy G]

/-- A session on the way through records: some are done, and of the rest a part is in the inbox and
what is ahead has not been read. -/
structure Midway (first now : Session G) (done rest : List Handled) (last : Endpoint G)
    (ahead : Octets) : Prop where
  frame : { first with
    endpoint := now.endpoint
    inbox := now.inbox
    pending := now.pending } = now
  sound : now.endpoint.Sound
  active : now.endpoint.stage = .handshaking ∨ now.endpoint.stage = .established
  taken : Endpoint.Takes first.endpoint first.pending done now.endpoint now.pending
  takes : Endpoint.Takes now.endpoint now.pending rest last []
  arrives : now.inbox ++ ahead = stream rest
  waits : Record.next? now.inbox = .ok none
  closing : Closing rest
  silent : contents rest = []

variable {first now : Session G} {done rest : List Handled} {last : Endpoint G}
  {octets ahead : Octets}

/-- A session that has taken nothing yet is at the beginning of its way. -/
theorem midway_of_takes {e : Endpoint G} (sound : e.Sound) (running : e.stage = .handshaking)
    (takes : Endpoint.Takes e [] rest last []) (closing : Closing rest)
    (silent : contents rest = []) :
    Midway { endpoint := e } { endpoint := e } [] rest last (stream rest) :=
  ⟨rfl, sound, Or.inl running, .nil, takes, rfl, rfl, closing, silent⟩

/-- A read leads further on the way, and asks to send what the records ask for that it completes. -/
theorem Midway.receive (midway : Midway first now done rest last (octets ++ ahead)) :
    ∃ more left, rest = more ++ left ∧ (now.receive octets).1.answer = answers more ∧
      Midway first (now.receive octets).2 (done ++ more) left last ahead := by
  have arrives := midway.arrives
  rw [← List.append_assoc] at arrives
  obtain ⟨more, inbox, left, rfl, cut, tail, waits, _⟩ := stream_cut midway.takes.whole arrives
  obtain ⟨endpoint, pending, before, after⟩ := midway.takes.split
  have silent := midway.silent
  rw [contents_append] at silent
  obtain ⟨quiet, still⟩ := List.append_eq_nil_iff.mp silent
  have closing : Closing more := by
    rcases midway.closing.split.1 with opened | rfl
    · exact .isOpen opened
    · have whole := midway.closing
      rwa [List.append_nil] at whole
  obtain ⟨outcome, drained, answer, _⟩ :=
    drain_of_closing { now with inbox := now.inbox ++ octets } before closing (Or.inl quiet) cut
      waits
  refine ⟨more, left, rfl, ?_, ?_⟩
  · rw [receive_eq_drain midway.active, drained]
    exact answer
  · rw [receive_eq_drain midway.active, drained]
    refine ⟨?_, before.sound midway.sound, before.active midway.sound midway.active,
      midway.taken.append before, after, tail, waits, midway.closing.split.2, still⟩
    have frame := midway.frame
    dsimp only
    rw [← frame]

/-- What was taken, what is in the inbox and what is ahead are all the records. -/
theorem Midway.arrived (midway : Midway first now done rest last ahead) :
    stream done ++ now.inbox ++ ahead = stream (done ++ rest) := by
  rw [List.append_assoc, midway.arrives, stream_append]

/-- Records that have arrived were taken. -/
theorem Midway.caught_up {a b : List Handled} {more : Octets}
    (midway : Midway first now done rest last ahead) (split : done ++ rest = a ++ b)
    (arrived : stream done ++ now.inbox = stream a ++ more) : ∃ c, done = a ++ c := by
  have whole := (midway.taken.append midway.takes).whole
  rw [split] at whole
  exact Handled.caught_up (fun handled found => whole handled (List.mem_append_left _ found)) split
    arrived midway.waits

/-- If all records have arrived, none is left. -/
theorem Midway.nothing_left {a : List Handled} {more : Octets}
    (midway : Midway first now done rest last ahead) (split : done ++ rest = a)
    (arrived : stream done ++ now.inbox = stream a ++ more) : done = a ∧ rest = [] := by
  rw [← List.append_nil a] at split
  obtain ⟨c, rfl⟩ := midway.caught_up split arrived
  rw [List.append_assoc] at split
  obtain ⟨rfl, rfl⟩ := List.append_eq_nil_iff.mp (List.append_cancel_left split)
  exact ⟨List.append_nil a, rfl⟩

/-- At the end of the way nothing is left over. -/
theorem Midway.ends (midway : Midway first now done [] last ahead) :
    { first with endpoint := last, inbox := [], pending := [] } = now := by
  have frame := midway.frame
  have arrives := midway.arrives
  have takes := midway.takes
  obtain ⟨nothing, _⟩ := List.append_eq_nil_iff.mp arrives
  rw [nothing] at frame
  rw [← frame]
  generalize now.endpoint = endpoint, now.pending = pending at takes
  cases takes
  rfl

/-- A read of all that is ahead leads to the end of the way. -/
theorem Midway.receive_ahead (midway : Midway first now done rest last ahead) :
    { first with endpoint := last, inbox := [], pending := [] } = (now.receive ahead).2 := by
  rw [← List.append_nil ahead] at midway
  obtain ⟨more, left, rfl, _, later⟩ := midway.receive
  have arrived := later.arrived
  rw [List.append_nil, ← List.append_nil (stream (_ ++ _ ++ _))] at arrived
  obtain ⟨_, rfl⟩ := later.nothing_left rfl arrived
  exact later.ends

end Session

/-- A client and a server, and what each of them has sent that the other has not read. -/
structure Network (G H : Type) where
  client : Session G
  server : Session H
  toServer : Octets
  toClient : Octets

namespace Network

open Handled

/-- One end reads, up to a number of octets. -/
inductive Move where
  | serverReads (count : Nat)
  | clientReads (count : Nat)

variable {G H : Type}

/-- The octets that a move reads. -/
def reads (network : Network G H) : Move → Octets
  | .serverReads count => network.toServer.take count
  | .clientReads count => network.toClient.take count

/-- Nothing is left to be read. -/
def Quiet (network : Network G H) : Prop := network.toServer = [] ∧ network.toClient = []

variable [Entropy G] [Entropy H]

/-- What a session that starts asks to send; nothing if it cannot start. -/
def sent : Except Error Octets → Octets
  | .ok records => records
  | .error _ => []

/-- Both ends start. -/
def opening (client : Session G) (server : Session H) : Network G H where
  client := client.start.2
  server := server.start.2
  toServer := sent client.start.1
  toClient := sent server.start.1

/-- What one end reads is gone, and what it then asks to send is there for the other. -/
def step (network : Network G H) : Move → Network G H
  | .serverReads count =>
    let (outcome, server) := network.server.receive (network.toServer.take count)
    { network with
      server
      toServer := network.toServer.drop count
      toClient := network.toClient ++ outcome.answer }
  | .clientReads count =>
    let (outcome, client) := network.client.receive (network.toClient.take count)
    { network with
      client
      toServer := network.toServer ++ outcome.answer
      toClient := network.toClient.drop count }

/-- Moves one after the other. -/
def run (network : Network G H) (moves : List Move) : Network G H := moves.foldl step network

/-- Every move reads something. -/
def Busy : Network G H → List Move → Prop
  | _, [] => True
  | network, move :: moves => network.reads move ≠ [] ∧ Busy (network.step move) moves

/-- Whatever the schedule, only so many moves read anything; every schedule can be continued until
nothing is left to be read, and then the network is as stated. -/
structure Settles (network : Network G H) (state : Network G H → Prop) : Prop where
  bounded : ∃ bound, ∀ moves, network.Busy moves → moves.length ≤ bound
  continues : ∀ moves, ∃ more, (network.run (moves ++ more)).Quiet
  settled : ∀ moves, (network.run moves).Quiet → state (network.run moves)

omit [Entropy G] [Entropy H] in
/-- As long as something is left to be read, there is a move that reads something. -/
theorem exists_reads {network : Network G H} (unread : ¬network.Quiet) :
    ∃ move, network.reads move ≠ [] := by
  by_cases toServer : network.toServer = []
  · refine ⟨.clientReads network.toClient.length, ?_⟩
    rw [reads, List.take_length]
    exact fun toClient => unread ⟨toServer, toClient⟩
  · refine ⟨.serverReads network.toServer.length, ?_⟩
    rwa [reads, List.take_length]

end Network

open Handled Network

variable {G H : Type} [Entropy G] [Entropy H]

/-- Records that two ends take from each other: the server those of the hello and then those of the
exchange, the client those of the server's flight and then those of its finish. Each flight is what
the one before it asks for. -/
structure Conversation (client : Session G) (server : Session H) (clientLast : Endpoint G)
    (serverLast : Endpoint H) (hello exchange flight finish : List Handled) : Prop where
  serverStarts : server.Midway server [] (hello ++ exchange) serverLast (stream (hello ++ exchange))
  clientStarts : client.Midway client [] (flight ++ finish) clientLast (stream (flight ++ finish))
  answersHello : answers hello = stream flight
  answersFlight : answers flight = stream exchange
  answersExchange : answers exchange = stream finish
  answersFinish : answers finish = []

namespace Conversation

variable {client : Session G} {server : Session H} {clientLast : Endpoint G}
  {serverLast : Endpoint H} {hello exchange flight finish : List Handled}

/-- Where two ends stand in their conversation, and how many octets are still to be read. -/
def Inv (client : Session G) (server : Session H) (clientLast : Endpoint G)
    (serverLast : Endpoint H) (hello exchange flight finish : List Handled)
    (network : Network G H) (remaining : Nat) : Prop :=
  ∃ serverDone serverRest clientDone clientRest,
    serverDone ++ serverRest = hello ++ exchange ∧ clientDone ++ clientRest = flight ++ finish ∧
    server.Midway network.server serverDone serverRest serverLast
      (network.toServer ++ answers clientRest) ∧
    client.Midway network.client clientDone clientRest clientLast
      (network.toClient ++ answers serverRest) ∧
    (network.toServer ++ answers clientRest).length +
      (network.toClient ++ answers serverRest).length = remaining

/-- A move leaves as many octets less to be read as it reads. -/
theorem inv_step {network : Network G H} {remaining : Nat}
    (inv : Inv client server clientLast serverLast hello exchange flight finish network remaining)
    (move : Move) : ∃ fewer, fewer + (network.reads move).length = remaining ∧
      Inv client server clientLast serverLast hello exchange flight finish (network.step move)
        fewer := by
  obtain ⟨serverDone, serverRest, clientDone, clientRest, serverSplit, clientSplit, serverMidway,
    clientMidway, rfl⟩ := inv
  cases move with
  | serverReads count =>
    have all := List.take_append_drop count network.toServer
    rw [← all, List.append_assoc] at serverMidway
    obtain ⟨more, left, rfl, answer, midway⟩ := serverMidway.receive
    rw [answers_append, ← answer, ← List.append_assoc] at clientMidway ⊢
    refine ⟨_, ?_, serverDone ++ more, left, clientDone, clientRest, ?_, clientSplit, midway,
      clientMidway, rfl⟩
    · have length := congrArg List.length all
      rw [List.length_append] at length
      simp only [List.length_append, reads, step]
      omega
    · rw [List.append_assoc]
      exact serverSplit
  | clientReads count =>
    have all := List.take_append_drop count network.toClient
    rw [← all, List.append_assoc] at clientMidway
    obtain ⟨more, left, rfl, answer, midway⟩ := clientMidway.receive
    rw [answers_append, ← answer, ← List.append_assoc] at serverMidway ⊢
    refine ⟨_, ?_, serverDone, serverRest, clientDone ++ more, left, serverSplit, ?_, serverMidway,
      midway, rfl⟩
    · have length := congrArg List.length all
      rw [List.length_append] at length
      simp only [List.length_append, reads, step]
      omega
    · rw [List.append_assoc]
      exact clientSplit

/-- A schedule of moves that read something is no longer than there are octets to read. -/
theorem length_le_of_busy {network : Network G H} {remaining : Nat} {moves : List Move}
    (inv : Inv client server clientLast serverLast hello exchange flight finish network remaining)
    (busy : network.Busy moves) : moves.length ≤ remaining := by
  induction moves generalizing network remaining with
  | nil => exact Nat.zero_le _
  | cons move moves ih =>
    obtain ⟨fewer, count, inv⟩ := inv_step inv move
    have some := List.length_pos_iff.mpr busy.1
    have rest := ih inv busy.2
    rw [List.length_cons]
    omega

theorem inv_run {network : Network G H} {remaining : Nat} (moves : List Move)
    (inv : Inv client server clientLast serverLast hello exchange flight finish network remaining) :
    ∃ fewer, Inv client server clientLast serverLast hello exchange flight finish
      (network.run moves) fewer := by
  induction moves generalizing network remaining with
  | nil => exact ⟨remaining, inv⟩
  | cons move moves ih =>
    obtain ⟨fewer, _, inv⟩ := inv_step inv move
    exact ih inv

/-- A schedule can be continued until nothing is left to be read. -/
theorem exists_quiet {network : Network G H} {remaining : Nat}
    (inv : Inv client server clientLast serverLast hello exchange flight finish network remaining) :
    ∃ moves, (network.run moves).Quiet := by
  induction remaining using Nat.strongRecOn generalizing network with
  | ind remaining ih =>
    by_cases quiet : network.Quiet
    · exact ⟨[], quiet⟩
    · obtain ⟨move, some⟩ := exists_reads quiet
      obtain ⟨fewer, count, inv⟩ := inv_step inv move
      have read := List.length_pos_iff.mpr some
      obtain ⟨moves, rests⟩ := ih fewer (by omega) inv
      exact ⟨move :: moves, rests⟩

/-- When nothing is left to be read, the conversation is over. -/
theorem over_of_quiet {network : Network G H} {remaining : Nat}
    (conversation : Conversation client server clientLast serverLast hello exchange flight finish)
    (inv : Inv client server clientLast serverLast hello exchange flight finish network remaining)
    (quiet : network.Quiet) :
    { client with endpoint := clientLast, inbox := [], pending := [] } = network.client ∧
      { server with endpoint := serverLast, inbox := [], pending := [] } = network.server := by
  obtain ⟨serverDone, serverRest, clientDone, clientRest, serverSplit, clientSplit, serverMidway,
    clientMidway, _⟩ := inv
  rw [quiet.1, List.nil_append] at serverMidway
  rw [quiet.2, List.nil_append] at clientMidway
  -- what each end has got is what the other asked to send by then
  have serverGot : stream serverDone ++ network.server.inbox =
      stream hello ++ answers clientDone := by
    have asked := congrArg answers clientSplit
    rw [answers_append, answers_append, conversation.answersFlight, conversation.answersFinish,
      List.append_nil] at asked
    have arrived := serverMidway.arrived
    rw [serverSplit, stream_append, ← asked, ← List.append_assoc] at arrived
    exact List.append_cancel_right arrived
  have clientGot : stream clientDone ++ network.client.inbox = answers serverDone := by
    have asked := congrArg answers serverSplit
    rw [answers_append, answers_append, conversation.answersHello, conversation.answersExchange]
      at asked
    have arrived := clientMidway.arrived
    rw [clientSplit, stream_append, ← asked] at arrived
    exact List.append_cancel_right arrived
  -- so the server has taken the hello, the client the flight, and so on to the end
  obtain ⟨x, taken⟩ := serverMidway.caught_up serverSplit serverGot
  rw [taken, answers_append, conversation.answersHello] at clientGot
  obtain ⟨y, taken'⟩ := clientMidway.caught_up clientSplit clientGot
  rw [taken', answers_append, conversation.answersFlight, ← List.append_assoc, ← stream_append]
    at serverGot
  obtain ⟨all, rfl⟩ := serverMidway.nothing_left serverSplit serverGot
  cases List.append_cancel_left (taken.symm.trans all)
  rw [conversation.answersExchange, ← stream_append, ← List.append_nil (stream (_ ++ _))]
    at clientGot
  obtain ⟨_, rfl⟩ := clientMidway.nothing_left clientSplit clientGot
  exact ⟨clientMidway.ends, serverMidway.ends⟩

/-- Whatever the schedule, both ends take all their records. -/
theorem settles
    (conversation : Conversation client server clientLast serverLast hello exchange flight finish) :
    Settles ⟨client, server, stream hello, []⟩ fun network =>
      { client with endpoint := clientLast, inbox := [], pending := [] } = network.client ∧
        { server with endpoint := serverLast, inbox := [], pending := [] } = network.server := by
  have inv : ∃ remaining, Inv client server clientLast serverLast hello exchange flight finish
      ⟨client, server, stream hello, []⟩ remaining := by
    refine ⟨_, [], hello ++ exchange, [], flight ++ finish, rfl, rfl, ?_, ?_, rfl⟩
    · have starts := conversation.serverStarts
      rw [stream_append, ← conversation.answersFlight] at starts
      rw [answers_append, conversation.answersFinish, List.append_nil]
      exact starts
    · have starts := conversation.clientStarts
      rw [stream_append, ← conversation.answersHello, ← conversation.answersExchange,
        ← answers_append] at starts
      exact starts
  obtain ⟨remaining, inv⟩ := inv
  refine ⟨⟨remaining, fun moves => length_le_of_busy inv⟩, fun moves => ?_, fun moves quiet => ?_⟩
  · obtain ⟨_, inv⟩ := inv_run moves inv
    obtain ⟨more, rests⟩ := exists_quiet inv
    refine ⟨more, ?_⟩
    rw [run, List.foldl_append]
    exact rests
  · obtain ⟨_, inv⟩ := inv_run moves inv
    exact over_of_quiet conversation inv quiet

end Conversation

end TransportSecurity
