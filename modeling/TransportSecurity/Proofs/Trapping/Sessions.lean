import TransportSecurity.Proofs.Trapping.Handlers

/-!
Sessions never trap.

Here sessions serve the same requests, made of operations that trap. A request to a session that was
made and used in any way, whose role fits, ends as `Session.serve` does and in no trap (`serve_eq`):
what the other end sends decides at most which error is reported. A role that does not fit does
trap (`start_of_long`).
-/

namespace TransportSecurity

namespace Endpoint

variable {G : Type} {e f : Endpoint G}

/-- An endpoint that can do all that its phase asks for without a trap. -/
structure Fit (e : Endpoint G) : Prop where
  sound : e.Sound
  role : e.role.Fits
  key : e.ShortKey

variable [Entropy G]

/-- The only key that a client ever accepts is read from a certificate. -/
theorem shortKey_of_answers {message records : Octets} (sound : e.Sound) (short : e.ShortKey)
    (answers : Answers message e records f) : f.ShortKey := by
  cases answers with
  | serverHello waits took =>
    obtain ⟨_, _, _, _, _, _, _, rfl⟩ := Client.receiveHello_eq_ok.mp took
    exact short
  | certificates waits took =>
    obtain ⟨_, _, _, key, _, _, read, _, _, _, rfl⟩ := Client.receiveCertificate_eq_ok.mp took
    rintro _ ⟨⟩
    exact Rsa.size_le_of_ofDer? (Certificate.rsaKey_eq_ok.mp read).2
  | serverHelloDone waits exchanged finished =>
    have clear : e.sendProtected = false := by rw [sound.sends, waits]; rfl
    obtain ⟨_, _, _, _, rfl, _⟩ := (Client.sendExchange_eq_ok clear).mp exchanged
    obtain ⟨_, _, _, _, _, _, _, _, encodes, rfl⟩ := Client.sendFinished_eq_ok.mp finished
    obtain ⟨_, _, rfl⟩ := encode_frame encodes
    exact short
  | serverFinished waits took =>
    obtain ⟨_, _, _, _, _, rfl⟩ := Client.receiveFinished_eq_ok.mp took
    exact short
  | clientHello waits took =>
    have clear : e.sendProtected = false := by rw [sound.sends, waits]; rfl
    obtain ⟨_, _, _, rfl, _⟩ := (Server.receiveHello_eq_ok clear).mp took
    exact short
  | clientKeyExchange waits took =>
    obtain ⟨_, _, _, _, _, _, _, _, _, _, _, _, _, _, _, rfl⟩ :=
      Server.receiveKeyExchange_eq_ok.mp took
    exact short
  | clientFinished waits took =>
    have clear : e.sendProtected = false := by rw [sound.sends, waits]; rfl
    obtain ⟨_, _, _, made, rfl, _⟩ := (Server.receiveFinished_eq_ok clear).mp took
    obtain ⟨_, _, rfl⟩ := encode_frame made.encodes
    exact short

theorem kept_shortKey : Kept fun _ (e : Endpoint G) => e.ShortKey where
  opened _ short := short
  changed _ short changed := by
    obtain ⟨_, _, _, rfl⟩ := receiveChange_eq_ok.mp changed
    exact short
  answered sound short answers := shortKey_of_answers sound short answers

theorem Fit.receiveMessage (fit : e.Fit) {message records : Octets}
    (took : Endpoint.receiveMessage message e = .ok records f) : f.Fit := by
  have answers := receiveMessage_eq_ok.mp took
  have same := (keeps_receiveMessage _ message).of_eq_ok took
  refine ⟨(advances_answers fit.sound answers).2, ?_,
    shortKey_of_answers fit.sound fit.key answers⟩
  rw [← Role.fits_idle, same, Role.fits_idle]
  exact fit.role

theorem Fit.receiveRecord (fit : e.Fit) {header : Record.Header} {record pending left : Octets}
    {progress : Progress}
    (handled : Endpoint.receiveRecord header record pending e = .ok (progress, left) f) :
    f.Fit := by
  have handles := receiveRecord_eq_ok.mp handled
  have same := (keeps_receiveRecord _ header record pending).of_eq_ok handled
  refine ⟨sound_handles fit.sound handles, ?_,
    kept_shortKey.handles (s := []) fit.sound fit.key handles⟩
  rw [← Role.fits_idle, same, Role.fits_idle]
  exact fit.role

end Endpoint

namespace Trapping

open Reader Endpoint

section Records

variable {G : Type} [Entropy G]

/-- Begins the role's part of the handshake; the answer is what to send. -/
def startHandshake : Act G Octets := do
  match (← get).role with
  | .client settings _ => Client.sendHello settings
  | .server settings _ => lift (TransportSecurity.Server.await settings)

theorem startHandshake_agrees {e : Endpoint G} (fits : e.role.Fits) :
    Agrees startHandshake Endpoint.startHandshake e := by
  unfold Agrees Follows startHandshake Endpoint.startHandshake
  rw [get_bind, get_bind]
  cases known : e.role with
  | client settings phase =>
    rw [known] at fits
    exact Client.sendHello_agrees fits e
  | server settings phase => exact Agrees.lift (Server.await settings)

/-- Does with a whole handshake message what the role asks for; the answer is what to send. -/
def receiveMessage (message : Octets) : Act G Octets := do
  let role := (← get).role
  let type ← ofExcept (raised (MessageType.ofMessage message))
  match role with
  | .client settings phase => Client.receive settings phase type message
  | .server settings phase => Server.receive settings phase type message

theorem receiveMessage_agrees {e : Endpoint G} (fit : e.Fit) (message : Octets) :
    Agrees (receiveMessage message) (Endpoint.receiveMessage message) e := by
  unfold Agrees Follows receiveMessage Endpoint.receiveMessage
  rw [get_bind, get_bind]
  refine Agrees.bind (.ofExcept rfl) fun type f ran => ?_
  obtain ⟨_, rfl⟩ := ofExcept_eq_ok.mp ran
  have fits := fit.role
  have short := fit.key
  cases known : e.role with
  | client settings phase =>
    exact Client.receive_agrees settings short phase type message
  | server settings phase =>
    rw [known] at fits
    exact Server.receive_agrees fits phase type message e

/-- The content of a record, its protection removed. -/
def open? (header : Record.Header) (record : Octets) : Act G Octets := do
  let endpoint ← get
  let clear := header.type = .alert && header.length = 2
  match endpoint.readKeys?, endpoint.receiveProtected && !clear with
  | some keys, true =>
    let (content, number) ← ofExcept (unprotect keys endpoint.receiveNumber record)
    modify ({ · with receiveNumber := number })
    return content
  | none, true => throw (.error (.cipher "receive keys missing"))
  | _, false =>
    if Record.maxFragment < header.length then
      throw (.error (.recordOverflow header.length))
    ofExcept (slice record Record.headerLength record.length)

omit [Entropy G] in
theorem open?_agrees {header : Record.Header} {record : Octets}
    (long : Record.headerLength ≤ record.length) (e : Endpoint G) :
    Agrees (open? header record) (Endpoint.open? header record) e := by
  have clear (f : Endpoint G) : Agrees (do
      if Record.maxFragment < header.length then
        throw (.error (.recordOverflow header.length))
      ofExcept (slice record Record.headerLength record.length) : Act G Octets)
    (do
      if Record.maxFragment < header.length then throw (.recordOverflow header.length)
      return record.drop Record.headerLength) f := by
    rw [slice_to_end long]
    exact .ite (fun _ => .refuse _) fun _ => .pure _
  refine .bind .get fun endpoint f _ => ?_
  dsimp only
  cases endpoint.receiveProtected && !(decide (header.type = .alert) && decide (header.length = 2))
    with
  | false => cases endpoint.readKeys? <;> exact clear f
  | true =>
    cases endpoint.readKeys? with
    | none => exact .throw _
    | some keys =>
      refine .bind (.ofExcept (unprotect_eq ..)) fun opened _ _ => ?_
      exact .bind (.modify _) fun _ _ _ => .pure _

/-- Handles the whole messages among the octets collected; the answer goes with the octets of the
message that is not whole yet. -/
def receiveMessages (records pending : Octets) : Act G (Progress × Octets) :=
  match _found : nextMessage? pending with
  | .error halt => throw halt
  | .ok none => return (.continued records, pending)
  | .ok (some (message, rest)) => do
    let answer ← receiveMessage message
    if (← get).stage = .established then
      if rest.isEmpty then return (.complete (records ++ answer), rest)
      else throw (.error (.unexpectedMessage "handshake message after Finished"))
    else receiveMessages (records ++ answer) rest
termination_by pending.length
decreasing_by
  rw [nextMessage?_eq, raised_eq_ok] at _found
  exact Assembly.length_lt_of_next? _found

theorem receiveMessages_agrees {e : Endpoint G} (fit : e.Fit) (records pending : Octets) :
    Agrees (receiveMessages records pending) (Endpoint.receiveMessages records pending) e := by
  fun_induction receiveMessages (G := G) records pending generalizing e with
  | case1 records pending halt found =>
    rw [nextMessage?_eq] at found
    obtain ⟨error, rfl, malformed⟩ := raised_eq_error.mp found
    rw [Endpoint.receiveMessages]
    split
    · next other =>
      cases other.symm.trans malformed
      exact .throw _
    · next other => cases other.symm.trans malformed
    · next other => cases other.symm.trans malformed
  | case2 records pending found =>
    rw [nextMessage?_eq, raised_eq_ok] at found
    rw [receiveMessages_of_nothing found]
    exact .pure _
  | case3 records pending message rest found ih =>
    rw [nextMessage?_eq, raised_eq_ok] at found
    rw [receiveMessages_of_found found]
    refine .bind (receiveMessage_agrees fit message) fun answer f took => ?_
    refine .bind .get fun _ _ ran => ?_
    obtain ⟨rfl, rfl⟩ := get_eq_ok.mp ran
    refine .ite (fun _ => ?_) fun _ => ih answer (fit.receiveMessage took)
    exact .ite (fun _ => .pure _) fun _ => .throw _

/-- Handles a whole record, given the octets collected for a message that is not whole yet; the
answer goes with the octets collected after it. -/
def receiveRecord (header : Record.Header) (record pending : Octets) :
    Act G (Progress × Octets) := do
  let content ← open? header record
  match header.type with
  | .changeCipherSpec =>
    ofExcept (checkChange content)
    unless pending.isEmpty do
      throw (.error (.unexpectedMessage "change cipher spec inside a handshake message"))
    lift receiveChange
    return (.continued [], pending)
  | .alert =>
    let alert ← ofExcept (Reader.whole alert content)
    throw (.error (.alertReceived alert.level alert.description))
  | .applicationData =>
    unless (← get).stage = .established do
      throw (.error (.unexpectedMessage "application data before handshake completion"))
    return (.data content, pending)
  | .handshake =>
    if (← get).stage = .established then
      throw (.error (.unexpectedMessage "renegotiation is not supported"))
    receiveMessages [] (pending ++ content)

theorem receiveRecord_agrees {e : Endpoint G} (fit : e.Fit) {header : Record.Header}
    {record : Octets} (long : Record.headerLength ≤ record.length) (pending : Octets) :
    Agrees (receiveRecord header record pending) (Endpoint.receiveRecord header record pending)
      e := by
  refine .bind (open?_agrees long e) fun content f opened => ?_
  have fit : f.Fit := by
    obtain ⟨_, rfl⟩ := open?_frame opened
    exact ⟨fit.sound, fit.role, fit.key⟩
  cases header.type with
  | changeCipherSpec =>
    refine .bind (.ofExcept (checkChange_eq content)) fun _ _ _ => ?_
    refine .ite (fun _ => ?_) fun _ => .refuse _
    exact .bind (.lift _) fun _ _ _ => .pure _
  | alert =>
    exact .bind (.ofExcept (reads_alert.whole content)) fun _ _ _ => .throw _
  | applicationData =>
    refine .bind .get fun _ _ _ => ?_
    exact .ite (fun _ => .pure _) fun _ => .refuse _
  | handshake =>
    refine .bind .get fun _ _ ran => ?_
    obtain ⟨rfl, rfl⟩ := get_eq_ok.mp ran
    exact .ite (fun _ => .refuse _) fun _ => receiveMessages_agrees fit ..

end Records

section Sessions

variable {G : Type}

/-- Does something with the endpoint and leaves the buffers alone. -/
def act {α : Type} (session : Session G) (action : Act G α) :
    Except Trap (Except Error α × Session G) :=
  match action session.endpoint with
  | .ok value endpoint => .ok (.ok value, { session with endpoint })
  | .error (.error error) endpoint => .ok (.error error, { session with endpoint })
  | .error (.trap trap) _ => .error trap

theorem act_eq {α : Type} (session : Session G) {action : Act G α} {step : Step G α}
    (agrees : Agrees action step session.endpoint) :
    act session action = .ok (session.act step) := by
  unfold act Session.act
  cases ended : step session.endpoint with
  | ok value endpoint => rw [agrees.eq_ok ended]
  | error error endpoint => rw [agrees.eq_error ended]

variable [Entropy G]

/-- Begins a handshake; the answer is what to send. -/
def start (session : Session G) : Except Trap (Except Error Octets × Session G) :=
  match session.endpoint.stage with
  | .initial => do
    let endpoint :=
      { session.endpoint with stage := .handshaking, transcript := some Transcript.empty }
    match ← act { session with endpoint } startHandshake with
    | (.ok records, session) => return (.ok records, session)
    | (.error error, session) => return (.error error, (session.fail error).2)
  | .failed => return (.error .sessionFailed, session)
  | _ => return (.error (.invalidState "session already started"), session)

theorem start_eq {session : Session G} (fits : session.endpoint.role.Fits) :
    start session = .ok session.start := by
  unfold start Session.start
  cases session.endpoint.stage with
  | initial =>
    have begun := act_eq { session with
      endpoint := { session.endpoint with
        stage := .handshaking
        transcript := some Transcript.empty } } (startHandshake_agrees fits)
    dsimp only at begun ⊢
    rw [begun, ok_bind]
    generalize Session.act _ _ = result
    obtain ⟨answer, begun⟩ := result
    cases answer <;> rfl
  | handshaking => rfl
  | established => rfl
  | failed => rfl

/-- A client that offers more suites than its hello has room for cannot write the length. -/
theorem start_of_long {settings : ClientSettings} {source : G} {session : Session G}
    (made : Session.client settings source = .ok session) (lasting : Entropy.Lasting source)
    (many : 0xffffff < 39 + 2 * settings.suites.length) :
    start session = .error (.tooLarge (39 + 2 * settings.suites.length)) := by
  obtain ⟨_, _, rfl⟩ := Session.client_eq_ok.mp made
  obtain ⟨random, next, drawn, _⟩ := lasting.demand 32
  have begun := Client.sendHello_of_long
    (e := { role := .client settings .idle, stage := .handshaking
            transcript := some Transcript.empty, source }) drawn many
  unfold start act startHandshake
  dsimp only
  rw [get_bind]
  dsimp only
  rw [begun]
  rfl

/-- Handles the whole records in the inbox. `records` is what is to be sent already, and `data` what
is to be handed out. -/
def drain (records data : Octets) (session : Session G) : Except Trap (Outcome × Session G) :=
  match _found : nextRecord? session.inbox with
  | .error (.trap trap) => .error trap
  | .error (.error error) => .ok (session.stop error data)
  | .ok none =>
    if !data.isEmpty then .ok (.applicationData data, session)
    else if !records.isEmpty then .ok (.output records, session)
    else .ok (.needMoreData, session)
  | .ok (some (header, record, inbox)) =>
    match receiveRecord header record session.pending session.endpoint with
    | .ok (.continued answer, pending) endpoint =>
      drain (records ++ answer) data { session with endpoint, inbox, pending }
    | .ok (.data content, pending) endpoint =>
      drain records (data ++ content) { session with endpoint, inbox, pending }
    | .ok (.complete answer, pending) endpoint =>
      .ok (.handshakeComplete (records ++ answer), { session with endpoint, inbox, pending })
    | .error (.error error) endpoint => .ok ({ session with endpoint, inbox }.stop error data)
    | .error (.trap trap) _ => .error trap
termination_by session.inbox.length
decreasing_by
  all_goals
    rw [nextRecord?_eq, raised_eq_ok] at _found
    exact Record.length_lt_of_next? _found

section Drained

variable {session : Session G} {records data : Octets}

theorem drain_of_error {error : Error} (malformed : Record.next? session.inbox = .error error) :
    drain records data session = .ok (session.stop error data) := by
  rw [drain]
  have found : nextRecord? session.inbox = .error (.error error) := by
    rw [nextRecord?_eq, malformed, raised_error]
  split
  · next other => cases other.symm.trans found
  · next other =>
    cases other.symm.trans found
    rfl
  · next other => cases other.symm.trans found
  · next other => cases other.symm.trans found

theorem drain_of_nothing (nothing : Record.next? session.inbox = .ok none) :
    drain records data session =
      if !data.isEmpty then .ok (.applicationData data, session)
      else if !records.isEmpty then .ok (.output records, session)
      else .ok (.needMoreData, session) := by
  rw [drain]
  have found : nextRecord? session.inbox = .ok none := by
    rw [nextRecord?_eq, nothing, raised_ok]
  split
  · next other => cases other.symm.trans found
  · next other => cases other.symm.trans found
  · rfl
  · next other => cases other.symm.trans found

theorem drain_of_found {header : Record.Header} {record inbox : Octets}
    (whole : Record.next? session.inbox = .ok (some (header, record, inbox))) :
    drain records data session =
      match receiveRecord header record session.pending session.endpoint with
      | .ok (.continued answer, pending) endpoint =>
        drain (records ++ answer) data { session with endpoint, inbox, pending }
      | .ok (.data content, pending) endpoint =>
        drain records (data ++ content) { session with endpoint, inbox, pending }
      | .ok (.complete answer, pending) endpoint =>
        .ok (.handshakeComplete (records ++ answer), { session with endpoint, inbox, pending })
      | .error (.error error) endpoint => .ok ({ session with endpoint, inbox }.stop error data)
      | .error (.trap trap) _ => .error trap := by
  rw [drain]
  have found : nextRecord? session.inbox = .ok (some (header, record, inbox)) := by
    rw [nextRecord?_eq, whole, raised_ok]
  split
  · next other => cases other.symm.trans found
  · next other => cases other.symm.trans found
  · next other => cases other.symm.trans found
  · next other =>
    cases other.symm.trans found
    rfl

/-- As long as its endpoint is fit a session handles record after record without a trap. -/
theorem drain_eq (fit : session.endpoint.Fit) (records data : Octets) :
    drain records data session = .ok (Session.drain records data session) := by
  have long {header : Record.Header} {record inbox : Octets} {session : Session G}
      (found : Record.next? session.inbox = .ok (some (header, record, inbox))) :
      Record.headerLength ≤ record.length := by
    rw [(Record.next?_eq_some found).2, Record.Header.recordLength]
    exact Nat.le_add_right ..
  fun_induction Session.drain records data session with
  | case1 records data session error found => exact drain_of_error found
  | case2 records data session found some => rw [drain_of_nothing found, if_pos some]
  | case3 records data session found none some =>
    rw [drain_of_nothing found, if_neg none, if_pos some]
  | case4 records data session found none nothing =>
    rw [drain_of_nothing found, if_neg none, if_neg nothing]
  | case5 records data session header record inbox found answer pending endpoint handled ih =>
    rw [drain_of_found found, (receiveRecord_agrees fit (long found) _).eq_ok handled]
    exact ih (fit.receiveRecord handled)
  | case6 records data session header record inbox found content pending endpoint handled ih =>
    rw [drain_of_found found, (receiveRecord_agrees fit (long found) _).eq_ok handled]
    exact ih (fit.receiveRecord handled)
  | case7 records data session header record inbox found answer pending endpoint handled =>
    rw [drain_of_found found, (receiveRecord_agrees fit (long found) _).eq_ok handled]
  | case8 records data session header record inbox found error endpoint handled =>
    rw [drain_of_found found, (receiveRecord_agrees fit (long found) _).eq_error handled]

end Drained

/-- Takes octets from the other end. -/
def receive (session : Session G) (octets : Octets) : Except Trap (Outcome × Session G) :=
  match session.endpoint.stage with
  | .failed =>
    let (failure, session) := session.takeFailure
    .ok (.failed failure, session)
  | .initial => .ok (.failed ⟨.invalidState "session not started", none⟩, session)
  | _ => drain [] [] { session with inbox := session.inbox ++ octets }

/-- Protects data; the answer is what to send. -/
def send (session : Session G) (data : Octets) : Except Trap (Except Error Octets × Session G) :=
  match session.endpoint.stage with
  | .established => act session (encode .applicationData data)
  | .failed => .ok (.error .sessionFailed, session)
  | _ => .ok (.error .handshakeIncomplete, session)

/-- Makes a call. -/
def perform (session : Session G) : Call → Except Trap (Reply × Session G)
  | .start => do
    let (result, session) ← start session
    return (.answered result, session)
  | .receive octets => do
    let (outcome, session) ← receive session octets
    return (.received outcome, session)
  | .send data => do
    let (result, session) ← send session data
    return (.answered result, session)

/-- Serves a request; a reset returns nothing. -/
def serve (session : Session G) : Request → Except Trap (Option Reply × Session G)
  | .call call => do
    let (reply, session) ← perform session call
    return (some reply, session)
  | .closeNotify => return (some (.answered (.ok Session.closeNotify)), session)
  | .reset => return (none, session.reset)

/-- Serves requests, one after the other. -/
def serveAll (session : Session G) :
    List Request → Except Trap (List (Option Reply) × Session G)
  | [] => return ([], session)
  | request :: requests => do
    let (reply, next) ← serve session request
    let (replies, last) ← serveAll next requests
    return (reply :: replies, last)

theorem invariant_shortKey : Session.Invariant fun e : Endpoint G => e.ShortKey where
  blank _ blank key known := by
    cases blank.serverKey.symm.trans known
  begun _ _ short begins := by
    cases begins with
    | client role sent =>
      obtain ⟨_, _, _, _, _, _, _, _, encodes⟩ := Client.sendHello_eq_ok.mp sent
      obtain ⟨_, _, rfl⟩ := encode_frame encodes
      exact short
    | server role => exact short
  taken := kept_shortKey
  encoded _ _ short := short

section Uses

variable {session : Session G}

theorem receive_eq (fit : session.endpoint.stage ≠ .failed → session.endpoint.Fit)
    (octets : Octets) : receive session octets = .ok (session.receive octets) := by
  unfold receive Session.receive
  cases stage : session.endpoint.stage with
  | initial => rfl
  | handshaking =>
    have fit : { session with inbox := session.inbox ++ octets }.endpoint.Fit :=
      fit (by simp [stage])
    exact drain_eq fit [] []
  | established =>
    have fit : { session with inbox := session.inbox ++ octets }.endpoint.Fit :=
      fit (by simp [stage])
    exact drain_eq fit [] []
  | failed => rfl

theorem send_eq (session : Session G) (data : Octets) :
    send session data = .ok (session.send data) := by
  unfold send Session.send
  cases session.endpoint.stage with
  | initial => rfl
  | handshaking => rfl
  | established => exact act_eq session (encode_agrees ..)
  | failed => rfl

/-- A call of a session in use is what it is without traps. -/
theorem perform_eq (reachable : session.Reachable) (fits : session.endpoint.role.Fits)
    (call : Call) : perform session call = .ok (session.perform call) := by
  have fit (active : session.endpoint.stage ≠ .failed) : session.endpoint.Fit :=
    ⟨(reachable.orderly.resolve_right active).endpoint, fits,
      invariant_shortKey.reachable reachable active⟩
  cases call with
  | start =>
    rw [perform, start_eq fits]
    rfl
  | receive octets =>
    rw [perform, receive_eq fit]
    rfl
  | send data =>
    rw [perform, send_eq]
    rfl

theorem serve_eq (reachable : session.Reachable) (fits : session.endpoint.role.Fits)
    (request : Request) : serve session request = .ok (session.serve request) := by
  cases request with
  | call call =>
    rw [serve, perform_eq reachable fits]
    rfl
  | closeNotify => rfl
  | reset => rfl

/-- Whatever a session in use is asked for, in any order, and whatever octets it is given, it never
meets an operation without a result: every request returns what it returns without traps. -/
theorem serveAll_never_traps (reachable : session.Reachable)
    (fits : session.endpoint.role.Fits) (requests : List Request) :
    serveAll session requests = .ok (session.serveAll requests) := by
  induction requests generalizing session with
  | nil => rfl
  | cons request requests ih =>
    have same : (session.serve request).2.endpoint.role.idle = session.endpoint.role.idle :=
      (Session.Becomes.serve .refl request).idle
    have later : (session.serve request).2.endpoint.role.Fits := by
      rw [← Role.fits_idle, same, Role.fits_idle]
      exact fits
    rw [serveAll, serve_eq reachable fits, ok_bind]
    dsimp only
    rw [ih (reachable.serve request) later]
    rfl

end Uses

/-- A client and a server that shake hands do so without a trap. -/
theorem serveAll_never_traps_rehearsal :
    (∃ octets replies last, serveAll Rehearsal.client [.call .start, .call (.receive octets)] =
      .ok (replies, last) ∧ last.endpoint.stage = .established) ∧
    ∃ octets replies last, serveAll Rehearsal.server [.call .start, .call (.receive octets)] =
      .ok (replies, last) ∧ last.endpoint.stage = .established := by
  obtain ⟨_, _, _, toClient, toServer, rfl, rfl, _, _, agree, _⟩ := Rehearsal.pairing.exists_agreed
  obtain ⟨_, _, clientMade⟩ := Rehearsal.pairing.clientMade
  obtain ⟨_, _, serverMade⟩ := Rehearsal.pairing.serverMade
  have clientReachable : Rehearsal.client.Reachable := ⟨_, .client clientMade, .refl⟩
  have serverReachable : Rehearsal.server.Reachable := ⟨_, .server serverMade, .refl⟩
  have few : Rehearsal.client.endpoint.role.Fits := fun _ => fits_offering_iff.mpr (by decide)
  have room : Rehearsal.server.endpoint.role.Fits :=
    fits_certificates_iff.mpr (by decide +kernel)
  exact ⟨⟨toClient, _, _, serveAll_never_traps clientReachable few _, agree.clientOver⟩,
    toServer, _, _, serveAll_never_traps serverReachable room _, agree.serverOver⟩

end Sessions

end Trapping

end TransportSecurity
