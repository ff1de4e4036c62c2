import TransportSecurity.Proofs.Causes
import TransportSecurity.Proofs.Session.Agreement
import TransportSecurity.Proofs.Session.Phases

/-!
What an endpoint refuses octets for.

The parts of an endpoint fit together in every phase, so the errors that guard against their not
doing so never come up: whatever arrives, an endpoint fails with a foreseen error, or, only while a
client waits for the server's hello, because of the suite that this hello names (`Role.Blames`).
So what a phase determines of a session in use, it determines whatever was done to the session, and
no call fails for want of it (`phase_determines`).
-/

namespace TransportSecurity

/-- What a role can fail for. -/
def Role.Blames (role : Role) (error : Error) : Prop :=
  error.isForeseen = true ∨ ∃ settings suite, role = .client settings .serverHello ∧
    suite ∉ settings.suites ∧ error = .unsupportedSuite suite

/-- Keys come before protected records. -/
theorem Role.shape_secrets {role : Role} (receives : role.shape.receives = true) :
    role.shape.secrets = true := by
  cases role with
  | client settings phase => cases phase <;> first | rfl | cases receives
  | server settings phase => cases phase <;> first | rfl | cases receives

namespace Advances

variable {role next : Role}

/-- Once a role protects what it sends it always does. -/
theorem sends (advances : Advances role next) (sends : role.shape.sends = true) :
    next.shape.sends = true := by
  cases advances <;> first | rfl | cases sends

/-- Only the start of a handshake leads to the wait for the server's hello. -/
theorem not_serverHello (advances : Advances role next) (settings : ClientSettings) :
    next ≠ .client settings .serverHello := by
  cases advances <;> exact nofun

end Advances

theorem Changes.not_serverHello {role next : Role} (changes : Endpoint.Changes role next)
    (settings : ClientSettings) : next ≠ .client settings .serverHello := by
  cases changes <;> exact nofun

namespace Endpoint

variable {G : Type}

theorem fails_withSource {α : Type} {action : EStateM Error G α} {blames : Error → Prop}
    (fails : ∀ source, FailsBy action source fun error _ => blames error) (e : Endpoint G) :
    FailsBy (withSource action) e fun error _ => blames error := by
  intro error f failed
  unfold withSource at failed
  split at failed
  · cases failed
  · next undone =>
    cases failed
    exact fails _ _ _ undone

theorem fails_withSealer {α : Type} {action : EStateM Error (Record.Sealer G) α}
    {blames : Error → Prop} (fails : ∀ sealer, FailsBy action sealer fun error _ => blames error)
    (e : Endpoint G) : FailsBy (withSealer action) e fun error _ => blames error := by
  intro error f failed
  unfold withSealer at failed
  split at failed
  · cases failed
  · next undone =>
    cases failed
    exact fails _ _ _ undone

theorem careful_encode [Entropy G] (type : ContentType) (payload : Octets) :
    Careful (encode type payload : Step G Octets) := by
  intro e
  refine .get_bind ?_
  split
  · exact fails_withSealer (careful_protectPieces _ _ _) e
  · exact .pure _

/-- A step fails only with foreseen errors from an endpoint. -/
def Foresees {α : Type} (step : Step G α) (e : Endpoint G) : Prop :=
  FailsBy step e fun error _ => error.isForeseen = true

variable {e f : Endpoint G}

theorem Sound.filled (sound : e.Sound) {n : Nat} (shape : e.role.shape.messages = some n) :
    ∃ messages, e.transcript = some ⟨messages⟩ ∧ messages.length = n := by
  have same : e.transcript.map (fun transcript => transcript.messages.length) = some n :=
    (congrArg Shape.messages sound).trans shape
  obtain ⟨⟨messages⟩, found, length⟩ := Option.map_eq_some_iff.mp same
  exact ⟨messages, found, length⟩

theorem Sound.randoms (sound : e.Sound) (client : e.role.shape.clientRandom = true)
    (server : e.role.shape.serverRandom = true) :
    ∃ client server, e.clientRandom = some client ∧ e.serverRandom = some server := by
  have first := (congrArg Shape.clientRandom sound).trans client
  have second := (congrArg Shape.serverRandom sound).trans server
  obtain ⟨client, found⟩ := Option.isSome_iff_exists.mp first
  obtain ⟨server, known⟩ := Option.isSome_iff_exists.mp second
  exact ⟨client, server, found, known⟩

theorem Sound.keys (sound : e.Sound) (shape : e.role.shape.secrets = true) :
    ∃ secrets, e.secrets = some secrets :=
  Option.isSome_iff_exists.mp (sound.secrets.trans shape)

theorem Sound.trusts (sound : e.Sound) (shape : e.role.shape.serverKey = true) :
    ∃ key, e.serverKey = some key :=
  Option.isSome_iff_exists.mp (sound.serverKey.trans shape)

section Parts

variable {α : Type} {causes : Error → Endpoint G → Prop} {messages : List Octets} {slot : Slot}
  {message : Octets}

theorem bind_record {next : Unit → Step G α} (found : e.transcript = some ⟨messages⟩)
    (length : messages.length = slot.place)
    (later : FailsBy (next ()) { e with transcript := some ⟨messages ++ [message]⟩ } causes) :
    FailsBy (record slot message >>= next) e causes :=
  .bind_of_ok (record_eq_ok.mpr ⟨messages, found, length, rfl⟩) later

theorem bind_proof {side : End} {secrets : Secrets} {next : Octets → Step G α}
    (found : e.transcript = some ⟨messages⟩) (known : e.secrets = some secrets)
    (later : ∀ verifyData, FailsBy (next verifyData) e causes) :
    FailsBy (proof side >>= next) e causes :=
  .bind_of_ok (proof_eq_ok.mpr ⟨_, secrets, found, known, rfl, rfl⟩) (later _)

/-- With a suite that can be used and both randoms, secrets can be installed. -/
theorem bind_installSecrets {client server : Random} {preMaster : Octets} {next : Unit → Step G α}
    (known : e.suite.isSupported = true) (drawn : e.clientRandom = some client)
    (chosen : e.serverRandom = some server)
    (later : ∀ secrets, FailsBy (next ()) { e with secrets := some secrets } causes) :
    FailsBy (installSecrets preMaster >>= next) e causes := by
  obtain ⟨parameters, keys, found, derived, _⟩ := KeyBlock.derive_of_isSupported known
    (KeySchedule.master preMaster client.val server.val) server.val client.val
  exact .bind_of_ok (installSecrets_eq_ok.mpr
    ⟨parameters, client, server, keys, found, drawn, chosen, derived, rfl⟩) (later _)

theorem bind_protectSending {next : Unit → Step G α} (known : e.secrets.isSome = true)
    (later : FailsBy (next ()) { e with sendProtected := true, sendNumber := 0 } causes) :
    FailsBy (protectSending >>= next) e causes :=
  .bind_of_ok (protectSending_eq_ok.mpr ⟨known, rfl⟩) later

theorem bind_protectReceiving {next : Unit → Step G α} (known : e.secrets.isSome = true)
    (later : FailsBy (next ()) { e with receiveProtected := true, receiveNumber := 0 } causes) :
    FailsBy (protectReceiving >>= next) e causes :=
  .bind_of_ok (protectReceiving_eq_ok.mpr ⟨known, rfl⟩) later

theorem bind_withSource {β : Type} {action : EStateM Error G β} {next : β → Step G α}
    {blames : Error → Prop} (first : ∀ source, FailsBy action source fun error _ => blames error)
    (later : ∀ b source, (∃ before, action before = .ok b source) →
      FailsBy (next b) { e with source } fun error _ => blames error) :
    FailsBy (withSource action >>= next) e fun error _ => blames error := by
  refine .bind (fails_withSource first e) fun b f done => ?_
  obtain ⟨source, drawn, rfl⟩ := withSource_eq_ok.mp done
  exact later b source ⟨_, drawn⟩

theorem bind_encode [Entropy G] {type : ContentType} {payload : Octets} {next : Octets → Step G α}
    {blames : Error → Prop}
    (first : FailsBy (encode type payload) e fun error _ => blames error)
    (later : ∀ records sendNumber source,
      FailsBy (next records) { e with sendNumber, source } fun error _ => blames error) :
    FailsBy (encode type payload >>= next) e fun error _ => blames error := by
  refine .bind first fun records f done => ?_
  obtain ⟨sendNumber, source, rfl⟩ := encode_frame done
  exact later records sendNumber source

end Parts

variable [Entropy G]

theorem foresees_sendHello {settings : ClientSettings} (begun : e.transcript = some ⟨[]⟩) :
    Foresees (Client.sendHello settings) e := by
  refine bind_withSource (careful_demand 32) fun random source _ => ?_
  refine .bind_ofExcept (ClientHello.isCareful.encode _) fun message _ => ?_
  refine .bind_modify (bind_record begun rfl ?_)
  exact .bind_modify (careful_encode _ _ _)

theorem foresees_startHandshake (begun : e.transcript = some ⟨[]⟩) :
    Foresees startHandshake e := by
  refine .get_bind ?_
  split
  · exact foresees_sendHello begun
  · exact .bind_modify (.pure _)

section Handlers

variable {message : Octets} (sound : e.Sound)
include sound

omit [Entropy G] in
/-- Only the suite of the server's hello can be one that is not supported. -/
theorem blames_receiveHello {settings : ClientSettings}
    (waits : e.role = .client settings .serverHello) :
    FailsBy (Client.receiveHello settings message) e
      fun error _ => (Role.client settings .serverHello).Blames error := by
  obtain ⟨messages, found, length⟩ := sound.filled (n := 1) (by rw [waits]; rfl)
  refine .bind_ofExcept (fun error failed => Or.inl (ServerHello.isCareful.decode _ error failed))
    fun hello _ => ?_
  refine .ite (fun _ => .throw (Or.inl rfl)) fun _ => .ite (fun _ => ?_) fun foreign => ?_
  · exact bind_record found length (.bind_modify (.change _))
  · refine .throw (Or.inr ⟨settings, hello.suite, rfl, ?_, rfl⟩)
    exact fun listed => foreign (List.contains_iff_mem.mpr listed)

omit [Entropy G] in
theorem foresees_receiveCertificate {settings : ClientSettings}
    (waits : e.role = .client settings .certificate) :
    Foresees (Client.receiveCertificate settings message) e := by
  obtain ⟨messages, found, length⟩ := sound.filled (n := 2) (by rw [waits]; rfl)
  refine .bind_ofExcept (Certificates.isCareful.decode _) fun certificates _ => ?_
  split
  · refine .bind_ofExcept (foreseeable_rsaKey _) fun pair _ => ?_
    exact .ite (fun _ => .throw rfl) fun _ => bind_record found length (.change _)
  · exact .throw rfl

theorem foresees_sendExchange {settings : ClientSettings} (coherent : e.Coherent)
    (waits : e.role = .client settings .serverHelloDone) :
    Foresees (Client.sendExchange message) e := by
  obtain ⟨messages, found, length⟩ := sound.filled (n := 3) (by rw [waits]; rfl)
  obtain ⟨client, server, drawn, chosen⟩ :=
    sound.randoms (by rw [waits]; rfl) (by rw [waits]; rfl)
  have known := coherent.isSupported (by rw [waits]; rfl)
  obtain ⟨key, trusted⟩ := sound.trusts (by rw [waits]; rfl)
  refine .bind_ofExcept (ServerHelloDone.isCareful.decode _) fun _ _ => bind_record found length ?_
  refine bind_withSource (careful_demand _) fun random source _ => ?_
  refine .get_bind ?_
  dsimp only
  rw [trusted]
  refine bind_withSource (careful_encrypt key _) fun encrypted source _ => ?_
  refine bind_installSecrets known drawn chosen fun secrets => ?_
  refine .bind_ofExcept (ClientKeyExchange.isCareful.encode _) fun exchange _ => ?_
  refine bind_record rfl (by rw [List.length_append, length]; rfl) ?_
  refine bind_encode (careful_encode _ _ _) fun exchangeRecords _ _ => ?_
  refine bind_encode (careful_encode _ _ _) fun changeRecord _ _ => ?_
  exact bind_protectSending rfl (.pure _)

omit sound in
theorem foresees_sendFinished {settings : ClientSettings} {messages : List Octets}
    {secrets : Secrets} (found : e.transcript = some ⟨messages⟩)
    (length : messages.length = Slot.clientFinished.place) (known : e.secrets = some secrets) :
    Foresees (Client.sendFinished settings) e := by
  refine bind_proof found known fun verifyData => ?_
  refine .bind_ofExcept (Finished.isCareful.encode _) fun finished _ => bind_record found length ?_
  exact bind_encode (careful_encode _ _ _) fun records _ _ => .bind_modify (.pure _)

theorem foresees_receiveHelloDone {settings : ClientSettings} (coherent : e.Coherent)
    (waits : e.role = .client settings .serverHelloDone) :
    Foresees (Client.receiveHelloDone settings message) e := by
  have clear : e.sendProtected = false := by rw [sound.sends, waits]; rfl
  refine .bind (foresees_sendExchange sound coherent waits) fun exchangeRecords f exchanged => ?_
  obtain ⟨messages, _, work, made, rfl, _⟩ := (Client.sendExchange_eq_ok clear).mp exchanged
  have length : (messages ++ [message] ++ [work.message]).length = Slot.clientFinished.place := by
    rw [List.length_append, List.length_append, made.next]
    rfl
  exact .bind (foresees_sendFinished rfl length rfl) fun _ _ _ => .pure _

omit [Entropy G] in
theorem fails_receiveServerFinished {settings : ClientSettings}
    (waits : e.role = .client settings .finished) :
    FailsBy (Client.receiveFinished settings message) e
      fun error f => error.isForeseen = true ∧ f = e := by
  obtain ⟨messages, found, _⟩ := sound.filled (n := 6) (by rw [waits]; rfl)
  obtain ⟨secrets, known⟩ := sound.keys (by rw [waits]; rfl)
  refine .bind_ofExcept (fun error failed => ⟨Finished.isCareful.decode _ error failed, rfl⟩)
    fun finished _ => bind_proof found known fun verifyData => ?_
  exact .ite (fun _ => .bind_modify (.change _)) fun _ => .throw ⟨rfl, rfl⟩

theorem foresees_receiveClientHello {settings : ServerSettings}
    (waits : e.role = .server settings .clientHello) :
    Foresees (Server.receiveHello settings message) e := by
  obtain ⟨messages, found, length⟩ := sound.filled (n := 0) (by rw [waits]; rfl)
  cases List.eq_nil_of_length_eq_zero length
  refine .bind_ofExcept (ClientHello.isCareful.decode _) fun hello _ => ?_
  refine .ite (fun _ => .ite (fun _ => ?_) fun _ => .throw rfl) fun _ => .throw rfl
  split
  · refine bind_record found rfl (.bind_modify ?_)
    refine bind_withSource (careful_demand 32) fun random source _ => .bind_modify ?_
    refine .bind_ofExcept (ServerHello.isCareful.encode _) fun serverHello _ => ?_
    refine .bind_ofExcept (Certificates.isCareful.encode _) fun certificates _ => ?_
    refine .bind_ofExcept (ServerHelloDone.isCareful.encode _) fun helloDone _ => ?_
    refine bind_record rfl rfl (bind_record rfl rfl (bind_record rfl rfl ?_))
    exact .bind_modify (careful_encode _ _ _)
  · exact .throw rfl

omit [Entropy G] in
theorem foresees_receiveKeyExchange {settings : ServerSettings} (coherent : e.Coherent)
    (waits : e.role = .server settings .clientKeyExchange) :
    Foresees (Server.receiveKeyExchange settings message) e := by
  obtain ⟨messages, found, length⟩ := sound.filled (n := 4) (by rw [waits]; rfl)
  obtain ⟨client, server, drawn, chosen⟩ :=
    sound.randoms (by rw [waits]; rfl) (by rw [waits]; rfl)
  have known := coherent.isSupported (by rw [waits]; rfl)
  refine .bind_ofExcept (ClientKeyExchange.isCareful.decode _) fun exchange _ => ?_
  refine .bind_ofExcept (foreseeable_decryptPreMaster _ _) fun preMaster _ => ?_
  exact bind_record found length (bind_installSecrets known drawn chosen fun secrets => .change _)

theorem foresees_receiveClientFinished {settings : ServerSettings}
    (waits : e.role = .server settings .finished) :
    Foresees (Server.receiveFinished settings message) e := by
  obtain ⟨messages, found, length⟩ := sound.filled (n := 5) (by rw [waits]; rfl)
  obtain ⟨secrets, known⟩ := sound.keys (by rw [waits]; rfl)
  refine .bind_ofExcept (Finished.isCareful.decode _) fun finished _ => ?_
  refine bind_proof found known fun verifyData => .ite (fun _ => ?_) fun _ => .throw rfl
  refine bind_record found length (bind_encode (careful_encode _ _ _) fun changeRecord _ _ => ?_)
  refine bind_protectSending (by rw [known]; rfl) ?_
  refine bind_proof rfl known fun verifyData => ?_
  refine .bind_ofExcept (Finished.isCareful.encode _) fun answer _ => ?_
  exact bind_encode (careful_encode _ _ _) fun records _ _ => .bind_modify (.bind_modify (.pure _))

omit [Entropy G] in
theorem fails_receiveChange :
    FailsBy receiveChange e fun error f => error.isForeseen = true ∧ f = e := by
  refine .get_bind ?_
  split
  · next settings phase waits =>
    unfold Client.receiveChange
    split
    · have known : e.secrets.isSome = true := by rw [sound.secrets, waits]; rfl
      exact bind_protectReceiving known (.change _)
    · exact .throw ⟨rfl, rfl⟩
  · next settings phase waits =>
    unfold Server.receiveChange
    split
    · have known : e.secrets.isSome = true := by rw [sound.secrets, waits]; rfl
      exact bind_protectReceiving known (.change _)
    · exact .throw ⟨rfl, rfl⟩

omit [Entropy G] in
theorem fails_open? {header : Record.Header} {record : Octets} :
    FailsBy (open? header record) e fun error f => error.isForeseen = true ∧ f = e := by
  refine .get_bind ?_
  dsimp only
  split
  · refine .bind_ofExcept (fun error failed => ⟨foreseeable_unprotect _ _ _ error failed, rfl⟩) ?_
    exact fun pair _ => .bind_modify (.pure _)
  · next missing change =>
    obtain ⟨receives, _⟩ := (Bool.and_eq_true ..).mp change
    rw [sound.receives] at receives
    obtain ⟨secrets, known⟩ := sound.keys (Role.shape_secrets receives)
    rw [readKeys?, known] at missing
    cases missing
  · exact .ite (fun _ => .throw ⟨rfl, rfl⟩) fun _ => .pure _

end Handlers

omit [Entropy G] in
/-- Once an endpoint protects what it sends, no alert goes with its errors. -/
theorem alertRecords_of_sends (sends : e.sendProtected = true) (error : Error) :
    e.alertRecords error = none := by
  unfold alertRecords
  rw [sends]
  cases error.alert? <;> rfl

/-- What an endpoint can refuse octets for, and that it goes on to protect what it sends. -/
def Refusal (e : Endpoint G) (error : Error) (f : Endpoint G) : Prop :=
  e.role.Blames error ∧ (e.sendProtected = true → f.sendProtected = true)

omit [Entropy G] in
theorem Refusal.of_same {error : Error} (same : error.isForeseen = true ∧ f = e) :
    e.Refusal error f := by
  obtain ⟨foreseen, rfl⟩ := same
  exact ⟨Or.inl foreseen, id⟩

omit [Entropy G] in
theorem refusal_of_clear {α : Type} {step : Step G α} (clear : e.sendProtected = false)
    (foresees : Foresees step e) : FailsBy step e e.Refusal := by
  refine foresees.weaken fun error f foreseen => ⟨Or.inl foreseen, fun change => ?_⟩
  cases clear.symm.trans change

omit [Entropy G] in
/-- A step after which there is nothing to send fails as the step does. -/
theorem refusal_of_silent {step : Step G Unit} (fails : FailsBy step e e.Refusal) :
    FailsBy (do step; return [] : Step G Octets) e e.Refusal := .bind fails fun _ _ _ => .pure _

theorem refusal_receiveMessage (sound : e.Sound) (coherent : e.Coherent) (message : Octets) :
    FailsBy (receiveMessage message) e e.Refusal := by
  refine .get_bind (.bind_ofExcept (fun error failed =>
    Refusal.of_same ⟨foreseeable_ofMessage _ error failed, rfl⟩) fun type _ => ?_)
  have clear (shape : e.role.shape.sends = false) : e.sendProtected = false :=
    sound.sends.trans shape
  split
  · next settings phase waits =>
    unfold Client.receive
    split
    · refine refusal_of_silent ((blames_receiveHello sound waits).weaken fun error f blames => ?_)
      refine ⟨by rw [waits]; exact blames, fun change => ?_⟩
      cases (clear (by rw [waits]; rfl)).symm.trans change
    · exact refusal_of_silent (refusal_of_clear (clear (by rw [waits]; rfl))
        (foresees_receiveCertificate sound waits))
    · exact refusal_of_clear (clear (by rw [waits]; rfl))
        (foresees_receiveHelloDone sound coherent waits)
    · exact refusal_of_silent ((fails_receiveServerFinished sound waits).weaken fun error f =>
        Refusal.of_same)
    · exact .throw (Refusal.of_same ⟨rfl, rfl⟩)
  · next settings phase waits =>
    unfold Server.receive
    split
    · exact refusal_of_clear (clear (by rw [waits]; rfl)) (foresees_receiveClientHello sound waits)
    · exact refusal_of_silent (refusal_of_clear (clear (by rw [waits]; rfl))
        (foresees_receiveKeyExchange sound coherent waits))
    · exact refusal_of_clear (clear (by rw [waits]; rfl))
        (foresees_receiveClientFinished sound waits)
    · exact .throw (Refusal.of_same ⟨rfl, rfl⟩)

/-- What is refused after a message was taken is refused. -/
theorem Refusal.of_answers {message records : Octets} {error : Error} {g : Endpoint G}
    (sound : e.Sound) (answers : Answers message e records f) (refusal : f.Refusal error g) :
    e.Refusal error g := by
  obtain ⟨advances, after⟩ := advances_answers sound answers
  obtain ⟨blames, sends⟩ := refusal
  refine ⟨Or.inl (blames.resolve_right ?_), fun change => sends ?_⟩
  · rintro ⟨settings, suite, waits, _⟩
    exact advances.not_serverHello settings waits
  · rw [after.sends]
    exact advances.sends (sound.sends.symm.trans change)

theorem refusal_receiveMessages (sound : e.Sound) (coherent : e.Coherent)
    (records pending : Octets) :
    FailsBy (receiveMessages records pending : Step G (Progress × Octets)) e e.Refusal := by
  fun_induction receiveMessages (G := G) records pending generalizing e with
  | case1 records pending error found =>
    exact .throw (Refusal.of_same ⟨foreseeable_assembly _ error found, rfl⟩)
  | case2 records pending found => exact .pure _
  | case3 records pending message rest found ih =>
    refine .bind (refusal_receiveMessage sound coherent message) fun answer f took => ?_
    have answers := receiveMessage_eq_ok.mp took
    have after := (advances_answers sound answers).2
    refine .get_bind (.ite (fun isOver => ?_) fun unfinished => ?_)
    · refine .ite (fun _ => .pure _) fun _ => .throw ?_
      exact .of_answers sound answers (Refusal.of_same ⟨rfl, rfl⟩)
    · have still := kept_coherent.answered (s := []) sound coherent answers
      exact (ih answer after still).weaken fun error g => .of_answers sound answers

/-- Whatever arrives, an endpoint whose parts fit together fails only for what its role can. -/
theorem refusal_receiveRecord (sound : e.Sound) (coherent : e.Coherent) (header : Record.Header)
    (record pending : Octets) :
    FailsBy (receiveRecord header record pending) e e.Refusal := by
  refine .bind ((fails_open? sound).weaken fun error f => Refusal.of_same) ?_
  intro content f opened
  obtain ⟨number, rfl⟩ := open?_frame opened
  have same {error : Error} (foreseen : error.isForeseen = true) :
      e.Refusal error { e with receiveNumber := number } := ⟨Or.inl foreseen, id⟩
  have sound : ({ e with receiveNumber := number } : Endpoint G).Sound := sound
  have coherent : ({ e with receiveNumber := number } : Endpoint G).Coherent :=
    kept_coherent.opened (s := []) number coherent
  split
  · refine .bind_ofExcept (fun error failed => same (foreseeable_check _ error failed)) ?_
    intro _ _
    refine .ite (fun _ => ?_) fun _ => .throw (same rfl)
    refine .bind ((fails_receiveChange sound).weaken ?_) fun _ _ _ => .pure _
    rintro error f ⟨foreseen, rfl⟩
    exact same foreseen
  · refine .bind_ofExcept (fun error failed => same ?_) fun alert _ => .throw (same rfl)
    exact Scan.foreseeable_whole careful_alert _ error failed
  · exact .get_bind (.ite (fun _ => .pure _) fun _ => .throw (same rfl))
  · refine .get_bind (.ite (fun _ => .throw (same rfl)) fun _ => ?_)
    exact refusal_receiveMessages sound coherent [] (pending ++ content)

theorem Refuses.refusal {p inbox : Octets} {error : Error} (refuses : Refuses e p inbox error f)
    (sound : e.Sound) (coherent : e.Coherent) : e.Refusal error f := by
  cases refuses with
  | malformed found => exact .of_same ⟨foreseeable_next? _ error found, rfl⟩
  | refused found refused => exact refusal_receiveRecord sound coherent _ _ _ error f refused

/-- A client that waits for the server's hello has taken nothing yet. -/
theorem kept_awaits (e : Endpoint G) : Kept fun _ (f : Endpoint G) =>
    ∀ settings, f.role = .client settings .serverHello → e.role = f.role where
  opened _ same := same
  changed _ _ changed := by
    obtain ⟨_, role, changes, rfl⟩ := receiveChange_eq_ok.mp changed
    exact fun settings waits => (Changes.not_serverHello changes settings waits).elim
  answered sound _ answers settings waits :=
    ((advances_answers sound answers).1.not_serverHello settings waits).elim

/-- Whatever an endpoint takes, it goes on to protect what it sends. -/
theorem kept_sends : Kept fun _ (e : Endpoint G) => e.sendProtected = true where
  opened _ sends := sends
  changed _ sends changed := by
    obtain ⟨_, _, _, rfl⟩ := receiveChange_eq_ok.mp changed
    exact sends
  answered sound sends answers := by
    obtain ⟨advances, after⟩ := advances_answers sound answers
    rw [after.sends]
    exact advances.sends (sound.sends.symm.trans sends)

/-- What is refused after some records is refused for what the role can fail for. -/
theorem Takes.refusal {p q inbox : Octets} {script : List Handled} {error : Error} {g : Endpoint G}
    (takes : Takes e p script f q) (sound : e.Sound) (coherent : e.Coherent)
    (refuses : Refuses f q inbox error g) : e.Refusal error g := by
  obtain ⟨blames, sends⟩ := refuses.refusal (takes.sound sound)
    (kept_coherent.takes (s := []) takes sound coherent)
  refine ⟨?_, fun change => sends (kept_sends.takes (s := []) takes sound change)⟩
  rcases blames with foreseen | ⟨settings, suite, waits, foreign⟩
  · exact Or.inl foreseen
  · have same := (kept_awaits e).takes (s := []) takes sound (fun _ _ => rfl) settings waits
    exact Or.inr ⟨settings, suite, same.trans waits, foreign⟩

end Endpoint

namespace Session

open Endpoint Handled

variable {G : Type}

/-- A failure that waits came up after the end of a handshake, from octets that were refused, so
that no alert goes with it. -/
def DefersOnly (session : Session G) : Prop := ∀ failure ∈ session.deferred,
  failure.error.isForeseen = true ∧ failure.alert = none

theorem defersOnly_of_none {session : Session G} (nothing : session.deferred = none) :
    session.DefersOnly := by
  intro failure waits
  cases nothing.symm.trans waits

variable [Entropy G]

theorem defersOnly_of_performs {session after : Session G} {call : Call} {reply : Reply}
    (orderly : session.Orderly) (coherent : session.endpoint.Coherent)
    (performs : Performs session call reply after) : after.DefersOnly := by
  cases performs with
  | cannotRead script active arrived takes opened refuses =>
    by_cases nothing : contents script = []
    · rw [nothing]
      exact defersOnly_of_none orderly.deferred
    · -- data was handed out, so the handshake was over
      have sound := orderly.endpoint
      have isOver : session.endpoint.stage = .established :=
        active.resolve_left fun running => nothing (takes.silent sound running opened)
      obtain ⟨blames, sends⟩ := takes.refusal sound coherent refuses
      rw [stop_of_ne_nil _ _ nothing]
      rintro _ ⟨⟩
      refine ⟨blames.resolve_right ?_, ?_⟩
      · rintro ⟨settings, suite, waits, _⟩
        rw [sound.stage, waits] at isOver
        cases isOver
      · exact alertRecords_of_sends (sends (sound.established isOver).2.2.1) _
  | starts | cannotStart | started | notStarted | reads | sends | cannotSend | notEstablished =>
    exact defersOnly_of_none orderly.deferred

theorem Reachable.defersOnly {session : Session G} (reachable : session.Reachable) :
    session.DefersOnly := by
  refine reachable.induct ?_ ?_ ?_
  · intro session made
    exact defersOnly_of_none (orderly_of_made made).deferred
  · intro session reachable before call
    by_cases failed : session.endpoint.stage = .failed
    · rcases perform_of_failed failed call with refused | ⟨failure, _, reported⟩
      · rw [refused]
        exact before
      · rw [reported]
        exact defersOnly_of_none rfl
    · obtain ⟨orderly, coherent⟩ := reachable.coherent failed
      exact defersOnly_of_performs orderly coherent (orderly.performs call)
  · intro session _ _
    exact defersOnly_of_none rfl

/-- What a call can fail with: none of the errors that guard against parts that do not fit together,
and a suite that is not supported only if the server's hello has just named one that was not
offered. -/
def MayFail (session : Session G) (error : Error) : Prop :=
  error ∉ Error.guards ∧ ∀ suite, error = .unsupportedSuite suite → ∃ settings,
    session.endpoint.stage = .handshaking ∧
      session.endpoint.role = .client settings .serverHello ∧ suite ∉ settings.suites

omit [Entropy G] in
theorem mayFail_of_foreseen {session : Session G} {error : Error}
    (foreseen : error.isForeseen = true) : session.MayFail error := by
  refine ⟨Error.not_mem_guards_of_isForeseen foreseen, ?_⟩
  rintro suite rfl
  cases foreseen

omit [Entropy G] in
theorem mayFail_of_sessionFailed {session : Session G} : session.MayFail .sessionFailed := by
  refine ⟨?_, nofun⟩
  simp [Error.guards, Error.outOfOrder, Error.noHandshake, Error.keysMissing,
    Error.changeBeforeKeys]

omit [Entropy G] in
theorem mayFail_of_blames {session : Session G} {error : Error} (sound : session.endpoint.Sound)
    (blames : session.endpoint.role.Blames error) : session.MayFail error := by
  rcases blames with foreseen | ⟨settings, suite, waits, foreign, rfl⟩
  · exact mayFail_of_foreseen foreseen
  · refine ⟨by simp [Error.guards, Error.outOfOrder, Error.noHandshake, Error.keysMissing,
      Error.changeBeforeKeys], ?_⟩
    rintro _ ⟨⟩
    exact ⟨settings, by rw [sound.stage, waits]; rfl, waits, foreign⟩

/-- Every error of a call of a session that has not failed is one that it can fail with. -/
theorem mayFail_of_performs {session after : Session G} {call : Call} {reply : Reply}
    {error : Error} (orderly : session.Orderly) (coherent : session.endpoint.Coherent)
    (performs : Performs session call reply after) (fails : reply.error? = some error) :
    session.MayFail error := by
  cases performs with
  | starts fresh begins => cases fails
  | cannotStart fresh failed =>
    cases fails
    exact mayFail_of_foreseen (foresees_startHandshake rfl _ _ failed)
  | started begun =>
    cases fails
    exact mayFail_of_foreseen rfl
  | notStarted fresh =>
    cases fails
    exact mayFail_of_foreseen rfl
  | reads active arrived takes rests answer fine =>
    rw [Reply.error?, fine] at fails
    cases fails
  | cannotRead script active arrived takes opened refuses =>
    by_cases nothing : contents script = []
    · rw [nothing, stop_nil] at fails
      cases fails
      exact mayFail_of_blames orderly.endpoint (takes.refusal orderly.endpoint coherent refuses).1
    · rw [stop_of_ne_nil _ _ nothing] at fails
      cases fails
  | sends isOver sent => cases fails
  | cannotSend isOver failed =>
    cases fails
    exact mayFail_of_foreseen (careful_encode _ _ _ _ _ failed)
  | notEstablished unfinished =>
    cases fails
    exact mayFail_of_foreseen rfl

/-- As long as a session in use has not failed, the phase of its role determines the rest, and no
failure waits; and no call ever fails with an error that guards against the contrary. -/
theorem phase_determines {session : Session G} (reachable : session.Reachable) :
    (session.endpoint.stage ≠ .failed →
      session.endpoint.Determined ∧ session.deferred = none) ∧
    ∀ call error, (session.perform call).1.error? = some error → session.MayFail error := by
  refine ⟨fun notFailed => ?_, fun call error fails => ?_⟩
  · obtain ⟨orderly, coherent⟩ := reachable.coherent notFailed
    exact ⟨orderly.endpoint.determined coherent, orderly.deferred⟩
  · by_cases failed : session.endpoint.stage = .failed
    · rcases perform_of_failed failed call with refused | ⟨failure, waits, reported⟩
      · rw [refused] at fails
        have same : error = .sessionFailed := by
          cases call <;> cases fails <;> rfl
        rw [same]
        exact mayFail_of_sessionFailed
      · rw [reported] at fails
        cases fails
        exact mayFail_of_foreseen (reachable.defersOnly failure waits).1
    · obtain ⟨orderly, coherent⟩ := reachable.coherent failed
      exact mayFail_of_performs orderly coherent (orderly.performs call) fails

/-- After a rehearsed handshake the client's last phase says that it is over and that the server's
key is known, and it cannot be started again. -/
theorem phase_determines_rehearsal : ∃ session : Session Reproducible, session.Reachable ∧
    session.endpoint.stage ≠ .failed ∧ session.endpoint.role.isDone = true ∧
      session.endpoint.shape = Shape.done .client ∧ session.endpoint.serverKey.isSome ∧
      session.deferred = none ∧ ∃ error,
        (session.perform .start).1.error? = some error ∧ session.MayFail error := by
  obtain ⟨_, session, _, octets, _, same, _, _, _, agree, _⟩ := Rehearsal.pairing.exists_agreed
  obtain ⟨_, _, made⟩ := Rehearsal.pairing.clientMade
  have becomes : Rehearsal.client.Becomes session := same ▸ .receive (.start .refl) octets
  have reachable : session.Reachable := ⟨_, .client made, becomes⟩
  have isOver := agree.clientOver
  have notFailed : session.endpoint.stage ≠ .failed := by
    rw [isOver]
    exact nofun
  obtain ⟨phase, errors⟩ := phase_determines reachable
  obtain ⟨determined, nothing⟩ := phase notFailed
  have side : session.endpoint.role.side = .client := Role.side_eq_of_idle becomes.idle
  have shape := determined.shape
  refine ⟨session, reachable, notFailed, determined.established.mp isOver, ?_,
    determined.serverKey.mpr ⟨side, Or.inl isOver⟩, nothing, ?_⟩
  · rw [shape, ← side]
    exact Role.shape_eq_done ((congrArg Shape.stage shape).symm.trans isOver)
  · have started : (session.perform .start).1.error? =
        some (.invalidState "session already started") := by
      unfold Session.perform start
      rw [isOver]
      rfl
    exact ⟨_, started, errors .start _ started⟩

end Session

end TransportSecurity
