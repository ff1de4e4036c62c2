import TransportSecurity.Proofs.Message.Delimited
import TransportSecurity.Proofs.Record.Delimited
import TransportSecurity.Proofs.Session.Handlers
import TransportSecurity.Session.Basic

/-!
What messages and records lead to.

A message is taken by the one handler for which its phase waits (`receiveMessage_eq_ok`), the other
end's change by the two phases that wait for it, and the content of a record by what its type asks
for (`receiveRecord_eq_ok`). All that an endpoint ever does with input is listed here, so an
invariant has one case for each line.
-/

namespace TransportSecurity

variable {G : Type} {e e' : Endpoint G} {message records : Octets} {u : Unit}

namespace Endpoint

/-- A step after which there is nothing to send. -/
theorem silent_eq_ok {step : Step G Unit} :
    (do step; return [] : Step G Octets) e = .ok records e' ↔
      records = [] ∧ step e = .ok () e' := by
  simp only [bind_eq_ok, pure_eq_ok]
  constructor
  · rintro ⟨_, _, done, rfl, rfl⟩
    exact ⟨rfl, done⟩
  · rintro ⟨rfl, done⟩
    exact ⟨(), e', done, rfl, rfl⟩

/-- A step that begins by decoding a message succeeds only on a message of that type. -/
theorem ofMessage_of_decodes {α Content : Type} [Body Content] {step : Content → Step G α} {a : α}
    (took : (do step (← ofExcept (Body.decode Content message)) : Step G α) e = .ok a e') :
    MessageType.ofMessage message = .ok (Body.type Content) := by
  obtain ⟨content, _, decoded, _⟩ := bind_eq_ok.mp took
  obtain ⟨body, _, rfl, _⟩ := Body.decode_eq_ok.mp (ofExcept_eq_ok.mp decoded).1
  exact MessageType.ofMessage_eq_ok.mpr ⟨_, rfl⟩

variable [Entropy G]

/-- The ways to begin a handshake. -/
inductive Begins (e : Endpoint G) : Octets → Endpoint G → Prop
  | client {settings : ClientSettings} {phase : ClientPhase} {records : Octets} {f : Endpoint G}
    (role : e.role = .client settings phase)
    (sent : Client.sendHello settings e = .ok records f) : Begins e records f
  | server {settings : ServerSettings} {phase : ServerPhase}
    (role : e.role = .server settings phase) :
    Begins e [] { e with role := .server settings .clientHello }

theorem startHandshake_eq_ok : startHandshake e = .ok records e' ↔ Begins e records e' := by
  rw [startHandshake, get_bind]
  constructor
  · intro begun
    cases role : e.role with
    | client settings phase =>
      rw [role] at begun
      exact .client role begun
    | server settings phase =>
      rw [role] at begun
      obtain ⟨rfl, awaits⟩ := silent_eq_ok.mp begun
      cases enterServer_eq_ok.mp awaits
      exact .server role
  · rintro (⟨role, sent⟩ | ⟨role⟩)
    · rw [role]
      exact sent
    · rw [role]
      exact silent_eq_ok.mpr ⟨rfl, enterServer_eq_ok.mpr rfl⟩

/-- The ways to take a message: each phase that waits for one, and its handler. -/
inductive Answers (message : Octets) (e : Endpoint G) : Octets → Endpoint G → Prop
  | serverHello {settings : ClientSettings} {f : Endpoint G}
    (waits : e.role = .client settings .serverHello)
    (took : Client.receiveHello settings message e = .ok () f) : Answers message e [] f
  | certificates {settings : ClientSettings} {f : Endpoint G}
    (waits : e.role = .client settings .certificate)
    (took : Client.receiveCertificate settings message e = .ok () f) : Answers message e [] f
  | serverHelloDone {settings : ClientSettings} {f g : Endpoint G}
    {exchangeRecords finishedRecords : Octets}
    (waits : e.role = .client settings .serverHelloDone)
    (exchanged : Client.sendExchange message e = .ok exchangeRecords f)
    (finished : Client.sendFinished settings f = .ok finishedRecords g) :
    Answers message e (exchangeRecords ++ finishedRecords) g
  | serverFinished {settings : ClientSettings} {f : Endpoint G}
    (waits : e.role = .client settings .finished)
    (took : Client.receiveFinished settings message e = .ok () f) : Answers message e [] f
  | clientHello {settings : ServerSettings} {records : Octets} {f : Endpoint G}
    (waits : e.role = .server settings .clientHello)
    (took : Server.receiveHello settings message e = .ok records f) : Answers message e records f
  | clientKeyExchange {settings : ServerSettings} {f : Endpoint G}
    (waits : e.role = .server settings .clientKeyExchange)
    (took : Server.receiveKeyExchange settings message e = .ok () f) : Answers message e [] f
  | clientFinished {settings : ServerSettings} {records : Octets} {f : Endpoint G}
    (waits : e.role = .server settings .finished)
    (took : Server.receiveFinished settings message e = .ok records f) : Answers message e records f

/-- A message is taken exactly by the handler for which its phase waits. -/
theorem receiveMessage_eq_ok :
    receiveMessage message e = .ok records e' ↔ Answers message e records e' := by
  simp only [receiveMessage, get_bind, bind_eq_ok, ofExcept_eq_ok]
  constructor
  · rintro ⟨type, _, ⟨_, rfl⟩, took⟩
    cases waits : e.role with
    | client settings phase =>
      rw [waits] at took
      dsimp only at took
      unfold Client.receive at took
      split at took
      · obtain ⟨rfl, done⟩ := silent_eq_ok.mp took
        exact .serverHello waits done
      · obtain ⟨rfl, done⟩ := silent_eq_ok.mp took
        exact .certificates waits done
      · simp only [Client.receiveHelloDone, bind_eq_ok, pure_eq_ok] at took
        obtain ⟨_, _, exchanged, _, _, finished, rfl, rfl⟩ := took
        exact .serverHelloDone waits exchanged finished
      · obtain ⟨rfl, done⟩ := silent_eq_ok.mp took
        exact .serverFinished waits done
      · exact (throw_eq_ok.mp took).elim
    | server settings phase =>
      rw [waits] at took
      dsimp only at took
      unfold Server.receive at took
      split at took
      · exact .clientHello waits took
      · obtain ⟨rfl, done⟩ := silent_eq_ok.mp took
        exact .clientKeyExchange waits done
      · exact .clientFinished waits took
      · exact (throw_eq_ok.mp took).elim
  · rintro (⟨waits, took⟩ | ⟨waits, took⟩ | ⟨waits, exchanged, finished⟩ | ⟨waits, took⟩ |
      ⟨waits, took⟩ | ⟨waits, took⟩ | ⟨waits, took⟩)
    · exact ⟨_, e, ⟨ofMessage_of_decodes took, rfl⟩, by
        rw [waits]
        exact silent_eq_ok.mpr ⟨rfl, took⟩⟩
    · exact ⟨_, e, ⟨ofMessage_of_decodes took, rfl⟩, by
        rw [waits]
        exact silent_eq_ok.mpr ⟨rfl, took⟩⟩
    · exact ⟨_, e, ⟨ofMessage_of_decodes exchanged, rfl⟩, by
        rw [waits]
        exact bind_eq_ok.mpr ⟨_, _, exchanged,
          bind_eq_ok.mpr ⟨_, _, finished, pure_eq_ok.mpr ⟨rfl, rfl⟩⟩⟩⟩
    · exact ⟨_, e, ⟨ofMessage_of_decodes took, rfl⟩, by
        rw [waits]
        exact silent_eq_ok.mpr ⟨rfl, took⟩⟩
    · exact ⟨_, e, ⟨ofMessage_of_decodes took, rfl⟩, by
        rw [waits]
        exact took⟩
    · exact ⟨_, e, ⟨ofMessage_of_decodes took, rfl⟩, by
        rw [waits]
        exact silent_eq_ok.mpr ⟨rfl, took⟩⟩
    · exact ⟨_, e, ⟨ofMessage_of_decodes took, rfl⟩, by
        rw [waits]
        exact took⟩

/-- A role that waits for the other end's change, and what it waits for after it. -/
inductive Changes : Role → Role → Prop
  | client (settings : ClientSettings) :
    Changes (.client settings .changeCipherSpec) (.client settings .finished)
  | server (settings : ServerSettings) :
    Changes (.server settings .changeCipherSpec) (.server settings .finished)

omit [Entropy G] in
theorem receiveChange_eq_ok : receiveChange e = .ok u e' ↔ e.secrets.isSome ∧ ∃ role,
    Changes e.role role ∧ { e with receiveProtected := true, receiveNumber := 0, role } = e' := by
  rw [receiveChange, get_bind]
  constructor
  · intro changed
    cases waits : e.role with
    | client settings phase =>
      rw [waits] at changed
      dsimp only at changed
      unfold Client.receiveChange at changed
      split at changed
      · simp only [bind_eq_ok, protectReceiving_eq_ok, enterClient_eq_ok] at changed
        obtain ⟨_, _, ⟨known, rfl⟩, rfl⟩ := changed
        exact ⟨known, _, .client settings, rfl⟩
      · exact (throw_eq_ok.mp changed).elim
    | server settings phase =>
      rw [waits] at changed
      dsimp only at changed
      unfold Server.receiveChange at changed
      split at changed
      · simp only [bind_eq_ok, protectReceiving_eq_ok, enterServer_eq_ok] at changed
        obtain ⟨_, _, ⟨known, rfl⟩, rfl⟩ := changed
        exact ⟨known, _, .server settings, rfl⟩
      · exact (throw_eq_ok.mp changed).elim
  · rintro ⟨known, role, changes, rfl⟩
    cases waits : e.role with
    | client settings phase =>
      rw [waits] at changes
      cases changes with
      | client => exact bind_eq_ok.mpr ⟨(), _, protectReceiving_eq_ok.mpr ⟨known, rfl⟩, rfl⟩
    | server settings phase =>
      rw [waits] at changes
      cases changes with
      | server => exact bind_eq_ok.mpr ⟨(), _, protectReceiving_eq_ok.mpr ⟨known, rfl⟩, rfl⟩

/-- Whether a record is taken as it is although its endpoint receives protected records. -/
def isClearAlert (header : Record.Header) : Bool := header.type = .alert && header.length = 2

omit [Entropy G] in
/-- The content of a record is what its protection holds, or all of it in the clear. -/
theorem open?_eq_ok {header : Record.Header} {record content : Octets} :
    open? header record e = .ok content e' ↔
      (∃ secrets number, e.secrets = some secrets ∧ e.receiveProtected = true ∧
        isClearAlert header = false ∧
        Record.unprotect (secrets.keys.writer e.role.side.peer) e.receiveNumber record =
          .ok (content, number) ∧ { e with receiveNumber := number } = e') ∨
      ((e.receiveProtected && !isClearAlert header) = false ∧
        header.length ≤ Record.maxFragment ∧ record.drop Record.headerLength = content ∧
        e = e') := by
  rw [open?, get_bind]
  dsimp only
  rw [← isClearAlert]
  cases guarded : e.receiveProtected && !isClearAlert header with
  | false =>
    have plain : ¬ (e.receiveProtected = true ∧ isClearAlert header = false) := by
      simpa using guarded
    have clear : (if Record.maxFragment < header.length then throw (.recordOverflow header.length)
        else return record.drop Record.headerLength : Step G Octets) e = .ok content e' ↔
          header.length ≤ Record.maxFragment ∧ record.drop Record.headerLength = content ∧
            e = e' := by
      simp only [ite_eq_ok, throw_eq_ok, pure_eq_ok, and_false, false_or, Nat.not_lt]
    constructor
    · intro taken
      cases keys : e.readKeys? <;> rw [keys] at taken <;>
        exact Or.inr ⟨rfl, clear.mp taken⟩
    · rintro (⟨_, _, _, change, notAlert, _⟩ | ⟨_, taken⟩)
      · exact (plain ⟨change, notAlert⟩).elim
      · cases e.readKeys? <;> exact clear.mpr taken
  | true =>
    obtain ⟨change, notAlert⟩ : e.receiveProtected = true ∧ isClearAlert header = false := by
      simpa using guarded
    rcases e.secrets.eq_none_or_eq_some with nothing | ⟨secrets, known⟩
    · have keys : e.readKeys? = none := by
        rw [readKeys?, nothing]
        rfl
      rw [keys]
      simp [throw_eq_ok, nothing]
    · have keys : e.readKeys? = some (secrets.keys.writer e.role.side.peer) := by
        rw [readKeys?, known]
        rfl
      rw [keys]
      simp only [bind_eq_ok, ofExcept_eq_ok, modify_eq_ok, pure_eq_ok]
      constructor
      · rintro ⟨⟨_, number⟩, _, ⟨holds, rfl⟩, _, _, rfl, rfl, rfl⟩
        exact Or.inl ⟨secrets, number, known, change, notAlert, holds, rfl⟩
      · rintro (⟨_, number, same, _, _, holds, rfl⟩ | ⟨impossible, _⟩)
        · cases known.symm.trans same
          exact ⟨(content, number), e, ⟨holds, rfl⟩, (), _, rfl, rfl, rfl⟩
        · cases impossible

/-- Whole messages are handled one after the other; what is left is not whole yet. -/
inductive Collects : Octets → Octets → Endpoint G → Progress → Octets → Endpoint G → Prop
  | waits {records pending : Octets} {e : Endpoint G}
    (nothing : Assembly.next? pending = .ok none) :
    Collects records pending e (.continued records) pending e
  | completes {records pending message answer : Octets} {e f : Endpoint G}
    (found : Assembly.next? pending = .ok (some (message, [])))
    (took : receiveMessage message e = .ok answer f) (isOver : f.stage = .established) :
    Collects records pending e (.complete (records ++ answer)) [] f
  | goesOn {records pending message rest answer left : Octets} {e f g : Endpoint G}
    {progress : Progress} (found : Assembly.next? pending = .ok (some (message, rest)))
    (took : receiveMessage message e = .ok answer f) (unfinished : f.stage ≠ .established)
    (later : Collects (records ++ answer) rest f progress left g) :
    Collects records pending e progress left g

theorem receiveMessages_of_nothing {pending : Octets} (nothing : Assembly.next? pending = .ok none) :
    (receiveMessages records pending : Step G (Progress × Octets)) =
      pure (.continued records, pending) := by
  rw [receiveMessages]
  split
  · next found => cases found.symm.trans nothing
  · rfl
  · next found => cases found.symm.trans nothing

theorem receiveMessages_of_found {pending rest : Octets}
    (found : Assembly.next? pending = .ok (some (message, rest))) :
    (receiveMessages records pending : Step G (Progress × Octets)) = (do
      let answer ← receiveMessage message
      if (← get).stage = .established then
        if rest.isEmpty then return (.complete (records ++ answer), rest)
        else throw (.unexpectedMessage "handshake message after Finished")
      else receiveMessages (records ++ answer) rest) := by
  rw [receiveMessages]
  split
  · next other => cases other.symm.trans found
  · next other => cases other.symm.trans found
  · next other =>
    cases other.symm.trans found
    rfl

theorem receiveMessages_eq_ok {pending left : Octets} {progress : Progress} :
    receiveMessages records pending e = .ok (progress, left) e' ↔
      Collects records pending e progress left e' := by
  constructor
  · intro received
    fun_induction receiveMessages (G := G) records pending generalizing e with
    | case1 records pending error found => exact (throw_eq_ok.mp received).elim
    | case2 records pending found =>
      obtain ⟨same, rfl⟩ := pure_eq_ok.mp received
      cases same
      exact .waits found
    | case3 records pending message rest found ih =>
      obtain ⟨answer, f, took, received⟩ := bind_eq_ok.mp received
      obtain ⟨_, _, got, received⟩ := bind_eq_ok.mp received
      obtain ⟨rfl, rfl⟩ := get_eq_ok.mp got
      rcases ite_eq_ok.mp received with ⟨isOver, received⟩ | ⟨unfinished, received⟩
      · rcases ite_eq_ok.mp received with ⟨last, received⟩ | ⟨_, received⟩
        · obtain ⟨same, rfl⟩ := pure_eq_ok.mp received
          cases same
          cases List.isEmpty_iff.mp last
          exact .completes found took isOver
        · exact (throw_eq_ok.mp received).elim
      · exact .goesOn found took unfinished (ih _ received)
  · intro collects
    induction collects with
    | waits nothing =>
      rw [receiveMessages_of_nothing nothing]
      rfl
    | completes found took isOver =>
      rw [receiveMessages_of_found found]
      refine bind_eq_ok.mpr ⟨_, _, took, ?_⟩
      refine bind_eq_ok.mpr ⟨_, _, get_eq_ok.mpr ⟨rfl, rfl⟩, ?_⟩
      rw [if_pos isOver]
      rfl
    | goesOn found took unfinished later ih =>
      rw [receiveMessages_of_found found]
      refine bind_eq_ok.mpr ⟨_, _, took, ?_⟩
      refine bind_eq_ok.mpr ⟨_, _, get_eq_ok.mpr ⟨rfl, rfl⟩, ?_⟩
      rw [if_neg unfinished]
      exact ih

theorem check_eq_ok {received : Octets} :
    ChangeCipherSpec.check received = .ok () ↔ received = ChangeCipherSpec.payload := by
  unfold ChangeCipherSpec.check
  split <;> simp [*]

/-- The ways to take a record, by its type. -/
inductive Handles (header : Record.Header) (record pending : Octets) (e : Endpoint G) :
    Progress → Octets → Endpoint G → Prop
  | change {content : Octets} {f g : Endpoint G} (type : header.type = .changeCipherSpec)
    (opened : open? header record e = .ok content f) (announces : content = ChangeCipherSpec.payload)
    (nothing : pending = []) (changed : receiveChange f = .ok () g) :
    Handles header record pending e (.continued []) pending g
  | data {content : Octets} {f : Endpoint G} (type : header.type = .applicationData)
    (opened : open? header record e = .ok content f) (isOver : f.stage = .established) :
    Handles header record pending e (.data content) pending f
  | messages {content left : Octets} {f g : Endpoint G} {progress : Progress}
    (type : header.type = .handshake) (opened : open? header record e = .ok content f)
    (unfinished : f.stage ≠ .established)
    (collects : Collects [] (pending ++ content) f progress left g) :
    Handles header record pending e progress left g

theorem receiveRecord_eq_ok {header : Record.Header} {record pending left : Octets}
    {progress : Progress} : receiveRecord header record pending e = .ok (progress, left) e' ↔
      Handles header record pending e progress left e' := by
  simp only [receiveRecord, bind_eq_ok]
  constructor
  · rintro ⟨content, f, opened, handled⟩
    cases type : header.type with
    | changeCipherSpec =>
      rw [type] at handled
      simp only [bind_eq_ok, ofExcept_eq_ok, ite_eq_ok, throw_eq_ok, pure_eq_ok, false_and,
        exists_false, and_false, or_false, Prod.mk.injEq] at handled
      obtain ⟨_, _, ⟨announces, rfl⟩, nothing, _, _, changed, ⟨rfl, rfl⟩, rfl⟩ := handled
      cases List.isEmpty_iff.mp nothing
      exact .change type opened (check_eq_ok.mp announces) rfl changed
    | alert =>
      rw [type] at handled
      obtain ⟨_, _, _, impossible⟩ := bind_eq_ok.mp handled
      exact (throw_eq_ok.mp impossible).elim
    | applicationData =>
      rw [type] at handled
      simp only [bind_eq_ok, get_eq_ok, ite_eq_ok, throw_eq_ok, pure_eq_ok, false_and,
        exists_false, and_false, or_false, Prod.mk.injEq] at handled
      obtain ⟨_, _, ⟨rfl, rfl⟩, isOver, ⟨rfl, rfl⟩, rfl⟩ := handled
      exact .data type opened isOver
    | handshake =>
      rw [type] at handled
      simp only [bind_eq_ok, get_eq_ok, ite_eq_ok, throw_eq_ok, false_and, exists_false, and_false,
        false_or] at handled
      obtain ⟨_, _, ⟨rfl, rfl⟩, unfinished, received⟩ := handled
      exact .messages type opened unfinished (receiveMessages_eq_ok.mp received)
  · rintro (⟨type, opened, announces, nothing, changed⟩ | ⟨type, opened, isOver⟩ |
      ⟨type, opened, unfinished, collects⟩)
    · refine ⟨_, _, opened, ?_⟩
      rw [type, nothing, check_eq_ok.mpr announces]
      exact bind_eq_ok.mpr ⟨(), _, ofExcept_eq_ok.mpr ⟨rfl, rfl⟩,
        bind_eq_ok.mpr ⟨(), _, changed, rfl⟩⟩
    · refine ⟨_, _, opened, ?_⟩
      rw [type]
      refine bind_eq_ok.mpr ⟨_, _, get_eq_ok.mpr ⟨rfl, rfl⟩, ?_⟩
      rw [if_pos isOver]
      rfl
    · refine ⟨_, _, opened, ?_⟩
      rw [type]
      refine bind_eq_ok.mpr ⟨_, _, get_eq_ok.mpr ⟨rfl, rfl⟩, ?_⟩
      rw [if_neg unfinished]
      exact receiveMessages_eq_ok.mpr collects

end Endpoint

end TransportSecurity
