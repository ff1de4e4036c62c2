import TransportSecurity.Alert.Wire
import TransportSecurity.Handshake.Assembly
import TransportSecurity.Handshake.ChangeCipherSpec
import TransportSecurity.Identity
import TransportSecurity.Proofs.Message.ReadBack
import TransportSecurity.Proofs.Success
import TransportSecurity.Record.Framing
import TransportSecurity.Record.Protection

/-!
What programs fail with.

`FailsBy` bounds the errors of a program and the states it leaves when it fails; it is closed under
all ways of composing programs. With it everything that reads octets, encrypts or decrypts is shown
to be `Careful`: it fails only with errors about octets or random octets (`Error.isForeseen`), never
with one of those that guard against an endpoint whose parts do not fit together.
-/

namespace TransportSecurity

namespace Error

/-- The errors that guard against an endpoint whose parts do not fit together. -/
def guards : List Error :=
  [outOfOrder, noHandshake, keysMissing, changeBeforeKeys,
    .unexpectedMessage "hello randoms missing", .unexpectedMessage "server certificate missing",
    .cipher "receive keys missing", .cipher "key block too short"]

/-- Whether octets from the other end or a source of random octets can be the cause of an error. A
suite that cannot be used is told apart, because only the server's hello can bring one. -/
def isForeseen : Error → Bool
  | .unsupportedSuite _ => false
  | .sessionFailed => false
  | error => !guards.contains error

theorem not_mem_guards_of_isForeseen {error : Error} (foreseen : error.isForeseen) :
    error ∉ guards := by
  have unforeseen : ∀ guard ∈ guards, guard.isForeseen = false := by decide
  intro found
  cases foreseen.symm.trans (unforeseen error found)

end Error

section Programs

variable {ε σ α β : Type}

/-- Where a program fails, error and state are among some causes. -/
def FailsBy (program : EStateM ε σ α) (s : σ) (causes : ε → σ → Prop) : Prop :=
  ∀ error t, program s = .error error t → causes error t

namespace FailsBy

variable {s : σ} {causes weaker : ε → σ → Prop}

theorem weaken {program : EStateM ε σ α} (fails : FailsBy program s causes)
    (weakens : ∀ error t, causes error t → weaker error t) : FailsBy program s weaker :=
  fun error t failed => weakens error t (fails error t failed)

theorem pure (a : α) : FailsBy (Pure.pure a : EStateM ε σ α) s causes :=
  fun _ _ failed => (pure_eq_error.mp failed).elim

theorem throw {error : ε} (cause : causes error s) :
    FailsBy (throw error : EStateM ε σ α) s causes := by
  rintro _ _ ⟨⟩
  exact cause

theorem result {x : Except ε α} (cause : ∀ error, x = .error error → causes error s) :
    FailsBy (ofExcept x : EStateM ε σ α) s causes := by
  intro error t failed
  obtain ⟨fails, rfl⟩ := ofExcept_eq_error.mp failed
  exact cause error fails

theorem change (f : σ → σ) : FailsBy (modify f : EStateM ε σ PUnit) s causes :=
  fun _ _ failed => (modify_eq_error.mp failed).elim

theorem bind {program : EStateM ε σ α} {next : α → EStateM ε σ β}
    (first : FailsBy program s causes)
    (later : ∀ a t, program s = .ok a t → FailsBy (next a) t causes) :
    FailsBy (program >>= next) s causes := by
  intro error t failed
  rcases bind_eq_error.mp failed with failed | ⟨a, between, done, failed⟩
  · exact first error t failed
  · exact later a between done error t failed

/-- A part that succeeds is left out of account. -/
theorem bind_of_ok {program : EStateM ε σ α} {next : α → EStateM ε σ β} {a : α} {t : σ}
    (done : program s = .ok a t) (later : FailsBy (next a) t causes) :
    FailsBy (program >>= next) s causes := by
  intro error u failed
  rw [TransportSecurity.bind_of_ok done] at failed
  exact later error u failed

theorem bind_modify {f : σ → σ} {next : PUnit → EStateM ε σ β}
    (later : FailsBy (next ⟨⟩) (f s) causes) : FailsBy (modify f >>= next) s causes := later

theorem bind_ofExcept {x : Except ε α} {next : α → EStateM ε σ β}
    (cause : ∀ error, x = .error error → causes error s)
    (later : ∀ a, x = .ok a → FailsBy (next a) s causes) :
    FailsBy (ofExcept x >>= next) s causes := by
  refine .bind (.result cause) fun a t done => ?_
  obtain ⟨found, rfl⟩ := ofExcept_eq_ok.mp done
  exact later a found

theorem get_bind {next : σ → EStateM ε σ β} (later : FailsBy (next s) s causes) :
    FailsBy (get >>= next) s causes := later

theorem ite {c : Prop} [Decidable c] {first second : EStateM ε σ α}
    (yes : c → FailsBy first s causes) (no : ¬c → FailsBy second s causes) :
    FailsBy (if c then first else second) s causes := by
  split
  · exact yes ‹_›
  · exact no ‹_›

end FailsBy

end Programs

/-- A result that is not an error, or a foreseen one. -/
def Foreseeable {α : Type} (x : Except Error α) : Prop :=
  ∀ error, x = .error error → error.isForeseen = true

section Results

variable {α β : Type}

theorem foreseeable_pure (a : α) : Foreseeable (pure a) := by
  intro error failed
  cases failed

theorem foreseeable_ok (a : α) : Foreseeable (.ok a) := by
  intro error failed
  cases failed

theorem foreseeable_error {error : Error} (foreseen : error.isForeseen = true) :
    Foreseeable (.error error : Except Error α) := by
  rintro _ ⟨⟩
  exact foreseen

theorem foreseeable_throw {error : Error} (foreseen : error.isForeseen = true) :
    Foreseeable (throw error : Except Error α) := foreseeable_error foreseen

theorem foreseeable_bind {x : Except Error α} {next : α → Except Error β}
    (first : Foreseeable x) (later : ∀ a, Foreseeable (next a)) : Foreseeable (x >>= next) := by
  cases x with
  | error error => exact fun _ failed => first _ (by cases failed; rfl)
  | ok a => exact later a

theorem foreseeable_ite {c : Prop} [Decidable c] {first second : Except Error α}
    (yes : Foreseeable first) (no : Foreseeable second) :
    Foreseeable (if c then first else second) := by
  split <;> assumption

end Results

/-- From whatever state, a program fails only with foreseen errors. -/
def Careful {σ α : Type} (program : EStateM Error σ α) : Prop :=
  ∀ s, FailsBy program s fun error _ => error.isForeseen = true

section Care

variable {σ α β : Type}

theorem careful_pure (a : α) : Careful (pure a : EStateM Error σ α) := fun _ => .pure a

theorem careful_get : Careful (get : EStateM Error σ σ) :=
  fun _ _ _ failed => (get_eq_error.mp failed).elim

theorem careful_set (s : σ) : Careful (set s : EStateM Error σ PUnit) := by
  rintro _ _ _ ⟨⟩

theorem careful_modify (f : σ → σ) : Careful (modify f : EStateM Error σ PUnit) :=
  fun _ => .change f

theorem careful_throw {error : Error} (foreseen : error.isForeseen = true) :
    Careful (throw error : EStateM Error σ α) := fun _ => .throw foreseen

theorem careful_ofExcept {x : Except Error α} (foreseeable : Foreseeable x) :
    Careful (ofExcept x : EStateM Error σ α) := fun _ => .result foreseeable

theorem careful_bind {program : EStateM Error σ α} {next : α → EStateM Error σ β}
    (first : Careful program) (later : ∀ a, Careful (next a)) : Careful (program >>= next) :=
  fun s => .bind (first s) fun a t _ => later a t

theorem careful_ite {c : Prop} [Decidable c] {first second : EStateM Error σ α}
    (yes : Careful first) (no : Careful second) : Careful (if c then first else second) := by
  split <;> assumption

end Care

section Reading

variable {α : Type}

namespace Scan

theorem careful_fixed (n : Nat) : Careful (fixed n) := by
  intro octets error rest failed
  unfold fixed at failed
  split at failed
  · cases failed
  · cases failed
    rfl

theorem careful_take (n : Nat) : Careful (take n) :=
  careful_bind (careful_fixed n) fun _ => careful_pure _

theorem careful_number (width : Nat) : Careful (number width) :=
  careful_bind (careful_take width) fun _ => careful_pure _

theorem careful_octet : Careful octet := careful_bind (careful_number 1) fun _ => careful_pure _

theorem careful_word : Careful word := careful_bind (careful_number 2) fun _ => careful_pure _

theorem careful_sized (width : Nat) : Careful (sized width) :=
  careful_bind (careful_number width) fun n => careful_take n

theorem careful_atEnd : Careful atEnd := careful_bind careful_get fun _ => careful_pure _

theorem careful_finish : Careful finish :=
  careful_bind careful_atEnd fun _ => careful_ite (careful_pure _) (careful_throw rfl)

/-- A careful reader is careful with a whole string. -/
theorem foreseeable_whole {scan : Scan α} (careful : Careful scan) (octets : Octets) :
    Foreseeable (whole scan octets) := by
  have all : Careful (do let value ← scan; finish; return value : Scan α) :=
    careful_bind careful fun _ => careful_bind careful_finish fun _ => careful_pure _
  intro error failed
  unfold whole at failed
  split at failed
  · cases failed
  · next found =>
    cases failed
    exact all octets _ _ found

theorem foreseeable_front {scan : Scan α} (careful : Careful scan) (octets : Octets) :
    Foreseeable (front scan octets) := by
  intro error failed
  unfold front at failed
  split at failed
  · cases failed
  · next found =>
    cases failed
    exact careful octets _ _ found

theorem careful_nested {scan : Scan α} (careful : Careful scan) (width : Nat) :
    Careful (nested width scan) := by
  refine careful_bind (careful_sized width) fun octets => ?_
  split
  · exact careful_pure _
  · next error failed => exact careful_throw (foreseeable_whole careful octets error failed)

end Scan

theorem careful_version : Careful Version.scan :=
  careful_bind Scan.careful_octet fun _ => careful_bind Scan.careful_octet fun _ => careful_pure _

theorem careful_sessionId : Careful SessionId.scan :=
  careful_bind (Scan.careful_sized 1) fun _ =>
    careful_ite (careful_throw rfl) (careful_pure _)

theorem careful_suiteList : Careful SuiteList.scan :=
  careful_bind (Scan.careful_sized 2) fun _ =>
    careful_ite (careful_throw rfl) (careful_pure _)

theorem careful_compressionList : Careful CompressionList.scan :=
  careful_bind (Scan.careful_sized 1) fun _ =>
    careful_ite (careful_throw rfl) (careful_pure _)

theorem careful_extensions : Careful Extensions.scan :=
  careful_bind Scan.careful_atEnd fun _ => careful_ite (careful_pure _)
    (careful_bind (Scan.careful_sized 2) fun _ => careful_pure _)

theorem foreseeable_readEntries (octets : Octets) :
    Foreseeable (Certificates.readEntries octets) := by
  fun_induction Certificates.readEntries octets with
  | case1 => exact foreseeable_pure _
  | case2 => exact foreseeable_error rfl
  | case3 a b c rest length certificate enough ih =>
    exact foreseeable_bind ih fun _ => foreseeable_pure _
  | case4 => exact foreseeable_error rfl

theorem foreseeable_triple (n : Nat) : Foreseeable (Field.triple n) :=
  foreseeable_ite (foreseeable_ok _) (foreseeable_error rfl)

theorem foreseeable_sized24 (octets : Octets) : Foreseeable (Field.sized24 octets) :=
  foreseeable_bind (foreseeable_triple _) fun _ => foreseeable_pure _

theorem foreseeable_writeEntries (list : List Octets) :
    Foreseeable (Certificates.writeEntries list) := by
  induction list with
  | nil => exact foreseeable_pure _
  | cons certificate list ih =>
    exact foreseeable_bind (foreseeable_sized24 certificate) fun _ =>
      foreseeable_bind ih fun _ => foreseeable_pure _

/-- A kind of body is read and written carefully. -/
structure Body.IsCareful (Content : Type) [Body Content] : Prop where
  scan : Careful (Body.scan : Scan Content)
  write : ∀ content : Content, Foreseeable (Body.write content)

theorem ClientHello.isCareful : Body.IsCareful ClientHello where
  scan := careful_bind careful_version fun _ => careful_bind (Scan.careful_fixed 32) fun _ =>
    careful_bind careful_sessionId fun _ => careful_bind careful_suiteList fun _ =>
    careful_bind careful_compressionList fun _ => careful_bind careful_extensions fun _ =>
    careful_pure _
  write _ := foreseeable_pure _

theorem ServerHello.isCareful : Body.IsCareful ServerHello where
  scan := careful_bind careful_version fun _ => careful_bind (Scan.careful_fixed 32) fun _ =>
    careful_bind careful_sessionId fun _ => careful_bind Scan.careful_word fun _ =>
    careful_bind Scan.careful_octet fun _ => careful_ite (careful_throw rfl)
      (careful_bind careful_extensions fun _ => careful_pure _)
  write _ := foreseeable_pure _

theorem Certificates.isCareful : Body.IsCareful Certificates where
  scan := careful_bind (Scan.careful_sized 3) fun _ =>
    careful_bind (careful_ofExcept (foreseeable_readEntries _)) fun _ => careful_pure _
  write _ := foreseeable_bind (foreseeable_triple _) fun _ =>
    foreseeable_bind (foreseeable_writeEntries _) fun _ => foreseeable_pure _

theorem ServerHelloDone.isCareful : Body.IsCareful ServerHelloDone where
  scan := careful_pure _
  write _ := foreseeable_pure _

theorem ClientKeyExchange.isCareful : Body.IsCareful ClientKeyExchange where
  scan := careful_bind (Scan.careful_sized 2) fun _ => careful_pure _
  write _ := foreseeable_pure _

theorem Finished.isCareful : Body.IsCareful Finished where
  scan := careful_bind (Scan.careful_take _) fun _ => careful_pure _
  write _ := foreseeable_pure _

namespace Body.IsCareful

variable {Content : Type} [Body Content]

theorem encode (careful : IsCareful Content) (content : Content) :
    Foreseeable (Body.encode content) :=
  foreseeable_bind (careful.write content) fun _ =>
    foreseeable_bind (foreseeable_sized24 _) fun _ => foreseeable_pure _

theorem decode (careful : IsCareful Content) (message : Octets) :
    Foreseeable (Body.decode Content message) :=
  Scan.foreseeable_whole (careful_bind Scan.careful_octet fun _ =>
    careful_ite (careful_throw rfl) (Scan.careful_nested careful.scan 3)) message

end Body.IsCareful

theorem foreseeable_ofMessage (message : Octets) : Foreseeable (MessageType.ofMessage message) := by
  unfold MessageType.ofMessage
  split
  · exact foreseeable_error rfl
  · split
    · exact foreseeable_ok _
    · exact foreseeable_error rfl

theorem foreseeable_assembly (pending : Octets) : Foreseeable (Assembly.next? pending) := by
  unfold Assembly.next?
  split
  · exact foreseeable_ite (foreseeable_error rfl)
      (foreseeable_ite (foreseeable_ok _) (foreseeable_ok _))
  · exact foreseeable_ok _

theorem foreseeable_check (received : Octets) : Foreseeable (ChangeCipherSpec.check received) :=
  foreseeable_ite (foreseeable_ok _) (foreseeable_error rfl)

theorem careful_alert : Careful Alert.scan := by
  refine careful_bind Scan.careful_octet fun _ => ?_
  split
  · refine careful_bind Scan.careful_octet fun _ => ?_
    split
    · exact careful_pure _
    · exact careful_throw rfl
  · exact careful_throw rfl

theorem foreseeable_ofFront? (octets : Octets) : Foreseeable (Record.Header.ofFront? octets) := by
  have careful : Careful Record.Header.scan := by
    refine careful_bind Scan.careful_octet fun _ => ?_
    split
    · exact careful_bind careful_version fun _ => careful_ite (careful_throw rfl)
        (careful_bind (Scan.careful_number 2) fun _ => careful_ite (careful_throw rfl)
          (careful_pure _))
    · exact careful_throw rfl
  exact foreseeable_ite (foreseeable_ok _)
    (foreseeable_bind (Scan.foreseeable_front careful _) fun _ => foreseeable_pure _)

theorem foreseeable_next? (octets : Octets) : Foreseeable (Record.next? octets) := by
  intro error failed
  unfold Record.next? at failed
  split at failed
  · next found =>
    cases failed
    exact foreseeable_ofFront? octets _ found
  · cases failed
  · dsimp only at failed
    split at failed <;> cases failed

end Reading

section Cryptography

variable {G : Type} [Entropy G]

theorem foreseeable_rsaKey (certificate : Octets) :
    Foreseeable (Certificate.rsaKey certificate) := by
  have publicKey : Foreseeable (Certificate.publicKey certificate) := by
    unfold Certificate.publicKey
    split
    · exact foreseeable_ok _
    · exact foreseeable_error rfl
  refine foreseeable_bind publicKey fun octets => ?_
  split
  · exact foreseeable_pure _
  · exact foreseeable_throw rfl

theorem foreseeable_decryptPreMaster (identity : Identity) (ciphertext : Octets) :
    Foreseeable (identity.decryptPreMaster ciphertext) := by
  unfold Identity.decryptPreMaster
  split
  · exact foreseeable_ite (foreseeable_ok _) (foreseeable_error rfl)
  · exact foreseeable_error rfl

theorem careful_demand (n : Nat) : Careful (Entropy.demand n : EStateM Error G (Fixed n)) := by
  intro source error next failed
  unfold Entropy.demand at failed
  split at failed
  · cases failed
  · cases failed
    rfl

theorem careful_encrypt (key : Rsa.PublicKey) (message : Octets) :
    Careful (Rsa.encrypt key message : EStateM Error G Octets) :=
  careful_ite (careful_throw rfl)
    (careful_bind careful_get fun _ => careful_bind (careful_set _) fun _ => careful_pure _)

theorem foreseeable_setUp (key start : Octets) : Foreseeable (Aes.setUp key start) :=
  foreseeable_ite (foreseeable_ite (foreseeable_ok _) (foreseeable_error rfl))
    (foreseeable_error rfl)

theorem foreseeable_encryptOctets (key start plaintext : Octets) :
    Foreseeable (Aes.encryptOctets key start plaintext) :=
  foreseeable_ite (foreseeable_throw rfl)
    (foreseeable_bind (foreseeable_setUp key start) fun _ => foreseeable_pure _)

theorem foreseeable_decryptOctets (key start ciphertext : Octets) :
    Foreseeable (Aes.decryptOctets key start ciphertext) :=
  foreseeable_bind (foreseeable_setUp key start) fun _ =>
    foreseeable_ite (foreseeable_throw rfl) (foreseeable_pure _)

theorem foreseeable_nextNumber (number : UInt64) : Foreseeable (Record.nextNumber number) :=
  foreseeable_ite (foreseeable_ok _) (foreseeable_error rfl)

theorem careful_drawStart :
    Careful (Record.drawStart : EStateM Error (Record.Sealer G) (Fixed Aes.blockLength)) := by
  intro sealer error after failed
  unfold Record.drawStart at failed
  split at failed
  · cases failed
  · next undrawn =>
    cases failed
    exact careful_demand _ _ _ _ undrawn

theorem careful_protectPiece (keys : WriteKeys) (type : ContentType) (piece : Octets) :
    Careful (Record.protectPiece keys type piece : EStateM Error (Record.Sealer G) Octets) := by
  refine careful_bind careful_get fun sealer => ?_
  refine careful_bind (careful_ofExcept ?_) fun given => ?_
  · exact foreseeable_bind (foreseeable_ite (foreseeable_ok _) (foreseeable_error rfl))
      fun _ => foreseeable_pure _
  refine careful_bind careful_drawStart fun start => ?_
  refine careful_bind (careful_ofExcept ?_) fun record => ?_
  · exact foreseeable_bind (foreseeable_encryptOctets _ _ _) fun _ => foreseeable_pure _
  exact careful_bind (careful_ofExcept (foreseeable_nextNumber _)) fun _ =>
    careful_bind (careful_modify _) fun _ => careful_pure _

theorem careful_protectPieces (keys : WriteKeys) (type : ContentType) (list : List Octets) :
    Careful (Record.protectPieces keys type list : EStateM Error (Record.Sealer G) Octets) := by
  induction list with
  | nil => exact careful_pure _
  | cons piece list ih =>
    exact careful_bind (careful_protectPiece keys type piece) fun _ =>
      careful_bind ih fun _ => careful_pure _

theorem foreseeable_unprotect (keys : WriteKeys) (number : UInt64) (record : Octets) :
    Foreseeable (Record.unprotect keys number record) := by
  refine foreseeable_bind (foreseeable_ofFront? record) fun header? => ?_
  split
  · refine foreseeable_ite (foreseeable_throw rfl) (foreseeable_ite (foreseeable_throw rfl) ?_)
    refine foreseeable_bind (foreseeable_decryptOctets _ _ _) fun plaintext => ?_
    split
    · split
      · exact foreseeable_throw rfl
      · exact foreseeable_bind (foreseeable_nextNumber _) fun _ => foreseeable_pure _
    · exact foreseeable_throw rfl
  · exact foreseeable_throw rfl

end Cryptography

end TransportSecurity
