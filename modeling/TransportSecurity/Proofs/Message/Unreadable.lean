import TransportSecurity.Proofs.Causes

/-!
What is wrong with a hello that cannot be read.

A reader that finds fault only with lengths (`Scan.Lengthwise`) fails because octets are missing, or
because octets are left over. Client hellos are read by such a reader, so that a message of their
type that cannot be decoded has a length in it that does not fit (`ClientHello.decode_eq_error`).
-/

namespace TransportSecurity

namespace Scan

/-- The errors about lengths: octets are missing or left over. -/
def AboutLength (error : Error) : Prop := error = .invalidLength ∨ error = .trailingBytes

/-- A reader that finds fault only with lengths. -/
def Lengthwise {α : Type} (scan : Scan α) : Prop := ∀ octets, FailsBy scan octets fun error _ =>
  AboutLength error

namespace Lengthwise

variable {α β : Type} {scan : Scan α}

theorem pure (a : α) : Lengthwise (Pure.pure a) := fun _ => .pure a

theorem bind {next : α → Scan β} (first : Lengthwise scan) (later : ∀ a, Lengthwise (next a)) :
    Lengthwise (scan >>= next) := fun octets => .bind (first octets) fun a rest _ => later a rest

/-- A reader may give up over a length. -/
theorem guard {c : Prop} [Decidable c] {next : PUnit → Scan α} (later : Lengthwise (next ⟨⟩)) :
    Lengthwise (if c then do next (← throw .invalidLength) else next ⟨⟩) := by
  split
  · exact bind (fun _ => .throw (Or.inl rfl)) fun _ => later
  · exact later

theorem fixed (n : Nat) : Lengthwise (Scan.fixed n) := by
  intro octets error rest failed
  unfold Scan.fixed at failed
  split at failed
  · cases failed
  · cases failed
    exact Or.inl rfl

theorem number (width : Nat) : Lengthwise (Scan.number width) :=
  bind (bind (fixed width) fun _ => pure _) fun _ => pure _

theorem octet : Lengthwise Scan.octet := bind (number 1) fun _ => pure _

theorem sized (width : Nat) : Lengthwise (Scan.sized width) :=
  bind (number width) fun n => bind (fixed n) fun _ => pure _

theorem atEnd : Lengthwise Scan.atEnd := fun _ => .get_bind (.pure _)

/-- Of a whole string no octet may be left over. -/
theorem whole {octets : Octets} {error : Error}
    (fails : FailsBy scan octets fun error _ => AboutLength error)
    (failed : Scan.whole scan octets = .error error) : AboutLength error := by
  have finish : Lengthwise Scan.finish := bind atEnd fun _ octets => by
    split
    · exact .pure _
    · exact .throw (Or.inr rfl)
  have all : FailsBy (do let value ← scan; Scan.finish; return value : Scan α) octets
      fun error _ => AboutLength error :=
    .bind fails fun _ rest _ => bind finish (fun _ => pure _) rest
  unfold Scan.whole at failed
  split at failed
  · cases failed
  · next found =>
    cases failed
    exact all _ _ found

theorem nested (lengthwise : Lengthwise scan) (width : Nat) :
    Lengthwise (Scan.nested width scan) := by
  refine bind (sized width) fun octets => ?_
  split
  · exact pure _
  · next error failed => exact fun _ => .throw (whole (lengthwise octets) failed)

end Lengthwise

end Scan

theorem ClientHello.lengthwise : Scan.Lengthwise (Body.scan : Scan ClientHello) := by
  have version : Scan.Lengthwise Version.scan :=
    .bind .octet fun _ => .bind .octet fun _ => .pure _
  have sessionId : Scan.Lengthwise SessionId.scan := .bind (.sized 1) fun _ => .guard (.pure _)
  have suites : Scan.Lengthwise SuiteList.scan := .bind (.sized 2) fun _ => .guard (.pure _)
  have compression : Scan.Lengthwise CompressionList.scan :=
    .bind (.sized 1) fun _ => .guard (.pure _)
  have extensions : Scan.Lengthwise Extensions.scan := by
    refine .bind .atEnd fun nothing => ?_
    split
    · exact .pure _
    · exact .bind (.sized 2) fun _ => .pure _
  exact .bind version fun _ => .bind (.fixed 32) fun _ => .bind sessionId fun _ =>
    .bind suites fun _ => .bind compression fun _ => .bind extensions fun _ => .pure _

/-- A message with the type of a client hello that cannot be decoded has a length in it that does
not fit. -/
theorem ClientHello.decode_eq_error {message : Octets} {error : Error}
    (type : MessageType.ofMessage message = .ok .clientHello)
    (failed : Body.decode ClientHello message = .error error) : Scan.AboutLength error := by
  obtain ⟨rest, rfl⟩ := MessageType.ofMessage_eq_ok.mp type
  refine Scan.Lengthwise.whole ?_ failed
  refine .bind_of_ok (Scan.octet_eq_ok.mpr rfl) (.ite (fun other => (other rfl).elim) fun _ => ?_)
  exact lengthwise.nested 3 rest

end TransportSecurity
