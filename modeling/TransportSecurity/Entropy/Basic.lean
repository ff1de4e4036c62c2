import TransportSecurity.Bytes.Basic
import TransportSecurity.Error

/-!
Sources of random octets.

Everything random in a handshake or a record is drawn from a source that the caller supplies. A
draw leaves a new source behind, also when it is declined, so that a run is a function of the source
it began with.
-/

namespace TransportSecurity

/-- A source of random octets. `draw` always delivers; `draw?` may decline. Either way it goes on from
a new state, so a source that has declined may deliver the next time. It does not deliver zeros for
ever: `zeros_end` says that from every state a run of zero octets, drawn one at a time, comes to
an end. -/
class Entropy (G : Type) where
  draw : (n : Nat) → G → Fixed n × G
  draw? : (n : Nat) → G → Option (Fixed n) × G
  zeros_end : WellFounded fun next source : G =>
    (draw 1 source).1.val = [0] ∧ (draw 1 source).2 = next

namespace Entropy

variable {G : Type} [Entropy G]

/-- The next `n` octets, if the source does not decline. -/
def demand (n : Nat) : EStateM Error G (Fixed n) := fun source =>
  match draw? n source with
  | (some octets, next) => .ok octets next
  | (none, next) => .error .entropyExhausted next

/-- The first octet that is not zero, of octets drawn one at a time. -/
def drawNonzero (source : G) : UInt8 × G :=
  let drawn := draw 1 source
  if _ : drawn.1.val = [0] then drawNonzero drawn.2 else (drawn.1.val.headD 0, drawn.2)
termination_by (zeros_end (G := G)).wrap source
decreasing_by exact ⟨by assumption, rfl⟩

theorem drawNonzero_ne_zero (source : G) : (drawNonzero source).1 ≠ 0 := by
  fun_induction drawNonzero source with
  | case1 source drawn zero ih => exact ih
  | case2 source drawn nonzero =>
    intro zero
    apply nonzero
    match h : drawn.1.val, drawn.1.property with
    | [octet], _ => simpa [h] using zero

end Entropy

end TransportSecurity
