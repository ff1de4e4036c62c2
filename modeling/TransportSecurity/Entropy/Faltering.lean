import TransportSecurity.Entropy.Reproducible

/-!
A source that fails now and then, for rehearsing what is made of it.

It is told beforehand which of the draws that may be declined it declines, one after the other, and
never declines once it has been through all of these. What it delivers is reproducible.
-/

namespace TransportSecurity

/-- A reproducible source, and for each of the next draws whether it is declined. -/
structure Faltering where
  declines : List Bool
  source : Reproducible

namespace Faltering

/-- The next `n` octets. -/
def draw (n : Nat) (faltering : Faltering) : Fixed n × Faltering :=
  let (octets, source) := faltering.source.draw n
  (octets, { faltering with source })

/-- The next `n` octets, unless it is the turn of a draw that is declined. -/
def draw? (n : Nat) (faltering : Faltering) : Option (Fixed n) × Faltering :=
  match faltering.declines with
  | true :: declines => (none, { faltering with declines })
  | _ =>
    let (octets, next) := faltering.draw n
    (some octets, { next with declines := faltering.declines.tail })

instance : Entropy Faltering where
  draw := draw
  draw? := draw?
  zeros_end := by
    refine Subrelation.wf ?_ (InvImage.wf source (Entropy.zeros_end (G := Reproducible)))
    rintro next faltering ⟨zero, rfl⟩
    exact ⟨zero, rfl⟩

variable {faltering : Faltering} {declines : List Bool} (n : Nat)

theorem draw?_of_granted (turn : faltering.declines = false :: declines) :
    Entropy.draw? n faltering =
      (some (faltering.draw n).1, { (faltering.draw n).2 with declines }) := by
  change draw? n faltering = _
  rw [draw?, turn]
  rfl

theorem draw?_of_declined (turn : faltering.declines = true :: declines) :
    Entropy.draw? n faltering = (none, { faltering with declines }) := by
  change draw? n faltering = _
  rw [draw?, turn]

theorem draw?_of_through (through : faltering.declines = []) :
    Entropy.draw? n faltering =
      (some (faltering.draw n).1, { (faltering.draw n).2 with declines := [] }) := by
  change draw? n faltering = _
  rw [draw?, through]
  rfl

end Faltering

end TransportSecurity
