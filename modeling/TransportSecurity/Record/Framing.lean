import TransportSecurity.Record.Header

/-!
Whole records out of a stream of octets.

A header is judged as soon as its five octets are there, before the rest of the record.
-/

namespace TransportSecurity.Record

/-- The first whole record of a stream, its header and what follows it, if it has all arrived. -/
def next? (stream : Octets) : Except Error (Option (Header × Octets × Octets)) :=
  match Header.ofFront? stream with
  | .error error => .error error
  | .ok none => .ok none
  | .ok (some header) =>
    let record := stream.take header.recordLength
    if record.length < header.recordLength then .ok none
    else .ok (some (header, record, stream.drop header.recordLength))

/-- A record and what follows it are the stream, and a record has the length its header says. -/
theorem next?_eq_some {stream record rest : Octets} {header : Header}
    (found : next? stream = .ok (some (header, record, rest))) :
    record ++ rest = stream ∧ record.length = header.recordLength := by
  unfold next? at found
  split at found
  · simp at found
  · simp at found
  · dsimp only at found
    split at found
    · simp at found
    · rename_i enough
      simp only [Except.ok.injEq, Option.some.injEq, Prod.mk.injEq] at found
      obtain ⟨rfl, rfl, rfl⟩ := found
      refine ⟨List.take_append_drop .., ?_⟩
      simp only [List.length_take] at enough ⊢
      omega

theorem length_lt_of_next? {stream record rest : Octets} {header : Header}
    (found : next? stream = .ok (some (header, record, rest))) : rest.length < stream.length := by
  obtain ⟨whole, length⟩ := next?_eq_some found
  rw [← whole, List.length_append, length, Header.recordLength, headerLength]
  omega

end TransportSecurity.Record
