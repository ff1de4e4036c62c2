import TransportSecurity.Record.Header

/-!
Records in the clear, and how a payload is cut into records.

Both kinds of records carry the same pieces: a payload is cut into pieces of at most
`Record.maxPiece` octets, and an empty payload is one empty piece.
-/

namespace TransportSecurity.Record

/-- The pieces of a payload, one for each record. -/
def pieces (payload : Octets) : List Octets :=
  let rest := payload.drop maxPiece
  if rest.isEmpty then [payload] else payload.take maxPiece :: pieces rest
termination_by payload.length
decreasing_by
  rename_i more
  have : rest ≠ [] := by simpa using more
  have : 0 < rest.length := List.length_pos_iff.2 this
  simp only [rest, maxPiece, List.length_drop] at *
  omega

/-- A payload as records in the clear. -/
def encodePlain (type : ContentType) (payload : Octets) : Octets :=
  (pieces payload).flatMap fun piece => (Header.ofLength type piece.length).encode ++ piece

end TransportSecurity.Record
