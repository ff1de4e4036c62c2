import TransportSecurity.Message.Body

/-!
Handshake messages out of the fragments that records carry.

Messages and records are cut independently: only the length in a message's header says where the
message ends. `next?` takes the first whole message off the octets collected so far.
-/

namespace TransportSecurity.Assembly

/-- The longest body of a message that is waited for. -/
def maxLength : Nat := 2 ^ 17

/-- The first whole message and what follows it, if it has all arrived. -/
def next? (pending : Octets) : Except Error (Option (Octets × Octets)) :=
  match pending with
  | _ :: a :: b :: c :: _ =>
    let length := Octets.value [a, b, c]
    let message := pending.take (Body.headerLength + length)
    if maxLength < length then .error (.handshakeOverflow length)
    else if message.length < Body.headerLength + length then .ok none
    else .ok (some (message, pending.drop (Body.headerLength + length)))
  | _ => .ok none

/-- A message and what follows it are the octets collected, and a message is not empty. -/
theorem next?_eq_some {pending message rest : Octets}
    (found : next? pending = .ok (some (message, rest))) :
    message ++ rest = pending ∧ Body.headerLength ≤ message.length := by
  unfold next? at found
  split at found
  · dsimp only at found
    split at found
    · simp at found
    · split at found
      · simp at found
      · rename_i enough
        simp only [Except.ok.injEq, Option.some.injEq, Prod.mk.injEq] at found
        rw [← found.1, ← found.2]
        exact ⟨List.take_append_drop .., by omega⟩
  · simp at found

theorem length_lt_of_next? {pending message rest : Octets}
    (found : next? pending = .ok (some (message, rest))) : rest.length < pending.length := by
  obtain ⟨whole, nonempty⟩ := next?_eq_some found
  rw [← whole, List.length_append]
  simp only [Body.headerLength] at nonempty
  omega

end TransportSecurity.Assembly
