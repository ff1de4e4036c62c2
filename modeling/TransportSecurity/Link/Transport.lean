import TransportSecurity.Bytes.Basic
import TransportSecurity.Error

/-!
What a connection needs from whatever carries its octets.
-/

namespace TransportSecurity

/-- Something that carries octets both ways. `receive room` delivers at most `room` octets, and none
once the other end has closed. Between two sends only finitely many receives deliver anything:
`supply` bounds their number. -/
class Transport (T : Type) where
  send : Octets → EStateM Error T Unit
  receive : (room : Nat) → EStateM Error T Octets
  supply : T → Nat
  supply_lt : ∀ {room : Nat} {transport after : T} {octets : Octets},
    receive room transport = .ok octets after → octets ≠ [] → supply after < supply transport

end TransportSecurity
