import TransportSecurity.Identity
import TransportSecurity.Suite

/-!
What the user of a session decides beforehand.
-/

namespace TransportSecurity

namespace Suite

/-- Fails unless there are suites and all of them can be used. -/
def check (suites : List Suite) : Except Error Unit :=
  if suites.isEmpty then .error (.configuration "no cipher suites configured")
  else
    match suites.find? fun suite => !suite.isSupported with
    | some suite => .error (.unsupportedSuite suite)
    | none => .ok ()

/-- The first suite of a list of preferences that is offered. -/
def choose? (preferred offered : List Suite) : Option Suite :=
  preferred.find? fun suite => offered.contains suite

end Suite

/-- What a client decides: the suites it offers, in order, and the octets of the only public key
that it accepts, if it knows them. -/
structure ClientSettings where
  suites : List Suite := Suite.supported
  pin : Option Octets := none

/-- What a server decides: the suites it accepts, the one it likes most first, and who it is. -/
structure ServerSettings where
  suites : List Suite := Suite.supported
  identity : Identity

end TransportSecurity
