import TransportSecurity.Error

/-!
Cipher suites: which lengths and which keyed digest a two-octet code stands for.

All suites here exchange keys by RSA encryption and protect records with AES in chaining mode under
a keyed digest. A code off the list can be named in a message but not used.
-/

namespace TransportSecurity

/-- The code of a cipher suite. -/
abbrev Suite := UInt16

/-- The keyed digest that authenticates records. -/
inductive MacAlgorithm where | hmacSha1 | hmacSha256
  deriving DecidableEq, Repr

/-- The length of a tag. -/
def MacAlgorithm.length : MacAlgorithm → Nat
  | .hmacSha1 => 20
  | .hmacSha256 => 32

/-- What the key schedule and the record layer need to know about a suite. -/
structure SuiteParameters where
  cipherKeyLength : Nat
  mac : MacAlgorithm
  macLength : Nat
  macKeyLength : Nat
  deriving DecidableEq, Repr

/-- How many octets of key material the two ends' keys take together. -/
def SuiteParameters.keyMaterialLength (parameters : SuiteParameters) : Nat :=
  2 * parameters.macKeyLength + 2 * parameters.cipherKeyLength

namespace Suite

/-- The code that stands for no protection, before a suite is agreed on. -/
def unprotected : Suite := 0x0000

def rsaAes128Sha : Suite := 0x002f
def rsaAes256Sha : Suite := 0x0035
def rsaAes128Sha256 : Suite := 0x003c
def rsaAes256Sha256 : Suite := 0x003d

/-- Every suite that can be used, strongest first. -/
def supported : List Suite := [rsaAes256Sha256, rsaAes128Sha256, rsaAes256Sha, rsaAes128Sha]

/-- Whether a suite can be used. -/
def isSupported (suite : Suite) : Bool := supported.contains suite

/-- The parameters made of a key length and a keyed digest, whose key is as long as its tag. -/
def parametersOf (cipherKeyLength : Nat) (mac : MacAlgorithm) : SuiteParameters :=
  ⟨cipherKeyLength, mac, mac.length, mac.length⟩

/-- The parameters of a suite that can be used. -/
def parameters (suite : Suite) : Except Error SuiteParameters :=
  if suite = rsaAes128Sha then .ok (parametersOf 16 .hmacSha1)
  else if suite = rsaAes256Sha then .ok (parametersOf 32 .hmacSha1)
  else if suite = rsaAes128Sha256 then .ok (parametersOf 16 .hmacSha256)
  else if suite = rsaAes256Sha256 then .ok (parametersOf 32 .hmacSha256)
  else .error (.unsupportedSuite suite)

end Suite

end TransportSecurity
