import TransportSecurity.Alert.Wire
import TransportSecurity.Handshake.ChangeCipherSpec
import TransportSecurity.Proofs.Message.WireFormat
import TransportSecurity.Proofs.Trapping.Reading

/-!
Messages, read and written without a trap.

Reading never traps, whatever the octets are (`readMessage_eq`). Writing traps on a body too long
for the three octets of its length, and on no other (`writeMessage_eq`, `writeMessage_of_long`).
-/

namespace TransportSecurity

/-- The length of a body fits in the three octets in front of it. -/
def Body.Fits {Content : Type} [Body Content] (content : Content) : Prop :=
  ∃ body, Body.write content = .ok body ∧ body.length ≤ 0xffffff

namespace Trapping

open Reader

/-- How a body is read by place, and written. -/
class Wire (Content : Type) [Body Content] where
  read : Reader Content
  write : Content → Except Halt Octets
  reads : Reads read Body.scan
  writes : ∀ {content : Content} {body : Octets}, Body.write content = .ok body →
    write content = .ok body

/-- A whole message. -/
def writeMessage {Content : Type} [Body Content] [Wire Content] (content : Content) :
    Except Halt Octets := do
  let body ← sized24 (← Wire.write content)
  return (Body.type Content).code :: body

/-- Reads a whole message of one type, which must hold its body exactly. -/
def readMessage (Content : Type) [Body Content] [Wire Content] (message : Octets) :
    Except Halt Content :=
  Reader.whole (do
    let code ← Reader.octet
    if code ≠ (Body.type Content).code then throw (.error (.unknownHandshakeType code))
    Reader.nested 3 Wire.read) message

section Whole

variable {Content : Type} [Body Content] [Wire Content]

/-- No octets make a message trap as it is read. -/
theorem readMessage_eq (message : Octets) :
    readMessage Content message = raised (Body.decode Content message) := by
  refine Reads.whole (Reads.octet.bind fun code => ?_) message
  refine Reads.ite ?_ ?_
  · exact (Reads.throw _).bind fun _ => .nested 3 Wire.reads
  · exact .nested 3 Wire.reads

/-- A message whose body fits is written without a trap. -/
theorem writeMessage_eq {content : Content} (fits : Body.Fits content) :
    writeMessage content = raised (Body.encode content) := by
  obtain ⟨body, written, short⟩ := fits
  have small : body.length < 2 ^ 24 := by omega
  rw [writeMessage, Body.encode, Wire.writes written, written, ok_bind, ok_bind, raised_bind,
    sized24_eq small]
  rfl

/-- A body that does not fit traps. -/
theorem writeMessage_of_long {content : Content} {body : Octets}
    (written : Body.write content = .ok body) (long : 0xffffff < body.length) :
    writeMessage content = .error (.trap (.tooLarge body.length)) := by
  rw [writeMessage, Wire.writes written, ok_bind, sized24, triple, if_neg (by omega)]
  rfl

end Whole

/-- Reads a version, any at all. -/
def version : Reader Version := return ⟨← octet, ← octet⟩

theorem reads_version : Reads version Version.scan :=
  Reads.octet.bind fun _ => Reads.octet.bind fun _ => .pure _

/-- Reads a session identifier. -/
def sessionId : Reader Octets := do
  let id ← sized8
  if SessionId.maxLength < id.length then throw (.error .invalidLength)
  return id

theorem reads_sessionId : Reads sessionId SessionId.scan :=
  Reads.sized8.bind fun _ => .ite ((Reads.throw _).bind fun _ => .pure _) (.pure _)

/-- Octets two by two. -/
def pairs : Octets → List Octets
  | a :: b :: rest => [a, b] :: pairs rest
  | _ => []

/-- The suites spelled by octets, two octets each. -/
def suitesOf (octets : Octets) : Except Halt (List Suite) :=
  (pairs octets).mapM fun pair => do
    return UInt16.ofNat (Octets.value [← octetAt pair 0, ← octetAt pair 1])

/-- Both octets of every pair are there. -/
theorem suitesOf_eq (octets : Octets) : suitesOf octets = .ok (SuiteList.ofOctets octets) := by
  unfold suitesOf
  induction octets using pairs.induct with
  | case1 a b rest ih =>
    rw [pairs, List.mapM_cons, ih]
    rfl
  | case2 octets short =>
    rcases octets with _ | ⟨a, _ | ⟨b, rest⟩⟩
    · rfl
    · rfl
    · exact (short a b rest rfl).elim

/-- Reads a list of suites, which may not be empty. -/
def suiteList : Reader (List Suite) := do
  let octets ← sized 2
  if octets.isEmpty ∨ octets.length % 2 ≠ 0 then throw (.error .invalidLength)
  ofExcept (suitesOf octets)

theorem reads_suiteList : Reads suiteList SuiteList.scan := by
  refine (Reads.sized 2).bind fun octets => ?_
  rw [suitesOf_eq]
  exact .ite ((Reads.throw _).bind fun _ => .pure _) (.pure _)

/-- Reads a list of compression methods, which may not be empty. -/
def compressionList : Reader Octets := do
  let methods ← sized8
  if methods.isEmpty then throw (.error .invalidLength)
  return methods

theorem reads_compressionList : Reads compressionList CompressionList.scan :=
  Reads.sized8.bind fun _ => .ite ((Reads.throw _).bind fun _ => .pure _) (.pure _)

/-- Reads a block of extensions if anything is left. -/
def extensions : Reader (Option Octets) := do
  if ← atEnd then return none
  return some (← sized 2)

theorem reads_extensions : Reads extensions Extensions.scan :=
  Reads.atEnd.bind fun _ => .ite (.pure _) ((Reads.sized 2).bind fun _ => .pure _)

instance instWireClientHello : Wire ClientHello where
  read := do
    let version ← version
    let random ← fixed 32
    let sessionId ← sessionId
    let suites ← suiteList
    let compression ← compressionList
    let extensions ← extensions
    return { version, random, sessionId, suites, compression, extensions }
  write hello := raised (Body.write hello)
  reads := reads_version.bind fun _ => (Reads.fixed 32).bind fun _ => reads_sessionId.bind fun _ =>
    reads_suiteList.bind fun _ => reads_compressionList.bind fun _ => reads_extensions.bind fun _ =>
      .pure _
  writes written := congrArg raised written

instance instWireServerHello : Wire ServerHello where
  read := do
    let version ← version
    let random ← fixed 32
    let sessionId ← sessionId
    let suite ← word
    if (← octet) ≠ CompressionList.null then throw (.error .invalidCompression)
    let extensions ← extensions
    return { version, random, sessionId, suite, extensions }
  write hello := raised (Body.write hello)
  reads := reads_version.bind fun _ => (Reads.fixed 32).bind fun _ => reads_sessionId.bind fun _ =>
    Reads.word.bind fun _ => Reads.octet.bind fun _ =>
      .ite ((Reads.throw _).bind fun _ => reads_extensions.bind fun _ => .pure _)
        (reads_extensions.bind fun _ => .pure _)
  writes written := congrArg raised written

/-- The certificates in a row of entries, from a place on; an entry may not be empty. -/
def entries (cursor : Cursor) : Except Halt (List Octets) :=
  match atEnd cursor with
  | .error halt _ => .error halt
  | .ok true _ => .ok []
  | .ok false _ =>
    match _found : sized 3 cursor with
    | .error halt _ => .error halt
    | .ok certificate next =>
      if certificate.isEmpty then .error (.error .invalidLength)
      else do return certificate :: (← entries next)
termination_by cursor.buffer.length - cursor.offset
decreasing_by
  obtain ⟨same, onward, within⟩ := sized_moves _found
  rw [same] at within ⊢
  omega

/-- Certificates in a row, each with its length in three octets. -/
def writeEntries : List Octets → Except Halt Octets
  | [] => return []
  | certificate :: rest => return (← sized24 certificate) ++ (← writeEntries rest)

theorem writeEntries_eq {list : List Octets} {octets : Octets}
    (written : Certificates.writeEntries list = .ok octets) : writeEntries list = .ok octets := by
  induction list generalizing octets with
  | nil =>
    cases written
    rfl
  | cons certificate list ih =>
    obtain ⟨rest, short, tail, rfl⟩ := Certificates.writeEntries_cons.mp written
    rw [writeEntries, sized24_eq short, ih tail, Field.sized24, Field.triple, if_pos short]
    rfl

/-- What is not an entry is not a row of entries either. -/
theorem readEntries_of_error {octets rest : Octets} {error : Error} (some : octets ≠ [])
    (failed : Scan.sized 3 octets = .error error rest) :
    Certificates.readEntries octets = .error error := by
  rcases octets with _ | ⟨a, _ | ⟨b, _ | ⟨c, octets⟩⟩⟩
  · exact (some rfl).elim
  · cases failed
    rw [Certificates.readEntries] <;> simp
  · cases failed
    rw [Certificates.readEntries] <;> simp
  · have digits : Scan.number 3 (a :: b :: c :: octets) = .ok (Octets.value [a, b, c]) octets :=
      Scan.number_eq_ok.mpr ⟨Octets.value_lt [a, b, c],
        congrArg (· ++ octets) (Octets.bigEndian_value [a, b, c]).symm⟩
    rw [Scan.sized, bind_of_ok digits, Scan.take] at failed
    rw [Certificates.readEntries]
    generalize Octets.value [a, b, c] = length at failed ⊢
    rcases Nat.lt_or_ge octets.length length with few | enough
    · rw [bind_of_error (fixed_of_lt few)] at failed
      cases failed
      exact if_pos (Or.inl (by rw [List.length_take]; omega))
    · rw [bind_of_ok (fixed_of_le enough)] at failed
      cases failed

/-- An entry comes before a row of entries, and is not empty. -/
theorem readEntries_of_ok {octets certificate rest : Octets}
    (read : Scan.sized 3 octets = .ok certificate rest) : Certificates.readEntries octets =
      if certificate.isEmpty then .error .invalidLength
      else do return certificate :: (← Certificates.readEntries rest) := by
  obtain ⟨short, rfl⟩ := Scan.sized_eq_ok.mp read
  cases certificate with
  | nil =>
    have spelled : Octets.bigEndian 3 0 ++ [] ++ rest = 0 :: 0 :: 0 :: rest := rfl
    rw [List.length_nil, spelled, Certificates.readEntries]
    exact if_pos (Or.inr rfl)
  | cons octet certificate =>
    rw [Certificates.readEntries_cons short (List.cons_ne_nil _ _)]
    cases Certificates.readEntries rest <;> rfl

/-- Entries are read from every place without a trap. -/
theorem entries_eq {cursor : Cursor} {octets : Octets} (holds : cursor.Holds octets) :
    entries cursor = raised (Certificates.readEntries octets) := by
  have atEnd := atEnd_eq holds
  fun_induction entries cursor generalizing octets with
  | case1 cursor halt next ran =>
    cases atEnd.symm.trans ran
  | case2 cursor next ran =>
    cases octets with
    | nil =>
      rw [Certificates.readEntries]
      rfl
    | cons octet octets => cases atEnd.symm.trans ran
  | case3 cursor place more halt next ran =>
    obtain ⟨error, rest, rfl, total, _⟩ := (Reads.sized 3 cursor octets holds).of_error ran
    have some : octets ≠ [] := by
      rintro rfl
      cases atEnd.symm.trans more
    rw [readEntries_of_error some total]
    rfl
  | case4 cursor place more certificate next ran empty =>
    obtain ⟨rest, total, _⟩ := (Reads.sized 3 cursor octets holds).of_ok ran
    rw [readEntries_of_ok total, if_pos empty]
    rfl
  | case5 cursor place more certificate next ran nonempty ih =>
    obtain ⟨rest, total, behind⟩ := (Reads.sized 3 cursor octets holds).of_ok ran
    rw [readEntries_of_ok total, if_neg nonempty, ih behind (atEnd_eq behind), raised_bind]
    rfl

instance instWireCertificates : Wire Certificates where
  read := do
    let list ← sized 3
    return ⟨← ofExcept (entries ⟨list, 0⟩)⟩
  write certificates := do
    let length ← triple (Certificates.entriesLength certificates.list)
    return length ++ (← writeEntries certificates.list)
  reads := (Reads.sized 3).bind fun list =>
    (Reads.ofExcept (entries_eq (Cursor.holds_start list))).bind fun _ => .pure _
  writes written := by
    obtain ⟨entries, room, made, rfl⟩ := Certificates.write_eq_ok.mp written
    rw [triple_eq room, writeEntries_eq made, Certificates.length_writeEntries made]
    rfl

instance instWireServerHelloDone : Wire ServerHelloDone where
  read := return {}
  write content := raised (Body.write content)
  reads := .pure _
  writes written := congrArg raised written

instance instWireClientKeyExchange : Wire ClientKeyExchange where
  read := return ⟨← sized 2⟩
  write exchange := raised (Body.write exchange)
  reads := (Reads.sized 2).bind fun _ => .pure _
  writes written := congrArg raised written

instance instWireFinished : Wire Finished where
  read := return ⟨← take KeySchedule.verifyLength⟩
  write finished := raised (Body.write finished)
  reads := (Reads.take _).bind fun _ => .pure _
  writes written := congrArg raised written

section Fitting

/-- Every suite that a client offers takes two octets. -/
theorem exists_write_offering (random : Random) (suites : List Suite) :
    ∃ body, Body.write (ClientHello.offering random suites) = .ok body ∧
      body.length = 39 + 2 * suites.length := by
  refine ⟨_, rfl, ?_⟩
  simp only [ClientHello.offering, Version.encode, Field.sized8, SuiteList.encode,
    Extensions.encode, SuiteList.length_flatMap_word, Octets.length_bigEndian, List.length_append,
    List.length_cons, List.length_nil, random.property]
  omega

/-- The hello of a client fits as long as it does not offer too many suites. -/
theorem fits_offering_iff {random : Random} {suites : List Suite} :
    Body.Fits (ClientHello.offering random suites) ↔ 39 + 2 * suites.length ≤ 0xffffff := by
  obtain ⟨body, written, length⟩ := exists_write_offering random suites
  rw [← length]
  constructor
  · rintro ⟨other, same, short⟩
    cases written.symm.trans same
    exact short
  · intro short
    exact ⟨body, written, short⟩

/-- The certificates of a server fit as long as their entries leave room for their length. -/
theorem fits_certificates_iff {certificates : Certificates} :
    Body.Fits certificates ↔ 3 + Certificates.entriesLength certificates.list ≤ 0xffffff := by
  constructor
  · rintro ⟨body, written, short⟩
    rwa [Certificates.length_of_write written] at short
  · intro few
    have room : Certificates.entriesLength certificates.list < 2 ^ 24 := by omega
    obtain ⟨body, written, length⟩ := Certificates.exists_write_of_room room
    exact ⟨body, written, by rw [length]; exact few⟩

/-- The hello of a server fits, whatever it chooses. -/
theorem fits_serverHello (random : Random) (suite : Suite) :
    Body.Fits (ServerHello.choosing random suite) := by
  have formed : (ServerHello.choosing random suite).WellFormed :=
    ⟨Nat.zero_le _, by simp [ServerHello.choosing]⟩
  obtain ⟨body, written, short⟩ := ServerHello.exists_write formed
  exact ⟨body, written, by omega⟩

theorem fits_helloDone : Body.Fits ServerHelloDone.mk := ⟨[], rfl, Nat.zero_le _⟩

theorem fits_exchange {encrypted : Octets} (short : encrypted.length ≤ 65535) :
    Body.Fits (ClientKeyExchange.mk encrypted) := by
  have formed : (ClientKeyExchange.mk encrypted).WellFormed := short
  obtain ⟨body, written, short⟩ := ClientKeyExchange.exists_write formed
  exact ⟨body, written, by omega⟩

theorem fits_finished {verifyData : Octets}
    (length : verifyData.length = KeySchedule.verifyLength) :
    Body.Fits (Finished.mk verifyData) := by
  have formed : (Finished.mk verifyData).WellFormed := length
  obtain ⟨body, written, short⟩ := Finished.exists_write formed
  exact ⟨body, written, by omega⟩

end Fitting

/-- Reads an alert; a level or description that is not on the lists is refused. -/
def alert : Reader Alert := do
  let some level := AlertLevel.ofCode? (← octet) | throw (.error .invalidAlert)
  let some description := AlertDescription.ofCode? (← octet) | throw (.error .invalidAlert)
  return ⟨level, description⟩

theorem reads_alert : Reads alert Alert.scan := by
  refine Reads.octet.bind fun code => ?_
  cases AlertLevel.ofCode? code with
  | none => exact .throw _
  | some level =>
    refine Reads.octet.bind fun code => ?_
    cases AlertDescription.ofCode? code with
    | none => exact .throw _
    | some description => exact .pure _

/-- Fails for any payload but the only one that announces protected records. -/
def checkChange (received : Octets) : Except Halt Unit :=
  match Reader.whole (do unless (← octet) = 1 do throw (.error .invalidChangeCipherSpec))
    received with
  | .ok () => .ok ()
  | .error (.error _) => .error (.error .invalidChangeCipherSpec)
  | .error (.trap trap) => .error (.trap trap)

theorem checkChange_eq (received : Octets) :
    checkChange received = raised (ChangeCipherSpec.check received) := by
  have reads : Reads (do unless (← octet) = 1 do throw (.error .invalidChangeCipherSpec))
      (do unless (← Scan.octet) = 1 do throw .invalidChangeCipherSpec) :=
    Reads.octet.bind fun _ => .ite (.pure _) (.throw _)
  have accepted : Scan.whole (do unless (← Scan.octet) = 1 do throw .invalidChangeCipherSpec)
      received = .ok () ↔ received = [1] := by
    simp only [Scan.whole_eq_ok, bind_eq_ok, Scan.octet_eq_ok, ite_eq_ok, throw_eq_ok, pure_eq_ok]
    constructor
    · rintro ⟨octet, _, rfl, ⟨rfl, _, rfl⟩ | ⟨_, impossible⟩⟩
      · rfl
      · exact impossible.elim
    · rintro rfl
      exact ⟨1, [], rfl, Or.inl ⟨rfl, trivial, rfl⟩⟩
  rw [checkChange, reads.whole, ChangeCipherSpec.check, ChangeCipherSpec.payload]
  cases ended : Scan.whole (do unless (← Scan.octet) = 1 do throw .invalidChangeCipherSpec)
    received with
  | ok _ =>
    rw [if_pos (accepted.mp ended)]
    rfl
  | error error =>
    rw [if_neg fun only => by cases ended.symm.trans (accepted.mpr only)]
    rfl

end Trapping

end TransportSecurity
