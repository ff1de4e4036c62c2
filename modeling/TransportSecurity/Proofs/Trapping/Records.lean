import TransportSecurity.Handshake.Assembly
import TransportSecurity.Proofs.Trapping.Messages
import TransportSecurity.Record.Framing
import TransportSecurity.Record.Protection

/-!
Records and messages cut out of what has arrived, without a trap.

The length of a record comes from its header, the length of a padding from the last octet that was
decrypted, and both are the other end's choice. What is checked before each slice keeps it within
its string: nothing here traps, on any octets and under any keys.
-/

namespace TransportSecurity.Trapping

open Reader

/-- Reads a record header. -/
def header : Reader Record.Header := do
  let code ← octet
  let some type := ContentType.ofCode? code | throw (.error (.unknownContentType code))
  let version ← version
  if version.major ≠ 3 ∨ 3 < version.minor then
    throw (.error (.unsupportedVersion version.major version.minor))
  let length ← number 2
  if Record.maxLength < length then throw (.error (.recordOverflow length))
  return ⟨type, version, length⟩

theorem reads_header : Reads header Record.Header.scan := by
  refine Reads.octet.bind fun code => ?_
  cases ContentType.ofCode? code with
  | none => exact .throw _
  | some type =>
    have rest (version : Version) : Reads (do
          let length ← number 2
          if Record.maxLength < length then throw (.error (.recordOverflow length))
          return Record.Header.mk type version length)
        (do
          let length ← Scan.number 2
          if Record.maxLength < length then throw (.recordOverflow length)
          return Record.Header.mk type version length) :=
      (Reads.number 2).bind fun _ => .ite ((Reads.throw _).bind fun _ => .pure _) (.pure _)
    exact reads_version.bind fun version =>
      .ite ((Reads.throw _).bind fun _ => rest version) (rest version)

/-- The header at the front of a string, once there are enough octets for one. -/
def headerOf? (octets : Octets) : Except Halt (Option Record.Header) := do
  if octets.length < Record.headerLength then return none
  return some (← header.front (← slice octets 0 Record.headerLength))

theorem headerOf?_eq (octets : Octets) :
    headerOf? octets = raised (Record.Header.ofFront? octets) := by
  unfold headerOf? Record.Header.ofFront?
  dsimp only
  rcases Nat.lt_or_ge octets.length Record.headerLength with few | enough
  · rw [if_pos few, if_pos (by rw [List.length_take]; omega)]
    rfl
  · rw [if_neg (by omega), if_neg (by rw [List.length_take]; omega), slice_from_start enough,
      ok_bind, reads_header.front]
    cases Record.Header.scan.front (octets.take Record.headerLength) <;> rfl

/-- The first whole record of a stream, its header and what follows it, if it has all arrived. -/
def nextRecord? (stream : Octets) : Except Halt (Option (Record.Header × Octets × Octets)) := do
  let some header ← headerOf? stream | return none
  if stream.length < header.recordLength then return none
  return some (header, ← splitAt stream header.recordLength)

theorem nextRecord?_eq (stream : Octets) : nextRecord? stream = raised (Record.next? stream) := by
  unfold nextRecord? Record.next?
  rw [headerOf?_eq]
  cases Record.Header.ofFront? stream with
  | error error => rfl
  | ok found =>
    cases found with
    | none => rfl
    | some header =>
      dsimp only
      rcases Nat.lt_or_ge stream.length header.recordLength with few | enough
      · rw [if_pos (by rw [List.length_take]; omega)]
        exact if_pos few
      · rw [if_neg (by rw [List.length_take]; omega), raised_ok, ok_bind]
        dsimp only
        rw [if_neg (by omega), splitAt_eq enough]
        rfl

/-- The first whole message and what follows it, if it has all arrived. -/
def nextMessage? (pending : Octets) : Except Halt (Option (Octets × Octets)) := do
  if pending.length < Body.headerLength then return none
  let length ← numberOf 3 (← slice pending 1 Body.headerLength)
  if Assembly.maxLength < length then throw (.error (.handshakeOverflow length))
  if pending.length < Body.headerLength + length then return none
  return some (← splitAt pending (Body.headerLength + length))

theorem nextMessage?_eq (pending : Octets) :
    nextMessage? pending = raised (Assembly.next? pending) := by
  unfold nextMessage? Assembly.next?
  rcases pending with _ | ⟨type, _ | ⟨a, _ | ⟨b, _ | ⟨c, rest⟩⟩⟩⟩
  · rfl
  · rfl
  · rfl
  · rfl
  · have digits : slice (type :: a :: b :: c :: rest) 1 Body.headerLength = .ok [a, b, c] := by
      rw [slice_eq (by decide) (by simp only [List.length_cons, Body.headerLength]; omega)]
      rfl
    have number : numberOf 3 [a, b, c] = .ok (Octets.value [a, b, c]) := numberOf_eq rfl
    rw [if_neg (by simp only [List.length_cons, Body.headerLength]; omega), digits, ok_bind, number,
      ok_bind]
    dsimp only
    generalize type :: a :: b :: c :: rest = pending
    generalize Octets.value [a, b, c] = length
    refine raised_of_ite (fun _ => rfl) fun _ => ?_
    rcases Nat.lt_or_ge pending.length (Body.headerLength + length) with few | enough
    · rw [if_pos few, if_pos (by rw [List.length_take]; omega)]
      rfl
    · rw [if_neg (by omega), if_neg (by rw [List.length_take]; omega), splitAt_eq enough]
      rfl

/-- The padding that brings `length` octets to whole blocks. -/
def padding (length : Nat) : Except Halt Octets := do
  let value ← minus (← minus Aes.blockLength 1) (length % Aes.blockLength)
  return List.replicate (value + 1) (UInt8.ofNat value)

theorem padding_eq (length : Nat) : padding length = .ok (Record.padding length) := by
  have short : length % Aes.blockLength ≤ Aes.blockLength - 1 :=
    Nat.le_sub_one_of_lt (Nat.mod_lt _ (by decide))
  rw [padding, minus_eq (by decide), ok_bind, minus_eq short]
  rfl

/-- A record around content that is padded and encrypted from a starting block. -/
def encrypted (keys : WriteKeys) (type : ContentType) (start content : Octets) :
    Except Halt Octets := do
  let padding ← padding content.length
  let ciphertext ← raised (Aes.encryptOctets keys.cipherKey start (content ++ padding))
  return (Record.Header.ofLength type (start.length + ciphertext.length)).encode ++
    (start ++ ciphertext)

theorem encrypted_eq (keys : WriteKeys) (type : ContentType) (start content : Octets) :
    encrypted keys type start content = raised (Record.encrypted keys type start content) := by
  rw [encrypted, padding_eq, ok_bind]
  exact raised_of_bind rfl fun _ _ => rfl

section Protecting

variable {G : Type} [Entropy G]

/-- A piece as one protected record under the next number. -/
def protectPiece (keys : WriteKeys) (type : ContentType) (piece : Octets) :
    EStateM Halt (Record.Sealer G) Octets := do
  let number := (← get).number
  let given ← ofExcept (raised (Record.tag keys number type .current piece))
  let start ← lift Record.drawStart
  let record ← ofExcept (encrypted keys type start.val (piece ++ given))
  let next ← ofExcept (raised (Record.nextNumber number))
  modify ({ · with number := next })
  return record

theorem protectPiece_agrees (keys : WriteKeys) (type : ContentType) (piece : Octets)
    (sealer : Record.Sealer G) :
    Agrees (protectPiece keys type piece) (Record.protectPiece keys type piece) sealer := by
  refine .bind .get fun _ _ _ => ?_
  refine .bind (.ofExcept rfl) fun given _ _ => ?_
  refine .bind (.lift _) fun start _ _ => ?_
  refine .bind (.ofExcept (encrypted_eq ..)) fun record _ _ => ?_
  refine .bind (.ofExcept rfl) fun next _ _ => ?_
  exact .bind (.modify _) fun _ _ _ => .pure _

/-- Pieces as protected records in a row. -/
def protectPieces (keys : WriteKeys) (type : ContentType) :
    List Octets → EStateM Halt (Record.Sealer G) Octets
  | [] => return []
  | piece :: rest => do
    let record ← protectPiece keys type piece
    return record ++ (← protectPieces keys type rest)

/-- However long the pieces are, they are padded without a trap. -/
theorem protectPieces_agrees (keys : WriteKeys) (type : ContentType) (pieces : List Octets)
    (sealer : Record.Sealer G) :
    Agrees (protectPieces keys type pieces) (Record.protectPieces keys type pieces) sealer := by
  induction pieces generalizing sealer with
  | nil => exact .pure _
  | cons piece rest ih =>
    refine .bind (protectPiece_agrees keys type piece sealer) fun record later _ => ?_
    exact .bind (ih later) fun _ _ _ => .pure _

end Protecting

/-- The content and the tag inside a decrypted fragment, if its padding is in order. -/
def unpad? (macLength : Nat) (plaintext : Octets) : Except Halt (Option (Octets × Octets)) := do
  let some last := plaintext.getLast? | return none
  if Aes.blockLength ≤ last.toNat then return none
  else if plaintext.length < last.toNat + 1 + macLength then return none
  else
    let contentLength ← minus plaintext.length (last.toNat + 1 + macLength)
    if Record.maxFragment < contentLength then return none
    else
      let place ← minus (← minus plaintext.length last.toNat) 1
      let padding ← slice plaintext place plaintext.length
      let content ← slice plaintext 0 contentLength
      let given ← slice plaintext contentLength (contentLength + macLength)
      return if padding.all (· = last) then some (content, given) else none

/-- Padding and tag are only looked for in a fragment that is long enough for both. -/
theorem unpad?_eq (macLength : Nat) (plaintext : Octets) :
    unpad? macLength plaintext = .ok (Record.unpad? macLength plaintext) := by
  unfold unpad? Record.unpad?
  cases plaintext.getLast? with
  | none => rfl
  | some last =>
    dsimp only [Option.bind_eq_bind, Option.bind_some]
    by_cases large : Aes.blockLength ≤ last.toNat
    · rw [if_pos large, if_pos (Nat.lt_succ_of_le large)]
      rfl
    rw [if_neg large, if_neg fun more => large (Nat.le_of_lt_succ more)]
    by_cases short : plaintext.length < last.toNat + 1 + macLength
    · rw [if_pos short, if_pos short]
      rfl
    have enough : last.toNat + 1 + macLength ≤ plaintext.length := Nat.le_of_not_lt short
    rw [if_neg short, if_neg short, minus_eq enough, ok_bind, Nat.sub_sub]
    generalize found : plaintext.length - (last.toNat + 1 + macLength) = contentLength
    by_cases long : Record.maxFragment < contentLength
    · rw [if_pos long, if_pos long]
      rfl
    have place : plaintext.length - last.toNat - 1 = contentLength + macLength := by omega
    rw [if_neg long, if_neg long, minus_eq (by omega), ok_bind, minus_eq (by omega), ok_bind,
      slice_to_end (by omega), ok_bind, slice_from_start (by omega), ok_bind,
      slice_add (by omega), ok_bind, place]
    split <;> rfl

/-- The content of one whole protected record, and the number of the record after it. -/
def unprotect (keys : WriteKeys) (number : UInt64) (record : Octets) :
    Except Halt (Octets × UInt64) := do
  let some header ← headerOf? record | throw (.error .invalidLength)
  if record.length ≠ header.recordLength then throw (.error .invalidLength)
  if record.length < Record.minProtectedLength keys.macLength ∨
      header.length % Aes.blockLength ≠ 0 then throw (.error .badRecordMac)
  let fragment ← slice record Record.headerLength record.length
  let (start, ciphertext) ← splitAt fragment Aes.blockLength
  let plaintext ← raised (Aes.decryptOctets keys.cipherKey start ciphertext)
  let some (content, given) ← unpad? keys.macLength plaintext | throw (.error .badRecordMac)
  match Record.checkTag keys number header.type header.version content given with
  | .error _ => throw (.error .badRecordMac)
  | .ok () => return (content, ← raised (Record.nextNumber number))

theorem unprotect_eq (keys : WriteKeys) (number : UInt64) (record : Octets) :
    unprotect keys number record = raised (Record.unprotect keys number record) := by
  unfold unprotect Record.unprotect
  refine raised_of_bind (headerOf?_eq record) fun found read => ?_
  cases found with
  | none => rfl
  | some header =>
    refine raised_of_ite (fun _ => rfl) fun whole => ?_
    refine raised_of_ite (fun _ => rfl) fun enough => ?_
    have long : Record.headerLength + Aes.blockLength ≤ record.length := by
      simp only [not_or, Nat.not_lt, Record.minProtectedLength] at enough
      omega
    have behind : (record.drop Record.headerLength).length = record.length - Record.headerLength :=
      List.length_drop
    rw [slice_to_end (by omega), ok_bind, splitAt_eq (by omega), ok_bind]
    refine raised_of_bind rfl fun plaintext _ => ?_
    rw [unpad?_eq, ok_bind]
    cases Record.unpad? keys.macLength plaintext with
    | none => rfl
    | some parts =>
      obtain ⟨content, given⟩ := parts
      dsimp only
      cases Record.checkTag keys number header.type header.version content given with
      | error error => rfl
      | ok _ =>
        exact raised_of_bind rfl fun _ _ => rfl

end TransportSecurity.Trapping
