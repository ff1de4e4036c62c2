import TransportSecurity.Proofs.Session.Means
import TransportSecurity.Proofs.Session.Refusals

/-!
What a client can fail for when it answers the server's flight.

When the end of the flight has come, everything is there that the client answers with, and it has
nothing more to read. Random octets can still run out, and the key may be too small for what it has
to encipher: such errors are its own (`Error.isOwn`), and there are no others
(`Endpoint.owns_receiveHelloDone`).
-/

namespace TransportSecurity

/-- Whether an error says that this end has no random octets left, or cannot encipher something. -/
def Error.isOwn : Error → Bool
  | .entropyExhausted => true
  | .cipher _ => true
  | _ => false

/-- A program fails only with errors of its own end. -/
def Owns {σ α : Type} (program : EStateM Error σ α) (s : σ) : Prop :=
  FailsBy program s fun error _ => error.isOwn = true

section Cryptography

variable {G : Type} [Entropy G]

theorem owns_demand (n : Nat) (source : G) :
    Owns (Entropy.demand n : EStateM Error G (Fixed n)) source := by
  intro error next failed
  unfold Entropy.demand at failed
  split at failed
  · cases failed
  · cases failed
    rfl

theorem owns_encrypt (key : Rsa.PublicKey) (message : Octets) (source : G) :
    Owns (Rsa.encrypt key message : EStateM Error G Octets) source := by
  refine .ite (fun _ => .throw rfl) fun _ => .get_bind ?_
  exact .bind (fun _ _ failed => by cases failed) fun _ _ _ => .pure _

/-- Octets that are not enciphered are not whole blocks, or the key or the starting block does not
have a length there is. -/
theorem Aes.isOwn_of_encryptOctets {key start plaintext : Octets} {error : Error}
    (failed : encryptOctets key start plaintext = .error error) : error.isOwn = true := by
  by_cases whole : plaintext.length % blockLength = 0
  · cases ready : setUp key start with
    | ok pair => simp [encryptOctets, whole, ready, bind, Except.bind, pure, Except.pure] at failed
    | error other =>
      simp only [encryptOctets, whole, ready, bind, Except.bind] at failed
      cases failed
      unfold setUp at ready
      split at ready
      · split at ready <;> cases ready
        rfl
      · cases ready
        rfl
  · rw [encryptOctets, if_pos whole] at failed
    cases failed
    rfl

namespace Record

variable {keys : WriteKeys} {type : ContentType}

theorem isOwn_of_encrypted {start content : Octets} {error : Error}
    (failed : encrypted keys type start content = .error error) : error.isOwn = true := by
  unfold encrypted at failed
  cases enciphered : Aes.encryptOctets keys.cipherKey start (content ++ padding content.length) with
  | ok ciphertext =>
    rw [enciphered] at failed
    cases failed
  | error other =>
    rw [enciphered] at failed
    cases failed
    exact Aes.isOwn_of_encryptOctets enciphered

theorem owns_drawStart (sealer : Sealer G) :
    Owns (drawStart : EStateM Error (Sealer G) (Fixed Aes.blockLength)) sealer := by
  intro error after failed
  unfold drawStart at failed
  split at failed
  · cases failed
  · next undrawn =>
    cases failed
    exact owns_demand _ _ _ _ undrawn

theorem owns_protectPiece {piece : Octets} (short : piece.length ≤ maxPiece) (sealer : Sealer G) :
    Owns (protectPiece keys type piece) sealer := by
  obtain ⟨given, tagged⟩ : ∃ given, tag keys sealer.number type .current piece = .ok given := by
    rw [maxPiece] at short
    exact ⟨_, tag_eq_ok.mpr ⟨_, if_pos (by omega), rfl⟩⟩
  refine .get_bind (.bind_of_ok (ofExcept_eq_ok.mpr ⟨tagged, rfl⟩) ?_)
  refine .bind (owns_drawStart sealer) fun start _ _ => ?_
  refine .bind_ofExcept (fun error => isOwn_of_encrypted) fun record _ => ?_
  refine .bind_ofExcept (fun error failed => ?_) fun next _ => .bind_modify (.pure _)
  unfold nextNumber at failed
  split at failed
  · cases failed
  · cases failed
    rfl

theorem owns_protectPieces {list : List Octets} (short : ∀ piece ∈ list, piece.length ≤ maxPiece)
    (sealer : Sealer G) : Owns (protectPieces keys type list) sealer := by
  induction list generalizing sealer with
  | nil => exact .pure _
  | cons piece list ih =>
    obtain ⟨first, others⟩ := List.forall_mem_cons.mp short
    exact .bind (owns_protectPiece first sealer) fun _ between _ =>
      .bind (ih others between) fun _ _ _ => .pure _

end Record

end Cryptography

namespace Endpoint

variable {G : Type} [Entropy G] {e : Endpoint G} {settings : ClientSettings} {key : Rsa.PublicKey}
  {message : Octets}

theorem owns_encode (type : ContentType) (payload : Octets) (e : Endpoint G) :
    Owns (encode type payload) e := by
  refine .get_bind ?_
  split
  · exact fails_withSealer
      (Record.owns_protectPieces fun _ => Record.length_le_of_mem_pieces) e
  · exact .pure _

theorem owns_sendExchange (sound : e.Sound) (coherent : e.Coherent)
    (waits : e.role = .client settings .serverHelloDone) (trusted : e.serverKey = some key)
    (size : key.size ≤ 512) (decoded : Body.decode ServerHelloDone message = .ok {}) :
    Owns (Client.sendExchange message) e := by
  obtain ⟨messages, found, length⟩ := sound.filled (n := 3) (by rw [waits]; rfl)
  obtain ⟨client, server, drawn, chosen⟩ :=
    sound.randoms (by rw [waits]; rfl) (by rw [waits]; rfl)
  have known := coherent.isSupported (by rw [waits]; rfl)
  refine .bind_of_ok (ofExcept_eq_ok.mpr ⟨decoded, rfl⟩) (bind_record found length ?_)
  refine bind_withSource (owns_demand _) fun random between _ => ?_
  refine .get_bind ?_
  dsimp only
  rw [trusted]
  refine bind_withSource (owns_encrypt key _) fun encrypted source enciphered => ?_
  refine bind_installSecrets known drawn chosen fun secrets => ?_
  -- what is enciphered has the size of the key, so it fits a message
  obtain ⟨_, enciphered⟩ := enciphered
  obtain ⟨_, _, _, _, _, _, rfl⟩ := Rsa.encrypt_eq_ok.mp enciphered
  obtain ⟨exchange, carries⟩ :=
    Carries.keyExchange (Nat.le_trans (Nat.le_of_eq (Octets.length_bigEndian ..)) size)
  refine .bind_of_ok (ofExcept_eq_ok.mpr ⟨carries.encoded, rfl⟩) ?_
  refine bind_record rfl (by rw [List.length_append, length]; rfl) ?_
  refine bind_encode (owns_encode _ _ _) fun exchangeRecords _ _ => ?_
  refine bind_encode (owns_encode _ _ _) fun changeRecord _ _ => ?_
  exact bind_protectSending rfl (.pure _)

theorem owns_sendFinished {messages : List Octets} {secrets : Secrets}
    (found : e.transcript = some ⟨messages⟩)
    (length : messages.length = Slot.clientFinished.place) (known : e.secrets = some secrets) :
    Owns (Client.sendFinished settings) e := by
  refine .bind_of_ok (proof_eq_ok.mpr ⟨_, secrets, found, known, rfl, rfl⟩) ?_
  obtain ⟨finished, carries, _⟩ := Carries.finished (KeySchedule.length_expand ..)
  refine .bind_of_ok (ofExcept_eq_ok.mpr ⟨carries.encoded, rfl⟩) (bind_record found length ?_)
  exact bind_encode (owns_encode _ _ _) fun records _ _ => .bind_modify (.pure _)

/-- At the end of the server's flight a client fails for nothing but what it lacks itself. -/
theorem owns_receiveHelloDone (sound : e.Sound) (coherent : e.Coherent)
    (waits : e.role = .client settings .serverHelloDone) (trusted : e.serverKey = some key)
    (size : key.size ≤ 512) (decoded : Body.decode ServerHelloDone message = .ok {}) :
    Owns (Client.receiveHelloDone settings message) e := by
  have clear : e.sendProtected = false := by rw [sound.sends, waits]; rfl
  refine .bind (owns_sendExchange sound coherent waits trusted size decoded)
    fun exchangeRecords f exchanged => ?_
  obtain ⟨messages, _, work, made, rfl, _⟩ := (Client.sendExchange_eq_ok clear).mp exchanged
  have length : (messages ++ [message] ++ [work.message]).length = Slot.clientFinished.place := by
    rw [List.length_append, List.length_append, made.next]
    rfl
  exact .bind (owns_sendFinished rfl length rfl) fun _ _ _ => .pure _

end Endpoint

end TransportSecurity
