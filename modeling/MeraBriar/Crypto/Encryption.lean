import MeraBriar.Crypto.Session

/-!
# Message encryption and decryption

`crypto/encryption.rs`. Both calls clone the peer's session, derive a message key
on the clone, run AES-256-GCM, and write the clone back with `update_session` only
after the cipher succeeded. The wire format is `nonce (12) ‖ ciphertext ‖ tag (16)`.
`decrypt_message` converts the plaintext to a `String` after the write-back, so an
invalid UTF-8 payload fails with the receive chain already advanced, while a truncated,
forged or out-of-order ciphertext (`Spurious`) fails before it.
-/

set_option autoImplicit false

namespace MeraBriar

variable (P : Primitives)

/-- `encrypt_message`; `nonce` is the 12 bytes `OsRng` fills. -/
def encryptMessage (recipientId : String) (plaintext : String) (nonce : FixedBytes 12)
    (sessions : SessionTable) : Except CryptoError Bytes × SessionTable :=
  match getSessionMut sessions recipientId with
  | .error error => (.error error, sessions)
  | .ok session =>
      let (messageKey, session) := session.deriveSendKey P
      match P.aesGcmEncrypt messageKey nonce (P.asBytes plaintext) with
      | none => (.error .encryptionFailed, sessions)
      | some ciphertext => (.ok (nonce.bytes ++ ciphertext), updateSession sessions session)

/-- `Nonce::from_slice(&ciphertext[..12])`, once the length check has passed. -/
def nonceOf (ciphertext : Bytes) (long : ¬ciphertext.length < 12 + 16) : FixedBytes 12 :=
  ⟨ciphertext.take 12, by simp only [List.length_take]; omega⟩

/-- `String::from_utf8(plaintext).map_err(...)`, the last step of `decrypt_message`. -/
def textOf (plaintext : Bytes) : Except CryptoError String :=
  match P.fromUtf8 plaintext with
  | .error debug => .error (.invalidUtf8 debug)
  | .ok text => .ok text

/-- `decrypt_message`. The UTF-8 conversion runs after `update_session`. -/
def decryptMessage (senderId : String) (ciphertext : Bytes) (sessions : SessionTable) :
    Except CryptoError String × SessionTable :=
  if short : ciphertext.length < 12 + 16 then (.error .ciphertextTooShort, sessions)
  else
    match getSessionMut sessions senderId with
    | .error error => (.error error, sessions)
    | .ok session =>
        let (messageKey, session) := session.deriveRecvKey P
        match P.aesGcmDecrypt messageKey (nonceOf ciphertext short) (ciphertext.drop 12) with
        | none => (.error .decryptionFailed, sessions)
        | some plaintext => (textOf P plaintext, updateSession sessions session)

theorem encryptMessage_cases (recipientId : String) (plaintext : String)
    (nonce : FixedBytes 12) (sessions : SessionTable) :
    (sessions recipientId = none ∧ encryptMessage P recipientId plaintext nonce sessions =
        (.error (.noSession recipientId), sessions)) ∨
      (∃ session, sessions recipientId = some session ∧
        P.aesGcmEncrypt (session.sendChain.messageKey P) nonce (P.asBytes plaintext) = none ∧
        encryptMessage P recipientId plaintext nonce sessions =
          (.error .encryptionFailed, sessions)) ∨
      ∃ session sealed, sessions recipientId = some session ∧
        P.aesGcmEncrypt (session.sendChain.messageKey P) nonce (P.asBytes plaintext) =
          some sealed ∧
        encryptMessage P recipientId plaintext nonce sessions =
          (.ok (nonce.bytes ++ sealed), updateSession sessions (session.deriveSendKey P).2) := by
  cases found : sessions recipientId with
  | none => exact .inl ⟨rfl, by simp only [encryptMessage, getSessionMut, found]⟩
  | some session =>
      cases encrypted : P.aesGcmEncrypt (session.sendChain.messageKey P) nonce
          (P.asBytes plaintext) with
      | none =>
          refine .inr (.inl ⟨session, rfl, encrypted, ?_⟩)
          simp only [encryptMessage, getSessionMut, found, Session.deriveSendKey_messageKey,
            encrypted]
      | some sealed =>
          refine .inr (.inr ⟨session, sealed, rfl, encrypted, ?_⟩)
          simp only [encryptMessage, getSessionMut, found, Session.deriveSendKey_messageKey,
            encrypted]

theorem decryptMessage_cases (senderId : String) (ciphertext : Bytes)
    (sessions : SessionTable) :
    (ciphertext.length < 12 + 16 ∧
        decryptMessage P senderId ciphertext sessions = (.error .ciphertextTooShort, sessions)) ∨
      (¬ciphertext.length < 12 + 16 ∧ sessions senderId = none ∧
        decryptMessage P senderId ciphertext sessions =
          (.error (.noSession senderId), sessions)) ∨
      (∃ (long : ¬ciphertext.length < 12 + 16) (session : Session),
        sessions senderId = some session ∧
        P.aesGcmDecrypt (session.recvChain.messageKey P) (nonceOf ciphertext long)
          (ciphertext.drop 12) = none ∧
        decryptMessage P senderId ciphertext sessions = (.error .decryptionFailed, sessions)) ∨
      ∃ (long : ¬ciphertext.length < 12 + 16) (session : Session) (plaintext : Bytes),
        sessions senderId = some session ∧
        P.aesGcmDecrypt (session.recvChain.messageKey P) (nonceOf ciphertext long)
          (ciphertext.drop 12) = some plaintext ∧
        decryptMessage P senderId ciphertext sessions =
          (textOf P plaintext, updateSession sessions (session.deriveRecvKey P).2) := by
  by_cases long : ¬ciphertext.length < 12 + 16
  · cases found : sessions senderId with
    | none => exact .inr (.inl ⟨long, rfl, by simp only [decryptMessage, getSessionMut, found,
        long, dite_false]⟩)
    | some session =>
        cases decrypted : P.aesGcmDecrypt (session.recvChain.messageKey P)
            (nonceOf ciphertext long) (ciphertext.drop 12) with
        | none =>
            refine .inr (.inr (.inl ⟨long, session, rfl, decrypted, ?_⟩))
            simp only [decryptMessage, getSessionMut, found, long, dite_false,
              Session.deriveRecvKey_messageKey, decrypted]
        | some plaintext =>
            refine .inr (.inr (.inr ⟨long, session, plaintext, rfl, decrypted, ?_⟩))
            simp only [decryptMessage, getSessionMut, found, long, dite_false,
              Session.deriveRecvKey_messageKey, decrypted]
  · have short := not_not.mp long
    exact .inl ⟨short, by simp only [decryptMessage, short, dite_true]⟩

theorem nonceOf_append (nonce : FixedBytes 12) (sealed : Bytes)
    (long : ¬(nonce.bytes ++ sealed).length < 12 + 16) :
    nonceOf (nonce.bytes ++ sealed) long = nonce := by
  cases nonce with
  | mk bytes lengthEq =>
      simp only [nonceOf, FixedBytes.mk.injEq]
      rw [← lengthEq, List.take_left]

theorem length_nonce_append (tagged : P.AeadTagged) {key : FixedBytes 32}
    {nonce : FixedBytes 12} {plaintext sealed : Bytes}
    (sealedEq : P.aesGcmEncrypt key nonce plaintext = some sealed) :
    (nonce.bytes ++ sealed).length = plaintext.length + 28 := by
  rw [List.length_append, nonce.length_eq, tagged _ _ _ _ sealedEq]
  omega

theorem decryptMessage_sealed (correct : P.AeadCorrect) (tagged : P.AeadTagged)
    (roundTrip : P.Utf8RoundTrip) {sessions : SessionTable} {senderId : String}
    {session : Session} {plaintext : String} {nonce : FixedBytes 12} {sealed : Bytes}
    (found : sessions senderId = some session)
    (sealedEq : P.aesGcmEncrypt (session.recvChain.messageKey P) nonce (P.asBytes plaintext) =
      some sealed) :
    decryptMessage P senderId (nonce.bytes ++ sealed) sessions =
      (.ok plaintext, updateSession sessions (session.deriveRecvKey P).2) := by
  have long : ¬(nonce.bytes ++ sealed).length < 12 + 16 := by
    rw [length_nonce_append P tagged sealedEq]
    omega
  simp only [decryptMessage, long, dite_false, getSessionMut, found,
    Session.deriveRecvKey_messageKey, nonceOf_append, List.drop_left' nonce.length_eq,
    correct _ _ _ _ sealedEq, textOf, roundTrip plaintext]

theorem decryptMessage_of_counter_ne (tagged : P.AeadTagged) (separated : P.CounterSeparated)
    {sessions : SessionTable} {senderId : String} {session : Session}
    (found : sessions senderId = some session) {chain : Chain} {nonce : FixedBytes 12}
    {plaintext sealed : Bytes}
    (sealedEq : P.aesGcmEncrypt (chain.messageKey P) nonce plaintext = some sealed)
    (elsewhere : chain.counter ≠ session.recvChain.counter) :
    decryptMessage P senderId (nonce.bytes ++ sealed) sessions =
      (.error .decryptionFailed, sessions) := by
  have long : ¬(nonce.bytes ++ sealed).length < 12 + 16 := by
    rw [length_nonce_append P tagged sealedEq]
    omega
  have rejected : P.aesGcmDecrypt (session.recvChain.messageKey P)
      (nonceOf (nonce.bytes ++ sealed) long) sealed = none :=
    separated _ _ _ _ _ _ _ _ elsewhere sealedEq
  simp only [decryptMessage, long, dite_false, getSessionMut, found,
    Session.deriveRecvKey_messageKey, List.drop_left' nonce.length_eq, rejected]

/-- The ciphertexts a receiver holding `session` must refuse: truncated, forged (not an
output of its current message key under the nonce they carry), or out of order (sealed
under the message key of another counter). -/
inductive Spurious (session : Session) : Bytes → Prop
  | truncated {ciphertext : Bytes} (short : ciphertext.length < 12 + 16) :
      Spurious session ciphertext
  | forged {ciphertext : Bytes}
      (unsealed : ∀ nonce plaintext sealed,
        P.aesGcmEncrypt (session.recvChain.messageKey P) nonce plaintext = some sealed →
          ciphertext ≠ nonce.bytes ++ sealed) :
      Spurious session ciphertext
  | outOfOrder {chain : Chain} {nonce : FixedBytes 12} {plaintext sealed : Bytes}
      (elsewhere : chain.counter ≠ session.recvChain.counter)
      (sealedEq : P.aesGcmEncrypt (chain.messageKey P) nonce plaintext = some sealed) :
      Spurious session (nonce.bytes ++ sealed)

theorem decryptMessage_of_spurious (authentic : P.AeadAuthentic) (tagged : P.AeadTagged)
    (separated : P.CounterSeparated) {sessions : SessionTable} {senderId : String}
    {session : Session} {ciphertext : Bytes} (found : sessions senderId = some session)
    (spurious : Spurious P session ciphertext) :
    decryptMessage P senderId ciphertext sessions = (.error .ciphertextTooShort, sessions) ∨
      decryptMessage P senderId ciphertext sessions = (.error .decryptionFailed, sessions) := by
  cases spurious with
  | truncated short => exact .inl (by simp only [decryptMessage, short, dite_true])
  | outOfOrder elsewhere sealedEq =>
      exact .inr (decryptMessage_of_counter_ne P tagged separated found sealedEq elsewhere)
  | forged unsealed =>
      rcases decryptMessage_cases P senderId ciphertext sessions with
        ⟨-, failed⟩ | ⟨-, absent, -⟩ | ⟨_, _, -, -, failed⟩ | ⟨long, stored, _, held, opened, -⟩
      · exact .inl failed
      · cases found.symm.trans absent
      · exact .inr failed
      · obtain rfl : stored = session := Option.some.inj (held.symm.trans found)
        exact (unsealed _ _ _ (authentic _ _ _ _ opened)
          (List.take_append_drop 12 ciphertext).symm).elim

end MeraBriar
