import Mathlib

/-!
# Bytes, errors and the external primitives of the crypto engine

The engine in `crypto/` calls X25519 and Ed25519 key operations, HKDF-SHA256,
AES-256-GCM and the standard library's UTF-8 conversions. These are parameters,
bundled in `Primitives`. The laws a result relies on are separate predicates, so
that every theorem states exactly the laws it uses: X25519 agreement commutes,
AES-GCM decryption undoes encryption, its output is the ciphertext plus a 16-byte tag,
only what was sealed opens, and `from_utf8` accepts the bytes of every string.
`Lawful` bundles these five; `CounterSeparated` idealises HKDF and AES-GCM together.

Random inputs (the PKCS#8 document, the prekey secrets, the AEAD nonce) are passed
to the operations that draw them.
-/

set_option autoImplicit false

namespace MeraBriar

/-- Byte strings: `Vec<u8>` and `&[u8]`. -/
abbrev Bytes := List UInt8

/-- A fixed-size byte array `[u8; n]`. -/
structure FixedBytes (n : Nat) where
  bytes : Bytes
  length_eq : bytes.length = n
  deriving DecidableEq

namespace FixedBytes

/-- `<[u8; n]>::try_from(vec)`: succeeds exactly on vectors of length `n`. -/
def tryFrom (n : Nat) (vector : Bytes) : Option (FixedBytes n) :=
  if lengthMatches : vector.length = n then some ⟨vector, lengthMatches⟩ else none

theorem tryFrom_eq_some_iff {n : Nat} {vector : Bytes} {array : FixedBytes n} :
    tryFrom n vector = some array ↔ array.bytes = vector := by
  constructor
  · intro converted
    unfold tryFrom at converted
    split at converted
    · cases converted
      rfl
    · cases converted
  · rintro rfl
    simp [tryFrom, array.length_eq]

theorem tryFrom_eq_none_iff {n : Nat} {vector : Bytes} :
    tryFrom n vector = none ↔ vector.length ≠ n := by
  unfold tryFrom
  split <;> simpa

end FixedBytes

/-- `u32::to_be_bytes`. -/
def toBeBytes (value : UInt32) : Bytes :=
  [(value >>> 24).toUInt8, (value >>> 16).toUInt8, (value >>> 8).toUInt8, value.toUInt8]

theorem toNat_shiftRight (value shift : UInt32) (small : shift.toNat < 32) :
    (value >>> shift).toNat = value.toNat / 2 ^ shift.toNat := by
  show (value.toBitVec >>> (UInt32.mod shift 32).toBitVec).toNat = _
  rw [BitVec.ushiftRight_eq', BitVec.toNat_ushiftRight, Nat.shiftRight_eq_div_pow]
  simp only [UInt32.mod, BitVec.toNat_umod]
  congr 2
  exact Nat.mod_eq_of_lt small

theorem toBeBytes_injective : Function.Injective toBeBytes := by
  intro value value' same
  simp only [toBeBytes, List.cons.injEq, and_true] at same
  obtain ⟨byte3, byte2, byte1, byte0⟩ := same
  have low3 : (value >>> 24).toNat % 256 = (value' >>> 24).toNat % 256 := congrArg UInt8.toNat byte3
  have low2 : (value >>> 16).toNat % 256 = (value' >>> 16).toNat % 256 := congrArg UInt8.toNat byte2
  have low1 : (value >>> 8).toNat % 256 = (value' >>> 8).toNat % 256 := congrArg UInt8.toNat byte1
  have low0 : value.toNat % 256 = value'.toNat % 256 := congrArg UInt8.toNat byte0
  rw [toNat_shiftRight _ _ (by decide), toNat_shiftRight _ _ (by decide)] at low3 low2 low1
  norm_num [UInt32.toNat_ofNat, UInt32.size] at low3 low2 low1
  have bound : value.toNat < 2 ^ 32 := value.toNat_lt
  have bound' : value'.toNat < 2 ^ 32 := value'.toNat_lt
  apply UInt32.toNat.inj
  omega

/-- The `Err` strings of the crypto functions, one constructor per `map_err` or
`ok_or` site. Payloads are the `Debug` texts of library errors that vary. -/
inductive CryptoError where
  | generateIdentityKey
  | parseIdentityKey (debug : String)
  | keysNotInitialized
  | ourKeysNotInitialized
  | invalidPrekeyLength
  | noSession (recipientId : String)
  | encryptionFailed
  | ciphertextTooShort
  | decryptionFailed
  | invalidUtf8 (debug : String)
  deriving DecidableEq

/-- The text each error site formats. `ring`'s `Unspecified` and `aead::Error`
print as constant words. -/
def CryptoError.message : CryptoError → String
  | .generateIdentityKey => "Failed to generate identity key: Unspecified"
  | .parseIdentityKey debug => "Failed to parse identity key: " ++ debug
  | .keysNotInitialized => "Keys not initialized"
  | .ourKeysNotInitialized => "Our keys not initialized"
  | .invalidPrekeyLength => "Invalid prekey length"
  | .noSession recipientId => "No session for " ++ recipientId
  | .encryptionFailed => "Encryption failed: Error"
  | .ciphertextTooShort => "Ciphertext too short"
  | .decryptionFailed => "Decryption failed: Error"
  | .invalidUtf8 debug => "Invalid UTF-8: " ++ debug

/-- The library functions the engine calls. -/
structure Primitives where
  /-- `Ed25519KeyPair::from_pkcs8(document)` then `public_key()`; the error is the
  `Debug` text of `KeyRejected`. -/
  ed25519PublicKey : Bytes → Except String Bytes
  /-- `sign(message)` with the key pair held in a PKCS#8 document. -/
  ed25519Sign : Bytes → Bytes → Bytes
  /-- `PublicKey::from(&StaticSecret::from(secret))`. -/
  x25519PublicKey : FixedBytes 32 → FixedBytes 32
  /-- `StaticSecret::from(secret).diffie_hellman(&PublicKey::from(public))`. -/
  diffieHellman : FixedBytes 32 → FixedBytes 32 → FixedBytes 32
  /-- `Hkdf::<Sha256>::new(salt, input_key)` then `expand(label, &mut [0u8; 32])`. -/
  hkdf : Option Bytes → Bytes → String → FixedBytes 32
  /-- `Aes256Gcm::encrypt(nonce, plaintext)`; `none` is `aead::Error`. -/
  aesGcmEncrypt : FixedBytes 32 → FixedBytes 12 → Bytes → Option Bytes
  /-- `Aes256Gcm::decrypt(nonce, ciphertext)`; `none` is `aead::Error`. -/
  aesGcmDecrypt : FixedBytes 32 → FixedBytes 12 → Bytes → Option Bytes
  /-- `str::as_bytes`. -/
  asBytes : String → Bytes
  /-- `String::from_utf8`; the error is the `Debug` text of `FromUtf8Error`. -/
  fromUtf8 : Bytes → Except String String

namespace Primitives

variable (P : Primitives)

def DiffieHellmanCommutes : Prop :=
  ∀ secret secret', P.diffieHellman secret (P.x25519PublicKey secret') =
    P.diffieHellman secret' (P.x25519PublicKey secret)

def AeadCorrect : Prop :=
  ∀ key nonce plaintext sealed, P.aesGcmEncrypt key nonce plaintext = some sealed →
    P.aesGcmDecrypt key nonce sealed = some plaintext

def AeadTagged : Prop :=
  ∀ key nonce plaintext sealed, P.aesGcmEncrypt key nonce plaintext = some sealed →
    sealed.length = plaintext.length + 16

def AeadAuthentic : Prop :=
  ∀ key nonce sealed plaintext, P.aesGcmDecrypt key nonce sealed = some plaintext →
    P.aesGcmEncrypt key nonce plaintext = some sealed

def Utf8RoundTrip : Prop :=
  ∀ text, P.fromUtf8 (P.asBytes text) = .ok text

/-- Idealised HKDF and AES-GCM: what was sealed under the `message_key` derived at one
counter does not open under the `message_key` derived at another, whatever the chain
keys. -/
def CounterSeparated : Prop :=
  ∀ (counter counter' : UInt32) (chainKey chainKey' : Bytes) (nonce nonce' : FixedBytes 12)
    (plaintext sealed : Bytes), counter ≠ counter' →
    P.aesGcmEncrypt (P.hkdf (some (toBeBytes counter)) chainKey "message_key") nonce plaintext =
      some sealed →
    P.aesGcmDecrypt (P.hkdf (some (toBeBytes counter')) chainKey' "message_key") nonce' sealed =
      none

structure Lawful : Prop where
  diffieHellman_comm : P.DiffieHellmanCommutes
  aead_correct : P.AeadCorrect
  aead_tagged : P.AeadTagged
  aead_authentic : P.AeadAuthentic
  utf8_roundTrip : P.Utf8RoundTrip

end Primitives

end MeraBriar
