import MeraBriar.Crypto.Basic

/-!
# A lawful sample of the primitives

Concrete, computable functions that satisfy every law of `Primitives`. Agreement
adds the two byte strings, HKDF writes the label's first byte and the salt's last
byte in front of the input key, the AEAD tag is the first 16 key bytes, and text
is stored as three bytes per code point. Statements about one fixed run of the
engine are evaluated with this instance.

Its HKDF keeps only the salt's last byte, so message keys repeat every 256 counters.
`sampleWide` keeps the whole four-byte salt and satisfies `CounterSeparated` as well.
-/

set_option autoImplicit false

namespace MeraBriar

namespace Sample

def agree (secret public : FixedBytes 32) : FixedBytes 32 :=
  ⟨List.zipWith (· + ·) secret.bytes public.bytes, by
    simp [List.length_zipWith, secret.length_eq, public.length_eq]⟩

def expand (salt : Option Bytes) (inputKey : Bytes) (label : String) : FixedBytes 32 :=
  ⟨(label.toList.headD 'x').toNat.toUInt8 :: ((salt.getD []).getLastD 0) ::
      (inputKey ++ List.replicate 30 0).take 30, by simp⟩

def sealTagged (key : FixedBytes 32) (plaintext : Bytes) : Bytes :=
  plaintext ++ key.bytes.take 16

def openTagged (key : FixedBytes 32) (sealed : Bytes) : Option Bytes :=
  if 16 ≤ sealed.length ∧ sealed.drop (sealed.length - 16) = key.bytes.take 16 then
    some (sealed.take (sealed.length - 16))
  else none

def encodeChar (c : Char) : Bytes :=
  [(c.toNat / 65536).toUInt8, (c.toNat / 256).toUInt8, c.toNat.toUInt8]

def decodeChars : Bytes → Option (List Char)
  | [] => some []
  | high :: middle :: low :: rest =>
      (decodeChars rest).map
        (Char.ofNat (high.toNat * 65536 + middle.toNat * 256 + low.toNat) :: ·)
  | _ => none

def decode (bytes : Bytes) : Except String String :=
  match decodeChars bytes with
  | some chars => .ok ⟨chars⟩
  | none => .error "invalid"

theorem openTagged_sealTagged (key : FixedBytes 32) (plaintext : Bytes) :
    openTagged key (sealTagged key plaintext) = some plaintext := by
  simp [openTagged, sealTagged, key.length_eq]

theorem sealTagged_of_openTagged {key : FixedBytes 32} {sealed plaintext : Bytes}
    (opened : openTagged key sealed = some plaintext) : sealTagged key plaintext = sealed := by
  unfold openTagged at opened
  split at opened
  · rename_i tagged
    cases opened
    rw [sealTagged, ← tagged.2, List.take_append_drop]
  · cases opened

theorem toNat_lt_of_char (c : Char) : c.toNat < 0x110000 := by
  have valid := c.valid
  simp only [Nat.isValidChar, UInt32.isValidChar] at valid
  change c.val.toNat < 0x110000
  omega

theorem toNat_toUInt8 (value : Nat) : value.toUInt8.toNat = value % 256 := rfl

theorem decodeChars_encode (chars : List Char) :
    decodeChars (chars.flatMap encodeChar) = some chars := by
  induction chars with
  | nil => rfl
  | cons c rest inductionHypothesis =>
      have bound := toNat_lt_of_char c
      have recombined : (c.toNat / 65536 % 256) * 65536 + (c.toNat / 256 % 256) * 256 +
          c.toNat % 256 = c.toNat := by omega
      rw [List.flatMap_cons, encodeChar, List.cons_append, List.cons_append, List.cons_append,
        List.nil_append, decodeChars, inductionHypothesis, Option.map_some', toNat_toUInt8,
        toNat_toUInt8, toNat_toUInt8, recombined, Char.ofNat_toNat]

end Sample

/-- The sample instance. -/
def Primitives.sample : Primitives where
  ed25519PublicKey document := .ok document
  ed25519Sign document message := document ++ message
  x25519PublicKey secret := secret
  diffieHellman := Sample.agree
  hkdf := Sample.expand
  aesGcmEncrypt key _ plaintext := some (Sample.sealTagged key plaintext)
  aesGcmDecrypt key _ sealed := Sample.openTagged key sealed
  asBytes text := text.toList.flatMap Sample.encodeChar
  fromUtf8 := Sample.decode

theorem Primitives.sample_lawful : Primitives.sample.Lawful where
  diffieHellman_comm secret secret' := by
    simp only [Primitives.sample, Sample.agree, FixedBytes.mk.injEq]
    exact List.zipWith_comm_of_comm _
      (fun a b : UInt8 => UInt8.eq_of_toBitVec_eq (BitVec.add_comm a.toBitVec b.toBitVec)) _ _
  aead_correct key nonce plaintext sealed encrypted := by
    cases encrypted
    exact Sample.openTagged_sealTagged key plaintext
  aead_tagged key nonce plaintext sealed encrypted := by
    cases encrypted
    simp [Sample.sealTagged, key.length_eq]
  aead_authentic key nonce sealed plaintext decrypted := by
    simp only [Primitives.sample, Sample.sealTagged_of_openTagged decrypted]
  utf8_roundTrip text := by
    simp only [Primitives.sample, Sample.decode, Sample.decodeChars_encode]
    rfl

def Sample.expandWide (salt : Option Bytes) (inputKey : Bytes) (label : String) : FixedBytes 32 :=
  ⟨(label.toList.headD 'x').toNat.toUInt8 :: ((salt.getD []) ++ List.replicate 4 0).take 4 ++
      (inputKey ++ List.replicate 27 0).take 27, by simp⟩

theorem Sample.counter_expandWide (counter : UInt32) (inputKey : Bytes) (label : String) :
    ((expandWide (some (toBeBytes counter)) inputKey label).bytes.take 5).drop 1 =
      toBeBytes counter := by
  simp [expandWide, toBeBytes]

/-- The sample instance with `expandWide` as HKDF. -/
def Primitives.sampleWide : Primitives :=
  { Primitives.sample with hkdf := Sample.expandWide }

theorem Primitives.sampleWide_lawful : Primitives.sampleWide.Lawful :=
  ⟨sample_lawful.diffieHellman_comm, sample_lawful.aead_correct, sample_lawful.aead_tagged,
    sample_lawful.aead_authentic, sample_lawful.utf8_roundTrip⟩

theorem Primitives.sampleWide_separated : Primitives.sampleWide.CounterSeparated := by
  intro counter counter' chainKey chainKey' nonce nonce' plaintext sealed distinct encrypted
  cases encrypted
  show Sample.openTagged _ _ = none
  rw [Sample.openTagged, if_neg]
  rintro ⟨-, tagged⟩
  simp only [Sample.sealTagged, List.length_append, List.length_take, FixedBytes.length_eq]
    at tagged
  rw [show plaintext.length + min 16 32 - 16 = plaintext.length by omega, List.drop_left]
    at tagged
  have counters := congrArg (fun bytes => (bytes.take 5).drop 1) tagged
  simp only [List.take_take, show min 5 16 = 5 from rfl, Sample.counter_expandWide] at counters
  exact distinct
    (toBeBytes_injective (counters.trans (Sample.counter_expandWide counter' chainKey' _)))

end MeraBriar
