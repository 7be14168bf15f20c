import MeraBriar.Crypto.Sample

/-!
# Identity keys, public bundles and one-time prekeys

`crypto/key_management.rs`. The identity slot `IDENTITY_KEYS` is passed in and
returned. `generate_identity_keys` overwrites it, `get_public_key_bundle` reads it
back, and `generate_prekeys` numbers a batch of fresh agreement keys with the loop
index cast to `u32`.
-/

set_option autoImplicit false

namespace MeraBriar

/-- The stored key material `IdentityKeys`. -/
structure IdentityKeys where
  identityKeypair : Bytes
  signedPrekeyPrivate : FixedBytes 32
  signedPrekeyPublic : FixedBytes 32
  signedPrekeySignature : Bytes
  deriving DecidableEq

/-- `KeyBundle`, returned by `generate_identity_keys`. -/
structure KeyBundle where
  identityPublicKey : Bytes
  signedPrekey : Bytes
  signature : Bytes
  deriving DecidableEq

/-- `PublicKeyBundle`, the input of `init_session`. -/
structure PublicKeyBundle where
  identityPublicKey : Bytes
  signedPrekey : Bytes
  signature : Bytes
  oneTimePrekey : Option Bytes
  deriving DecidableEq

/-- A one-time prekey `(key_id, public, private)`. -/
abbrev Prekey := UInt32 × Bytes × FixedBytes 32

variable (P : Primitives)

/-- `generate_identity_keys`. The random source's two draws are arguments:
`generate_pkcs8`'s document (`none` when the source fails) and the signed prekey
secret. Returns the bundle and the identity slot afterwards. -/
def generateIdentityKeys (pkcs8 : Option Bytes) (prekeySecret : FixedBytes 32)
    (identityKeys : Option IdentityKeys) :
    Except CryptoError KeyBundle × Option IdentityKeys :=
  match pkcs8 with
  | none => (.error .generateIdentityKey, identityKeys)
  | some document =>
      match P.ed25519PublicKey document with
      | .error debug => (.error (.parseIdentityKey debug), identityKeys)
      | .ok identityPublicKey =>
          let signedPrekeyPublic := P.x25519PublicKey prekeySecret
          let signature := P.ed25519Sign document signedPrekeyPublic.bytes
          (.ok { identityPublicKey, signedPrekey := signedPrekeyPublic.bytes, signature },
            some { identityKeypair := document, signedPrekeyPrivate := prekeySecret,
                   signedPrekeyPublic, signedPrekeySignature := signature })

/-- `get_public_key_bundle`. -/
def getPublicKeyBundle (identityKeys : Option IdentityKeys) :
    Except CryptoError PublicKeyBundle :=
  match identityKeys with
  | none => .error .keysNotInitialized
  | some keys =>
      match P.ed25519PublicKey keys.identityKeypair with
      | .error debug => .error (.parseIdentityKey debug)
      | .ok identityPublicKey =>
          .ok { identityPublicKey, signedPrekey := keys.signedPrekeyPublic.bytes,
                signature := keys.signedPrekeySignature, oneTimePrekey := none }

def pushPrekey (secrets : Nat → FixedBytes 32) (prekeys : List Prekey) (i : Nat) :
    List Prekey :=
  prekeys ++ [(i.toUInt32, (P.x25519PublicKey (secrets i)).bytes, secrets i)]

/-- `generate_prekeys(count)`; `secrets i` is the secret drawn in pass `i`. -/
def generatePrekeys (count : Nat) (secrets : Nat → FixedBytes 32) : List Prekey :=
  (List.range count).foldl (pushPrekey P secrets) []

/-! ## Identity keys -/

theorem generateIdentityKeys_error_keeps_slot {pkcs8 : Option Bytes}
    {prekeySecret : FixedBytes 32} {identityKeys : Option IdentityKeys} {error : CryptoError}
    (failed : (generateIdentityKeys P pkcs8 prekeySecret identityKeys).1 = .error error) :
    (generateIdentityKeys P pkcs8 prekeySecret identityKeys).2 = identityKeys := by
  unfold generateIdentityKeys at failed ⊢
  split
  · rfl
  · split
    · rfl
    · simp_all

/-! ## One-time prekeys -/

theorem foldl_pushPrekey (secrets : Nat → FixedBytes 32) (indices : List Nat)
    (prekeys : List Prekey) :
    indices.foldl (pushPrekey P secrets) prekeys =
      prekeys ++ indices.map fun i =>
        (i.toUInt32, (P.x25519PublicKey (secrets i)).bytes, secrets i) := by
  induction indices generalizing prekeys with
  | nil => simp
  | cons i rest inductionHypothesis =>
      simp [inductionHypothesis, pushPrekey]

theorem length_generatePrekeys (count : Nat) (secrets : Nat → FixedBytes 32) :
    (generatePrekeys P count secrets).length = count := by
  simp [generatePrekeys, foldl_pushPrekey]

theorem keyIds_generatePrekeys (count : Nat) (secrets : Nat → FixedBytes 32) :
    (generatePrekeys P count secrets).map (fun prekey => prekey.1.toNat) =
      (List.range count).map (· % 2 ^ 32) := by
  simp only [generatePrekeys, foldl_pushPrekey, List.nil_append, List.map_map]
  rfl

theorem nodup_range_mod_iff (count : Nat) :
    ((List.range count).map (· % 2 ^ 32)).Nodup ↔ count ≤ 2 ^ 32 := by
  constructor
  · intro distinct
    by_contra tooMany
    have wraps : (2 ^ 32 : Nat) % 2 ^ 32 = 0 % 2 ^ 32 := (Nat.mod_self _).trans (Nat.zero_mod _).symm
    have zeroMem : 0 ∈ List.range count := List.mem_range.mpr (by omega)
    have wrapMem : 2 ^ 32 ∈ List.range count := List.mem_range.mpr (by omega)
    exact (Nat.two_pow_pos 32).ne' (List.inj_on_of_nodup_map distinct wrapMem zeroMem wraps)
  · intro bounded
    refine (List.nodup_range count).map_on ?_
    intro i iMem j jMem sameId
    rw [List.mem_range] at iMem jMem
    rwa [Nat.mod_eq_of_lt (by omega), Nat.mod_eq_of_lt (by omega)] at sameId

theorem nodup_keyIds_generatePrekeys (count : Nat) (secrets : Nat → FixedBytes 32) :
    ((generatePrekeys P count secrets).map Prod.fst).Nodup ↔ count ≤ 2 ^ 32 := by
  have toNatInjective : Function.Injective UInt32.toNat := fun _ _ same => UInt32.toNat.inj same
  rw [← List.nodup_map_iff toNatInjective, List.map_map, ← nodup_range_mod_iff]
  exact iff_of_eq (congrArg List.Nodup (keyIds_generatePrekeys P count secrets))

/-- `generate_prekeys(count)` returns `count` entries; the `i`-th key id is `i as u32`,
which is `i mod 2^32`, so the ids are pairwise distinct exactly when `count ≤ 2^32`. -/
theorem generatePrekeys_keyIds (count : Nat) (secrets : Nat → FixedBytes 32) :
    (generatePrekeys P count secrets).length = count ∧
      (generatePrekeys P count secrets).map (fun prekey => prekey.1.toNat) =
        (List.range count).map (· % 2 ^ 32) ∧
      (((generatePrekeys P count secrets).map Prod.fst).Nodup ↔ count ≤ 2 ^ 32) :=
  ⟨length_generatePrekeys P count secrets, keyIds_generatePrekeys P count secrets,
    nodup_keyIds_generatePrekeys P count secrets⟩

/-- A batch of `2^32 + 1` prekeys repeats the key id `0`. -/
theorem generatePrekeys_keyIds_repeat :
    ¬((generatePrekeys Primitives.sample (2 ^ 32 + 1)
      fun _ => ⟨List.replicate 32 0, List.length_replicate 32 0⟩).map Prod.fst).Nodup := by
  rw [nodup_keyIds_generatePrekeys]
  omega

end MeraBriar
