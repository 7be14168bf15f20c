import MeraBriar.Crypto.Ratchet

/-!
# The handshake between two devices

Each party generates its identity keys, publishes its bundle, and runs
`init_session` with the other's bundle. X25519 being commutative, both derive the
same shared secret, and `Session::new` expands it with the same labels on both
sides. So the two sessions are twins, not mirror images: A's send chain equals B's
send chain, and B receives on a chain A never sends on.
-/

set_option autoImplicit false

namespace MeraBriar

variable (P : Primitives)

/-- Two fresh engines: both generate identity keys, read their public bundles, and
initialise a session with each other. -/
def handshake (idA idB : String) (pkcs8A pkcs8B : Option Bytes)
    (prekeyA prekeyB : FixedBytes 32) : Except CryptoError (Engine × Engine) := do
  let engineA := ((Call.generateIdentityKeys pkcs8A prekeyA).exec P ⟨none, .empty⟩).2
  let engineB := ((Call.generateIdentityKeys pkcs8B prekeyB).exec P ⟨none, .empty⟩).2
  let bundleA ← getPublicKeyBundle P engineA.identityKeys
  let bundleB ← getPublicKeyBundle P engineB.identityKeys
  let (resultA, engineA) := (Call.initSession idB bundleB).exec P engineA
  let (resultB, engineB) := (Call.initSession idA bundleA).exec P engineB
  let _ ← resultA
  let _ ← resultB
  pure (engineA, engineB)

theorem getPublicKeyBundle_ok {identityKeys : Option IdentityKeys} {bundle : PublicKeyBundle}
    (read : getPublicKeyBundle P identityKeys = .ok bundle) :
    ∃ keys, identityKeys = some keys ∧ bundle.signedPrekey = keys.signedPrekeyPublic.bytes := by
  unfold getPublicKeyBundle at read
  split at read
  · cases read
  · split at read
    · cases read
    · cases read
      exact ⟨_, rfl, rfl⟩

theorem generateIdentityKeys_slot (pkcs8 : Option Bytes) (prekeySecret : FixedBytes 32)
    {keys : IdentityKeys}
    (stored : (generateIdentityKeys P pkcs8 prekeySecret none).2 = some keys) :
    keys.signedPrekeyPrivate = prekeySecret ∧
      keys.signedPrekeyPublic = P.x25519PublicKey prekeySecret := by
  unfold generateIdentityKeys at stored
  split at stored
  · cases stored
  · split at stored
    · cases stored
    · cases stored
      exact ⟨rfl, rfl⟩

theorem initSession_stored {ourKeys : IdentityKeys} {recipientId : String}
    {recipientKeys : PublicKeyBundle} {sessions : SessionTable} {public : FixedBytes 32}
    (published : recipientKeys.signedPrekey = public.bytes) :
    initSession P (some ourKeys) recipientId recipientKeys sessions =
      (.ok (), sessions.insert recipientId (Session.new P recipientId
        (P.diffieHellman ourKeys.signedPrekeyPrivate public).bytes)) := by
  have converted : FixedBytes.tryFrom 32 recipientKeys.signedPrekey = some public :=
    FixedBytes.tryFrom_eq_some_iff.mpr published.symm
  simp only [initSession, converted]

/-- After a successful handshake the two sessions share both chain keys: each party
sends on the chain the other also sends on. -/
theorem handshake_sessions_twin (commutes : P.DiffieHellmanCommutes) {idA idB : String}
    {pkcs8A pkcs8B : Option Bytes} {prekeyA prekeyB : FixedBytes 32}
    {engineA engineB : Engine}
    (completed : handshake P idA idB pkcs8A pkcs8B prekeyA prekeyB = .ok (engineA, engineB)) :
    ∃ sessionA sessionB, engineA.sessions idB = some sessionA ∧
      engineB.sessions idA = some sessionB ∧
      sessionA.sendChainKey = sessionB.sendChainKey ∧
      sessionA.recvChainKey = sessionB.recvChainKey := by
  simp only [handshake, bind, Except.bind, Call.exec] at completed
  cases readA : getPublicKeyBundle P (generateIdentityKeys P pkcs8A prekeyA none).2 with
  | error => simp [readA] at completed
  | ok bundleA =>
      cases readB : getPublicKeyBundle P (generateIdentityKeys P pkcs8B prekeyB none).2 with
      | error => simp [readA, readB] at completed
      | ok bundleB =>
          obtain ⟨keysA, storedA, publishedA⟩ := getPublicKeyBundle_ok P readA
          obtain ⟨keysB, storedB, publishedB⟩ := getPublicKeyBundle_ok P readB
          obtain ⟨privateA, publicA⟩ := generateIdentityKeys_slot P pkcs8A prekeyA storedA
          obtain ⟨privateB, publicB⟩ := generateIdentityKeys_slot P pkcs8B prekeyB storedB
          rw [publicB] at publishedB
          rw [publicA] at publishedA
          simp only [readA, readB] at completed
          simp only [storedA, storedB, initSession_stored P publishedA,
            initSession_stored P publishedB, Except.map, pure, Except.pure, Except.ok.injEq,
            Prod.mk.injEq] at completed
          obtain ⟨rfl, rfl⟩ := completed
          refine ⟨_, _, SessionTable.insert_self _ _ _, SessionTable.insert_self _ _ _, ?_, ?_⟩ <;>
            simp only [Session.new, privateA, privateB, commutes prekeyA prekeyB]

theorem handshake_sessions_twin_sample :
    ∃ engineA engineB,
      handshake Primitives.sample "alice" "bob" (some [1]) (some [2])
          ⟨List.replicate 32 1, List.length_replicate 32 1⟩
          ⟨List.replicate 32 2, List.length_replicate 32 2⟩ = .ok (engineA, engineB) ∧
      ∃ sessionA sessionB, engineA.sessions "bob" = some sessionA ∧
        engineB.sessions "alice" = some sessionB ∧
        sessionA.sendChainKey = sessionB.sendChainKey ∧
        sessionA.recvChainKey = sessionB.recvChainKey := by
  obtain ⟨engineA, engineB, completed⟩ : ∃ engineA engineB,
      handshake Primitives.sample "alice" "bob" (some [1]) (some [2])
          ⟨List.replicate 32 1, List.length_replicate 32 1⟩
          ⟨List.replicate 32 2, List.length_replicate 32 2⟩ = .ok (engineA, engineB) :=
    ⟨_, _, rfl⟩
  exact ⟨engineA, engineB, completed, handshake_sessions_twin Primitives.sample
    Primitives.sample_lawful.diffieHellman_comm completed⟩

/-- Two devices complete the handshake, A encrypts `"hi"` for B, and B's
`decrypt_message` rejects it. -/
theorem handshake_first_message_rejected :
    ∃ engineA engineB ciphertext,
      handshake Primitives.sample "alice" "bob" (some [1]) (some [2])
          ⟨List.replicate 32 1, List.length_replicate 32 1⟩
          ⟨List.replicate 32 2, List.length_replicate 32 2⟩ = .ok (engineA, engineB) ∧
        (encryptMessage Primitives.sample "bob" "hi"
          ⟨List.replicate 12 0, List.length_replicate 12 0⟩ engineA.sessions).1 =
            .ok ciphertext ∧
        (decryptMessage Primitives.sample "alice" ciphertext engineB.sessions).1 =
          .error .decryptionFailed :=
  ⟨_, _, _, rfl, rfl, rfl⟩

end MeraBriar
