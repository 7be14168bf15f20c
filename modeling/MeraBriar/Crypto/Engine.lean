import MeraBriar.Crypto.Encryption

/-!
# The engine as a state machine

The crypto API of `crypto/mod.rs` acts on two process-wide statics, the identity
slot and the session table. A `Call` is one API call with the random draws it
makes; `Call.exec` runs it and `run` runs a sequence of calls.

Two facts organise the rest. Every failure except an invalid UTF-8 payload comes
before any write, so such a call leaves the engine as it was and can be deleted from
a run. Every write stores a session under its own `recipient_id`, so the table stays
well formed and each call touches only the entry of the id it was given. On a table
that is not well formed, such as the one `setup_test_session` builds, the invalid UTF-8
write-back lands on another entry than the sender's.
-/

set_option autoImplicit false

namespace MeraBriar

/-- The statics `IDENTITY_KEYS` and `SESSIONS`. -/
structure Engine where
  identityKeys : Option IdentityKeys
  sessions : SessionTable

/-- One call of the crypto API, with the random values it draws. -/
inductive Call where
  | generateIdentityKeys (pkcs8 : Option Bytes) (prekeySecret : FixedBytes 32)
  | getPublicKeyBundle
  | initSession (recipientId : String) (recipientKeys : PublicKeyBundle)
  | hasSession (recipientId : String)
  | encryptMessage (recipientId : String) (plaintext : String) (nonce : FixedBytes 12)
  | decryptMessage (senderId : String) (ciphertext : Bytes)

inductive Output where
  | keyBundle (bundle : KeyBundle)
  | publicKeyBundle (bundle : PublicKeyBundle)
  | unit
  | bool (value : Bool)
  | ciphertext (bytes : Bytes)
  | plaintext (text : String)

def Call.peer : Call → Option String
  | .initSession recipientId _ => some recipientId
  | .hasSession recipientId => some recipientId
  | .encryptMessage recipientId _ _ => some recipientId
  | .decryptMessage senderId _ => some senderId
  | _ => none

variable (P : Primitives)

/-- Run one call against the statics. -/
def Call.exec : Call → Engine → Except CryptoError Output × Engine
  | .generateIdentityKeys pkcs8 prekeySecret, engine =>
      let (result, identityKeys) :=
        MeraBriar.generateIdentityKeys P pkcs8 prekeySecret engine.identityKeys
      (result.map .keyBundle, { engine with identityKeys })
  | .getPublicKeyBundle, engine =>
      ((MeraBriar.getPublicKeyBundle P engine.identityKeys).map .publicKeyBundle, engine)
  | .initSession recipientId recipientKeys, engine =>
      let (result, sessions) :=
        MeraBriar.initSession P engine.identityKeys recipientId recipientKeys engine.sessions
      (result.map fun _ => .unit, { engine with sessions })
  | .hasSession recipientId, engine =>
      (.ok (.bool (MeraBriar.hasSession engine.sessions recipientId)), engine)
  | .encryptMessage recipientId plaintext nonce, engine =>
      let (result, sessions) :=
        MeraBriar.encryptMessage P recipientId plaintext nonce engine.sessions
      (result.map .ciphertext, { engine with sessions })
  | .decryptMessage senderId ciphertext, engine =>
      let (result, sessions) := MeraBriar.decryptMessage P senderId ciphertext engine.sessions
      (result.map .plaintext, { engine with sessions })

def run : Engine → List Call → List (Except CryptoError Output) × Engine
  | engine, [] => ([], engine)
  | engine, call :: rest =>
      let (result, engine) := call.exec P engine
      let (results, engine) := run engine rest
      (result :: results, engine)

@[simp]
theorem run_nil (engine : Engine) : run P engine [] = ([], engine) := rfl

theorem run_cons (engine : Engine) (call : Call) (rest : List Call) :
    run P engine (call :: rest) =
      ((call.exec P engine).1 :: (run P (call.exec P engine).2 rest).1,
        (run P (call.exec P engine).2 rest).2) := rfl

theorem run_append (engine : Engine) (first second : List Call) :
    run P engine (first ++ second) =
      ((run P engine first).1 ++ (run P (run P engine first).2 second).1,
        (run P (run P engine first).2 second).2) := by
  induction first generalizing engine with
  | nil => rfl
  | cons call rest inductionHypothesis => simp [run_cons, inductionHypothesis]

/-! ## What one call does to the session table -/

theorem exec_sessions (call : Call) (engine : Engine) :
    (call.exec P engine).2.sessions = engine.sessions ∨
      (∃ recipientId recipientKeys session, call = .initSession recipientId recipientKeys ∧
        session.recipientId = recipientId ∧ (call.exec P engine).1 = .ok .unit ∧
        (call.exec P engine).2.sessions = engine.sessions.insert recipientId session) ∨
      ∃ recipientId session advanced, call.peer = some recipientId ∧
        engine.sessions recipientId = some session ∧
        advanced.recipientId = session.recipientId ∧
        (call.exec P engine).2.sessions = updateSession engine.sessions advanced := by
  cases call with
  | generateIdentityKeys pkcs8 prekeySecret => exact .inl rfl
  | getPublicKeyBundle => exact .inl rfl
  | hasSession recipientId => exact .inl rfl
  | initSession recipientId recipientKeys =>
      rcases initSession_cases P engine.identityKeys recipientId recipientKeys
          engine.sessions with failed | failed | ⟨ourKeys, theirPrekey, -, -, installed⟩
      · exact .inl (by simp only [Call.exec, failed])
      · exact .inl (by simp only [Call.exec, failed])
      · exact .inr (.inl ⟨recipientId, recipientKeys, Session.new P recipientId
          (P.diffieHellman ourKeys.signedPrekeyPrivate theirPrekey).bytes, rfl, rfl,
          by simp only [Call.exec, installed]; rfl, by simp only [Call.exec, installed]⟩)
  | encryptMessage recipientId plaintext nonce =>
      rcases encryptMessage_cases P recipientId plaintext nonce engine.sessions with
        ⟨-, failed⟩ | ⟨_, -, -, failed⟩ | ⟨session, sealed, found, -, succeeded⟩
      · exact .inl (by simp only [Call.exec, failed])
      · exact .inl (by simp only [Call.exec, failed])
      · exact .inr (.inr ⟨recipientId, session, (session.deriveSendKey P).2, rfl, found, rfl,
          by simp only [Call.exec, succeeded]⟩)
  | decryptMessage senderId ciphertext =>
      rcases decryptMessage_cases P senderId ciphertext engine.sessions with
        ⟨-, failed⟩ | ⟨-, -, failed⟩ | ⟨_, _, -, -, failed⟩ | ⟨-, session, plaintext, found, -, opened⟩
      · exact .inl (by simp only [Call.exec, failed])
      · exact .inl (by simp only [Call.exec, failed])
      · exact .inl (by simp only [Call.exec, failed])
      · exact .inr (.inr ⟨senderId, session, (session.deriveRecvKey P).2, rfl, found, rfl,
          by simp only [Call.exec, opened]⟩)

theorem initSession_ok_sessions {identityKeys : Option IdentityKeys} {recipientId : String}
    {recipientKeys : PublicKeyBundle} {sessions : SessionTable}
    (succeeded : (initSession P identityKeys recipientId recipientKeys sessions).1 = .ok ()) :
    ∃ session, (initSession P identityKeys recipientId recipientKeys sessions).2 =
      sessions.insert recipientId session := by
  rcases initSession_cases P identityKeys recipientId recipientKeys sessions with
    failed | failed | ⟨_, _, -, -, installed⟩
  · rw [failed] at succeeded
    cases succeeded
  · rw [failed] at succeeded
    cases succeeded
  · exact ⟨_, by rw [installed]⟩

/-! ## The session table stays well formed -/

theorem exec_wellFormed {engine : Engine} (wellFormed : engine.sessions.WellFormed)
    (call : Call) : (call.exec P engine).2.sessions.WellFormed := by
  rcases exec_sessions P call engine with
    unchanged | ⟨_, _, session, -, sameId, -, installed⟩ | ⟨_, _, advanced, -, -, -, written⟩
  · rwa [unchanged]
  · rw [installed, ← sameId]
    exact wellFormed.insert session
  · rw [written]
    exact wellFormed.insert advanced

theorem exec_frame {engine : Engine} (wellFormed : engine.sessions.WellFormed)
    (call : Call) {other : String} (elsewhere : call.peer ≠ some other) :
    (call.exec P engine).2.sessions other = engine.sessions other := by
  rcases exec_sessions P call engine with
    unchanged | ⟨recipientId, recipientKeys, session, isInit, -, -, installed⟩ |
      ⟨recipientId, session, advanced, named, found, sameId, written⟩
  · rw [unchanged]
  · subst isInit
    rw [installed, SessionTable.insert_of_ne]
    rintro rfl
    exact elsewhere rfl
  · rw [written, updateSession_of_stored wellFormed found sameId, SessionTable.insert_of_ne]
    rintro rfl
    exact elsewhere named

theorem hasSession_exec_of_hasSession (call : Call) (engine : Engine)
    {recipientId : String} (present : hasSession engine.sessions recipientId = true) :
    hasSession (call.exec P engine).2.sessions recipientId = true := by
  rcases exec_sessions P call engine with
    unchanged | ⟨installedId, _, session, -, -, -, installed⟩ | ⟨_, _, advanced, -, -, -, written⟩
  · rwa [unchanged]
  · rw [installed]
    by_cases same : recipientId = installedId
    · simp [hasSession, same]
    · rwa [hasSession, SessionTable.insert_of_ne _ _ same]
  · rw [written, updateSession]
    by_cases same : recipientId = advanced.recipientId
    · simp [hasSession, same]
    · rwa [hasSession, SessionTable.insert_of_ne _ _ same]

theorem hasSession_exec {engine : Engine} (wellFormed : engine.sessions.WellFormed)
    (call : Call) (recipientId : String) :
    hasSession (call.exec P engine).2.sessions recipientId = true ↔
      hasSession engine.sessions recipientId = true ∨
        ∃ recipientKeys, call = .initSession recipientId recipientKeys ∧
          (call.exec P engine).1 = .ok .unit := by
  constructor
  · intro present
    by_cases named : call.peer = some recipientId
    · rcases exec_sessions P call engine with
        unchanged | ⟨installedId, recipientKeys, _, isInit, -, succeeded, -⟩ |
          ⟨_, session, _, peerEq, found, -, -⟩
      · rw [unchanged] at present
        exact .inl present
      · subst isInit
        cases named
        exact .inr ⟨recipientKeys, rfl, succeeded⟩
      · rw [named, Option.some.injEq] at peerEq
        subst peerEq
        exact .inl (by simp [hasSession, found])
    · rw [hasSession, exec_frame P wellFormed call named] at present
      exact .inl present
  · rintro (present | ⟨recipientKeys, rfl, succeeded⟩)
    · exact hasSession_exec_of_hasSession P call engine present
    · have initOk : (initSession P engine.identityKeys recipientId recipientKeys
          engine.sessions).1 = .ok () := by
        revert succeeded
        simp only [Call.exec]
        cases (initSession P engine.identityKeys recipientId recipientKeys engine.sessions).1 <;>
          simp [Except.map]
      obtain ⟨session, installed⟩ := initSession_ok_sessions P initOk
      simp only [Call.exec, installed, hasSession, SessionTable.insert_self, Option.isSome_some]

theorem run_wellFormed (engine : Engine) (wellFormed : engine.sessions.WellFormed)
    (calls : List Call) : (run P engine calls).2.sessions.WellFormed := by
  induction calls generalizing engine with
  | nil => exact wellFormed
  | cons call rest inductionHypothesis =>
      exact inductionHypothesis _ (exec_wellFormed P wellFormed call)

theorem hasSession_run (engine : Engine) (wellFormed : engine.sessions.WellFormed)
    (calls : List Call) (recipientId : String) :
    hasSession (run P engine calls).2.sessions recipientId = true ↔
      hasSession engine.sessions recipientId = true ∨
        ∃ recipientKeys, (Call.initSession recipientId recipientKeys, Except.ok Output.unit) ∈
          calls.zip (run P engine calls).1 := by
  induction calls generalizing engine with
  | nil => simp
  | cons call rest inductionHypothesis =>
      rw [run_cons, inductionHypothesis _ (exec_wellFormed P wellFormed call),
        hasSession_exec P wellFormed call, List.zip_cons_cons]
      simp only [List.mem_cons, Prod.mk.injEq]
      constructor
      · rintro ((present | ⟨recipientKeys, rfl, succeeded⟩) | ⟨recipientKeys, inRest⟩)
        · exact .inl present
        · exact .inr ⟨recipientKeys, .inl ⟨rfl, succeeded.symm⟩⟩
        · exact .inr ⟨recipientKeys, .inr inRest⟩
      · rintro (present | ⟨recipientKeys, ⟨rfl, succeeded⟩ | inRest⟩)
        · exact .inl (.inl present)
        · exact .inl (.inr ⟨recipientKeys, rfl, succeeded.symm⟩)
        · exact .inr ⟨recipientKeys, inRest⟩

/-- From the empty table, every reachable table stores each session under its own
`recipient_id`; from any reachable state a call changes at most the entry of the
id it names; and `has_session` holds exactly for the ids of the run's successful
`init_session` calls. -/
theorem sessionTable_invariant (identityKeys : Option IdentityKeys) (calls : List Call) :
    (run P ⟨identityKeys, .empty⟩ calls).2.sessions.WellFormed ∧
      (∀ (call : Call) (other : String), call.peer ≠ some other →
        (call.exec P (run P ⟨identityKeys, .empty⟩ calls).2).2.sessions other =
          (run P ⟨identityKeys, .empty⟩ calls).2.sessions other) ∧
      ∀ recipientId, hasSession (run P ⟨identityKeys, .empty⟩ calls).2.sessions recipientId =
          true ↔
        ∃ recipientKeys, (Call.initSession recipientId recipientKeys, Except.ok Output.unit) ∈
          calls.zip (run P ⟨identityKeys, .empty⟩ calls).1 := by
  have reachable := run_wellFormed P ⟨identityKeys, .empty⟩ SessionTable.wellFormed_empty calls
  refine ⟨reachable, fun call other elsewhere => exec_frame P reachable call elsewhere,
    fun recipientId => ?_⟩
  rw [hasSession_run P _ SessionTable.wellFormed_empty]
  simp [hasSession, SessionTable.empty]

/-! ## Failed calls -/

/-- A failure raised before any write: every error except invalid UTF-8. -/
def Discarded : Except CryptoError Output → Bool
  | .error (.invalidUtf8 _) => false
  | .error _ => true
  | .ok _ => false

theorem exec_of_discarded (call : Call) (engine : Engine)
    (failed : Discarded (call.exec P engine).1 = true) : (call.exec P engine).2 = engine := by
  cases call with
  | generateIdentityKeys pkcs8 prekeySecret =>
      cases generated : (generateIdentityKeys P pkcs8 prekeySecret engine.identityKeys).1 with
      | error error =>
          simp only [Call.exec, generateIdentityKeys_error_keeps_slot P generated]
      | ok bundle => simp [Call.exec, generated, Except.map, Discarded] at failed
  | getPublicKeyBundle => rfl
  | hasSession recipientId => rfl
  | initSession recipientId recipientKeys =>
      rcases initSession_cases P engine.identityKeys recipientId recipientKeys
          engine.sessions with failed' | failed' | ⟨_, _, -, -, installed⟩
      · simp only [Call.exec, failed']
      · simp only [Call.exec, failed']
      · simp [Call.exec, installed, Except.map, Discarded] at failed
  | encryptMessage recipientId plaintext nonce =>
      rcases encryptMessage_cases P recipientId plaintext nonce engine.sessions with
        ⟨-, failed'⟩ | ⟨_, -, -, failed'⟩ | ⟨_, _, -, -, succeeded⟩
      · simp only [Call.exec, failed']
      · simp only [Call.exec, failed']
      · simp [Call.exec, succeeded, Except.map, Discarded] at failed
  | decryptMessage senderId ciphertext =>
      rcases decryptMessage_cases P senderId ciphertext engine.sessions with
        ⟨-, failed'⟩ | ⟨-, -, failed'⟩ | ⟨_, _, -, -, failed'⟩ | ⟨_, _, plaintext, -, -, opened⟩
      · simp only [Call.exec, failed']
      · simp only [Call.exec, failed']
      · simp only [Call.exec, failed']
      · simp only [Call.exec, opened, textOf] at failed
        split at failed <;> simp [Except.map, Discarded] at failed

theorem exec_of_invalidUtf8 (call : Call) (engine : Engine) (debug : String)
    (failed : (call.exec P engine).1 = .error (.invalidUtf8 debug)) :
    ∃ senderId ciphertext session, call = .decryptMessage senderId ciphertext ∧
      engine.sessions senderId = some session ∧
      (call.exec P engine).2 =
        { engine with sessions := updateSession engine.sessions (session.deriveRecvKey P).2 } := by
  cases call with
  | decryptMessage senderId ciphertext =>
      rcases decryptMessage_cases P senderId ciphertext engine.sessions with
        ⟨-, failed'⟩ | ⟨-, -, failed'⟩ | ⟨_, _, -, -, failed'⟩ | ⟨_, session, _, found, -, opened⟩
      · simp [Call.exec, failed', Except.map] at failed
      · simp [Call.exec, failed', Except.map] at failed
      · simp [Call.exec, failed', Except.map] at failed
      · exact ⟨senderId, ciphertext, session, rfl, found, by simp only [Call.exec, opened]⟩
  | generateIdentityKeys pkcs8 prekeySecret =>
      simp only [Call.exec, generateIdentityKeys] at failed
      split at failed
      · simp [Except.map] at failed
      · split at failed <;> simp [Except.map] at failed
  | getPublicKeyBundle =>
      simp only [Call.exec, getPublicKeyBundle] at failed
      split at failed
      · simp [Except.map] at failed
      · split at failed <;> simp [Except.map] at failed
  | hasSession recipientId => simp [Call.exec] at failed
  | initSession recipientId recipientKeys =>
      rcases initSession_cases P engine.identityKeys recipientId recipientKeys
          engine.sessions with outcome | outcome | ⟨_, _, -, -, outcome⟩ <;>
        simp [Call.exec, outcome, Except.map] at failed
  | encryptMessage recipientId plaintext nonce =>
      rcases encryptMessage_cases P recipientId plaintext nonce engine.sessions with
        ⟨-, outcome⟩ | ⟨_, -, -, outcome⟩ | ⟨_, _, -, -, outcome⟩ <;>
        simp [Call.exec, outcome, Except.map] at failed

/-- The calls of a run that remain once every discarded failure is deleted. -/
def prune : Engine → List Call → List Call
  | _, [] => []
  | engine, call :: rest =>
      if Discarded (call.exec P engine).1 then prune (call.exec P engine).2 rest
      else call :: prune (call.exec P engine).2 rest

theorem run_prune (engine : Engine) (calls : List Call) :
    run P engine (prune P engine calls) =
      ((run P engine calls).1.filter (fun result => !Discarded result),
        (run P engine calls).2) := by
  induction calls generalizing engine with
  | nil => rfl
  | cons call rest inductionHypothesis =>
      rw [run_cons, List.filter_cons]
      by_cases discarded : Discarded (call.exec P engine).1 = true
      · have unchanged := exec_of_discarded P call engine discarded
        have pruned := inductionHypothesis (call.exec P engine).2
        rw [prune, if_pos discarded, discarded]
        rw [unchanged] at pruned ⊢
        simpa using pruned
      · rw [prune, if_neg discarded, run_cons, inductionHypothesis]
        simp [discarded]

theorem discarded_of_spurious (authentic : P.AeadAuthentic) (tagged : P.AeadTagged)
    (separated : P.CounterSeparated) {engine : Engine} {senderId : String} {session : Session}
    {ciphertext : Bytes} (found : engine.sessions senderId = some session)
    (spurious : Spurious P session ciphertext) :
    Discarded ((Call.decryptMessage senderId ciphertext).exec P engine).1 = true := by
  rcases decryptMessage_of_spurious P authentic tagged separated found spurious with
    rejected | rejected <;>
    simp [Call.exec, rejected, Except.map, Discarded]

/-- On a well-formed table every failed call leaves the engine as it was, except
`decrypt_message` failing on invalid UTF-8 after authentication, which moves the sender's
entry one step along its receive chain. Deleting every other failed call from a run
changes neither the remaining results nor the final state, and with authentic AES-GCM and
counter-separated message keys every truncated, forged or out-of-order ciphertext is
such a call. -/
theorem failed_calls_invisible :
    (∀ (call : Call) (engine : Engine), Discarded (call.exec P engine).1 = true →
        (call.exec P engine).2 = engine) ∧
      (∀ (call : Call) (engine : Engine) (debug : String), engine.sessions.WellFormed →
        (call.exec P engine).1 = .error (.invalidUtf8 debug) →
        ∃ senderId ciphertext session, call = .decryptMessage senderId ciphertext ∧
          engine.sessions senderId = some session ∧
          (call.exec P engine).2 = { engine with
            sessions := engine.sessions.insert senderId
              { session with recvChainKey := (session.recvChain.next P).key,
                             recvCounter := (session.recvChain.next P).counter } }) ∧
      (∀ (engine : Engine) (calls : List Call), run P engine (prune P engine calls) =
        ((run P engine calls).1.filter (fun result => !Discarded result),
          (run P engine calls).2)) ∧
      (P.AeadAuthentic → P.AeadTagged → P.CounterSeparated →
        ∀ (engine : Engine) (senderId : String) (session : Session) (ciphertext : Bytes),
          engine.sessions senderId = some session → Spurious P session ciphertext →
          Discarded ((Call.decryptMessage senderId ciphertext).exec P engine).1 = true) := by
  refine ⟨exec_of_discarded P, fun call engine debug wellFormed failed => ?_, run_prune P,
    fun authentic tagged separated _ _ _ _ found => discarded_of_spurious P authentic tagged
      separated found⟩
  obtain ⟨senderId, ciphertext, session, isDecrypt, found, written⟩ :=
    exec_of_invalidUtf8 P call engine debug failed
  refine ⟨senderId, ciphertext, session, isDecrypt, found, ?_⟩
  rw [written, updateSession_of_stored wellFormed found (Session.recipientId_deriveRecvKey P session)]
  rfl

theorem failed_calls_invisible_sample :
    let session := Session.new Primitives.sample "alice" []
    let engine : Engine := ⟨none, SessionTable.empty.insert "alice" session⟩
    let broken := List.replicate 12 0 ++ 0 :: (session.recvChain.messageKey Primitives.sample).bytes.take 16
    (∃ senderId ciphertext stored, Call.decryptMessage "alice" broken =
        .decryptMessage senderId ciphertext ∧ engine.sessions senderId = some stored ∧
        ((Call.decryptMessage "alice" broken).exec Primitives.sample engine).2 = { engine with
          sessions := engine.sessions.insert senderId
            { stored with recvChainKey := (stored.recvChain.next Primitives.sample).key,
                          recvCounter := (stored.recvChain.next Primitives.sample).counter } }) ∧
      Discarded ((Call.decryptMessage "alice" (List.replicate 12 0 ++
        Sample.sealTagged ((session.recvChain.next Primitives.sampleWide).messageKey
          Primitives.sampleWide) [0, 0, 104])).exec Primitives.sampleWide engine).1 = true :=
  ⟨(failed_calls_invisible Primitives.sample).2.1 _ _ "invalid"
      (SessionTable.wellFormed_empty.insert (Session.new Primitives.sample "alice" [])) rfl,
    (failed_calls_invisible Primitives.sampleWide).2.2.2 Primitives.sampleWide_lawful.aead_authentic
      Primitives.sampleWide_lawful.aead_tagged Primitives.sampleWide_separated _ "alice" _ _ rfl
      (@Spurious.outOfOrder _ _ _ ⟨List.replicate 12 0, List.length_replicate 12 0⟩ _ _ (by decide)
        rfl)⟩

/-- `setup_test_session` of the `encryption.rs` tests: one session, named `"test_user"`,
stored under `"test_user"` and under `"self"`. -/
def setupTestSession : SessionTable :=
  (SessionTable.empty.insert "test_user" (Session.new P "test_user" (List.replicate 32 42))).insert
    "self" (Session.new P "test_user" (List.replicate 32 42))

/-- On `setup_test_session`'s table, `decrypt_message("self", ...)` failing on invalid
UTF-8 leaves the sender's entry as it was and advances the entry of `"test_user"`. -/
theorem setupTestSession_invalidUtf8 :
    let engine : Engine := ⟨none, setupTestSession Primitives.sample⟩
    let call := Call.decryptMessage "self" (List.replicate 12 0 ++ 0 ::
      ((Session.new Primitives.sample "test_user" (List.replicate 32 42)).recvChain.messageKey
        Primitives.sample).bytes.take 16)
    (call.exec Primitives.sample engine).1 = .error (.invalidUtf8 "invalid") ∧
      (call.exec Primitives.sample engine).2.sessions "self" = engine.sessions "self" ∧
      (engine.sessions "test_user").map Session.recvCounter = some 0 ∧
      ((call.exec Primitives.sample engine).2.sessions "test_user").map Session.recvCounter =
        some 1 :=
  ⟨rfl, rfl, rfl, rfl⟩

end MeraBriar
