import MeraBriar.Crypto.MessageKeys

/-!
# Concurrent calls on the session table

`encrypt_message` and `decrypt_message` take the `SESSIONS` lock twice: once in
`get_session_mut`, which returns a clone of the entry, and once in
`update_session`, which inserts the advanced clone. Key derivation and AES-GCM run
between the two with no lock held. Every other call is one locked step.

A thread is a call and the point it has reached; a schedule lists which thread
takes the next step. Two threads that clone the same session both derive from its send chain and both
write back the same advanced copy.
-/

set_option autoImplicit false

namespace MeraBriar

/-- How far a call has got between its locked steps. -/
inductive Phase where
  | start
  /-- `get_session_mut` returned this clone. -/
  | cloned (session : Session)
  /-- The cipher ran on the advanced clone; `update_session` is next. -/
  | derived (session : Session) (result : Except CryptoError Output)
  | done (result : Except CryptoError Output)

structure Thread where
  call : Call
  phase : Phase

variable (P : Primitives)

def Call.finish : Call → Session → Except CryptoError Output × Option Session
  | .encryptMessage _ plaintext nonce, session =>
      let (messageKey, session) := session.deriveSendKey P
      match P.aesGcmEncrypt messageKey nonce (P.asBytes plaintext) with
      | none => (.error .encryptionFailed, none)
      | some ciphertext => (.ok (.ciphertext (nonce.bytes ++ ciphertext)), some session)
  | .decryptMessage _ ciphertext, session =>
      if short : ciphertext.length < 12 + 16 then (.error .ciphertextTooShort, none)
      else
        let (messageKey, session) := session.deriveRecvKey P
        match P.aesGcmDecrypt messageKey (nonceOf ciphertext short) (ciphertext.drop 12) with
        | none => (.error .decryptionFailed, none)
        | some plaintext => ((textOf P plaintext).map .plaintext, some session)
  | _, _ => (.ok .unit, none)

/-- One locked step, or the unlocked work between two of them. -/
def Call.stepAt : Call → Phase → Engine → Phase × Engine
  | .encryptMessage recipientId _ _, .start, engine =>
      match getSessionMut engine.sessions recipientId with
      | .error error => (.done (.error error), engine)
      | .ok session => (.cloned session, engine)
  | .decryptMessage senderId ciphertext, .start, engine =>
      if ciphertext.length < 12 + 16 then (.done (.error .ciphertextTooShort), engine)
      else
        match getSessionMut engine.sessions senderId with
        | .error error => (.done (.error error), engine)
        | .ok session => (.cloned session, engine)
  | call, .start, engine =>
      let (result, engine) := call.exec P engine
      (.done result, engine)
  | call, .cloned session, engine =>
      match call.finish P session with
      | (result, none) => (.done result, engine)
      | (result, some session) => (.derived session result, engine)
  | _, .derived session result, engine =>
      (.done result, { engine with sessions := updateSession engine.sessions session })
  | _, .done result, engine => (.done result, engine)

structure Concurrent where
  engine : Engine
  threads : List Thread

namespace Concurrent

def start (engine : Engine) (calls : List Call) : Concurrent :=
  ⟨engine, calls.map fun call => ⟨call, .start⟩⟩

def step (state : Concurrent) (index : Nat) : Concurrent :=
  match state.threads[index]? with
  | none => state
  | some thread =>
      let (phase, engine) := thread.call.stepAt P thread.phase state.engine
      ⟨engine, state.threads.set index ⟨thread.call, phase⟩⟩

def run (state : Concurrent) (schedule : List Nat) : Concurrent :=
  schedule.foldl (step P) state

end Concurrent

def racingEncrypts : List Call :=
  [.encryptMessage "bob" "hi" ⟨List.replicate 12 0, List.length_replicate 12 0⟩,
    .encryptMessage "bob" "hi" ⟨List.replicate 12 1, List.length_replicate 12 1⟩]

def raceEngine : Engine :=
  ⟨none, SessionTable.empty.insert "bob" (Session.new Primitives.sample "bob" [])⟩

/-- Both racing calls clone the fresh session before either writes back, so both
derive their message key from its send chain at counter zero; both succeed and the
table ends with `send_counter = 1`, where either order of the two calls run one
after the other ends with `send_counter = 2`. -/
theorem racing_encrypts_reuse_key :
    (Concurrent.run Primitives.sample (.start raceEngine racingEncrypts) [0, 1]).threads.map
        Thread.phase =
      [.cloned (Session.new Primitives.sample "bob" []),
        .cloned (Session.new Primitives.sample "bob" [])] ∧
    (∃ first second,
      (Concurrent.run Primitives.sample (.start raceEngine racingEncrypts)
        [0, 1, 0, 1, 0, 1]).threads.map Thread.phase =
          [.done (.ok (.ciphertext first)), .done (.ok (.ciphertext second))]) ∧
    ((Concurrent.run Primitives.sample (.start raceEngine racingEncrypts)
      [0, 1, 0, 1, 0, 1]).engine.sessions "bob").map Session.sendCounter = some 1 ∧
    ∀ order, order.Perm racingEncrypts →
      ((run Primitives.sample raceEngine order).2.sessions "bob").map Session.sendCounter =
        some 2 := by
  have sequential : ∀ order ∈ racingEncrypts.permutations',
      ((run Primitives.sample raceEngine order).2.sessions "bob").map Session.sendCounter =
        some 2 := by
    decide
  exact ⟨rfl, ⟨_, _, rfl⟩, rfl, fun order perm => sequential order (List.mem_permutations'.mpr perm)⟩

end MeraBriar
