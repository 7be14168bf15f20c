import MeraBriar.Crypto.KeyManagement

/-!
# Sessions and the session table

`crypto/session.rs`. A `Session` holds two symmetric ratchets, one per direction.
Each derivation reads a chain key and its counter, and replaces the chain key by
HKDF output salted with the counter. The table `SESSIONS` maps peer ids to sessions.
`update_session` writes a session back under its own `recipient_id`, so the table is
only coherent while every entry is stored under that id (`SessionTable.WellFormed`).
-/

set_option autoImplicit false

namespace MeraBriar

/-- `Session`. -/
structure Session where
  recipientId : String
  rootKey : FixedBytes 32
  sendChainKey : FixedBytes 32
  recvChainKey : FixedBytes 32
  sendCounter : UInt32
  recvCounter : UInt32
  deriving DecidableEq

/-- One direction of a session: a chain key and its counter. -/
structure Chain where
  key : FixedBytes 32
  counter : UInt32
  deriving DecidableEq

variable (P : Primitives)

theorem toNat_counter_add_one (counter : UInt32) :
    (counter + 1).toNat = (counter.toNat + 1) % 2 ^ 32 := rfl

/-- `derive_message_key`: the message key and the next chain key. -/
def deriveMessageKey (chainKey : FixedBytes 32) (counter : UInt32) :
    FixedBytes 32 × FixedBytes 32 :=
  (P.hkdf (some (toBeBytes counter)) chainKey.bytes "message_key",
    P.hkdf (some (toBeBytes counter)) chainKey.bytes "chain_key")

namespace Chain

def messageKey (chain : Chain) : FixedBytes 32 :=
  (deriveMessageKey P chain.key chain.counter).1

def next (chain : Chain) : Chain :=
  ⟨(deriveMessageKey P chain.key chain.counter).2, chain.counter + 1⟩

@[simp]
theorem counter_next (chain : Chain) : (chain.next P).counter = chain.counter + 1 := rfl

theorem counter_iterate_next (chain : Chain) (steps : Nat) :
    ((next P)^[steps] chain).counter.toNat = (chain.counter.toNat + steps) % 2 ^ 32 := by
  induction steps generalizing chain with
  | zero => exact (Nat.mod_eq_of_lt (chain.counter.toNat_lt)).symm
  | succ steps inductionHypothesis =>
      rw [Function.iterate_succ_apply, inductionHypothesis, counter_next,
        toNat_counter_add_one]
      omega

end Chain

namespace Session

/-- `Session::new`: HKDF without salt over the shared secret, counters at zero. -/
def new (recipientId : String) (sharedSecret : Bytes) : Session where
  recipientId := recipientId
  rootKey := P.hkdf none sharedSecret "root_key"
  sendChainKey := P.hkdf none sharedSecret "send_chain"
  recvChainKey := P.hkdf none sharedSecret "recv_chain"
  sendCounter := 0
  recvCounter := 0

/-- `derive_send_key`: the message key and the advanced session. -/
def deriveSendKey (session : Session) : FixedBytes 32 × Session :=
  let (messageKey, newChainKey) := deriveMessageKey P session.sendChainKey session.sendCounter
  (messageKey, { session with sendChainKey := newChainKey,
                              sendCounter := session.sendCounter + 1 })

/-- `derive_recv_key`: the message key and the advanced session. -/
def deriveRecvKey (session : Session) : FixedBytes 32 × Session :=
  let (messageKey, newChainKey) := deriveMessageKey P session.recvChainKey session.recvCounter
  (messageKey, { session with recvChainKey := newChainKey,
                              recvCounter := session.recvCounter + 1 })

def sendChain (session : Session) : Chain := ⟨session.sendChainKey, session.sendCounter⟩

def recvChain (session : Session) : Chain := ⟨session.recvChainKey, session.recvCounter⟩

@[simp]
theorem deriveSendKey_messageKey (session : Session) :
    (session.deriveSendKey P).1 = session.sendChain.messageKey P := rfl

@[simp]
theorem sendChain_deriveSendKey (session : Session) :
    (session.deriveSendKey P).2.sendChain = session.sendChain.next P := rfl

@[simp]
theorem recvChain_deriveSendKey (session : Session) :
    (session.deriveSendKey P).2.recvChain = session.recvChain := rfl

@[simp]
theorem recipientId_deriveSendKey (session : Session) :
    (session.deriveSendKey P).2.recipientId = session.recipientId := rfl

@[simp]
theorem deriveRecvKey_messageKey (session : Session) :
    (session.deriveRecvKey P).1 = session.recvChain.messageKey P := rfl

@[simp]
theorem recvChain_deriveRecvKey (session : Session) :
    (session.deriveRecvKey P).2.recvChain = session.recvChain.next P := rfl

@[simp]
theorem sendChain_deriveRecvKey (session : Session) :
    (session.deriveRecvKey P).2.sendChain = session.sendChain := rfl

@[simp]
theorem recipientId_deriveRecvKey (session : Session) :
    (session.deriveRecvKey P).2.recipientId = session.recipientId := rfl

@[simp]
theorem sendCounter_eq (session : Session) : session.sendChain.counter = session.sendCounter :=
  rfl

@[simp]
theorem recvCounter_eq (session : Session) : session.recvChain.counter = session.recvCounter :=
  rfl

end Session

/-- The table `SESSIONS: RwLock<HashMap<String, Session>>`. -/
abbrev SessionTable := String → Option Session

namespace SessionTable

def empty : SessionTable := fun _ => none

/-- `HashMap::insert`, replacing any previous entry. -/
def insert (sessions : SessionTable) (recipientId : String) (session : Session) :
    SessionTable :=
  Function.update sessions recipientId (some session)

@[simp]
theorem insert_self (sessions : SessionTable) (recipientId : String) (session : Session) :
    sessions.insert recipientId session recipientId = some session := by
  simp [insert]

@[simp]
theorem insert_of_ne (sessions : SessionTable) {recipientId other : String}
    (session : Session) (distinct : other ≠ recipientId) :
    sessions.insert recipientId session other = sessions other := by
  simp [insert, distinct]

/-- Every entry is stored under its own `recipient_id`. -/
def WellFormed (sessions : SessionTable) : Prop :=
  ∀ recipientId session, sessions recipientId = some session →
    session.recipientId = recipientId

theorem wellFormed_empty : empty.WellFormed := by
  intro recipientId session stored
  cases stored

theorem WellFormed.insert {sessions : SessionTable} (wellFormed : sessions.WellFormed)
    (session : Session) : (sessions.insert session.recipientId session).WellFormed := by
  intro recipientId stored found
  by_cases same : recipientId = session.recipientId
  · subst same
    simp only [insert_self, Option.some.injEq] at found
    rw [found]
  · rw [insert_of_ne _ _ same] at found
    exact wellFormed recipientId stored found

end SessionTable

/-- `has_session`. -/
def hasSession (sessions : SessionTable) (recipientId : String) : Bool :=
  (sessions recipientId).isSome

/-- `get_session_mut`: a clone of the entry, or "No session for {id}". -/
def getSessionMut (sessions : SessionTable) (recipientId : String) :
    Except CryptoError Session :=
  match sessions recipientId with
  | some session => .ok session
  | none => .error (.noSession recipientId)

/-- `update_session`: insert under the session's own `recipient_id`. -/
def updateSession (sessions : SessionTable) (session : Session) : SessionTable :=
  sessions.insert session.recipientId session

/-- `init_session`: static-static X25519 with the peer's signed prekey, then a fresh
`Session` stored under the given id. -/
def initSession (identityKeys : Option IdentityKeys) (recipientId : String)
    (recipientKeys : PublicKeyBundle) (sessions : SessionTable) :
    Except CryptoError Unit × SessionTable :=
  match identityKeys with
  | none => (.error .ourKeysNotInitialized, sessions)
  | some ourKeys =>
      match FixedBytes.tryFrom 32 recipientKeys.signedPrekey with
      | none => (.error .invalidPrekeyLength, sessions)
      | some theirPrekey =>
          let sharedSecret := P.diffieHellman ourKeys.signedPrekeyPrivate theirPrekey
          let session := Session.new P recipientId sharedSecret.bytes
          (.ok (), sessions.insert recipientId session)

theorem getSessionMut_eq_ok_iff {sessions : SessionTable} {recipientId : String}
    {session : Session} :
    getSessionMut sessions recipientId = .ok session ↔ sessions recipientId = some session := by
  unfold getSessionMut
  split <;> simp_all

theorem updateSession_of_stored {sessions : SessionTable} (wellFormed : sessions.WellFormed)
    {recipientId : String} {stored session : Session}
    (found : sessions recipientId = some stored)
    (sameId : session.recipientId = stored.recipientId) :
    updateSession sessions session = sessions.insert recipientId session := by
  rw [updateSession, sameId, wellFormed recipientId stored found]

theorem initSession_cases (identityKeys : Option IdentityKeys) (recipientId : String)
    (recipientKeys : PublicKeyBundle) (sessions : SessionTable) :
    initSession P identityKeys recipientId recipientKeys sessions =
        (.error .ourKeysNotInitialized, sessions) ∨
      initSession P identityKeys recipientId recipientKeys sessions =
        (.error .invalidPrekeyLength, sessions) ∨
      ∃ ourKeys theirPrekey, identityKeys = some ourKeys ∧
        theirPrekey.bytes = recipientKeys.signedPrekey ∧
        initSession P identityKeys recipientId recipientKeys sessions =
          (.ok (), sessions.insert recipientId (Session.new P recipientId
            (P.diffieHellman ourKeys.signedPrekeyPrivate theirPrekey).bytes)) := by
  unfold initSession
  split
  · exact .inl rfl
  · rename_i ourKeys
    split
    · exact .inr (.inl rfl)
    · rename_i theirPrekey converted
      exact .inr (.inr ⟨ourKeys, theirPrekey, rfl, FixedBytes.tryFrom_eq_some_iff.mp converted,
        rfl⟩)

/-! ## Counters -/

/-- A direct call of `derive_send_key` or `derive_recv_key`. -/
inductive Derivation where
  | send
  | recv
  deriving DecidableEq

def Session.derive (session : Session) : Derivation → Session
  | .send => (session.deriveSendKey P).2
  | .recv => (session.deriveRecvKey P).2

def Session.deriveAll (session : Session) (steps : List Derivation) : Session :=
  steps.foldl (Session.derive P) session

theorem Session.counters_deriveAll (session : Session) (steps : List Derivation) :
    (session.deriveAll P steps).sendCounter.toNat =
        (session.sendCounter.toNat + steps.count .send) % 2 ^ 32 ∧
      (session.deriveAll P steps).recvCounter.toNat =
        (session.recvCounter.toNat + steps.count .recv) % 2 ^ 32 := by
  induction steps generalizing session with
  | nil =>
      exact ⟨(Nat.mod_eq_of_lt (session.sendCounter.toNat_lt)).symm,
        (Nat.mod_eq_of_lt (session.recvCounter.toNat_lt)).symm⟩
  | cons step rest inductionHypothesis =>
      obtain ⟨sendCount, recvCount⟩ := inductionHypothesis (session.derive P step)
      change (deriveAll P (session.derive P step) rest).sendCounter.toNat = _ ∧
        (deriveAll P (session.derive P step) rest).recvCounter.toNat = _
      rw [sendCount, recvCount]
      cases step with
      | send =>
          simp only [derive, deriveSendKey, toNat_counter_add_one, List.count_cons_self,
            List.count_cons_of_ne (by decide : Derivation.recv ≠ .send), and_true]
          omega
      | recv =>
          simp only [derive, deriveRecvKey, toNat_counter_add_one, List.count_cons_self,
            List.count_cons_of_ne (by decide : Derivation.send ≠ .recv), true_and]
          omega

/-- From `Session::new`, after any interleaving of `derive_send_key` and
`derive_recv_key` calls, each counter is the number of derivations in its direction
modulo `2^32`: exact below `2^32`, wrapped after. -/
theorem Session.counters_new_deriveAll (recipientId : String) (sharedSecret : Bytes)
    (steps : List Derivation) :
    ((Session.new P recipientId sharedSecret).deriveAll P steps).sendCounter.toNat =
        steps.count .send % 2 ^ 32 ∧
      ((Session.new P recipientId sharedSecret).deriveAll P steps).recvCounter.toNat =
        steps.count .recv % 2 ^ 32 := by
  simpa [Session.new] using Session.counters_deriveAll P (Session.new P recipientId sharedSecret)
    steps

/-- The `2^32`-th `derive_send_key` wraps `send_counter` back to zero. -/
theorem Session.sendCounter_wraps :
    ((Session.new Primitives.sample "bob" []).deriveAll Primitives.sample
      (List.replicate (2 ^ 32) .send)).sendCounter.toNat ≠ 2 ^ 32 := by
  rw [(Session.counters_deriveAll Primitives.sample _ _).1, List.count_replicate_self]
  decide

end MeraBriar
