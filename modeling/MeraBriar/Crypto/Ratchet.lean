import MeraBriar.Crypto.Engine

/-!
# Two parties on one ratchet

A's session for B sends on a chain that B's session for A receives on. A `Link`
holds the two parties' session tables and the ciphertexts A has produced that B has
not yet decrypted, oldest first. Besides sending and receiving in this direction,
either party may act in the other direction: encrypt to the other, decrypt any bytes,
or call `derive_send_key`/`derive_recv_key` on its session.

The invariant `Link.Synced` says that A's send chain is B's receive chain advanced
once per ciphertext in flight, and that each ciphertext in flight was sealed under
the message key of its position. Every step keeps it, so B decrypts every message
A sends, in order.
-/

set_option autoImplicit false

namespace MeraBriar

variable (P : Primitives)

/-- The ciphertexts between a receive chain and a send chain: each is its nonce
followed by the AEAD output of its plaintext under the message key at its position. -/
inductive InFlight : Chain → List (String × Bytes) → Chain → Prop
  | nil (chain : Chain) : InFlight chain [] chain
  | cons {chain final : Chain} {plaintext : String} {nonce : FixedBytes 12} {sealed : Bytes}
      {rest : List (String × Bytes)} :
      P.aesGcmEncrypt (chain.messageKey P) nonce (P.asBytes plaintext) = some sealed →
      InFlight (chain.next P) rest final →
      InFlight chain ((plaintext, nonce.bytes ++ sealed) :: rest) final

theorem InFlight.snoc {chain final : Chain} {queue : List (String × Bytes)}
    (inFlight : InFlight P chain queue final) {plaintext : String} {nonce : FixedBytes 12}
    {sealed : Bytes}
    (sealedEq : P.aesGcmEncrypt (final.messageKey P) nonce (P.asBytes plaintext) = some sealed) :
    InFlight P chain (queue ++ [(plaintext, nonce.bytes ++ sealed)]) (final.next P) := by
  induction inFlight with
  | nil chain => exact .cons sealedEq (.nil _)
  | cons headSealed _ inductionHypothesis =>
      exact .cons headSealed (inductionHypothesis sealedEq)

/-- The receiver's chain stands where the sender's does. -/
def Matched (sender receiver : Session) : Prop :=
  sender.sendChainKey = receiver.recvChainKey ∧ sender.sendCounter = receiver.recvCounter

instance (sender receiver : Session) : Decidable (Matched sender receiver) :=
  inferInstanceAs (Decidable (_ ∧ _))

theorem matched_iff {sender receiver : Session} :
    Matched sender receiver ↔ sender.sendChain = receiver.recvChain := by
  simp [Matched, Session.sendChain, Session.recvChain]

/-- Both session tables and the ciphertexts from A to B not yet decrypted. -/
structure Link where
  tableA : SessionTable
  tableB : SessionTable
  inFlight : List (String × Bytes)

/-- One step of either party. -/
inductive LinkStep where
  /-- A: `encrypt_message(idB, plaintext)`. -/
  | sendAB (plaintext : String) (nonce : FixedBytes 12)
  /-- B: `decrypt_message(idA, c)` on the oldest ciphertext in flight. -/
  | receiveAB
  /-- B: `encrypt_message(idA, plaintext)`. -/
  | sendBA (plaintext : String) (nonce : FixedBytes 12)
  /-- A: `decrypt_message(idB, ciphertext)` on any bytes. -/
  | receiveBA (ciphertext : Bytes)
  /-- B: `derive_send_key` on its session for A, written back. -/
  | deriveSendB
  /-- A: `derive_recv_key` on its session for B, written back. -/
  | deriveRecvA

inductive Observation where
  | sent (plaintext : String) (nonce : FixedBytes 12) (result : Except CryptoError Bytes)
  | received (expected : String) (result : Except CryptoError String)
  | other

/-- A direct derivation on a stored session, written back with `update_session`. -/
def advanceStored (table : SessionTable) (recipientId : String)
    (advance : Session → Session) : SessionTable :=
  match table recipientId with
  | some session => updateSession table (advance session)
  | none => table

/-- Run one step on the link between `idA` and `idB`. -/
def LinkStep.apply (idA idB : String) : LinkStep → Link → Observation × Link
  | .sendAB plaintext nonce, link =>
      let (result, tableA) := encryptMessage P idB plaintext nonce link.tableA
      (.sent plaintext nonce result,
        { link with
          tableA
          inFlight := match result with
            | .ok ciphertext => link.inFlight ++ [(plaintext, ciphertext)]
            | .error _ => link.inFlight })
  | .receiveAB, link =>
      match link.inFlight with
      | [] => (.other, link)
      | (plaintext, ciphertext) :: rest =>
          let (result, tableB) := decryptMessage P idA ciphertext link.tableB
          (.received plaintext result, { link with tableB, inFlight := rest })
  | .sendBA plaintext nonce, link =>
      (.other, { link with tableB := (encryptMessage P idA plaintext nonce link.tableB).2 })
  | .receiveBA ciphertext, link =>
      (.other, { link with tableA := (decryptMessage P idB ciphertext link.tableA).2 })
  | .deriveSendB, link =>
      (.other, { link with tableB := advanceStored link.tableB idA fun session =>
        (session.deriveSendKey P).2 })
  | .deriveRecvA, link =>
      (.other, { link with tableA := advanceStored link.tableA idB fun session =>
        (session.deriveRecvKey P).2 })

def LinkStep.run (idA idB : String) : Link → List LinkStep → List Observation × Link
  | link, [] => ([], link)
  | link, step :: rest =>
      let (observation, link) := step.apply P idA idB link
      let (observations, link) := LinkStep.run idA idB link rest
      (observation :: observations, link)

/-- A's send chain is B's receive chain advanced across the ciphertexts in flight. -/
def Link.Synced (idA idB : String) (link : Link) : Prop :=
  ∃ sender receiver, link.tableA idB = some sender ∧ sender.recipientId = idB ∧
    link.tableB idA = some receiver ∧ receiver.recipientId = idA ∧
    InFlight P receiver.recvChain link.inFlight sender.sendChain

def Observation.Good : Observation → Prop
  | .sent plaintext nonce (.ok ciphertext) =>
      ∃ key sealed, P.aesGcmEncrypt key nonce (P.asBytes plaintext) = some sealed ∧
        ciphertext = nonce.bytes ++ sealed
  | .sent _ _ (.error _) => True
  | .received expected result => result = .ok expected
  | .other => True

theorem InFlight.nil_iff {chain final : Chain} : InFlight P chain [] final ↔ chain = final := by
  constructor
  · intro inFlight
    cases inFlight
    rfl
  · rintro rfl
    exact .nil chain

theorem updateSession_self {table : SessionTable} {recipientId : String}
    {stored advanced : Session} (named : stored.recipientId = recipientId)
    (sameId : advanced.recipientId = stored.recipientId) :
    updateSession table advanced recipientId = some advanced := by
  rw [updateSession, sameId, named, SessionTable.insert_self]

theorem Link.Synced.writeBackA {idA idB : String} {link : Link} (synced : link.Synced P idA idB)
    {stored advanced : Session} (found : link.tableA idB = some stored)
    (sameId : advanced.recipientId = stored.recipientId)
    (sameChain : advanced.sendChain = stored.sendChain) :
    ({ link with tableA := updateSession link.tableA advanced } : Link).Synced P idA idB := by
  obtain ⟨sender, receiver, senderStored, senderNamed, receiverStored, receiverNamed, inFlight⟩ :=
    synced
  rw [senderStored, Option.some.injEq] at found
  subst found
  exact ⟨advanced, receiver, updateSession_self senderNamed sameId, sameId.trans senderNamed,
    receiverStored, receiverNamed, sameChain ▸ inFlight⟩

theorem Link.Synced.writeBackB {idA idB : String} {link : Link} (synced : link.Synced P idA idB)
    {stored advanced : Session} (found : link.tableB idA = some stored)
    (sameId : advanced.recipientId = stored.recipientId)
    (sameChain : advanced.recvChain = stored.recvChain) :
    ({ link with tableB := updateSession link.tableB advanced } : Link).Synced P idA idB := by
  obtain ⟨sender, receiver, senderStored, senderNamed, receiverStored, receiverNamed, inFlight⟩ :=
    synced
  rw [receiverStored, Option.some.injEq] at found
  subst found
  exact ⟨sender, advanced, senderStored, senderNamed, updateSession_self receiverNamed sameId,
    sameId.trans receiverNamed, sameChain ▸ inFlight⟩

section Laws

variable {P} (correct : P.AeadCorrect) (tagged : P.AeadTagged) (roundTrip : P.Utf8RoundTrip)
include correct tagged roundTrip

theorem LinkStep.apply_synced {idA idB : String} {link : Link}
    (synced : link.Synced P idA idB) (step : LinkStep) :
    (step.apply P idA idB link).1.Good P ∧ (step.apply P idA idB link).2.Synced P idA idB := by
  have ⟨sender, receiver, senderStored, senderNamed, receiverStored, receiverNamed, inFlight⟩ :=
    synced
  cases step with
  | sendAB plaintext nonce =>
      rcases encryptMessage_cases P idB plaintext nonce link.tableA with
        ⟨-, failed⟩ | ⟨_, -, -, failed⟩ | ⟨session, sealed, found, sealedEq, succeeded⟩
      · simp only [LinkStep.apply, failed]
        exact ⟨trivial, synced⟩
      · simp only [LinkStep.apply, failed]
        exact ⟨trivial, synced⟩
      · rw [senderStored, Option.some.injEq] at found
        subst found
        simp only [LinkStep.apply, succeeded]
        refine ⟨⟨_, sealed, sealedEq, rfl⟩, (sender.deriveSendKey P).2, receiver,
          updateSession_self senderNamed rfl, senderNamed, receiverStored, receiverNamed, ?_⟩
        simpa using inFlight.snoc P sealedEq
  | receiveAB =>
      cases queue : link.inFlight with
      | nil =>
          simp only [LinkStep.apply, queue]
          exact ⟨trivial, synced⟩
      | cons head rest =>
          obtain ⟨plaintext, ciphertext⟩ := head
          rw [queue] at inFlight
          cases inFlight with
          | cons sealedEq restInFlight =>
              simp only [LinkStep.apply, queue,
                decryptMessage_sealed P correct tagged roundTrip receiverStored sealedEq]
              refine ⟨rfl, sender, (receiver.deriveRecvKey P).2, senderStored, senderNamed,
                updateSession_self receiverNamed rfl, receiverNamed, ?_⟩
              simpa using restInFlight
  | sendBA plaintext nonce =>
      rcases encryptMessage_cases P idA plaintext nonce link.tableB with
        ⟨-, failed⟩ | ⟨_, -, -, failed⟩ | ⟨session, _, found, -, succeeded⟩
      · simp only [LinkStep.apply, failed]
        exact ⟨trivial, synced⟩
      · simp only [LinkStep.apply, failed]
        exact ⟨trivial, synced⟩
      · simp only [LinkStep.apply, succeeded]
        exact ⟨trivial, synced.writeBackB P found rfl (Session.recvChain_deriveSendKey P session)⟩
  | receiveBA ciphertext =>
      rcases decryptMessage_cases P idB ciphertext link.tableA with
        ⟨-, failed⟩ | ⟨-, -, failed⟩ | ⟨_, _, -, -, failed⟩ | ⟨_, session, _, found, -, opened⟩
      · simp only [LinkStep.apply, failed]
        exact ⟨trivial, synced⟩
      · simp only [LinkStep.apply, failed]
        exact ⟨trivial, synced⟩
      · simp only [LinkStep.apply, failed]
        exact ⟨trivial, synced⟩
      · simp only [LinkStep.apply, opened]
        exact ⟨trivial, synced.writeBackA P found rfl (Session.sendChain_deriveRecvKey P session)⟩
  | deriveSendB =>
      simp only [LinkStep.apply, advanceStored, receiverStored]
      exact ⟨trivial,
        synced.writeBackB P receiverStored rfl (Session.recvChain_deriveSendKey P receiver)⟩
  | deriveRecvA =>
      simp only [LinkStep.apply, advanceStored, senderStored]
      exact ⟨trivial,
        synced.writeBackA P senderStored rfl (Session.sendChain_deriveRecvKey P sender)⟩

theorem LinkStep.run_synced {idA idB : String} (link : Link) (synced : link.Synced P idA idB)
    (steps : List LinkStep) :
    (∀ observation ∈ (LinkStep.run P idA idB link steps).1, observation.Good P) ∧
      (LinkStep.run P idA idB link steps).2.Synced P idA idB := by
  induction steps generalizing link with
  | nil => exact ⟨by simp [LinkStep.run], synced⟩
  | cons step rest inductionHypothesis =>
      obtain ⟨good, stepSynced⟩ := LinkStep.apply_synced correct tagged roundTrip synced step
      obtain ⟨restGood, restSynced⟩ := inductionHypothesis _ stepSynced
      refine ⟨?_, restSynced⟩
      rintro observation (here | ⟨_, later⟩)
      · exact good
      · exact restGood observation later

/-- A sender and receiver matched and stored under each other's ids stay in sync
under any interleaving of A-to-B messages with traffic and derivations in the other
direction: every ciphertext is its nonce followed by the AEAD output of its
plaintext, every decryption returns the plaintext sent, and whenever nothing is in
flight the two sessions are matched again. -/
theorem ratchet_agreement (idA idB : String) (tableA tableB : SessionTable)
    (sender receiver : Session) (senderStored : tableA idB = some sender)
    (senderNamed : sender.recipientId = idB) (receiverStored : tableB idA = some receiver)
    (receiverNamed : receiver.recipientId = idA) (matched : Matched sender receiver)
    (steps : List LinkStep) :
    (∀ observation ∈ (LinkStep.run P idA idB ⟨tableA, tableB, []⟩ steps).1,
        observation.Good P) ∧
      (LinkStep.run P idA idB ⟨tableA, tableB, []⟩ steps).2.Synced P idA idB ∧
      ((LinkStep.run P idA idB ⟨tableA, tableB, []⟩ steps).2.inFlight = [] →
        ∀ senderNow receiverNow,
          (LinkStep.run P idA idB ⟨tableA, tableB, []⟩ steps).2.tableA idB = some senderNow →
          (LinkStep.run P idA idB ⟨tableA, tableB, []⟩ steps).2.tableB idA = some receiverNow →
          Matched senderNow receiverNow) := by
  have start : Link.Synced P idA idB ⟨tableA, tableB, []⟩ :=
    ⟨sender, receiver, senderStored, senderNamed, receiverStored, receiverNamed,
      (InFlight.nil_iff P).mpr (matched_iff.mp matched).symm⟩
  obtain ⟨good, synced⟩ := LinkStep.run_synced correct tagged roundTrip _ start steps
  refine ⟨good, synced, fun idle senderNow receiverNow senderFound receiverFound => ?_⟩
  obtain ⟨sender', receiver', senderStored', -, receiverStored', -, inFlight⟩ := synced
  rw [senderFound, Option.some.injEq] at senderStored'
  rw [receiverFound, Option.some.injEq] at receiverStored'
  rw [idle, InFlight.nil_iff, ← senderStored', ← receiverStored'] at inFlight
  exact matched_iff.mpr inFlight.symm

end Laws

theorem ratchet_agreement_sample :
    (Primitives.sample.AeadCorrect ∧ Primitives.sample.AeadTagged ∧
      Primitives.sample.Utf8RoundTrip) ∧
    (∀ observation ∈ (LinkStep.run Primitives.sample "alice" "bob"
        ⟨SessionTable.empty.insert "bob" (Session.new Primitives.sample "bob" []),
          SessionTable.empty.insert "alice" { Session.new Primitives.sample "alice" [] with
            recvChainKey := (Session.new Primitives.sample "bob" []).sendChainKey }, []⟩
        [.sendAB "hi" ⟨List.replicate 12 0, List.length_replicate 12 0⟩, .receiveAB]).1,
      observation.Good Primitives.sample) :=
  ⟨⟨Primitives.sample_lawful.aead_correct, Primitives.sample_lawful.aead_tagged,
      Primitives.sample_lawful.utf8_roundTrip⟩,
    (ratchet_agreement Primitives.sample_lawful.aead_correct Primitives.sample_lawful.aead_tagged
      Primitives.sample_lawful.utf8_roundTrip "alice" "bob" _ _
      (Session.new Primitives.sample "bob" [])
      { Session.new Primitives.sample "alice" [] with
        recvChainKey := (Session.new Primitives.sample "bob" []).sendChainKey }
      (SessionTable.insert_self _ _ _) rfl (SessionTable.insert_self _ _ _) rfl ⟨rfl, rfl⟩ _).1⟩

/-- A matched pair is no longer matched once A has sent a message that B has not
yet decrypted. -/
theorem ratchet_unmatched_in_flight :
    Matched (Session.new Primitives.sample "bob" [])
        { Session.new Primitives.sample "alice" [] with
          recvChainKey := (Session.new Primitives.sample "bob" []).sendChainKey } ∧
      ∃ senderNow receiverNow,
        (LinkStep.run Primitives.sample "alice" "bob"
          ⟨SessionTable.empty.insert "bob" (Session.new Primitives.sample "bob" []),
            SessionTable.empty.insert "alice" { Session.new Primitives.sample "alice" [] with
              recvChainKey := (Session.new Primitives.sample "bob" []).sendChainKey }, []⟩
          [.sendAB "hi" ⟨List.replicate 12 0, List.length_replicate 12 0⟩]).2.tableA "bob" =
            some senderNow ∧
        (LinkStep.run Primitives.sample "alice" "bob"
          ⟨SessionTable.empty.insert "bob" (Session.new Primitives.sample "bob" []),
            SessionTable.empty.insert "alice" { Session.new Primitives.sample "alice" [] with
              recvChainKey := (Session.new Primitives.sample "bob" []).sendChainKey }, []⟩
          [.sendAB "hi" ⟨List.replicate 12 0, List.length_replicate 12 0⟩]).2.tableB "alice" =
            some receiverNow ∧
        ¬Matched senderNow receiverNow :=
  ⟨⟨rfl, rfl⟩, _, _, rfl, rfl, by decide⟩

end MeraBriar
