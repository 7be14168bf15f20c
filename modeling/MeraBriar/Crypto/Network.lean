import MeraBriar.Crypto.Ratchet

/-!
# Two parties over an unreliable network

The network between A and B may drop, duplicate and reorder A's ciphertexts: a
`Network` keeps every ciphertext A has produced for B, and `deliverAB index` hands B
any one of them, any number of times, in any order, or never. Both parties may also act
in the other direction, as in `Ratchet`.

`decrypt_message` always decrypts under the next key of the receive chain and keeps no
keys for skipped messages. Under idealised HKDF and AES-GCM (`CounterSeparated`), B
therefore accepts a ciphertext exactly when it is the next one in A's order: the
plaintexts B returns are a prefix of those A sent, replays and early deliveries are
rejected without effect, and a ciphertext that is never delivered blocks every later
one. This holds while A has produced fewer than `2^32` ciphertexts; after that the
counters repeat.
-/

set_option autoImplicit false

namespace MeraBriar

variable (P : Primitives)

/-- The two session tables, every ciphertext A has produced for B with its plaintext,
oldest first, and the plaintexts B's `decrypt_message` has returned, in order. -/
structure Network where
  tableA : SessionTable
  tableB : SessionTable
  sent : List (String × Bytes)
  accepted : List String

/-- One step of either party. -/
inductive NetworkStep where
  /-- A: `encrypt_message(idB, plaintext)`; the ciphertext goes onto the network. -/
  | sendAB (plaintext : String) (nonce : FixedBytes 12)
  /-- B: `decrypt_message(idA, c)` on the network's ciphertext `index`, if there is one. -/
  | deliverAB (index : Nat)
  /-- B: `encrypt_message(idA, plaintext)`. -/
  | sendBA (plaintext : String) (nonce : FixedBytes 12)
  /-- A: `decrypt_message(idB, ciphertext)` on any bytes. -/
  | receiveBA (ciphertext : Bytes)
  /-- B: `derive_send_key` on its session for A, written back. -/
  | deriveSendB
  /-- A: `derive_recv_key` on its session for B, written back. -/
  | deriveRecvA
  deriving DecidableEq

/-- Run one step on the network between `idA` and `idB`. -/
def NetworkStep.apply (idA idB : String) : NetworkStep → Network → Network
  | .sendAB plaintext nonce, network =>
      let (result, tableA) := encryptMessage P idB plaintext nonce network.tableA
      { network with
        tableA
        sent := match result with
          | .ok ciphertext => network.sent ++ [(plaintext, ciphertext)]
          | .error _ => network.sent }
  | .deliverAB index, network =>
      match network.sent[index]? with
      | none => network
      | some (_, ciphertext) =>
          let (result, tableB) := decryptMessage P idA ciphertext network.tableB
          { network with
            tableB
            accepted := match result with
              | .ok plaintext => network.accepted ++ [plaintext]
              | .error _ => network.accepted }
  | .sendBA plaintext nonce, network =>
      { network with tableB := (encryptMessage P idA plaintext nonce network.tableB).2 }
  | .receiveBA ciphertext, network =>
      { network with tableA := (decryptMessage P idB ciphertext network.tableA).2 }
  | .deriveSendB, network =>
      { network with tableB := advanceStored network.tableB idA fun session =>
        (session.deriveSendKey P).2 }
  | .deriveRecvA, network =>
      { network with tableA := advanceStored network.tableA idB fun session =>
        (session.deriveRecvKey P).2 }

def NetworkStep.run (idA idB : String) : Network → List NetworkStep → Network
  | network, [] => network
  | network, step :: rest => NetworkStep.run idA idB (step.apply P idA idB network) rest

variable {P} {idA idB : String}

theorem NetworkStep.sent_prefix_apply (step : NetworkStep) (network : Network) :
    network.sent <+: (step.apply P idA idB network).sent := by
  cases step with
  | sendAB plaintext nonce =>
      simp only [NetworkStep.apply]
      split
      · exact List.prefix_append _ _
      · exact List.prefix_refl _
  | deliverAB index =>
      simp only [NetworkStep.apply]
      split <;> exact List.prefix_refl _
  | _ => exact List.prefix_refl _

theorem NetworkStep.sent_prefix_run (network : Network) (steps : List NetworkStep) :
    network.sent <+: (NetworkStep.run P idA idB network steps).sent := by
  induction steps generalizing network with
  | nil => exact List.prefix_refl _
  | cons step rest inductionHypothesis =>
      exact (step.sent_prefix_apply network).trans (inductionHypothesis _)

/-! ## Sessions stored for their own ids -/

/-- The session stored under `id` is for `id`, and `pick` of it is `chain`. -/
def StoredAt (table : SessionTable) (id : String) (pick : Session → Chain) (chain : Chain) :
    Prop :=
  ∃ session, table id = some session ∧ session.recipientId = id ∧ pick session = chain

section StoredAt

variable {table : SessionTable} {id : String} {pick : Session → Chain} {chain : Chain}
  {found : Session}

theorem StoredAt.pick_eq (stored : StoredAt table id pick chain) (atId : table id = some found) :
    pick found = chain := by
  obtain ⟨session, storedAt, -, picked⟩ := stored
  rw [storedAt, Option.some.injEq] at atId
  exact atId ▸ picked

theorem StoredAt.update (stored : StoredAt table id pick chain) (atId : table id = some found)
    (advanced : Session) (sameId : advanced.recipientId = found.recipientId) :
    StoredAt (updateSession table advanced) id pick (pick advanced) := by
  obtain ⟨session, storedAt, named, -⟩ := stored
  rw [storedAt, Option.some.injEq] at atId
  subst atId
  exact ⟨advanced, updateSession_self named sameId, sameId.trans named, rfl⟩

theorem StoredAt.keep (stored : StoredAt table id pick chain) (atId : table id = some found)
    (advanced : Session) (sameId : advanced.recipientId = found.recipientId)
    (samePick : pick advanced = pick found) :
    StoredAt (updateSession table advanced) id pick chain :=
  (samePick.trans (stored.pick_eq atId)) ▸ stored.update atId advanced sameId

theorem StoredAt.advanceStored (stored : StoredAt table id pick chain)
    {advance : Session → Session}
    (sameId : ∀ session, (advance session).recipientId = session.recipientId)
    (samePick : ∀ session, pick (advance session) = pick session) :
    StoredAt (MeraBriar.advanceStored table id advance) id pick chain := by
  obtain ⟨session, storedAt, named, picked⟩ := stored
  rw [MeraBriar.advanceStored, storedAt]
  exact StoredAt.keep ⟨session, storedAt, named, picked⟩ storedAt _ (sameId session)
    (samePick session)

end StoredAt

/-! ## The channel invariant -/

variable (P) in
/-- A's ciphertext: its nonce, then the AEAD output of its plaintext under the message key
at `chain`. -/
def SealedAt (chain : Chain) (message : String × Bytes) : Prop :=
  ∃ (nonce : FixedBytes 12) (sealed : Bytes), message.2 = nonce.bytes ++ sealed ∧
    P.aesGcmEncrypt (chain.messageKey P) nonce (P.asBytes message.1) = some sealed

variable (P) in
/-- The channel from A to B, counted from `origin`, the point of A's send chain at which
the first ciphertext on the network was sealed: A's send chain is past every ciphertext,
B's receive chain is past the ones it accepted, B accepted A's plaintexts in A's order,
and the ciphertext at position `index` was sealed `index` steps after `origin`. -/
structure Network.Tracks (idA idB : String) (origin : Chain) (network : Network) : Prop where
  sender : StoredAt network.tableA idB Session.sendChain
    ((Chain.next P)^[network.sent.length] origin)
  receiver : StoredAt network.tableB idA Session.recvChain
    ((Chain.next P)^[network.accepted.length] origin)
  inOrder : network.accepted <+: network.sent.map Prod.fst
  sealed : ∀ index (inRange : index < network.sent.length),
    SealedAt P ((Chain.next P)^[index] origin) network.sent[index]

variable {origin : Chain} {network : Network}

theorem Network.Tracks.withTableA (tracks : network.Tracks P idA idB origin)
    {tableA : SessionTable}
    (sender : StoredAt tableA idB Session.sendChain ((Chain.next P)^[network.sent.length] origin)) :
    ({ network with tableA } : Network).Tracks P idA idB origin :=
  ⟨sender, tracks.receiver, tracks.inOrder, tracks.sealed⟩

theorem Network.Tracks.withTableB (tracks : network.Tracks P idA idB origin)
    {tableB : SessionTable}
    (receiver : StoredAt tableB idA Session.recvChain
      ((Chain.next P)^[network.accepted.length] origin)) :
    ({ network with tableB } : Network).Tracks P idA idB origin :=
  ⟨tracks.sender, receiver, tracks.inOrder, tracks.sealed⟩

theorem Chain.counter_iterate_ne (origin : Chain) {first second : Nat} (distinct : first ≠ second)
    (firstBound : first < 2 ^ 32) (secondBound : second < 2 ^ 32) :
    ((Chain.next P)^[first] origin).counter ≠ ((Chain.next P)^[second] origin).counter := by
  intro same
  have counters := congrArg UInt32.toNat same
  rw [Chain.counter_iterate_next, Chain.counter_iterate_next] at counters
  have := origin.counter.toNat_lt
  omega

theorem prefix_append_of_getElem? {α : Type} {accepted sent : List α} {next : α}
    (isPrefix : accepted <+: sent) (following : sent[accepted.length]? = some next) :
    accepted ++ [next] <+: sent := by
  obtain ⟨rest, rfl⟩ := isPrefix
  cases rest with
  | nil => simp at following
  | cons head rest =>
      simp only [List.getElem?_append_right (le_refl _), Nat.sub_self, List.getElem?_cons_zero,
        Option.some.injEq] at following
      exact ⟨rest, by simp [following]⟩

theorem StoredAt.encryptMessage {table : SessionTable} {id : String} {chain : Chain}
    (stored : StoredAt table id Session.recvChain chain) (plaintext : String)
    (nonce : FixedBytes 12) :
    StoredAt (MeraBriar.encryptMessage P id plaintext nonce table).2 id Session.recvChain chain := by
  rcases encryptMessage_cases P id plaintext nonce table with
    ⟨-, failed⟩ | ⟨_, -, -, failed⟩ | ⟨session, _, found, -, succeeded⟩
  · exact failed ▸ stored
  · exact failed ▸ stored
  · rw [succeeded]
    exact stored.keep found _ rfl (Session.recvChain_deriveSendKey P session)

theorem StoredAt.decryptMessage {table : SessionTable} {id : String} {chain : Chain}
    (stored : StoredAt table id Session.sendChain chain) (ciphertext : Bytes) :
    StoredAt (MeraBriar.decryptMessage P id ciphertext table).2 id Session.sendChain chain := by
  rcases decryptMessage_cases P id ciphertext table with
    ⟨-, failed⟩ | ⟨-, -, failed⟩ | ⟨_, _, -, -, failed⟩ | ⟨_, session, _, found, -, opened⟩
  · exact failed ▸ stored
  · exact failed ▸ stored
  · exact failed ▸ stored
  · rw [opened]
    exact stored.keep found _ rfl (Session.sendChain_deriveRecvKey P session)

theorem Network.Tracks.sendAB (tracks : network.Tracks P idA idB origin) (plaintext : String)
    (nonce : FixedBytes 12) :
    ((NetworkStep.sendAB plaintext nonce).apply P idA idB network).Tracks P idA idB origin := by
  rcases encryptMessage_cases P idB plaintext nonce network.tableA with
    ⟨-, failed⟩ | ⟨_, -, -, failed⟩ | ⟨session, sealed, found, sealedEq, succeeded⟩
  · simp only [NetworkStep.apply, failed]
    exact tracks
  · simp only [NetworkStep.apply, failed]
    exact tracks
  · have atChain := tracks.sender.pick_eq found
    simp only [NetworkStep.apply, succeeded]
    refine ⟨?_, tracks.receiver, ?_, fun index inRange => ?_⟩
    · simpa [atChain, Function.iterate_succ_apply'] using
        tracks.sender.update found (session.deriveSendKey P).2 rfl
    · simpa using tracks.inOrder.trans (List.prefix_append _ _)
    · rw [List.length_append, List.length_singleton] at inRange
      rcases Nat.lt_succ_iff_lt_or_eq.1 inRange with old | new
      · rw [List.getElem_append_left old]
        exact tracks.sealed index old
      · subst new
        simp only [List.getElem_append_right (le_refl _), Nat.sub_self, List.getElem_singleton]
        exact ⟨nonce, sealed, rfl, by simpa [atChain] using sealedEq⟩

theorem Network.tracks_start {tableA tableB : SessionTable} {sender receiver : Session}
    (senderStored : tableA idB = some sender) (senderNamed : sender.recipientId = idB)
    (receiverStored : tableB idA = some receiver) (receiverNamed : receiver.recipientId = idA)
    (matched : Matched sender receiver) :
    (⟨tableA, tableB, [], []⟩ : Network).Tracks P idA idB sender.sendChain :=
  ⟨⟨sender, senderStored, senderNamed, rfl⟩,
    ⟨receiver, receiverStored, receiverNamed, (matched_iff.1 matched).symm⟩,
    List.nil_prefix, fun _ inRange => absurd inRange (Nat.not_lt_zero _)⟩

section Laws

variable (correct : P.AeadCorrect) (tagged : P.AeadTagged) (roundTrip : P.Utf8RoundTrip)
  (separated : P.CounterSeparated)
include correct tagged roundTrip separated

theorem Network.Tracks.decryptMessage_sent (tracks : network.Tracks P idA idB origin)
    (bounded : network.sent.length < 2 ^ 32) {index : Nat}
    (inRange : index < network.sent.length) :
    (index = network.accepted.length ∧ ∃ receiver, network.tableB idA = some receiver ∧
      decryptMessage P idA network.sent[index].2 network.tableB =
        (.ok network.sent[index].1, updateSession network.tableB (receiver.deriveRecvKey P).2)) ∨
      (index ≠ network.accepted.length ∧
        decryptMessage P idA network.sent[index].2 network.tableB =
          (.error .decryptionFailed, network.tableB)) := by
  obtain ⟨nonce, sealed, cipherEq, sealedEq⟩ := tracks.sealed index inRange
  obtain ⟨receiver, found, -, atChain⟩ := tracks.receiver
  rw [cipherEq]
  by_cases next : index = network.accepted.length
  · have atIndex : receiver.recvChain = (Chain.next P)^[index] origin := by rw [atChain, next]
    rw [← atIndex] at sealedEq
    exact .inl ⟨next, receiver, found, decryptMessage_sealed P correct tagged roundTrip found sealedEq⟩
  · have acceptedBound := tracks.inOrder.length_le
    rw [List.length_map] at acceptedBound
    have elsewhere : ((Chain.next P)^[index] origin).counter ≠ receiver.recvChain.counter := by
      rw [atChain]
      exact Chain.counter_iterate_ne origin next (by omega) (by omega)
    exact .inr ⟨next, decryptMessage_of_counter_ne P tagged separated found sealedEq elsewhere⟩

theorem Network.Tracks.deliverAB_apply (tracks : network.Tracks P idA idB origin)
    (bounded : network.sent.length < 2 ^ 32) {index : Nat}
    (inRange : index < network.sent.length) :
    (index = network.accepted.length ∧ ∃ receiver, network.tableB idA = some receiver ∧
      (NetworkStep.deliverAB index).apply P idA idB network =
        { network with
          tableB := updateSession network.tableB (receiver.deriveRecvKey P).2
          accepted := network.accepted ++ [network.sent[index].1] }) ∨
      (index ≠ network.accepted.length ∧
        (NetworkStep.deliverAB index).apply P idA idB network = network) := by
  have delivered : network.sent[index]? = some (network.sent[index].1, network.sent[index].2) :=
    List.getElem?_eq_getElem inRange
  rcases tracks.decryptMessage_sent correct tagged roundTrip separated bounded inRange with
    ⟨next, receiver, found, opened⟩ | ⟨next, rejected⟩
  · exact .inl ⟨next, receiver, found, by simp only [NetworkStep.apply, delivered, opened]⟩
  · exact .inr ⟨next, by simp only [NetworkStep.apply, delivered, rejected]⟩

theorem Network.Tracks.apply (tracks : network.Tracks P idA idB origin) (step : NetworkStep)
    (bounded : (step.apply P idA idB network).sent.length < 2 ^ 32) :
    (step.apply P idA idB network).Tracks P idA idB origin := by
  cases step with
  | sendAB plaintext nonce => exact tracks.sendAB plaintext nonce
  | deliverAB index =>
      by_cases inRange : index < network.sent.length
      · have stillBounded : network.sent.length < 2 ^ 32 :=
          (NetworkStep.sent_prefix_apply (.deliverAB index) network).length_le.trans_lt bounded
        rcases tracks.deliverAB_apply correct tagged roundTrip separated stillBounded inRange with
          ⟨next, receiver, found, delivered⟩ | ⟨-, unchanged⟩
        · subst next
          rw [delivered]
          refine ⟨tracks.sender, ?_,
            prefix_append_of_getElem? tracks.inOrder (by simp [inRange]), tracks.sealed⟩
          simpa [tracks.receiver.pick_eq found, Function.iterate_succ_apply'] using
            tracks.receiver.update found (receiver.deriveRecvKey P).2 rfl
        · rw [unchanged]
          exact tracks
      · have missing : network.sent[index]? = none := List.getElem?_eq_none (by omega)
        simp only [NetworkStep.apply, missing]
        exact tracks
  | sendBA plaintext nonce => exact tracks.withTableB (tracks.receiver.encryptMessage plaintext nonce)
  | receiveBA ciphertext => exact tracks.withTableA (tracks.sender.decryptMessage ciphertext)
  | deriveSendB =>
      exact tracks.withTableB
        (tracks.receiver.advanceStored (fun _ => rfl) (Session.recvChain_deriveSendKey P))
  | deriveRecvA =>
      exact tracks.withTableA
        (tracks.sender.advanceStored (fun _ => rfl) (Session.sendChain_deriveRecvKey P))

theorem Network.Tracks.run (tracks : network.Tracks P idA idB origin) (steps : List NetworkStep)
    (bounded : (NetworkStep.run P idA idB network steps).sent.length < 2 ^ 32) :
    (NetworkStep.run P idA idB network steps).Tracks P idA idB origin := by
  induction steps generalizing network with
  | nil => exact tracks
  | cons step rest inductionHypothesis =>
      have stepBounded := (NetworkStep.sent_prefix_run (step.apply P idA idB network)
        rest).length_le.trans_lt bounded
      exact inductionHypothesis (tracks.apply correct tagged roundTrip separated step stepBounded)
        bounded

theorem Network.Tracks.accepted_apply (tracks : network.Tracks P idA idB origin)
    (bounded : network.sent.length < 2 ^ 32) {step : NetworkStep}
    (notNext : step ≠ .deliverAB network.accepted.length) :
    (step.apply P idA idB network).accepted = network.accepted := by
  cases step with
  | deliverAB index =>
      by_cases inRange : index < network.sent.length
      · rcases tracks.deliverAB_apply correct tagged roundTrip separated bounded inRange with
          ⟨next, -⟩ | ⟨-, unchanged⟩
        · exact absurd (congrArg NetworkStep.deliverAB next) notNext
        · rw [unchanged]
      · simp only [NetworkStep.apply, List.getElem?_eq_none (Nat.le_of_not_lt inRange)]
  | _ => rfl

theorem Network.Tracks.accepted_run_of_lost (tracks : network.Tracks P idA idB origin)
    {later : List NetworkStep} (lost : NetworkStep.deliverAB network.accepted.length ∉ later)
    (bounded : (NetworkStep.run P idA idB network later).sent.length < 2 ^ 32) :
    (NetworkStep.run P idA idB network later).accepted = network.accepted := by
  induction later generalizing network with
  | nil => rfl
  | cons step rest inductionHypothesis =>
      have stepBounded := (NetworkStep.sent_prefix_run (step.apply P idA idB network)
        rest).length_le.trans_lt bounded
      have kept := tracks.accepted_apply correct tagged roundTrip separated
        ((step.sent_prefix_apply network).length_le.trans_lt stepBounded)
        (fun same => lost (same ▸ List.mem_cons_self _ _))
      have stillLost : NetworkStep.deliverAB (step.apply P idA idB network).accepted.length ∉ rest := by
        rw [kept]
        exact fun member => lost (List.mem_cons_of_mem _ member)
      rw [NetworkStep.run, inductionHypothesis
        (tracks.apply correct tagged roundTrip separated step stepBounded) stillLost bounded, kept]

section Start

variable {tableA tableB : SessionTable} {sender receiver : Session}
  (senderStored : tableA idB = some sender) (senderNamed : sender.recipientId = idB)
  (receiverStored : tableB idA = some receiver) (receiverNamed : receiver.recipientId = idA)
  (matched : Matched sender receiver)
include senderStored senderNamed receiverStored receiverNamed matched

/-- Over any run in which the network drops, duplicates and reorders A's ciphertexts and
both parties also act in the other direction, the plaintexts B accepts from A are, in
order, a prefix of those A sent, while A has produced fewer than `2^32` ciphertexts. -/
theorem network_accepts_in_order (steps : List NetworkStep)
    (bounded : (NetworkStep.run P idA idB ⟨tableA, tableB, [], []⟩ steps).sent.length < 2 ^ 32) :
    (NetworkStep.run P idA idB ⟨tableA, tableB, [], []⟩ steps).accepted <+:
      (NetworkStep.run P idA idB ⟨tableA, tableB, [], []⟩ steps).sent.map Prod.fst :=
  ((Network.tracks_start senderStored senderNamed receiverStored receiverNamed matched).run
    correct tagged roundTrip separated steps bounded).inOrder

/-- In every state the network reaches, B's `decrypt_message` accepts a ciphertext from A
exactly when it is the next one in A's order, and then returns its plaintext; a replay,
or a ciphertext past one not yet delivered, fails with "Decryption failed" and its
delivery changes nothing. -/
theorem network_delivers_next_only (steps : List NetworkStep) {network : Network}
    (reached : NetworkStep.run P idA idB ⟨tableA, tableB, [], []⟩ steps = network)
    (bounded : network.sent.length < 2 ^ 32) {index : Nat} (inRange : index < network.sent.length) :
    (index = network.accepted.length ∧ ∃ receiver, network.tableB idA = some receiver ∧
        decryptMessage P idA network.sent[index].2 network.tableB =
          (.ok network.sent[index].1, updateSession network.tableB (receiver.deriveRecvKey P).2)) ∨
      (index ≠ network.accepted.length ∧
        decryptMessage P idA network.sent[index].2 network.tableB =
          (.error .decryptionFailed, network.tableB) ∧
        (NetworkStep.deliverAB index).apply P idA idB network = network) := by
  subst reached
  have tracks := (Network.tracks_start senderStored senderNamed receiverStored receiverNamed
    matched).run correct tagged roundTrip separated steps bounded
  rcases tracks.decryptMessage_sent correct tagged roundTrip separated bounded inRange with
    opened | ⟨next, rejected⟩
  · exact .inl opened
  · exact .inr ⟨next, rejected, ((tracks.deliverAB_apply correct tagged roundTrip separated bounded
      inRange).resolve_left fun delivered => next delivered.1).2⟩

/-- A ciphertext that is never delivered blocks every later one: from any state the
network reaches, if B is never handed the next ciphertext, it accepts nothing more,
whatever A sends and whichever other ciphertexts arrive. -/
theorem network_lost_blocks (steps : List NetworkStep) {network : Network}
    (reached : NetworkStep.run P idA idB ⟨tableA, tableB, [], []⟩ steps = network)
    {later : List NetworkStep} (lost : NetworkStep.deliverAB network.accepted.length ∉ later)
    (bounded : (NetworkStep.run P idA idB network later).sent.length < 2 ^ 32) :
    (NetworkStep.run P idA idB network later).accepted = network.accepted := by
  have reachedBounded : network.sent.length < 2 ^ 32 :=
    (NetworkStep.sent_prefix_run network later).length_le.trans_lt bounded
  subst reached
  exact ((Network.tracks_start senderStored senderNamed receiverStored receiverNamed
    matched).run correct tagged roundTrip separated steps reachedBounded).accepted_run_of_lost
      correct tagged roundTrip separated lost bounded

end Start

end Laws

def Network.sampleStart : Network :=
  ⟨SessionTable.empty.insert "bob" (Session.new Primitives.sampleWide "bob" []),
    SessionTable.empty.insert "alice" { Session.new Primitives.sampleWide "alice" [] with
      recvChainKey := (Session.new Primitives.sampleWide "bob" []).sendChainKey }, [], []⟩

theorem network_accepts_in_order_sample :
    (NetworkStep.run Primitives.sampleWide "alice" "bob" Network.sampleStart
        [.sendAB "hi" ⟨List.replicate 12 0, List.length_replicate 12 0⟩,
          .sendAB "yo" ⟨List.replicate 12 1, List.length_replicate 12 1⟩,
          .deliverAB 1, .deliverAB 0, .deliverAB 0, .deliverAB 1]).accepted <+:
      (NetworkStep.run Primitives.sampleWide "alice" "bob" Network.sampleStart
        [.sendAB "hi" ⟨List.replicate 12 0, List.length_replicate 12 0⟩,
          .sendAB "yo" ⟨List.replicate 12 1, List.length_replicate 12 1⟩,
          .deliverAB 1, .deliverAB 0, .deliverAB 0, .deliverAB 1]).sent.map Prod.fst :=
  network_accepts_in_order Primitives.sampleWide_lawful.aead_correct
    Primitives.sampleWide_lawful.aead_tagged Primitives.sampleWide_lawful.utf8_roundTrip
    Primitives.sampleWide_separated
    (SessionTable.insert_self SessionTable.empty "bob" (Session.new Primitives.sampleWide "bob" []))
    rfl (SessionTable.insert_self SessionTable.empty "alice"
      { Session.new Primitives.sampleWide "alice" [] with
        recvChainKey := (Session.new Primitives.sampleWide "bob" []).sendChainKey })
    rfl ⟨rfl, rfl⟩ _ (by decide)

def Network.sampleReached : Network :=
  NetworkStep.run Primitives.sampleWide "alice" "bob" Network.sampleStart
    [.sendAB "hi" ⟨List.replicate 12 0, List.length_replicate 12 0⟩,
      .sendAB "yo" ⟨List.replicate 12 1, List.length_replicate 12 1⟩, .deliverAB 1]

theorem network_delivers_next_only_sample :
    ∃ inRange : 0 < Network.sampleReached.sent.length,
      (0 = Network.sampleReached.accepted.length ∧ ∃ receiver,
          Network.sampleReached.tableB "alice" = some receiver ∧
          decryptMessage Primitives.sampleWide "alice" Network.sampleReached.sent[0].2
            Network.sampleReached.tableB =
            (.ok Network.sampleReached.sent[0].1, updateSession Network.sampleReached.tableB
              (receiver.deriveRecvKey Primitives.sampleWide).2)) ∨
        (0 ≠ Network.sampleReached.accepted.length ∧
          decryptMessage Primitives.sampleWide "alice" Network.sampleReached.sent[0].2
            Network.sampleReached.tableB = (.error .decryptionFailed, Network.sampleReached.tableB) ∧
          (NetworkStep.deliverAB 0).apply Primitives.sampleWide "alice" "bob"
            Network.sampleReached = Network.sampleReached) :=
  ⟨by decide, network_delivers_next_only Primitives.sampleWide_lawful.aead_correct
    Primitives.sampleWide_lawful.aead_tagged Primitives.sampleWide_lawful.utf8_roundTrip
    Primitives.sampleWide_separated
    (SessionTable.insert_self SessionTable.empty "bob" (Session.new Primitives.sampleWide "bob" []))
    rfl (SessionTable.insert_self SessionTable.empty "alice"
      { Session.new Primitives.sampleWide "alice" [] with
        recvChainKey := (Session.new Primitives.sampleWide "bob" []).sendChainKey })
    rfl ⟨rfl, rfl⟩ _ rfl (by decide) (by decide)⟩

theorem network_lost_blocks_sample :
    (NetworkStep.run Primitives.sampleWide "alice" "bob" Network.sampleReached
        [.sendAB "ok" ⟨List.replicate 12 2, List.length_replicate 12 2⟩,
          .deliverAB 1, .deliverAB 2, .deliverAB 1]).accepted =
      Network.sampleReached.accepted :=
  network_lost_blocks Primitives.sampleWide_lawful.aead_correct
    Primitives.sampleWide_lawful.aead_tagged Primitives.sampleWide_lawful.utf8_roundTrip
    Primitives.sampleWide_separated
    (SessionTable.insert_self SessionTable.empty "bob" (Session.new Primitives.sampleWide "bob" []))
    rfl (SessionTable.insert_self SessionTable.empty "alice"
      { Session.new Primitives.sampleWide "alice" [] with
        recvChainKey := (Session.new Primitives.sampleWide "bob" []).sendChainKey })
    rfl ⟨rfl, rfl⟩ _ rfl (by decide) (by decide)

end MeraBriar
