import MeraBriar.Crypto.Engine

/-!
# Message-key inputs over a run

Each successful `encrypt_message` hands `derive_message_key` the send chain key and
send counter of the session it cloned, and seals under the message key derived from
them (`encryptInput_sealed`). While no `init_session` reinstalls the peer's
session, these inputs walk the send chain one step per message, so their counters
are consecutive modulo `2^32` and no input repeats before the counter wraps.
`init_session` restarts the chain from the shared secret with the counter at zero,
so a second installation from an unchanged bundle replays the inputs of the first.
-/

set_option autoImplicit false

namespace MeraBriar

variable (P : Primitives)

/-- The send chain a call hands to `derive_message_key` when it is a successful
`encrypt_message` for `recipientId`. -/
def Call.encryptInput (recipientId : String) : Call → Engine → Option Chain
  | .encryptMessage target plaintext nonce, engine =>
      if target = recipientId ∧
          (MeraBriar.encryptMessage P target plaintext nonce engine.sessions).1.isOk = true then
        (engine.sessions target).map Session.sendChain
      else none
  | _, _ => none

/-- The inputs of the successful `encrypt_message` calls for `recipientId`, in order. -/
def encryptInputs (recipientId : String) : Engine → List Call → List Chain
  | _, [] => []
  | engine, call :: rest =>
      (call.encryptInput P recipientId engine).toList ++
        encryptInputs recipientId (call.exec P engine).2 rest

theorem encryptInput_eq_some {recipientId : String} {call : Call} {engine : Engine}
    {chain : Chain} (input : call.encryptInput P recipientId engine = some chain) :
    (engine.sessions recipientId).map Session.sendChain = some chain := by
  cases call with
  | encryptMessage target plaintext nonce =>
      simp only [Call.encryptInput] at input
      split at input
      · rename_i guard
        rwa [← guard.1]
      · cases input
  | _ => cases input

theorem encryptInput_sealed {recipientId : String} {call : Call} {engine : Engine}
    {chain : Chain} (input : call.encryptInput P recipientId engine = some chain) :
    ∃ plaintext nonce sealed, call = .encryptMessage recipientId plaintext nonce ∧
      P.aesGcmEncrypt (deriveMessageKey P chain.key chain.counter).1 nonce (P.asBytes plaintext) =
        some sealed ∧
      (call.exec P engine).1 = .ok (.ciphertext (nonce.bytes ++ sealed)) := by
  cases call with
  | encryptMessage target plaintext nonce =>
      simp only [Call.encryptInput] at input
      split at input
      · obtain ⟨rfl, succeeded⟩ := ‹target = recipientId ∧ _›
        rcases encryptMessage_cases P target plaintext nonce engine.sessions with
          ⟨-, failed⟩ | ⟨_, -, -, failed⟩ | ⟨session, sealed, found, sealedEq, done⟩
        · simp [failed, Except.isOk, Except.toBool] at succeeded
        · simp [failed, Except.isOk, Except.toBool] at succeeded
        · rw [found, Option.map_some', Option.some.injEq] at input
          subst input
          exact ⟨plaintext, nonce, sealed, rfl, sealedEq, by simp [Call.exec, done, Except.map]⟩
      · cases input
  | _ => cases input

theorem sendChain_exec {engine : Engine} (wellFormed : engine.sessions.WellFormed)
    (recipientId : String) (call : Call)
    (notReinit : ∀ recipientKeys, call = .initSession recipientId recipientKeys →
      (call.exec P engine).1 ≠ .ok .unit) :
    ((call.exec P engine).2.sessions recipientId).map Session.sendChain =
      match call.encryptInput P recipientId engine with
      | some chain => some (chain.next P)
      | none => (engine.sessions recipientId).map Session.sendChain := by
  by_cases named : call.peer = some recipientId
  · cases call with
    | generateIdentityKeys => cases named
    | getPublicKeyBundle => cases named
    | hasSession => rfl
    | initSession target recipientKeys =>
        cases named
        rcases initSession_cases P engine.identityKeys recipientId recipientKeys engine.sessions with
          failed | failed | ⟨_, _, -, -, installed⟩
        · simp [Call.exec, Call.encryptInput, Except.isOk, Except.toBool, failed]
        · simp [Call.exec, Call.encryptInput, Except.isOk, Except.toBool, failed]
        · exact (notReinit recipientKeys rfl (by simp [Call.exec, installed, Except.map])).elim
    | encryptMessage target plaintext nonce =>
        cases named
        rcases encryptMessage_cases P recipientId plaintext nonce engine.sessions with
          ⟨-, failed⟩ | ⟨_, -, -, failed⟩ | ⟨session, sealed, found, -, succeeded⟩
        · simp [Call.exec, Call.encryptInput, Except.isOk, Except.toBool, failed]
        · simp [Call.exec, Call.encryptInput, Except.isOk, Except.toBool, failed]
        · simp [Call.exec, Call.encryptInput, Except.isOk, Except.toBool, succeeded, found, updateSession,
            wellFormed _ _ found]
    | decryptMessage target ciphertext =>
        cases named
        rcases decryptMessage_cases P recipientId ciphertext engine.sessions with
          ⟨-, failed⟩ | ⟨-, -, failed⟩ | ⟨_, _, -, -, failed⟩ | ⟨-, session, _, found, -, opened⟩
        · simp [Call.exec, Call.encryptInput, Except.isOk, Except.toBool, failed]
        · simp [Call.exec, Call.encryptInput, Except.isOk, Except.toBool, failed]
        · simp [Call.exec, Call.encryptInput, Except.isOk, Except.toBool, failed]
        · simp [Call.exec, Call.encryptInput, Except.isOk, Except.toBool, opened, found, updateSession,
            wellFormed _ _ found]
  · have noInput : call.encryptInput P recipientId engine = none := by
      cases call <;> simp_all [Call.encryptInput, Call.peer]
    rw [exec_frame P wellFormed call named, noInput]

theorem notReinit_of_cons {engine : Engine} {recipientId : String} {call : Call}
    {rest : List Call}
    (noReinit : ∀ recipientKeys, (Call.initSession recipientId recipientKeys,
      Except.ok Output.unit) ∉ (call :: rest).zip (run P engine (call :: rest)).1) :
    (∀ recipientKeys, call = .initSession recipientId recipientKeys →
        (call.exec P engine).1 ≠ .ok .unit) ∧
      ∀ recipientKeys, (Call.initSession recipientId recipientKeys, Except.ok Output.unit) ∉
        rest.zip (run P (call.exec P engine).2 rest).1 := by
  rw [run_cons, List.zip_cons_cons] at noReinit
  refine ⟨?_, fun recipientKeys later => noReinit recipientKeys (List.mem_cons_of_mem _ later)⟩
  rintro recipientKeys rfl succeeded
  exact noReinit recipientKeys (succeeded ▸ List.mem_cons_self _ _)

section Walk

variable {P} {engine : Engine} (wellFormed : engine.sessions.WellFormed) {recipientId : String}
  {calls : List Call}
  (noReinit : ∀ recipientKeys, (Call.initSession recipientId recipientKeys,
    Except.ok Output.unit) ∉ calls.zip (run P engine calls).1)
include wellFormed noReinit

theorem encryptInputs_eq_iterate {chain : Chain}
    (start : (engine.sessions recipientId).map Session.sendChain = some chain) :
    ∃ steps, encryptInputs P recipientId engine calls =
      (List.range steps).map fun step => (Chain.next P)^[step] chain := by
  induction calls generalizing engine chain with
  | nil => exact ⟨0, rfl⟩
  | cons call rest inductionHypothesis =>
      obtain ⟨notReinit, noReinitLater⟩ := notReinit_of_cons P noReinit
      have stepped := sendChain_exec P wellFormed recipientId call notReinit
      have later := exec_wellFormed P wellFormed call
      cases input : call.encryptInput P recipientId engine with
      | none =>
          rw [input, start] at stepped
          simpa [encryptInputs, input] using inductionHypothesis later noReinitLater stepped
      | some used =>
          obtain rfl : used = chain :=
            Option.some.inj ((encryptInput_eq_some P input).symm.trans start)
          rw [input] at stepped
          obtain ⟨steps, restInputs⟩ := inductionHypothesis later noReinitLater stepped
          refine ⟨steps + 1, ?_⟩
          rw [encryptInputs, input, restInputs, List.range_succ_eq_map, List.map_cons, List.map_map]
          rfl

theorem encryptInputs_of_absent (absent : engine.sessions recipientId = none) :
    encryptInputs P recipientId engine calls = [] := by
  induction calls generalizing engine with
  | nil => rfl
  | cons call rest inductionHypothesis =>
      obtain ⟨notReinit, noReinitLater⟩ := notReinit_of_cons P noReinit
      have noInput : call.encryptInput P recipientId engine = none := by
        cases input : call.encryptInput P recipientId engine with
        | none => rfl
        | some chain => simpa [absent] using encryptInput_eq_some P input
      have stepped := sendChain_exec P wellFormed recipientId call notReinit
      rw [noInput, absent, Option.map_none', Option.map_eq_none'] at stepped
      rw [encryptInputs, noInput, Option.toList_none, List.nil_append]
      exact inductionHypothesis (exec_wellFormed P wellFormed call) noReinitLater stepped

end Walk

/-- Installing the session for `"bob"` twice from the same bundle replays the send
chain: the message after each installation is sealed under the key derived from the
same input, so the same text under the same nonce comes out as the same bytes. -/
theorem encryptInputs_reinstalled :
    let calls : List Call :=
      [.generateIdentityKeys (some [1]) ⟨List.replicate 32 1, List.length_replicate 32 1⟩,
        .initSession "bob" ⟨[2], List.replicate 32 2, [], none⟩,
        .encryptMessage "bob" "hi" ⟨List.replicate 12 0, List.length_replicate 12 0⟩,
        .initSession "bob" ⟨[2], List.replicate 32 2, [], none⟩,
        .encryptMessage "bob" "hi" ⟨List.replicate 12 0, List.length_replicate 12 0⟩]
    (∃ chain, encryptInputs Primitives.sample "bob" ⟨none, .empty⟩ calls = [chain, chain]) ∧
      ∃ bundle ciphertext, (run Primitives.sample ⟨none, .empty⟩ calls).1 =
        [.ok (.keyBundle bundle), .ok .unit, .ok (.ciphertext ciphertext), .ok .unit,
          .ok (.ciphertext ciphertext)] :=
  ⟨⟨_, rfl⟩, _, _, rfl⟩

end MeraBriar
