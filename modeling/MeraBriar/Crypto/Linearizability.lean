import MeraBriar.Crypto.Concurrency

/-!
# Linearizability when locked sections on a peer do not overlap

The race of two calls on one peer needs both to sit between their locked steps at
once. A thread is allowed a step when no other thread is between its locked steps
on the peer it names (`Concurrent.Exclusive`). Along any schedule of allowed steps,
every finished call's result and the engine are those of the finished calls run
one after the other, in the order they finished.

The proof is a simulation. A thread between its locked steps only relies on the
stored session of its peer (`Thread.Pending`), which no allowed step of another
thread touches; each step that finishes a call does to the engine exactly what
`Call.exec` does.
-/

set_option autoImplicit false

namespace MeraBriar

variable (P : Primitives)

def Call.cloneTarget : Call → Option String
  | .encryptMessage recipientId _ _ => some recipientId
  | .decryptMessage senderId _ => some senderId
  | _ => none

def Phase.inFlight : Phase → Bool
  | .cloned _ => true
  | .derived _ _ => true
  | _ => false

def Thread.completion (thread : Thread) : Option (Call × Except CryptoError Output) :=
  match thread.phase with
  | .done result => some (thread.call, result)
  | _ => none

def Thread.Pending (engine : Engine) (thread : Thread) : Prop :=
  match thread.phase with
  | .cloned session =>
      ∃ peer, thread.call.cloneTarget = some peer ∧ engine.sessions peer = some session
  | .derived advanced result =>
      ∃ peer session, thread.call.cloneTarget = some peer ∧ engine.sessions peer = some session ∧
        thread.call.finish P session = (result, some advanced)
  | _ => True

def Thread.Blocks (other mine : Thread) : Prop :=
  other.phase.inFlight = true ∧ other.call.peer = mine.call.peer

instance (other mine : Thread) : Decidable (other.Blocks mine) :=
  inferInstanceAs (Decidable (other.phase.inFlight = true ∧ other.call.peer = mine.call.peer))

namespace Concurrent

def completed (state : Concurrent) : List (Call × Except CryptoError Output) :=
  state.threads.filterMap Thread.completion

/-- Thread `index` may step: no other thread is between its locked steps on its peer. -/
def Exclusive (state : Concurrent) (index : Nat) : Prop :=
  ∀ other < state.threads.length, other ≠ index →
    ∀ thread ∈ state.threads[other]?, ∀ mine ∈ state.threads[index]?, ¬thread.Blocks mine

instance (state : Concurrent) (index : Nat) : Decidable (state.Exclusive index) :=
  inferInstanceAs (Decidable (∀ other < state.threads.length, other ≠ index →
    ∀ thread ∈ state.threads[other]?, ∀ mine ∈ state.threads[index]?, ¬thread.Blocks mine))

/-- Every step of the schedule is allowed when it is taken. -/
def Disciplined : Concurrent → List Nat → Prop
  | _, [] => True
  | state, index :: rest => state.Exclusive index ∧ Disciplined (state.step P index) rest

instance decidableDisciplined : (state : Concurrent) → (schedule : List Nat) →
    Decidable (state.Disciplined P schedule)
  | _, [] => inferInstanceAs (Decidable True)
  | state, index :: rest =>
      have := decidableDisciplined (state.step P index) rest
      inferInstanceAs (Decidable (state.Exclusive index ∧ (state.step P index).Disciplined P rest))

/-- The simulation invariant: every pending thread's clone is still current, and the
engine is the finished calls run one after the other in some order. -/
def Linearized (start : Engine) (state : Concurrent) : Prop :=
  (∀ (index : Nat) (thread : Thread), state.threads[index]? = some thread →
      thread.Pending P state.engine) ∧
    ∃ order : List (Call × Except CryptoError Output), order.Perm state.completed ∧
      MeraBriar.run P start (order.map Prod.fst) = (order.map Prod.snd, state.engine)

end Concurrent

theorem peer_of_cloneTarget {call : Call} {peer : String} (target : call.cloneTarget = some peer) :
    call.peer = some peer := by
  cases call <;> simp only [Call.cloneTarget, Call.peer] at target ⊢ <;>
    first | exact target | cases target

theorem exec_eq_finish {call : Call} {engine : Engine} {peer : String} {session : Session}
    (target : call.cloneTarget = some peer) (found : engine.sessions peer = some session) :
    call.exec P engine = ((call.finish P session).1,
      match (call.finish P session).2 with
      | none => engine
      | some advanced => { engine with sessions := updateSession engine.sessions advanced }) := by
  cases call with
  | encryptMessage recipientId plaintext nonce =>
      cases target
      rcases encryptMessage_cases P peer plaintext nonce engine.sessions with
        ⟨missing, -⟩ | ⟨stored, storedFound, sealedNone, failed⟩ |
          ⟨stored, sealed, storedFound, sealedEq, succeeded⟩
      · rw [found] at missing
        cases missing
      · rw [found, Option.some.injEq] at storedFound
        subst storedFound
        simp [Call.exec, Call.finish, failed, sealedNone, Except.map]
      · rw [found, Option.some.injEq] at storedFound
        subst storedFound
        simp [Call.exec, Call.finish, succeeded, sealedEq, Except.map]
  | decryptMessage senderId ciphertext =>
      cases target
      rcases decryptMessage_cases P peer ciphertext engine.sessions with
        ⟨short, failed⟩ | ⟨-, missing, -⟩ | ⟨long, stored, storedFound, openedNone, failed⟩ |
          ⟨long, stored, plaintext, storedFound, opened, succeeded⟩
      · simp [Call.exec, Call.finish, failed, short, Except.map]
      · rw [found] at missing
        cases missing
      · rw [found, Option.some.injEq] at storedFound
        subst storedFound
        simp [Call.exec, Call.finish, failed, long, openedNone, Except.map]
      · rw [found, Option.some.injEq] at storedFound
        subst storedFound
        simp [Call.exec, Call.finish, succeeded, long, opened]
  | _ => cases target

theorem stepAt_cases {thread : Thread} {engine : Engine} (pending : thread.Pending P engine) :
    (∃ result, (thread.call.stepAt P thread.phase engine).1 = .done result ∧
        thread.completion = none ∧
        thread.call.exec P engine = (result, (thread.call.stepAt P thread.phase engine).2)) ∨
      ((thread.call.stepAt P thread.phase engine).2 = engine ∧ thread.completion = none ∧
        Thread.completion ⟨thread.call, (thread.call.stepAt P thread.phase engine).1⟩ = none ∧
        Thread.Pending P engine ⟨thread.call, (thread.call.stepAt P thread.phase engine).1⟩) ∨
      thread.call.stepAt P thread.phase engine = (thread.phase, engine) := by
  obtain ⟨call, phase⟩ := thread
  cases phase with
  | start =>
      cases call with
      | encryptMessage recipientId plaintext nonce =>
          cases found : engine.sessions recipientId with
          | none =>
              refine .inl ⟨.error (.noSession recipientId), ?_, rfl, ?_⟩ <;>
                simp [Call.stepAt, Call.exec, encryptMessage, getSessionMut, found, Except.map]
          | some session =>
              refine .inr (.inl ⟨?_, rfl, ?_, ?_⟩) <;>
                simp [Call.stepAt, getSessionMut, found, Thread.Pending, Thread.completion,
                  Call.cloneTarget]
      | decryptMessage senderId ciphertext =>
          by_cases short : ciphertext.length < 12 + 16
          · refine .inl ⟨.error .ciphertextTooShort, ?_, rfl, ?_⟩ <;>
              simp [Call.stepAt, Call.exec, decryptMessage, short, Except.map]
          · cases found : engine.sessions senderId with
            | none =>
                refine .inl ⟨.error (.noSession senderId), ?_, rfl, ?_⟩ <;>
                  simp [Call.stepAt, Call.exec, decryptMessage, getSessionMut, short, found,
                    Except.map]
            | some session =>
                refine .inr (.inl ⟨?_, rfl, ?_, ?_⟩) <;>
                  simp [Call.stepAt, getSessionMut, short, found, Thread.Pending,
                    Thread.completion, Call.cloneTarget]
      | _ => exact .inl ⟨_, rfl, rfl, rfl⟩
  | cloned session =>
      obtain ⟨peer, target, found⟩ := pending
      have exec := exec_eq_finish P target found
      cases finished : call.finish P session with
      | mk result advanced =>
          cases advanced with
          | none =>
              refine .inl ⟨result, ?_, rfl, ?_⟩ <;> simp [Call.stepAt, finished, exec]
          | some advanced =>
              refine .inr (.inl ⟨?_, rfl, ?_, ?_⟩)
              · simp [Call.stepAt, finished]
              · simp [Call.stepAt, finished, Thread.completion]
              · simpa [Call.stepAt, finished, Thread.Pending] using ⟨peer, target, session, found,
                  finished⟩
  | derived advanced result =>
      obtain ⟨peer, session, target, found, finished⟩ := pending
      refine .inl ⟨result, by simp [Call.stepAt], rfl, ?_⟩
      rw [exec_eq_finish P target found, finished]
      simp [Call.stepAt]
  | done result => exact .inr (.inr (by simp [Call.stepAt]))

theorem filterMap_set_perm {α β : Type} (f : α → Option β) {items : List α} {index : Nat}
    {old : α} (new : α) (found : items[index]? = some old) (fresh : f old = none) :
    ((items.set index new).filterMap f).Perm (items.filterMap f ++ (f new).toList) := by
  induction items generalizing index with
  | nil => cases found
  | cons head tail inductionHypothesis =>
      cases index with
      | zero =>
          simp only [List.getElem?_cons_zero, Option.some.injEq] at found
          subst found
          cases added : f new with
          | none => simp [List.filterMap_cons, fresh, added]
          | some value =>
              simpa [List.filterMap_cons, fresh, added] using
                (List.perm_append_singleton value _).symm
      | succ index =>
          rw [List.getElem?_cons_succ] at found
          cases kept : f head <;>
            simp [List.filterMap_cons, kept, inductionHypothesis found]

theorem getElem?_set_of_found {α : Type} {items : List α} {index other : Nat} {old new : α}
    (found : items[index]? = some old) :
    (items.set index new)[other]? = if index = other then some new else items[other]? := by
  have inRange : index < items.length := (List.getElem?_eq_some_iff.mp found).1
  rw [List.getElem?_set]
  simp [inRange]

theorem set_of_found {α : Type} {items : List α} {index : Nat} {item : α}
    (found : items[index]? = some item) : items.set index item = items :=
  List.ext_getElem? fun other => by
    rw [getElem?_set_of_found found]
    split
    · rename_i same
      rw [← same, found]
    · rfl

theorem Thread.Pending.frame {engine later : Engine} {thread : Thread}
    (pending : thread.Pending P engine)
    (untouched : thread.phase.inFlight = true → ∀ peer, thread.call.cloneTarget = some peer →
      later.sessions peer = engine.sessions peer) :
    thread.Pending P later := by
  obtain ⟨call, phase⟩ := thread
  cases phase with
  | cloned session =>
      obtain ⟨peer, target, found⟩ := pending
      exact ⟨peer, target, (untouched rfl peer target).trans found⟩
  | derived advanced result =>
      obtain ⟨peer, session, target, found, finished⟩ := pending
      exact ⟨peer, session, target, (untouched rfl peer target).trans found, finished⟩
  | start => trivial
  | done result => trivial

namespace Concurrent

theorem linearized_start (engine : Engine) (calls : List Call) :
    (Concurrent.start engine calls).Linearized P engine := by
  refine ⟨fun index thread found => ?_, [], ?_, rfl⟩
  · simp only [Concurrent.start, List.getElem?_map, Option.map_eq_some'] at found
    obtain ⟨call, -, rfl⟩ := found
    trivial
  · simp [completed, Concurrent.start, Thread.completion]

theorem Linearized.step {start : Engine} (wellFormed : start.sessions.WellFormed)
    {state : Concurrent} (linearized : state.Linearized P start) {index : Nat}
    (exclusive : state.Exclusive index) : (state.step P index).Linearized P start := by
  obtain ⟨pending, order, ordered, sequential⟩ := linearized
  cases found : state.threads[index]? with
  | none =>
      simp only [Concurrent.step, found]
      exact ⟨pending, order, ordered, sequential⟩
  | some thread =>
      have current : state.engine.sessions.WellFormed := by
        simpa [sequential] using run_wellFormed P start wellFormed (order.map Prod.fst)
      simp only [Concurrent.step, found]
      rcases stepAt_cases P (pending index thread found) with
        ⟨result, finished, fresh, exec⟩ | ⟨same, fresh, stillFresh, stillPending⟩ | unchanged
      · refine ⟨fun other later lookup => ?_, order ++ [(thread.call, result)], ?_, ?_⟩
        · rw [getElem?_set_of_found found] at lookup
          split at lookup
          · cases lookup
            simp [Thread.Pending, finished]
          · rename_i distinct
            have inRange := (List.getElem?_eq_some_iff.mp lookup).1
            refine (pending other later lookup).frame P fun inFlight peer target => ?_
            have apart : thread.call.peer ≠ some peer := fun same =>
              exclusive other inRange (Ne.symm distinct) later lookup thread found
                ⟨inFlight, (peer_of_cloneTarget target).trans same.symm⟩
            rw [← congrArg Prod.snd exec]
            exact exec_frame P current thread.call apart
        · refine (ordered.append_right _).trans ?_
          have moved := filterMap_set_perm Thread.completion
            ⟨thread.call, (thread.call.stepAt P thread.phase state.engine).1⟩ found fresh
          simpa [completed, Thread.completion, finished] using moved.symm
        · simp [run_append, sequential, run_cons, exec]
      · refine ⟨fun other later lookup => ?_, order, ?_, ?_⟩
        · rw [getElem?_set_of_found found] at lookup
          rw [same]
          split at lookup
          · cases lookup
            exact stillPending
          · exact pending other later lookup
        · have moved := filterMap_set_perm Thread.completion
            ⟨thread.call, (thread.call.stepAt P thread.phase state.engine).1⟩ found fresh
          rw [stillFresh, Option.toList_none, List.append_nil] at moved
          exact ordered.trans moved.symm
        · rw [same]
          exact sequential
      · rw [unchanged, set_of_found found]
        exact ⟨pending, order, ordered, sequential⟩

theorem Linearized.run {start : Engine} (wellFormed : start.sessions.WellFormed)
    {state : Concurrent} (linearized : state.Linearized P start) {schedule : List Nat}
    (disciplined : state.Disciplined P schedule) :
    (state.run P schedule).Linearized P start := by
  induction schedule generalizing state with
  | nil => exact linearized
  | cons index rest inductionHypothesis =>
      exact inductionHypothesis (linearized.step P wellFormed disciplined.1) disciplined.2

end Concurrent

/-- From a well-formed table, along any schedule in which no thread steps while
another is between its locked steps on the same peer, the finished calls can be
ordered so that running them one after the other gives each its result and leaves
the engine as the concurrent run does. -/
theorem disciplined_linearizable (engine : Engine) (wellFormed : engine.sessions.WellFormed)
    (calls : List Call) (schedule : List Nat)
    (disciplined : (Concurrent.start engine calls).Disciplined P schedule) :
    ∃ order : List (Call × Except CryptoError Output),
      order.Perm (Concurrent.run P (.start engine calls) schedule).completed ∧
      run P engine (order.map Prod.fst) =
        (order.map Prod.snd, (Concurrent.run P (.start engine calls) schedule).engine) :=
  ((Concurrent.linearized_start P engine calls).run P wellFormed disciplined).2

theorem disciplined_linearizable_sample :
    ∃ order : List (Call × Except CryptoError Output),
      order.Perm (Concurrent.run Primitives.sample
        (.start ⟨none, (SessionTable.empty.insert "bob" (Session.new Primitives.sample "bob" [])).insert
            "carol" (Session.new Primitives.sample "carol" [])⟩
          [.encryptMessage "bob" "hi" ⟨List.replicate 12 0, List.length_replicate 12 0⟩,
            .encryptMessage "carol" "hi" ⟨List.replicate 12 0, List.length_replicate 12 0⟩])
        [0, 1, 1, 1, 0, 0]).completed ∧
      run Primitives.sample
          ⟨none, (SessionTable.empty.insert "bob" (Session.new Primitives.sample "bob" [])).insert
            "carol" (Session.new Primitives.sample "carol" [])⟩
          (order.map Prod.fst) =
        (order.map Prod.snd, (Concurrent.run Primitives.sample
          (.start ⟨none, (SessionTable.empty.insert "bob"
              (Session.new Primitives.sample "bob" [])).insert
              "carol" (Session.new Primitives.sample "carol" [])⟩
            [.encryptMessage "bob" "hi" ⟨List.replicate 12 0, List.length_replicate 12 0⟩,
              .encryptMessage "carol" "hi" ⟨List.replicate 12 0, List.length_replicate 12 0⟩])
          [0, 1, 1, 1, 0, 0]).engine) :=
  disciplined_linearizable Primitives.sample _
    ((SessionTable.wellFormed_empty.insert (Session.new Primitives.sample "bob" [])).insert
      (Session.new Primitives.sample "carol" [])) _ _
    (by decide)

end MeraBriar
