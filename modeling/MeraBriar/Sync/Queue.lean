import MeraBriar.Crypto.Basic

/-!
# The offline message queue

`sync/mod.rs`. The static `QUEUE` is a `VecDeque<QueuedMessage>`, read front to
back. `queue_message` pushes at the back, `clear_queue` retains the messages whose
id is not listed, and `increment_attempts` bumps the first message with the given
id and stops. No call checks ids for uniqueness.

Over any run the queue holds a subsequence of what was there and what was queued,
unchanged but for the attempt counters, and loses none whose id no `clear_queue`
names; while ids are distinct, each counter counts the increments for its id,
modulo `2^32`.
-/

set_option autoImplicit false

namespace MeraBriar

/-- `QueuedMessage`; `created_at` is not read by any queue call. -/
structure QueuedMessage where
  id : String
  recipientId : String
  encryptedContent : Bytes
  attempts : UInt32
  deriving DecidableEq

/-- `QueuedMessage::new`: no attempts yet. -/
def QueuedMessage.new (id recipientId : String) (encryptedContent : Bytes) : QueuedMessage :=
  ⟨id, recipientId, encryptedContent, 0⟩

def QueuedMessage.payload (message : QueuedMessage) : String × String × Bytes :=
  (message.id, message.recipientId, message.encryptedContent)

/-- The static `QUEUE`, front first. -/
abbrev Queue := List QueuedMessage

/-- `queue_message`: `push_back`. -/
def queueMessage (message : QueuedMessage) (queue : Queue) : Queue :=
  queue ++ [message]

/-- `get_queued_messages`: every message, front first. -/
def getQueuedMessages (queue : Queue) : List QueuedMessage :=
  queue

/-- `get_queued_for_recipient`. -/
def getQueuedForRecipient (recipientId : String) (queue : Queue) : List QueuedMessage :=
  queue.filter fun message => message.recipientId = recipientId

/-- `clear_queue`: `retain` the messages whose id is not listed. -/
def clearQueue (messageIds : List String) (queue : Queue) : Queue :=
  queue.filter fun message => message.id ∉ messageIds

/-- `increment_attempts`: the first message with the id gets `attempts += 1`, then
the loop breaks. -/
def incrementAttempts (messageId : String) : Queue → Queue
  | [] => []
  | message :: rest =>
      if message.id = messageId then { message with attempts := message.attempts + 1 } :: rest
      else message :: incrementAttempts messageId rest

/-- `queue_size`. -/
def queueSize (queue : Queue) : Nat :=
  queue.length

inductive QueueCall where
  | queueMessage (message : QueuedMessage)
  | clearQueue (messageIds : List String)
  | incrementAttempts (messageId : String)

def QueueCall.apply : QueueCall → Queue → Queue
  | .queueMessage message, queue => MeraBriar.queueMessage message queue
  | .clearQueue messageIds, queue => MeraBriar.clearQueue messageIds queue
  | .incrementAttempts messageId, queue => MeraBriar.incrementAttempts messageId queue

def QueueCall.queued : QueueCall → List QueuedMessage
  | .queueMessage message => [message]
  | _ => []

def QueueCall.cleared : QueueCall → List String
  | .clearQueue messageIds => messageIds
  | _ => []

def runQueue : Queue → List QueueCall → Queue
  | queue, [] => queue
  | queue, call :: rest => runQueue (call.apply queue) rest

@[simp]
theorem payload_incrementAttempts (messageId : String) (queue : Queue) :
    (incrementAttempts messageId queue).map QueuedMessage.payload =
      queue.map QueuedMessage.payload := by
  induction queue with
  | nil => rfl
  | cons message rest inductionHypothesis =>
      unfold incrementAttempts
      split <;> simp [inductionHypothesis, QueuedMessage.payload]

@[simp]
theorem id_incrementAttempts (messageId : String) (queue : Queue) :
    (incrementAttempts messageId queue).map QueuedMessage.id = queue.map QueuedMessage.id := by
  have payloads := congrArg (List.map Prod.fst) (payload_incrementAttempts messageId queue)
  rwa [List.map_map, List.map_map] at payloads

theorem payload_apply_sublist (call : QueueCall) (queue : Queue) :
    ((call.apply queue).map QueuedMessage.payload).Sublist
      ((queue ++ call.queued).map QueuedMessage.payload) := by
  cases call with
  | queueMessage message => exact .refl _
  | clearQueue messageIds => simpa [QueueCall.apply, QueueCall.queued, clearQueue] using
      (List.filter_sublist queue).map QueuedMessage.payload
  | incrementAttempts messageId => simp [QueueCall.apply, QueueCall.queued]

/-- Over any run, the queue is a subsequence of the messages it held and those
queued since, in the order they arrived: nothing is reordered, duplicated or
altered except its attempt counter. -/
theorem runQueue_sublist (queue : Queue) (calls : List QueueCall) :
    ((runQueue queue calls).map QueuedMessage.payload).Sublist
      ((queue ++ calls.flatMap QueueCall.queued).map QueuedMessage.payload) := by
  induction calls generalizing queue with
  | nil => simp [runQueue]
  | cons call rest inductionHypothesis =>
      have stepped := (payload_apply_sublist call queue).append
        (List.Sublist.refl ((rest.flatMap QueueCall.queued).map QueuedMessage.payload))
      simp only [← List.map_append] at stepped
      simpa [runQueue, List.append_assoc] using (inductionHypothesis (call.apply queue)).trans
        stepped

theorem payload_mem_apply (call : QueueCall) {queue : Queue} {payload : String × String × Bytes}
    (member : payload ∈ (queue ++ call.queued).map QueuedMessage.payload)
    (kept : payload.1 ∉ call.cleared) : payload ∈ (call.apply queue).map QueuedMessage.payload := by
  cases call with
  | queueMessage message => exact member
  | clearQueue messageIds =>
      obtain ⟨message, inQueue, rfl⟩ := List.mem_map.1 (by simpa [QueueCall.queued] using member)
      exact List.mem_map_of_mem _ (List.mem_filter.2 ⟨inQueue, by simpa using kept⟩)
  | incrementAttempts messageId =>
      simpa [QueueCall.apply, QueueCall.queued] using member

/-- The queue never loses a message unless `clear_queue` names its id: a message held or
queued during a run whose id no `clear_queue` call lists is in the queue at the end with
its id, recipient and content, whatever its attempt counter has become. -/
theorem payload_mem_runQueue {queue : Queue} {calls : List QueueCall} {message : QueuedMessage}
    (member : message ∈ queue ++ calls.flatMap QueueCall.queued)
    (neverCleared : ∀ call ∈ calls, message.id ∉ call.cleared) :
    message.payload ∈ (runQueue queue calls).map QueuedMessage.payload := by
  have arrived : message.payload ∈ (queue ++ calls.flatMap QueueCall.queued).map
      QueuedMessage.payload := List.mem_map_of_mem _ member
  clear member
  induction calls generalizing queue with
  | nil => simpa [runQueue] using arrived
  | cons call rest inductionHypothesis =>
      rw [List.flatMap_cons, ← List.append_assoc, List.map_append, List.mem_append] at arrived
      apply inductionHypothesis fun other member => neverCleared other (.tail _ member)
      rw [List.map_append, List.mem_append]
      rcases arrived with earlier | later
      · exact .inl (payload_mem_apply call earlier (neverCleared call (.head _)))
      · exact .inr later

theorem payload_mem_runQueue_sample :
    (QueuedMessage.new "m1" "bob" [1]).payload ∈
      (runQueue [QueuedMessage.new "m1" "bob" [1]]
        [.queueMessage (QueuedMessage.new "m2" "carol" [2]), .clearQueue ["m2"],
          .incrementAttempts "m1"]).map QueuedMessage.payload :=
  payload_mem_runQueue (by decide) (by decide)

theorem incrementAttempts_of_nodup (messageId : String) {queue : Queue}
    (distinct : (queue.map QueuedMessage.id).Nodup) :
    incrementAttempts messageId queue = queue.map fun message =>
      if message.id = messageId then { message with attempts := message.attempts + 1 }
      else message := by
  induction queue with
  | nil => rfl
  | cons message rest inductionHypothesis =>
      rw [List.map_cons, List.nodup_cons] at distinct
      by_cases named : message.id = messageId
      · have untouched : ∀ other ∈ rest, other.id ≠ messageId := fun other member same =>
          distinct.1 (named ▸ same ▸ List.mem_map_of_mem _ member)
        simp only [incrementAttempts, named, if_true, List.map_cons, List.cons.injEq, true_and]
        exact (List.map_congr_left fun other member => if_neg (untouched other member)).trans
          (List.map_id _) |>.symm
      · simp [incrementAttempts, named, inductionHypothesis distinct.2]

/-- With distinct ids, after a run of `increment_attempts` calls every message's
`u32` counter has been incremented once per call naming it. -/
theorem incrementAttempts_run {queue : Queue} (distinct : (queue.map QueuedMessage.id).Nodup)
    (messageIds : List String) :
    runQueue queue (messageIds.map .incrementAttempts) = queue.map fun message =>
      { message with attempts := (· + 1)^[messageIds.count message.id] message.attempts } := by
  induction messageIds generalizing queue with
  | nil => simp [runQueue]
  | cons messageId rest inductionHypothesis =>
      have stillDistinct :
          ((incrementAttempts messageId queue).map QueuedMessage.id).Nodup := by
        rwa [id_incrementAttempts]
      rw [List.map_cons, runQueue, QueueCall.apply, inductionHypothesis stillDistinct,
        incrementAttempts_of_nodup messageId distinct, List.map_map]
      refine List.map_congr_left fun message _ => ?_
      by_cases named : message.id = messageId
      · simp only [Function.comp_apply, named, if_true, List.count_cons_self,
          Function.iterate_succ_apply]
      · simp only [Function.comp_apply, named, if_false, List.count_cons_of_ne named]

theorem incrementAttempts_run_sample :
    runQueue [QueuedMessage.new "m1" "bob" [1], QueuedMessage.new "m2" "carol" [2]]
        (["m1", "m2", "m1"].map .incrementAttempts) =
      [QueuedMessage.new "m1" "bob" [1], QueuedMessage.new "m2" "carol" [2]].map fun message =>
        { message with attempts := (· + 1)^[["m1", "m2", "m1"].count message.id] message.attempts } :=
  incrementAttempts_run (by decide) ["m1", "m2", "m1"]

end MeraBriar
