import MeraBriar.Message.Status

/-!
# The encrypted message store

`storage/mod.rs`. The static `DB` holds the SQLCipher connection once `init` has
run; before that every function fails with `Database not initialized`. The model
keeps the rows of the two tables the functions use, `messages` and `sessions`, in
rowid order. `INSERT OR REPLACE` deletes the row with the same primary key and
inserts the new one under the next rowid. `get_messages` scans the index
`idx_messages_conversation`: newest first, equal timestamps in rowid order, then
`OFFSET` and `LIMIT`.

Over any run the primary keys stay unique and the tables read back as a key-value
store in which each write replaces one entry; a stored message is then returned by
its conversation's query exactly once, unchanged.
-/

set_option autoImplicit false

namespace MeraBriar

/-- A row of `sessions` as `store_session` writes it; `updated_at` is not read. -/
structure SessionRow where
  recipientId : String
  sessionData : Bytes
  deriving DecidableEq

/-- The rows of `messages` and `sessions`, in rowid order. -/
structure Tables where
  messages : List MessageRow
  sessions : List SessionRow
  deriving DecidableEq

/-- The static `DB`: `None` until `init` stores a connection. -/
abbrev Database := Option Tables

/-- The error of every function while `DB` is `None`. -/
def notInitialized : String :=
  "Database not initialized"

/-- `INSERT OR REPLACE` into a table whose primary key is `key`. -/
def insertOrReplace {Row : Type} (key : Row → String) (row : Row) (rows : List Row) : List Row :=
  rows.filter (fun other => key other ≠ key row) ++ [row]

/-- `store_message`. -/
def storeMessage (message : Message) : Database → Except String Unit × Database
  | none => (.error notInitialized, none)
  | some tables =>
      (.ok (), some { tables with
        messages := insertOrReplace MessageRow.id (storeRow message) tables.messages })

/-- `store_session`. -/
def storeSession (recipientId : String) (sessionData : Bytes) :
    Database → Except String Unit × Database
  | none => (.error notInitialized, none)
  | some tables =>
      (.ok (), some { tables with
        sessions := insertOrReplace SessionRow.recipientId ⟨recipientId, sessionData⟩
          tables.sessions })

/-- `get_session`: the row with the key, and no row is `Ok(None)`. -/
def getSession (recipientId : String) : Database → Except String (Option Bytes)
  | none => .error notInitialized
  | some tables =>
      .ok ((tables.sessions.find? fun row => row.recipientId = recipientId).map
        SessionRow.sessionData)

/-- `ORDER BY timestamp DESC`: `first` may stand before `second`. -/
def Newer (first second : MessageRow) : Prop :=
  second.timestamp ≤ first.timestamp

instance : DecidableRel Newer := fun first second =>
  inferInstanceAs (Decidable (second.timestamp ≤ first.timestamp))

instance : IsTotal MessageRow Newer :=
  ⟨fun first second => le_total second.timestamp first.timestamp⟩

instance : IsTrans MessageRow Newer :=
  ⟨fun _ _ _ firstSecond secondThird => le_trans secondThird firstSecond⟩

/-- The scan of `idx_messages_conversation` on `(conversation_id, timestamp DESC)`:
newest first, equal timestamps in rowid order. -/
def newestFirst (rows : List MessageRow) : List MessageRow :=
  rows.insertionSort Newer

/-- `LIMIT ?2 OFFSET ?3` on `i32` values: a negative offset counts as zero and a
negative limit sets no bound. -/
def window {Row : Type} (limit offset : Int) (rows : List Row) : List Row :=
  if limit < 0 then rows.drop offset.toNat else (rows.drop offset.toNat).take limit.toNat

/-- `get_messages`. -/
def getMessages (conversationId : String) (limit offset : Int) :
    Database → Except String (List Message)
  | none => .error notInitialized
  | some tables =>
      .ok ((window limit offset (newestFirst
        (tables.messages.filter fun row => row.conversationId = conversationId))).map readRow)

inductive StorageCall where
  | storeMessage (message : Message)
  | storeSession (recipientId : String) (sessionData : Bytes)

def StorageCall.exec : StorageCall → Database → Except String Unit × Database
  | .storeMessage message, database => MeraBriar.storeMessage message database
  | .storeSession recipientId sessionData, database =>
      MeraBriar.storeSession recipientId sessionData database

def StorageCall.messageId : StorageCall → Option String
  | .storeMessage message => some message.id
  | .storeSession _ _ => none

def StorageCall.sessionKey : StorageCall → Option String
  | .storeMessage _ => none
  | .storeSession recipientId _ => some recipientId

def runStorage : Database → List StorageCall → Database
  | database, [] => database
  | database, call :: rest => runStorage (call.exec database).2 rest

theorem exec_uninitialized (call : StorageCall) : call.exec none = (.error notInitialized, none) := by
  cases call <;> rfl

theorem runStorage_uninitialized (calls : List StorageCall) : runStorage none calls = none := by
  induction calls with
  | nil => rfl
  | cons call rest inductionHypothesis => rw [runStorage, exec_uninitialized, inductionHypothesis]

/-! ## Primary keys -/

/-- The primary keys `id` and `recipient_id` are unique. -/
def Tables.WellKeyed (tables : Tables) : Prop :=
  (tables.messages.map MessageRow.id).Nodup ∧ (tables.sessions.map SessionRow.recipientId).Nodup

instance : DecidablePred Tables.WellKeyed := fun _ =>
  inferInstanceAs (Decidable (_ ∧ _))

theorem nodup_insertOrReplace {Row : Type} (key : Row → String) (row : Row) {rows : List Row}
    (distinct : (rows.map key).Nodup) : ((insertOrReplace key row rows).map key).Nodup := by
  rw [insertOrReplace, List.map_append, List.nodup_append]
  refine ⟨distinct.sublist ((List.filter_sublist rows).map key), List.nodup_singleton _, ?_⟩
  intro _ kept added
  obtain ⟨other, member, rfl⟩ := List.mem_map.1 kept
  rw [List.map_singleton, List.mem_singleton] at added
  simpa [added] using (List.mem_filter.1 member).2

@[simp]
theorem find?_insertOrReplace {Row : Type} (key : Row → String) (row : Row) (rows : List Row)
    (wanted : String) :
    (insertOrReplace key row rows).find? (fun other => key other = wanted) =
      if wanted = key row then some row else rows.find? (fun other => key other = wanted) := by
  by_cases replaced : wanted = key row
  · subst replaced
    simp [insertOrReplace]
  · have kept : (fun other => !decide (key other = key row) && decide (key other = wanted)) =
        fun other => decide (key other = wanted) := by
      funext other
      by_cases named : key other = wanted <;> simp [named, replaced]
    simp [insertOrReplace, kept, replaced, Ne.symm replaced]

theorem mem_iff_find? {Row : Type} {key : Row → String} {rows : List Row}
    (distinct : (rows.map key).Nodup) (row : Row) :
    row ∈ rows ↔ ∃ wanted, rows.find? (fun other => key other = wanted) = some row := by
  constructor
  · intro member
    refine ⟨key row, ?_⟩
    cases found : rows.find? (fun other => key other = key row) with
    | none => exact absurd (List.find?_eq_none.1 found row member) (by simp)
    | some other =>
        rw [List.inj_on_of_nodup_map distinct (List.mem_of_find?_eq_some found) member
          (by simpa using List.find?_some found)]
  · rintro ⟨_, found⟩
    exact List.mem_of_find?_eq_some found

theorem filter_key_eq_singleton {Row : Type} (key : Row → String) {rows : List Row} {row : Row}
    (distinct : (rows.map key).Nodup) (member : row ∈ rows) :
    rows.filter (fun other => key other = key row) = [row] := by
  induction rows with
  | nil => cases member
  | cons head rest inductionHypothesis =>
      rw [List.map_cons, List.nodup_cons] at distinct
      rcases List.mem_cons.1 member with rfl | inRest
      · have alone : ∀ other ∈ rest, key other ≠ key row := fun other inRest same =>
          distinct.1 (same ▸ List.mem_map_of_mem key inRest)
        simpa [List.filter_cons] using alone
      · have apart : key head ≠ key row := fun same =>
          distinct.1 (same ▸ List.mem_map_of_mem key inRest)
        simp [List.filter_cons, apart, inductionHypothesis distinct.2 inRest]

/-! ## The key-value store the tables stand for -/

/-- What the two tables are for: each primary key names at most one entry. -/
@[ext]
structure Store where
  messages : String → Option MessageRow
  sessions : String → Option Bytes

/-- The entry under each key, as a lookup by primary key reads it. -/
def Tables.toStore (tables : Tables) : Store :=
  ⟨fun id => tables.messages.find? (fun row => row.id = id),
    fun recipientId => (tables.sessions.find? (fun row => row.recipientId = recipientId)).map
      SessionRow.sessionData⟩

def StorageCall.write : StorageCall → Store → Store
  | .storeMessage message, store =>
      { store with messages := Function.update store.messages message.id (some (storeRow message)) }
  | .storeSession recipientId sessionData, store =>
      { store with sessions := Function.update store.sessions recipientId (some sessionData) }

def Store.run : Store → List StorageCall → Store
  | store, [] => store
  | store, call :: rest => Store.run (call.write store) rest

theorem Store.run_messages_of_untouched (store : Store) {calls : List StorageCall} {id : String}
    (untouched : ∀ call ∈ calls, call.messageId ≠ some id) :
    (store.run calls).messages id = store.messages id := by
  induction calls generalizing store with
  | nil => rfl
  | cons call rest inductionHypothesis =>
      rw [Store.run, inductionHypothesis _ fun other member => untouched other (.tail _ member)]
      cases call with
      | storeMessage message =>
          have apart : id ≠ message.id := fun same =>
            untouched _ (.head _) (by rw [same]; rfl)
          exact Function.update_noteq apart _ _
      | storeSession => rfl

theorem Store.run_sessions_of_untouched (store : Store) {calls : List StorageCall}
    {recipientId : String} (untouched : ∀ call ∈ calls, call.sessionKey ≠ some recipientId) :
    (store.run calls).sessions recipientId = store.sessions recipientId := by
  induction calls generalizing store with
  | nil => rfl
  | cons call rest inductionHypothesis =>
      rw [Store.run, inductionHypothesis _ fun other member => untouched other (.tail _ member)]
      cases call with
      | storeMessage => rfl
      | storeSession key sessionData =>
          have apart : recipientId ≠ key := fun same =>
            untouched _ (.head _) (by rw [same]; rfl)
          exact Function.update_noteq apart _ _

theorem exec_initialized (call : StorageCall) (tables : Tables) :
    ∃ next, call.exec (some tables) = (.ok (), some next) ∧
      next.toStore = call.write tables.toStore ∧ (tables.WellKeyed → next.WellKeyed) := by
  cases call with
  | storeMessage message =>
      refine ⟨_, rfl, Store.ext (funext fun id => ?_) rfl,
        fun wellKeyed => ⟨nodup_insertOrReplace _ _ wellKeyed.1, wellKeyed.2⟩⟩
      simp [Tables.toStore, StorageCall.write, Function.update_apply, storeRow]
  | storeSession recipientId sessionData =>
      refine ⟨_, rfl, Store.ext rfl (funext fun key => ?_),
        fun wellKeyed => ⟨wellKeyed.1, nodup_insertOrReplace _ _ wellKeyed.2⟩⟩
      by_cases named : key = recipientId <;>
        simp [Tables.toStore, StorageCall.write, Function.update_apply, named]

theorem runStorage_initialized (tables : Tables) (calls : List StorageCall) :
    ∃ final, runStorage (some tables) calls = some final ∧
      final.toStore = tables.toStore.run calls ∧ (tables.WellKeyed → final.WellKeyed) := by
  induction calls generalizing tables with
  | nil => exact ⟨tables, rfl, rfl, id⟩
  | cons call rest inductionHypothesis =>
      obtain ⟨next, executed, abstracted, kept⟩ := exec_initialized call tables
      obtain ⟨final, ran, finalAbstracted, finalKept⟩ := inductionHypothesis next
      refine ⟨final, by rw [runStorage, executed]; exact ran, ?_, finalKept ∘ kept⟩
      rw [finalAbstracted, abstracted, Store.run]

theorem getMessages_unbounded {tables : Tables} (wellKeyed : tables.WellKeyed)
    (conversationId : String) :
    ∃ messages, getMessages conversationId (-1) 0 (some tables) = .ok messages ∧
      (messages.map Message.id).Nodup ∧
      ∀ message, message ∈ messages ↔ ∃ id row, tables.toStore.messages id = some row ∧
        row.conversationId = conversationId ∧ readRow row = message := by
  have sorted := List.perm_insertionSort Newer
    (tables.messages.filter fun row => row.conversationId = conversationId)
  refine ⟨_, rfl, ?_, fun message => ?_⟩
  · rw [window, if_pos (by decide), List.map_map]
    exact (sorted.map MessageRow.id).nodup_iff.2
      (wellKeyed.1.sublist ((List.filter_sublist _).map _))
  · rw [window, if_pos (by decide)]
    simp only [List.drop_zero, Int.toNat_zero, List.mem_map, newestFirst, sorted.mem_iff,
      List.mem_filter, mem_iff_find? wellKeyed.1, Tables.toStore, decide_eq_true_eq]
    constructor
    · rintro ⟨row, ⟨⟨id, found⟩, named⟩, rfl⟩
      exact ⟨id, row, found, named, rfl⟩
    · rintro ⟨id, row, found, named, rfl⟩
      exact ⟨row, ⟨⟨id, found⟩, named⟩, rfl⟩

end MeraBriar
