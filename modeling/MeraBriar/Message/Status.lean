import MeraBriar.Crypto.Basic

/-!
# Message status and the stored message row

`message/mod.rs` and the `messages` table of `storage/mod.rs`. `store_message`
binds the status as `status.to_string()` and `get_messages` reads it back with
`MessageStatus::from_str`, which lowercases its input and falls back to `Pending`.
Every status reads back as itself, so a stored message comes back unchanged.
-/

set_option autoImplicit false

namespace MeraBriar

/-- `MessageStatus`. -/
inductive MessageStatus where
  | pending
  | sent
  | delivered
  | read
  | failed
  deriving DecidableEq

/-- `str::to_lowercase`. Only ASCII capitals lower to the five status names, so
lowering ASCII letters decides `from_str` as the Unicode mapping does. -/
def toLowercase (text : String) : String :=
  ⟨text.toList.map Char.toLower⟩

namespace MessageStatus

/-- `MessageStatus::from_str`. -/
def fromStr (text : String) : MessageStatus :=
  match toLowercase text with
  | "pending" => .pending
  | "sent" => .sent
  | "delivered" => .delivered
  | "read" => .read
  | "failed" => .failed
  | _ => .pending

/-- `ToString for MessageStatus`. -/
def toString : MessageStatus → String
  | .pending => "pending"
  | .sent => "sent"
  | .delivered => "delivered"
  | .read => "read"
  | .failed => "failed"

@[simp]
theorem fromStr_toString (status : MessageStatus) : fromStr status.toString = status := by
  cases status <;> rfl

end MessageStatus

/-- `Message`. -/
structure Message where
  id : String
  conversationId : String
  senderId : String
  content : String
  timestamp : Int
  status : MessageStatus
  deriving DecidableEq

/-- `Message::new`; `timestamp` is the clock reading `Utc::now().timestamp()`. -/
def Message.new (id conversationId senderId content : String) (timestamp : Int) : Message :=
  ⟨id, conversationId, senderId, content, timestamp, .pending⟩

/-- The six columns `store_message` binds and `get_messages` selects. -/
structure MessageRow where
  id : String
  conversationId : String
  senderId : String
  content : String
  timestamp : Int
  status : String
  deriving DecidableEq

/-- The `params!` of `store_message`. -/
def storeRow (message : Message) : MessageRow :=
  ⟨message.id, message.conversationId, message.senderId, message.content, message.timestamp,
    message.status.toString⟩

/-- The row closure of `get_messages`. -/
def readRow (row : MessageRow) : Message :=
  ⟨row.id, row.conversationId, row.senderId, row.content, row.timestamp,
    MessageStatus.fromStr row.status⟩

theorem readRow_storeRow (message : Message) : readRow (storeRow message) = message := by
  simp [readRow, storeRow]

theorem MessageStatus.toString_injective : Function.Injective MessageStatus.toString := by
  intro status other same
  cases status <;> cases other <;> first | rfl | exact absurd same (by decide)

theorem MessageStatus.fromStr_of_lowercase {text : String} {status : MessageStatus}
    (lowered : toLowercase text = status.toString) : fromStr text = status := by
  unfold fromStr
  rw [lowered]
  cases status <;> rfl

theorem MessageStatus.fromStr_of_unnamed {text : String}
    (unnamed : ∀ other : MessageStatus, toLowercase text ≠ other.toString) :
    fromStr text = .pending := by
  unfold fromStr
  split
  · rfl
  · exact absurd ‹_› (unnamed .sent)
  · exact absurd ‹_› (unnamed .delivered)
  · exact absurd ‹_› (unnamed .read)
  · exact absurd ‹_› (unnamed .failed)
  · rfl

theorem MessageStatus.fromStr_eq_iff (text : String) (status : MessageStatus) :
    fromStr text = status ↔ toLowercase text = status.toString ∨
      (status = .pending ∧ ∀ other : MessageStatus, toLowercase text ≠ other.toString) := by
  by_cases named : ∃ other : MessageStatus, toLowercase text = other.toString
  · obtain ⟨other, lowered⟩ := named
    rw [fromStr_of_lowercase lowered, lowered]
    exact ⟨fun same => .inl (congrArg toString same), fun
      | .inl same => toString_injective same
      | .inr ⟨_, unnamed⟩ => absurd rfl (unnamed other)⟩
  · push_neg at named
    rw [fromStr_of_unnamed named]
    exact ⟨fun same => .inr ⟨same.symm, named⟩, fun
      | .inl lowered => absurd lowered (named status)
      | .inr ⟨same, _⟩ => same.symm⟩

end MeraBriar
