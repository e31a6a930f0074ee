import ReviewQueue.Domain.Submission
import ReviewQueue.Text.Fold

/-! Attachments sorted into what came with the task and what was handed in. -/

namespace ReviewQueue

/-- A list that was received has no item where one is needed. -/
structure MissingItem where
  deriving DecidableEq, Repr

/-- Attachments by where they came from. The buckets are missing while nothing is loaded. -/
structure Buckets where
  task : Option (List Attachment) := none
  submission : Option (List Attachment) := none
  deriving DecidableEq, Repr, Inhabited

namespace Buckets

/-- The items of a list none of which may be missing. -/
def allPresent : List (Option α) → Except MissingItem (List α)
  | [] => .ok []
  | none :: _ => .error {}
  | some a :: rest => (allPresent rest).map (a :: ·)

/-- Sorts attachments by their source, ignoring case, and drops those of other sources. -/
def ofItems (items : List Attachment) : Buckets :=
  { task := some (items.filter fun a => Text.spells "task" a.source)
    submission := some (items.filter fun a => Text.spells "submission" a.source) }

/-- Sorts a list that was received; no list gives no buckets. -/
def ofList (items : Option (List (Option Attachment))) : Except MissingItem Buckets :=
  match items with
  | none => .ok {}
  | some items => (allPresent items).map ofItems

end Buckets
end ReviewQueue
