import ReviewQueue.Domain.Verdict

/-! Messages to the user, and who receives them. -/

namespace ReviewQueue.Notice

/-- A message as it is shown: one without a kind is an error. -/
def shown (n : Notice) : Notice :=
  if n.kind = "" then { n with kind := "error" } else n

/-- A message that something succeeded. -/
def success (message : String) : Notice := ⟨message, "success"⟩

/-- The messages of a failure, in order. -/
def ofInfo (info : List Notice) : List Notice :=
  info.map shown

/-- The messages of one kind. -/
def ofKind (kind : String) (notices : List Notice) : List Notice :=
  notices.filter (·.kind == kind)

/-- Who receives what, in order: every message goes to each of the subscribers, who are numbered in
the order in which they came. -/
def deliveries (subscribers : Nat) (notices : List Notice) : List (Nat × Notice) :=
  notices.flatMap fun n => (List.range subscribers).map fun i => (i, n)

end ReviewQueue.Notice
