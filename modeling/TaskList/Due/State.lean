/-
TaskList.Due.State — whether something is due on a day.

* `Due.State` — not due, due, overdue, or without a meaning.
* `State.combine` — the state of several alternatives together: one that is
  due decides, then one that is overdue; alternatives without a meaning
  count only when there is nothing else.
-/

namespace TaskList.Due

/-- Whether something is due on a day. -/
inductive State where
  | notDue
  | due
  | overdue
  /-- The expression has no meaning. -/
  | invalid
  deriving DecidableEq, Repr

namespace State

/-- The states, each once. -/
def all : List State := [.notDue, .due, .overdue, .invalid]

/-- The word for a state in data. -/
def name : State → String
  | .notDue => "notDue"
  | .due => "due"
  | .overdue => "overdue"
  | .invalid => "invalid"

/-- The state that a word stands for. -/
def ofName? (word : String) : Option State := all.find? fun s => s.name == word

/-- Due or overdue. -/
def isActive : State → Bool
  | .due | .overdue => true
  | .notDue | .invalid => false

/-- The state of several alternatives together. -/
def combine (states : List State) : State :=
  if .due ∈ states then .due
  else if .overdue ∈ states then .overdue
  else if states.all (· == .invalid) then .invalid
  else .notDue

theorem combine_eq_due_iff {states : List State} : combine states = .due ↔ .due ∈ states := by
  unfold combine
  split
  · simp [*]
  · split
    · simp [*]
    · split <;> simp [*]

end State

end TaskList.Due
