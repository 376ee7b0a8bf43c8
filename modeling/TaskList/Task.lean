/-
TaskList.Task — one task, as it is read from one line.

* `Field` — what a recognised token says about the task.
* `Task` — the line, how it starts, its fields in the order of their
  columns, and the title that is left. A task never changes: every action
  describes an edit of the line, and the line is read again.
* The accessors (`Task.due?`, `Task.count?`, `Task.names`, …) look one kind
  of field up, with the columns it stands at.
-/
import TaskList.Due.Expression
import TaskList.Line.Indent
import TaskList.Line.Token

namespace TaskList

/-! ## Fields -/

/-- A counter: how much of how much is done. -/
structure Count where
  /-- How much is done. -/
  current : Nat
  /-- How much has to be done. -/
  needed : Nat
  /-- The columns of the digits of `current`, zeros in front included. -/
  digits : Span
  deriving DecidableEq, Repr

/-- Is all done? -/
def Count.isComplete (c : Count) : Bool := c.needed ≤ c.current

/-- A due expression and its state on the day the line was read for. -/
structure DueTag where
  /-- The expression. -/
  expression : Due.Expression
  /-- Its state. -/
  state : Due.State
  deriving DecidableEq, Repr

/-- What a recognised token says about a task. -/
inductive Field where
  /-- When it is due. -/
  | due (tag : DueTag)
  /-- That it is done, and since when if that is said. -/
  | completed (since : Option Instant)
  /-- When it was written down. -/
  | created (since : Instant)
  /-- How much of it is done. -/
  | count (count : Count)
  /-- The day on which it was missed. -/
  | overdue (since : Day)
  /-- That it is not to be shown. -/
  | hidden
  /-- That what is nested under it is not to be shown. -/
  | collapsed
  /-- A group that it belongs to. -/
  | mention (group : Group) (name : Text)
  deriving DecidableEq, Repr

/-! ## Tasks -/

/-- One task, as it is read from one line. -/
structure Task where
  /-- The number of the line in its document. -/
  line : Int
  /-- The whole line. -/
  raw : Text
  /-- How deep the line is indented. -/
  indent : Depth := .level 0
  /-- The columns of the done marker in front of the line. -/
  marker : Option Span := none
  /-- The priority letter, with its brackets. -/
  priority : Option (Located Char) := none
  /-- The recognised tokens in the order of their columns. -/
  fields : List (Located Field) := []
  /-- What is left of the line, its words with one space between each
  two. -/
  title : Text := []
  deriving DecidableEq, Repr

namespace Task

/-- The first field of a kind, with its columns. -/
def find? {α : Type} (kind : Field → Option α) (task : Task) : Option (Located α) :=
  task.fields.findSome? fun field => (kind field.value).map (⟨field.span, ·⟩)

/-- When the task is due. -/
def due? : Task → Option (Located DueTag) :=
  find? fun | .due tag => some tag | _ => none

/-- The completion tag and the instant in it. -/
def completion? : Task → Option (Located (Option Instant)) :=
  find? fun | .completed since => some since | _ => none

/-- When the task was written down. -/
def creation? : Task → Option (Located Instant) :=
  find? fun | .created since => some since | _ => none

/-- The counter of the task. -/
def count? : Task → Option (Located Count) :=
  find? fun | .count count => some count | _ => none

/-- The day on which the task was missed. -/
def overdue? : Task → Option (Located Day) :=
  find? fun | .overdue since => some since | _ => none

/-- The tag that hides the task. -/
def hiddenTag? : Task → Option (Located Unit) :=
  find? fun | .hidden => some () | _ => none

/-- The tag that collapses the task. -/
def collapsedTag? : Task → Option (Located Unit) :=
  find? fun | .collapsed => some () | _ => none

/-- Every mention of a group of the kind, with its columns. -/
def mentions (task : Task) (group : Group) : List (Located Text) :=
  task.fields.filterMap fun field =>
    match field.value with
    | .mention g name => if g = group then some ⟨field.span, name⟩ else none
    | _ => none

/-- The groups of the kind that the task belongs to, each once, in the
order in which they are first mentioned. -/
def names (task : Task) (group : Group) : List Text :=
  ((task.mentions group).map (·.value)).eraseDups

/-- Is the task done? Either sign of it is enough. -/
def isDone (task : Task) : Bool := task.marker.isSome || task.completion?.isSome

/-- Is the task hidden? -/
def isHidden (task : Task) : Bool := task.hiddenTag?.isSome

/-- Is the task collapsed? -/
def isCollapsed (task : Task) : Bool := task.collapsedTag?.isSome

/-- Does the task come round again? -/
def isRecurring (task : Task) : Bool := task.due?.any (·.value.expression.isRecurring)

/-- The state of the task's due expression. -/
def dueState? (task : Task) : Option Due.State := task.due?.map (·.value.state)

/-- The days since the task was missed. -/
def daysOverdue? (task : Task) (now : Day) : Option Int :=
  task.overdue?.map fun since => since.value.daysUntil now

/-- The letter of the task's priority. -/
def letter? (task : Task) : Option Char := task.priority.map (·.value)

end Task

end TaskList
