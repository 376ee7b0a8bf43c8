/-
TaskList.View.DueList — what is due, the most urgent first.

* `Task.urgency` — what the order goes by: the priority letter, no letter
  last, and within a letter due before overdue.
* `Outline.dueList` — the outermost tasks that are due or overdue. Equally
  urgent ones stay in the order of the document.
-/
import TaskList.Outline.Basic

namespace TaskList

/-- What the order of tasks goes by. -/
structure Urgency where
  /-- The priority letter; the character behind `Z` if there is none. -/
  letter : Char
  /-- Zero for due, one for overdue, two for neither. -/
  rank : Nat
  deriving DecidableEq, Repr

namespace Urgency

/-- May one stand before the other? -/
def precedes (a b : Urgency) : Bool :=
  a.letter < b.letter || (a.letter == b.letter && a.rank ≤ b.rank)

end Urgency

/-- How urgent a state is; the smaller, the more. -/
def Due.State.rank : Due.State → Nat
  | .due => 0
  | .overdue => 1
  | .notDue | .invalid => 2

namespace Task

/-- What the order of tasks goes by. -/
def urgency (task : Task) : Urgency where
  letter := task.letter?.getD '['
  rank := (task.dueState?.map (·.rank)).getD 2

/-- Is the task due or overdue? -/
def isActive (task : Task) : Bool := task.dueState?.any (·.isActive)

end Task

/-- The outermost tasks that are due or overdue, the most urgent first. -/
def Outline.dueList (o : Outline) : List Node :=
  (o.roots.filter (·.task.isActive)).mergeSort fun a b =>
    a.task.urgency.precedes b.task.urgency

end TaskList
