/-
TaskList.Action.Reset — the start of a new cycle for recurring tasks.

When a document is opened on a new day, `resetEdits` reopens the recurring
tasks that are done, starts their counters anew, and marks the open ones
that were due since the last visit with the day they were missed on. A task
that carries such a mark already keeps it.
-/
import TaskList.Action.Tags

namespace TaskList

namespace Task

/-- Mark the task as missed on a day. -/
def markOverdue (task : Task) (since : Day) : Edit :=
  let space : Text := if task.raw.getLast? = some ' ' then [] else [' ']
  .insert task.line task.raw.length (space ++ tagText "overdue".toList since.written)
    .insertOverdue (.day since)

/-- The day on which the task was last due between two visits. -/
def missedSince? (task : Task) (lastVisit now : Instant) : Option Day :=
  task.due?.bind fun tag => tag.value.expression.lastMissed lastVisit.day now.day

/-- Start the counter anew. -/
def resetCount (task : Task) : List Edit :=
  match task.count? with
  | some ⟨_, count⟩ => [task.writeCount count 0 .clearCount]
  | none => []

/-- Reopen the task if it is done; mark it if it was missed. -/
def resetState (task : Task) (lastVisit now : Instant) : List Edit :=
  if task.isDone then task.clearCompletion
  else if task.overdue?.isNone ∧ lastVisit.day ≠ now.day then
    match task.missedSince? lastVisit now with
    | some day => [task.markOverdue day]
    | none => []
  else []

/-- Start a new cycle of the task, if it is recurring. -/
def reset (task : Task) (lastVisit now : Instant) : List Edit :=
  if task.isRecurring then task.resetState lastVisit now ++ task.resetCount else []

end Task

/-- Start a new cycle of all recurring tasks. -/
def resetEdits (tasks : List Task) (lastVisit now : Instant) : List Edit :=
  tasks.flatMap fun task => task.reset lastVisit now

end TaskList
