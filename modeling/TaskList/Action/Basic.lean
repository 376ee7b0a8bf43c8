/-
TaskList.Action.Basic — what a person can do with a task, as edits of its
line.

* `Task.toggleDone` — complete an open task, or reopen a done one.
* `Task.increment`, `Task.decrement` — count up and down; a full counter
  starts anew, and a counter at zero stays.
* `Task.setDue`, `Task.changePriority`, `Task.toggleCollapse`, `Task.hide`.
* `Settings.toggleComment` — comment a line out, or in again.
* `Outline.delete` — drop a task with all that is nested under it.
-/
import TaskList.Action.Tags
import TaskList.Outline.Basic

namespace TaskList

namespace Task

/-! ## Completion -/

/-- Complete an open task, which drops its overdue tag too, or reopen a
done one. -/
def toggleDone (task : Task) (settings : Settings) (now : Instant) : List Edit :=
  task.removeOverdue ++
    if task.isDone then task.clearCompletion
    else if settings.stampsCompletion then [task.stampCompletion settings now]
    else [.insert task.line task.contentStart settings.doneMark .insertMarker]

/-- Count one up. What fills the counter completes the task; a full counter
starts anew at zero and reopens it. -/
def increment (task : Task) (settings : Settings) (now : Instant) : List Edit :=
  match task.count? with
  | none => []
  | some ⟨_, count⟩ =>
    if count.isComplete then task.writeCount count 0 .setCount :: task.clearStamp
    else
      (if count.current + 1 = count.needed then
        task.stampCompletion settings now :: task.removeOverdue
      else []) ++ [task.writeCount count (count.current + 1) .setCount]

/-- Count one down, not below zero. A full counter reopens the task. -/
def decrement (task : Task) : List Edit :=
  match task.count? with
  | none => []
  | some ⟨_, count⟩ =>
    if count.current = 0 then []
    else (if count.isComplete then task.clearStamp else []) ++
      [task.writeCount count (count.current - 1) .setCount]

/-- Count one up if there is a counter; otherwise complete or reopen. -/
def advance (task : Task) (settings : Settings) (now : Instant) : List Edit :=
  if task.count?.isSome then task.increment settings now else task.toggleDone settings now

/-! ## Due date and priority -/

/-- Say when the task is due. -/
def setDue (task : Task) (value : Text) : List Edit :=
  match task.due? with
  | some tag =>
    [.replace task.line tag.span (tagText "due".toList value) .setDue (.text value)]
  | none => [task.append (tagText "due".toList value) .setDue (.text value)]

end Task

/-- The ways to change a priority. -/
inductive Direction where
  /-- Towards A. -/
  | raise
  /-- Towards Z. -/
  | lower
  deriving DecidableEq, Repr

namespace Direction

/-- The way that a word stands for. -/
def ofName? (word : String) : Option Direction :=
  if word == "increment" then some .raise
  else if word == "decrement" then some .lower
  else none

/-- A word that stands for no way to change a priority. -/
structure Unknown where
  /-- The word. -/
  word : Text
  deriving DecidableEq, Repr

/-- What is said of such a word. -/
def Unknown.message (e : Unknown) : String :=
  s!"Unknown priority direction: {String.ofList e.word}"

/-- The letter one step further; none where the letters end. -/
def next? (direction : Direction) (letter : Char) : Option Char :=
  match direction with
  | .raise => if letter = 'A' then none else some (Char.ofNat (letter.toNat - 1))
  | .lower => if letter = 'Z' then none else some (Char.ofNat (letter.toNat + 1))

end Direction

namespace Task

/-- Change the priority by one letter. A task without one counts as Z. -/
def changePriority (task : Task) (direction : Direction) : List Edit :=
  match direction.next? (task.letter?.getD 'Z') with
  | none => []
  | some letter =>
    match task.priority with
    | some ⟨span, _⟩ =>
      [.replace task.line span ['(', letter, ')'] .setPriority (.text [letter])]
    | none =>
      [.insert task.line ((task.marker.map (·.stop)).getD task.contentStart)
        ['(', letter, ')', ' '] .setPriority (.text [letter])]

/-! ## Visibility -/

/-- Collapse the task, or open it again. -/
def toggleCollapse (task : Task) : List Edit :=
  match task.collapsedTag? with
  | some tag => [.delete task.line (task.tagSpan tag.span) .toggleCollapse (.flag false)]
  | none => [task.append (Token.tag "c".toList none).text .toggleCollapse (.flag true)]

/-- Hide the task. -/
def hide (task : Task) : List Edit :=
  if task.isHidden then [] else [task.append (Token.tag "h".toList none).text .hide]

end Task

/-! ## Lines -/

/-- Comment a line out, or in again if it starts with the comment mark. -/
def Settings.toggleComment (settings : Settings) (line : Int) (text : Text) : List Edit :=
  if settings.commentMark.isPrefixOf text then
    [.delete line ⟨0, settings.commentMark.length⟩ .toggleComment]
  else [.insert line 0 settings.commentMark .toggleComment]

/-- Drop the task of a line with all that is nested under it. -/
def Outline.delete (o : Outline) (line : Int) : Except OutlineError (List Edit) :=
  match o.get? line with
  | none => .ok []
  | some node =>
    match o.nested node with
    | .error e => .error e
    | .ok below =>
      .ok ((node.line :: below).map fun number => { line := number, kind := .deleteLine })

end TaskList
