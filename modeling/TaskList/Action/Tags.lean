/-
TaskList.Action.Tags — edits that put a tag into a task's line or take one
out.

* `Task.tagSpan` — the columns of a tag together with one space next to
  it, so that no two spaces stay where the tag was. The space is the one
  before the tag, unless that belongs to the done marker.
* `Task.append` — a tag at the end of the line.
* `Task.stampCompletion`, `Task.clearCompletion`, `Task.removeOverdue`,
  `Task.writeCount` — the edits that several actions share.
-/
import TaskList.Edit.Basic
import TaskList.Settings.Basic
import TaskList.Task

namespace TaskList

/-- A tag with a value, as it is written. -/
def tagText (key value : Text) : Text := (Token.tag key (some value)).text

namespace Task

/-- The column behind the done marker; zero without one. -/
def floor (task : Task) : Nat := (task.marker.map (·.stop)).getD 0

/-- The columns of a tag together with one space next to it. -/
def tagSpan (task : Task) (span : Span) : Span :=
  if task.floor < span.start ∧ task.raw[span.start - 1]? = some ' ' then
    ⟨span.start - 1, span.stop⟩
  else if task.raw[span.stop]? = some ' ' then ⟨span.start, span.stop + 1⟩
  else span

/-- A text at the end of the line, behind a space unless the line is empty
or ends with one. -/
def append (task : Task) (text : Text) (kind : EditKind) (payload : Payload := .none) : Edit :=
  let space : Text := if task.raw = [] ∨ task.raw.getLast? = some ' ' then [] else [' ']
  .insert task.line task.raw.length (space ++ text) kind payload

/-- The column where the indentation ends. -/
def contentStart (task : Task) : Nat :=
  (task.raw.takeWhile fun c => c == ' ' || c == '\t').length

/-- Take the overdue tag out. -/
def removeOverdue (task : Task) : List Edit :=
  match task.overdue? with
  | some tag => [.delete task.line (task.tagSpan tag.span) .removeOverdue]
  | none => []

/-- The instant as a completion tag holds it. -/
def stamp (settings : Settings) (now : Instant) : Text := now.written settings.stampsTime

/-- Put a completion tag in. -/
def stampCompletion (task : Task) (settings : Settings) (now : Instant) : Edit :=
  task.append (tagText "cm".toList (stamp settings now)) .insertCompletion
    (.text (stamp settings now))

/-- Take the done marker out. -/
def clearMarker (task : Task) : List Edit :=
  match task.marker with
  | some span => [.delete task.line span .clearCompletion (.text "done".toList)]
  | none => []

/-- Take the completion tag out. -/
def clearStamp (task : Task) : List Edit :=
  match task.completion? with
  | some tag =>
    [.delete task.line (task.tagSpan tag.span) .clearCompletion (.text "cm".toList)]
  | none => []

/-- Take both signs of completion out. -/
def clearCompletion (task : Task) : List Edit := task.clearMarker ++ task.clearStamp

/-- Put a number in place of what the counter says is done. -/
def writeCount (task : Task) (count : Count) (value : Nat) (kind : EditKind) : Edit :=
  .replace task.line count.digits (Numeral.ofNat value) kind (.number count.needed)

end Task

end TaskList
