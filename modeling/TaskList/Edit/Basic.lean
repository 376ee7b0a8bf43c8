/-
TaskList.Edit.Basic — changes of lines, described and carried out.

* `Edit` — one change: the columns of a line that a text replaces, or a
  whole line that goes away, with what it is for and what it is about.
* `Edit.applyAll` — lines with edits carried out. All columns mean the
  lines as they were: within a line the edits are carried out from right to
  left, those at one place in reverse, and lines are dropped at the end.

A negative line or column counts from the end, as far as that goes.
-/
import TaskList.Calendar.Instant
import TaskList.Line.Span

namespace TaskList

/-! ## Edits -/

/-- What an edit is for. -/
inductive EditKind where
  | insertOverdue
  | clearCount
  | clearCompletion
  | insertCompletion
  | insertMarker
  | removeOverdue
  | setCount
  | setDue
  | setPriority
  | toggleCollapse
  | hide
  | toggleComment
  | deleteLine
  deriving DecidableEq, Repr

namespace EditKind

/-- The kinds of edits, each once. -/
def all : List EditKind :=
  [.insertOverdue, .clearCount, .clearCompletion, .insertCompletion, .insertMarker,
   .removeOverdue, .setCount, .setDue, .setPriority, .toggleCollapse, .hide, .toggleComment,
   .deleteLine]

/-- The word for a kind in data. -/
def name : EditKind → String
  | .insertOverdue => "insertOverdueTag"
  | .clearCount => "clearCount"
  | .clearCompletion => "clearCompletion"
  | .insertCompletion => "insertCompletion"
  | .insertMarker => "insertDoneMarker"
  | .removeOverdue => "removeOverdueTag"
  | .setCount => "setCount"
  | .setDue => "setDue"
  | .setPriority => "setPriority"
  | .toggleCollapse => "toggleCollapse"
  | .hide => "hide"
  | .toggleComment => "toggleComment"
  | .deleteLine => "deleteLine"

/-- The kind that a word stands for. -/
def ofName? (word : String) : Option EditKind := all.find? fun k => k.name == word

end EditKind

/-- What an edit is about. -/
inductive Payload where
  | none
  | flag (b : Bool)
  | number (n : Nat)
  | text (t : Text)
  | day (d : Day)
  deriving DecidableEq, Repr

/-- One change of a line: the columns from `start` up to, not including,
`stop` are replaced by a text. Deleting a line has no columns. -/
structure Edit where
  /-- The number of the line. -/
  line : Int
  /-- What the edit is for. -/
  kind : EditKind
  /-- The first column. -/
  start : Int := 0
  /-- The column after the last one. -/
  stop : Int := 0
  /-- The text that takes the place. -/
  text : Text := []
  /-- What the edit is about. -/
  payload : Payload := .none
  deriving DecidableEq, Repr

namespace Edit

/-- Put a text in at a column. -/
def insert (line : Int) (column : Nat) (text : Text) (kind : EditKind)
    (payload : Payload := .none) : Edit :=
  ⟨line, kind, column, column, text, payload⟩

/-- Put a text in place of some columns. -/
def replace (line : Int) (span : Span) (text : Text) (kind : EditKind)
    (payload : Payload := .none) : Edit :=
  ⟨line, kind, span.start, span.stop, text, payload⟩

/-- Take some columns out. -/
def delete (line : Int) (span : Span) (kind : EditKind) (payload : Payload := .none) : Edit :=
  ⟨line, kind, span.start, span.stop, [], payload⟩

/-- Does the edit change columns, and not drop the line? -/
def isColumnEdit (e : Edit) : Bool := e.kind != .deleteLine

/-! ## Carrying edits out -/

/-- The place in a sequence that a number means; a negative number counts
from the end. -/
def place (length : Nat) (i : Int) : Nat := if i < 0 then (length + i).toNat else i.toNat

/-- A line with its columns replaced. -/
def applyTo (e : Edit) (t : Text) : Text :=
  t.take (place t.length e.start) ++ e.text ++ t.drop (place t.length e.stop)

/-- May one edit be carried out before another? The one further down and
further to the right goes first. -/
def goesFirst (a b : Edit) : Bool :=
  decide (b.line < a.line) ||
    (a.line == b.line &&
      (decide (b.start < a.start) || (a.start == b.start && decide (b.stop ≤ a.stop))))

/-- There is no line with the number of an edit. -/
structure NoSuchLine where
  /-- The number. -/
  line : Int
  deriving DecidableEq, Repr

/-- What is said when there is no such line. -/
def NoSuchLine.message (_ : NoSuchLine) : String := "list index out of range"

/-- The index of the line that a number means, if there is one. -/
def lineIndex? (count : Nat) (line : Int) : Option Nat :=
  if -(count : Int) ≤ line ∧ line < count then some (place count line) else none

/-- The lines with one edit of columns carried out. -/
def applyOne (lines : List Text) (e : Edit) : Except NoSuchLine (List Text) :=
  match lineIndex? lines.length e.line with
  | some i => .ok (lines.modify i e.applyTo)
  | none => .error ⟨e.line⟩

/-- The lines with edits of columns carried out one after the other. -/
def applyInOrder (lines : List Text) : List Edit → Except NoSuchLine (List Text)
  | [] => .ok lines
  | e :: rest =>
    match applyOne lines e with
    | .error err => .error err
    | .ok changed => applyInOrder changed rest

/-- The edits of columns in the order in which they are carried out. -/
def schedule (edits : List Edit) : List Edit :=
  (edits.filter isColumnEdit).reverse.mergeSort goesFirst

/-- The lines without those whose numbers are to go; `number` is that of
the first line. -/
def dropLines (gone : List Int) (number : Nat) : List Text → List Text
  | [] => []
  | t :: rest =>
    if gone.contains (number : Int) then dropLines gone (number + 1) rest
    else t :: dropLines gone (number + 1) rest

/-- The numbers of the lines that edits drop. -/
def dropped (edits : List Edit) : List Int :=
  (edits.filter fun e => !e.isColumnEdit).map (·.line)

/-- The lines with all edits carried out. -/
def applyAll (lines : List Text) (edits : List Edit) : Except NoSuchLine (List Text) :=
  match applyInOrder lines (schedule edits) with
  | .error err => .error err
  | .ok changed => .ok (dropLines (dropped edits) 0 changed)

end Edit

end TaskList
