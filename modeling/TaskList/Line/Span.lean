/-
TaskList.Line.Span — stretches of columns of one line.

* `Span` — the columns from `start` up to, not including, `stop`.
* `Located` — something together with the columns it was read from.
* `Span.erase` — what is left of a text when some spans are cut out of it.
-/
import TaskList.Text.Basic

namespace TaskList

/-- The columns of a line from `start` up to, not including, `stop`. -/
structure Span where
  /-- The first column. -/
  start : Nat
  /-- The column after the last one. -/
  stop : Nat
  deriving DecidableEq, Repr

/-- Something together with the columns it was read from. -/
structure Located (α : Type) where
  /-- The columns. -/
  span : Span
  /-- What was read there. -/
  value : α
  deriving DecidableEq, Repr

/-- The same columns with the value changed. -/
def Located.map {α β : Type} (f : α → β) (x : Located α) : Located β := ⟨x.span, f x.value⟩

namespace Span

/-- Is the column in the span? -/
def covers (s : Span) (column : Nat) : Bool := s.start ≤ column && column < s.stop

/-- The text at a span. -/
def textIn (s : Span) (t : Text) : Text := t.slice s.start s.stop

/-- The text that starts at a column, without the characters that some
span covers. -/
def erase (spans : List Span) : Nat → Text → Text
  | _, [] => []
  | column, c :: rest =>
    if spans.any (·.covers column) then erase spans (column + 1) rest
    else c :: erase spans (column + 1) rest

end Span

end TaskList
