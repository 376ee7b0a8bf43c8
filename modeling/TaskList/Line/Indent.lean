/-
TaskList.Line.Indent — how deep a line is indented.

* `IndentUnit` — how wide one level of indentation is, in columns. The
  width may have a point, since settings may.
* `Depth` — how many levels deep a line is indented, or that this cannot
  be measured, as where a tab is infinitely wide.
* `IndentUnit.depthOf` — the depth of the blanks that a line starts with. A
  tab is as wide as one level and a space is one column wide.
* `Depth.atLeast` — which of two lines is indented at least as deep. Nothing
  is so when one of them cannot be measured.
-/
import TaskList.Number.Binary64
import TaskList.Text.Basic

namespace TaskList

/-- How wide one level of indentation is. -/
inductive IndentUnit where
  /-- As many columns. -/
  | columns (n : Int)
  /-- A number of columns with a point. -/
  | measure (width : Binary64)
  deriving DecidableEq, Repr

/-- How deep a line is indented. -/
inductive Depth where
  /-- As many levels deep. -/
  | level (n : Int)
  /-- The indentation cannot be measured. -/
  | unmeasured
  deriving DecidableEq, Repr

/-- Is one depth at least as large as another? -/
def Depth.atLeast : Depth → Depth → Bool
  | .level a, .level b => decide (b ≤ a)
  | .unmeasured, _ | _, .unmeasured => false

namespace IndentUnit

/-- Is the width zero? -/
def isZero : IndentUnit → Bool
  | columns n => n == 0
  | measure width => width.isZero

/-- Is the width not below one column? -/
def isWide : IndentUnit → Bool
  | columns n => decide (1 ≤ n)
  | measure width => !width.belowOne

/-- One column. -/
def oneColumn : Binary64 := .ofScaled 1 0

/-- The width of an indentation with tabs of some width, added up from left
to right. -/
def widthOf (tab : Binary64) (indentation : Text) : Binary64 :=
  indentation.foldl (fun sum c => sum.add (if c == '\t' then tab else oneColumn)) .zero

/-- How many levels a width makes. A level of infinite width is never
reached. -/
def levels (width unit : Binary64) : Depth :=
  match width.floorDiv? unit with
  | some n => .level n
  | none => .unmeasured

/-- The depth of an indentation. In whole columns each tab is one level,
and the spaces together make one level for every unit of them. -/
def depthOf : IndentUnit → Text → Depth
  | columns n, indentation =>
    .level (indentation.count '\t' + Int.fdiv (indentation.count ' ') n)
  | measure unit, indentation => levels (widthOf unit indentation) unit

end IndentUnit

end TaskList
