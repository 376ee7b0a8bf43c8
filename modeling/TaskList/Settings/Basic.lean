/-
TaskList.Settings.Basic — the settings that decide how lines are read,
written and listed.

`Settings` holds what the rest of the library works with. Where settings
come from, and what is done about unusable ones, is the matter of
`TaskList.Settings.Profile`.
-/
import TaskList.Line.Indent

namespace TaskList

/-- The order in which groups are listed. -/
inductive GroupOrder where
  /-- By name, letter case apart. -/
  | alphabetic
  /-- By the number of tasks, the largest first. -/
  | count
  deriving DecidableEq, Repr

namespace GroupOrder

/-- The orders, each once. -/
def all : List GroupOrder := [.alphabetic, .count]

/-- The word for an order in data. -/
def name : GroupOrder → String
  | .alphabetic => "alphabetic"
  | .count => "count"

/-- The order that a word stands for. -/
def ofName? (word : String) : Option GroupOrder := all.find? fun o => o.name == word

end GroupOrder

/-- The settings that decide how lines are read, written and listed. -/
structure Settings where
  /-- What stands in front of a done task; nothing if it is empty. -/
  doneMark : Text := "x ".toList
  /-- What stands in front of a comment; there are no comments if it is
  empty. -/
  commentMark : Text := "# ".toList
  /-- How wide one level of indentation is. -/
  tabSize : IndentUnit := .columns 4
  /-- One level is at least one column wide. -/
  tabSize_isWide : tabSize.isWide = true := by decide
  /-- Is a task completed by a completion tag, or by the done mark? -/
  stampsCompletion : Bool := true
  /-- Does a completion tag hold the time of day? -/
  stampsTime : Bool := false
  /-- The order of the tags. -/
  tagOrder : GroupOrder := .alphabetic
  /-- The order of the projects. -/
  projectOrder : GroupOrder := .alphabetic
  /-- The order of the contexts. -/
  contextOrder : GroupOrder := .alphabetic
  /-- The task file to use when none is named. -/
  defaultFile : Text := []
  deriving DecidableEq, Repr

end TaskList
