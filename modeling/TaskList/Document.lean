/-
TaskList.Document — a whole task file: comments, and an outline of tasks.

* `Document.number` — the lines of a text with their numbers, from zero.
* `Source.lines` — the numbered lines of what a document is read from: a
  text, or a list of lines that may have numbers of their own.
* `Document.read` — the document of numbered lines. A line of white space
  only is skipped, a line that starts with the comment mark is kept as a
  comment, and every other line is one task.
-/
import TaskList.Line.Read
import TaskList.Outline.Basic
import TaskList.Text.LineBreak

namespace TaskList

/-- A line with its number. -/
structure NumberedLine where
  /-- The number. -/
  line : Int
  /-- The text. -/
  text : Text
  deriving DecidableEq, Repr

/-- A line of a list, with or without a number of its own. -/
inductive Entry where
  /-- A line that has its place in the list as its number. -/
  | unnumbered (text : Text)
  /-- A line with a number of its own. -/
  | numbered (line : NumberedLine)
  deriving DecidableEq, Repr

/-- What a document is read from. -/
inductive Source where
  /-- A text, which is cut into lines. -/
  | text (t : Text)
  /-- The lines one by one. -/
  | entries (items : List Entry)
  deriving DecidableEq, Repr

/-- A whole task file. -/
structure Document where
  /-- The tasks. -/
  outline : Outline
  /-- The comments from top to bottom. -/
  comments : List NumberedLine
  deriving DecidableEq, Repr

namespace Document

/-- Lines with their numbers, counted from `start`. -/
def numberFrom (start : Nat) : List Text → List NumberedLine
  | [] => []
  | text :: rest => ⟨start, text⟩ :: numberFrom (start + 1) rest

/-- Lines with their numbers, counted from zero. -/
def number (lines : List Text) : List NumberedLine := numberFrom 0 lines

end Document

/-- The line of an entry at some place of a list. -/
def Entry.at (place : Nat) : Entry → NumberedLine
  | unnumbered text => ⟨place, text⟩
  | numbered line => line

/-- The lines of a document with their numbers. -/
def Source.lines : Source → List NumberedLine
  | text t => Document.number t.lines
  | entries items => items.zipIdx.map fun (entry, place) => entry.at place

namespace Document

/-- Is the line a comment? -/
def isComment (settings : Settings) (line : NumberedLine) : Bool :=
  !settings.commentMark.isEmpty && settings.commentMark.isPrefixOf line.text

/-- Does the line hold more than white space? -/
def isWritten (line : NumberedLine) : Bool := !line.text.allBlank

/-- The document of some lines, for a day, given how wide a level of
indentation is. -/
def read (settings : Settings) (unit : Option IndentUnit) (target : Day) (lines : List NumberedLine) :
    Except Numeral.TooLong Document :=
  let written := lines.filter isWritten
  let tasks := written.filter fun line => !isComment settings line
  match tasks.mapM fun line => Line.read settings unit target line.line line.text with
  | .error e => .error e
  | .ok tasks => .ok ⟨.ofTasks tasks, written.filter (isComment settings)⟩

end Document

end TaskList
