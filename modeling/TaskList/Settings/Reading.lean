/-
TaskList.Settings.Reading — lines read and edited with settings as they
come from outside.

* `Profile.readLine`, `Profile.readDocument` — a line or a document, read
  with the settings of a profile.
* `Profile.toggleComment` — a line commented out or in again.
* `Profile.applyEdits` — lines with edits carried out, among which may be
  one that puts the done mark in.

A mark is compared with a line only when there is one to compare, so a mark
that is no text does no harm before that: the comment mark needs a line
that is not blank, the done mark one that is no comment either. A value that
counts as false is no mark at all.
-/
import TaskList.Action.Basic
import TaskList.Document
import TaskList.Settings.Profile

namespace TaskList

/-- Why lines cannot be read. -/
inductive ReadingError where
  /-- A mark is no text. -/
  | badMark (kind : Yaml.Kind)
  /-- A run of digits is too long to be a number. -/
  | tooLong (cause : Numeral.TooLong)
  deriving DecidableEq, Repr

/-- What is said when lines cannot be read. -/
def ReadingError.message : ReadingError → String
  | .badMark kind => s!"startswith first arg must be str or a tuple of str, not {kind.shortName}"
  | .tooLong cause => cause.message

namespace Profile

/-- Is the value a mark, or no mark at all? -/
def isMark (value : Yaml.Value) : Bool := !value.isTrue || value.kind == .text

/-- Refuses a mark that is no text. -/
def needMark (value : Yaml.Value) : Except ReadingError Unit :=
  if isMark value then .ok () else .error (.badMark value.kind)

/-- What was read, or the reason why there are too many digits in it. -/
def orTooLong {α : Type} : Except Numeral.TooLong α → Except ReadingError α
  | .ok a => .ok a
  | .error e => .error (.tooLong e)

/-- The task of a line, for a day. -/
def readLine (p : Profile) (unit : Option IndentUnit) (target : Day) (number : Int) (raw : Text) :
    Except ReadingError Task := do
  needMark p.doneMark
  orTooLong (Line.read p.settings unit target number raw)

/-- Refuses marks that are no texts, as far as some lines are compared with
them. -/
def needMarks (p : Profile) (lines : List NumberedLine) : Except ReadingError Unit := do
  let written := lines.filter Document.isWritten
  if !written.isEmpty then needMark p.commentMark
  if !written.all (Document.isComment p.settings) then needMark p.doneMark

/-- The document of some lines, for a day. -/
def readDocument (p : Profile) (unit : Option IndentUnit) (target : Day) (lines : List NumberedLine) :
    Except ReadingError Document := do
  p.needMarks lines
  orTooLong (Document.read p.settings unit target lines)

/-- Comment a line out, or in again. There must be a mark to do it with. -/
def toggleComment (p : Profile) (line : Int) (text : Text) : Except ReadingError (List Edit) :=
  if p.commentMark.kind == .text then .ok (p.settings.toggleComment line text)
  else .error (.badMark p.commentMark.kind)

end Profile

/-! ## Edits -/

/-- Why edits cannot be carried out. -/
inductive EditError where
  /-- There is no line with the number of an edit. -/
  | noSuchLine (cause : Edit.NoSuchLine)
  /-- The done mark is to be put in and is no text. -/
  | badMark (kind : Yaml.Kind)
  deriving DecidableEq, Repr

/-- What is said when edits cannot be carried out. -/
def EditError.message : EditError → String
  | .noSuchLine cause => cause.message
  | .badMark kind => s!"can only concatenate str (not \"{kind.name}\") to str"

namespace Profile

/-- Does the edit put the done mark in? -/
def insertsMark (e : Edit) : Bool := e.kind == .insertMarker

/-- How the text of an edit is shown. -/
def shownText (p : Profile) (e : Edit) : Text :=
  if insertsMark e then p.doneMark.quoted else e.text.quoted

/-- The lines with edits carried out. A done mark that is no text cannot be
put in. -/
def applyEdits (p : Profile) (lines : List Text) (edits : List Edit) :
    Except EditError (List Text) :=
  if edits.any insertsMark && p.doneMark.kind != .text then .error (.badMark p.doneMark.kind)
  else match Edit.applyAll lines edits with
    | .ok changed => .ok changed
    | .error e => .error (.noSuchLine e)

end Profile

end TaskList
