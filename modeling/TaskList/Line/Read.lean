/-
TaskList.Line.Read — from a line to a task.

* `Line.head` — how a line starts: its indentation, the done mark, the
  priority, and the column where the rest begins.
* `Field.ofTag?` — what a tag says, if its value has the right shape.
* `Line.fields` — the fields of a line, from its tokens. Every mention is
  one. Of the tags of one key only the first with the right shape is one;
  the others stay in the title, and so do tags with an unknown key.
* `Line.read` — the task of a line. The title is what the marker, the
  priority and the fields leave over, so no text is lost.

Reading fails only on a run of digits that is too long to be a number.
-/
import TaskList.Settings.Basic
import TaskList.Task

namespace TaskList

/-! ## Tags -/

/-- The keys of the tags that have a meaning. -/
inductive Key where
  | due
  | completed
  | created
  | count
  | overdue
  | hidden
  | collapsed
  deriving DecidableEq, Repr

namespace Key

/-- The keys, each once. -/
def all : List Key := [.due, .completed, .created, .count, .overdue, .hidden, .collapsed]

/-- How a key is written. -/
def text : Key → Text
  | .due => "due".toList
  | .completed => "cm".toList
  | .created => "cr".toList
  | .count => "count".toList
  | .overdue => "overdue".toList
  | .hidden => "h".toList
  | .collapsed => "c".toList

/-- The key that a text spells; letter case counts. -/
def ofText? (t : Text) : Option Key := all.find? fun key => key.text == t

end Key

namespace Field

/-- The digits before and behind the slash of a counter. -/
def countDigits? (value : Text) : Option (Text × Text) :=
  match value.chomp.takeWhile Numeral.isDigit, value.chomp.dropWhile Numeral.isDigit with
  | [], _ => none
  | current, '/' :: needed =>
    if needed ≠ [] ∧ needed.all Numeral.isDigit then some (current, needed) else none
  | _, _ => none

/-- The counter of a value that starts at `column`. -/
def count? (value : Text) (column : Nat) : Except Numeral.TooLong (Option Field) :=
  match countDigits? value with
  | none => .ok none
  | some (current, needed) =>
    match Numeral.value current, Numeral.value needed with
    | .error e, _ => .error e
    | _, .error e => .error e
    | .ok c, .ok n => .ok (some (.count ⟨c, n, ⟨column, column + current.length⟩⟩))

/-- The due field of a value, for a day; a value of white space only is
none. -/
def due? (value : Text) (target : Day) : Except Numeral.TooLong (Option Field) :=
  if value.allBlank then .ok none
  else match Due.Expression.read value with
    | .error e => .error e
    | .ok expression => .ok (some (.due ⟨expression, expression.stateOn target⟩))

/-- What a tag says, its token starting at `column`; none if its value
does not have the shape that the key asks for. -/
def ofTag? (target : Day) (column : Nat) (key : Key) (value : Option Text) :
    Except Numeral.TooLong (Option Field) :=
  match key, value with
  | .due, some v => due? v target
  | .due, none => .ok none
  | .completed, none => .ok (some (.completed none))
  | .completed, some v => .ok ((Instant.parse? v).map fun i => .completed (some i))
  | .created, some v => .ok ((Instant.parse? v).map .created)
  | .created, none => .ok none
  | .count, some v => count? v (column + 1 + key.text.length + 1)
  | .count, none => .ok none
  | .overdue, some v => .ok ((Day.parse? v).map .overdue)
  | .overdue, none => .ok none
  | .hidden, none => .ok (some .hidden)
  | .hidden, some _ => .ok none
  | .collapsed, none => .ok (some .collapsed)
  | .collapsed, some _ => .ok none

end Field

namespace Line

/-! ## The start of a line -/

/-- How a line starts. -/
structure Head where
  /-- How deep the line is indented. -/
  indent : Depth
  /-- The columns of the done mark. -/
  marker : Option Span
  /-- The priority letter, with its brackets. -/
  priority : Option (Located Char)
  /-- The column where the rest of the line begins. -/
  start : Nat
  deriving DecidableEq, Repr

/-- A character of an indentation. -/
def isIndent (c : Char) : Bool := c == ' ' || c == '\t'

/-- The done mark that a text at `column` starts with. -/
def marker? (mark : Text) (column : Nat) (t : Text) : Option Span :=
  if mark ≠ [] ∧ mark.isPrefixOf t then some ⟨column, column + mark.length⟩ else none

/-- The priority that a text at `column` starts with: a capital letter
between brackets, with white space or nothing behind it. -/
def priority? (column : Nat) : Text → Option (Located Char)
  | '(' :: letter :: ')' :: rest =>
    if 'A' ≤ letter ∧ letter ≤ 'Z' ∧ rest.head?.all isBlank then
      some ⟨⟨column, column + 3⟩, letter⟩
    else none
  | _ => none

/-- The column behind a span, if there is one. -/
def past (span : Option Span) (column : Nat) : Nat := (span.map (·.stop)).getD column

/-- How a line starts, given how wide a level of indentation is. -/
def head (settings : Settings) (unit : IndentUnit) (raw : Text) : Head :=
  let indentation := raw.takeWhile isIndent
  let marker := marker? settings.doneMark indentation.length (raw.drop indentation.length)
  let column := past marker indentation.length
  let priority := priority? column (raw.drop column)
  { indent := unit.depthOf indentation
    marker := marker
    priority := priority
    start := past (priority.map (·.span)) column }

/-! ## The fields of a line -/

/-- The tokens of a line from a column on. -/
def tokens (raw : Text) (start : Nat) : List (Located Token) :=
  Token.scan start 0 (raw.take start).getLast? (raw.drop start)

/-- The field of one token, and the key that it uses up; none for a token
that stays in the title. -/
def field? (target : Day) (used : List Key) (token : Located Token) :
    Except Numeral.TooLong (Option (Field × List Key)) :=
  match token.value with
  | .mention group name => .ok (some (.mention group name, []))
  | .tag letters value =>
    match Key.ofText? letters with
    | none => .ok none
    | some key =>
      if key ∈ used then .ok none
      else match Field.ofTag? target token.span.start key value with
        | .error e => .error e
        | .ok none => .ok none
        | .ok (some field) => .ok (some (field, [key]))

/-- The fields of the tokens of a line, `used` being the keys that are
already used up. -/
def fields (target : Day) :
    List Key → List (Located Token) → Except Numeral.TooLong (List (Located Field))
  | _, [] => .ok []
  | used, token :: rest =>
    match field? target used token with
    | .error e => .error e
    | .ok none => fields target used rest
    | .ok (some (field, keys)) =>
      match fields target (keys ++ used) rest with
      | .error e => .error e
      | .ok more => .ok (⟨token.span, field⟩ :: more)

/-! ## The whole line -/

/-- What is left of a line from a column on when the fields are cut out,
its words with one space between each two. -/
def title (raw : Text) (start : Nat) (fields : List (Located Field)) : Text :=
  Text.squeeze (Span.erase (fields.map (·.span)) start (raw.drop start))

/-- How wide a level of indentation is: what is asked for, or the tab size
of the settings if that is missing or zero. -/
def indentUnit (settings : Settings) (unit : Option IndentUnit) : IndentUnit :=
  match unit with
  | none => settings.tabSize
  | some u => if u.isZero then settings.tabSize else u

/-- The task of a line, for a day. -/
def read (settings : Settings) (unit : Option IndentUnit) (target : Day) (number : Int) (raw : Text) :
    Except Numeral.TooLong Task :=
  let start := head settings (indentUnit settings unit) raw
  match fields target [] (tokens raw start.start) with
  | .error e => .error e
  | .ok found =>
    .ok { line := number
          raw := raw
          indent := start.indent
          marker := start.marker
          priority := start.priority
          fields := found
          title := title raw start.start found }

end Line

end TaskList
