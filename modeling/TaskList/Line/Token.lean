/-
TaskList.Line.Token — the tokens of a line.

* `Token` — a tag between braces, with or without a value, or a mention of
  a group: one of three marks and a name.
* `Token.text` — how a token is written. `Token.at?` — the token that a
  text starts with.
* `Token.scan` — the tokens of a text from left to right, each with its
  columns. A token is taken at the first column where one starts, and the
  scan goes on behind it, so no two tokens overlap.

A tag is `{letters}` or `{letters:value}` with no brace in the value. A
mention starts the line or follows white space, and its name is the whole
run of other characters behind the mark, braces included.
-/
import TaskList.Line.Span
import TaskList.Text.Blank

namespace TaskList

/-- The kinds of groups that a task can be put into. -/
inductive Group where
  | tag
  | project
  | context
  deriving DecidableEq, Repr

namespace Group

/-- The kinds of groups, each once. -/
def all : List Group := [.tag, .project, .context]

/-- The word for a kind of group. -/
def name : Group → String
  | .tag => "tag"
  | .project => "project"
  | .context => "context"

/-- The kind of group that a word stands for. -/
def ofName? (word : String) : Option Group := all.find? fun g => g.name == word

/-- The mark in front of a group's name. -/
def mark : Group → Char
  | .tag => '#'
  | .project => '+'
  | .context => '@'

/-- The kind of group that a mark stands for. -/
def ofMark? (c : Char) : Option Group := all.find? fun g => g.mark == c

end Group

/-- A token of a line. -/
inductive Token where
  /-- A tag between braces. -/
  | tag (key : Text) (value : Option Text)
  /-- The mention of a group. -/
  | mention (group : Group) (name : Text)
  deriving DecidableEq, Repr

namespace Token

/-- A letter of a tag's key, from `A` to `Z` in either case. -/
def isKeyLetter (c : Char) : Bool := ('a' ≤ c && c ≤ 'z') || ('A' ≤ c && c ≤ 'Z')

/-- A character that may stand in a tag's value. -/
def isValueChar (c : Char) : Bool := c != '{' && c != '}'

/-- How a token is written. -/
def text : Token → Text
  | .tag key none => '{' :: key ++ ['}']
  | .tag key (some value) => '{' :: key ++ ':' :: value ++ ['}']
  | .mention group name => group.mark :: name

/-- The tag that a text starts with, its opening brace taken away. -/
def tag? (t : Text) : Option Token :=
  match t.takeWhile isKeyLetter, t.dropWhile isKeyLetter with
  | [], _ => none
  | key, '}' :: _ => some (.tag key none)
  | key, ':' :: rest =>
    match rest.dropWhile isValueChar with
    | '}' :: _ => some (.tag key (some (rest.takeWhile isValueChar)))
    | _ => none
  | _, _ => none

/-- The mention that a text starts with, its mark taken away. -/
def mention? (group : Group) (t : Text) : Option Token :=
  match t.takeWhile (!isBlank ·) with
  | [] => none
  | name => some (.mention group name)

/-- Does a mention start behind this character? None is the start of the
line. -/
def opensMention (before : Option Char) : Bool := before.all isBlank

/-- The token that a text starts with, `before` being the character in
front of it. -/
def at? (before : Option Char) : Text → Option Token
  | [] => none
  | '{' :: rest => tag? rest
  | c :: rest =>
    match Group.ofMark? c with
    | some group => if opensMention before then mention? group rest else none
    | none => none

/-- The tokens of a text that starts at `column` behind the character
`before`; the first `skip` characters belong to a token that is already
taken. -/
def scan (column skip : Nat) (before : Option Char) : Text → List (Located Token)
  | [] => []
  | c :: rest =>
    match skip with
    | skip + 1 => scan (column + 1) skip (some c) rest
    | 0 =>
      match at? before (c :: rest) with
      | some token =>
        ⟨⟨column, column + token.text.length⟩, token⟩ ::
          scan (column + 1) (token.text.length - 1) (some c) rest
      | none => scan (column + 1) 0 (some c) rest

end Token

end TaskList
