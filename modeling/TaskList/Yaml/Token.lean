/-
TaskList.Yaml.Token — the parts of which a configuration document
consists.

* `Directive` — a line before a document that says how to read it.
* `Token` — a word, a mark, or one of the signs that show where lists and
  mappings begin and end. Those of lists and mappings in lines do not stand
  in the text: the indentation shows them.
-/
import TaskList.Text.Basic

namespace TaskList.Yaml

/-- A line before a document that says how to read it. -/
inductive Directive where
  /-- The version of the format, up to its point. -/
  | version (major : Nat)
  /-- What a handle in front of tags stands for. -/
  | handle (name lead : Text)
  /-- Something that is of no account. -/
  | other
  deriving DecidableEq, Repr

/-- A part of a document. -/
inductive Token where
  | directive (d : Directive)
  | documentStart
  | documentEnd
  /-- A list in lines begins. -/
  | listStart
  /-- A mapping in lines begins. -/
  | mapStart
  /-- A list or a mapping in lines ends. -/
  | blockEnd
  | openList
  | closeList
  | openMap
  | closeMap
  /-- The hyphen in front of a list item. -/
  | item
  | comma
  /-- A key follows. -/
  | key
  /-- The value of a key follows. -/
  | value
  /-- What has been named before stands here again. -/
  | alias (name : Text)
  /-- The name of what follows. -/
  | anchor (name : Text)
  /-- The tag of what follows: a handle, if there is one, and the rest. -/
  | tag (handle : Option Text) (rest : Text)
  /-- A word; `plain` if it has no quotes and does not stand in lines of
  its own. -/
  | word (plain : Bool) (t : Text)
  /-- A word that names a code point that there is not, the last part that
  is read. -/
  | missing (code : Nat)
  deriving DecidableEq, Repr

end TaskList.Yaml
