/-
TaskList.Text.Quoted — a text as a quoted literal, for messages.

* `Text.quoted` — the literal. Single quotes stand around it unless the
  text has a single quote and no double one. Backslashes, the quote in use
  and every character that is not printable are escaped: tab, line feed and
  carriage return by a letter, the others by their code point in two, four
  or eight hexadecimal digits.
-/
import TaskList.Text.Numeral
import TaskList.Text.Quoted.Table
import TaskList.Text.Surrogate

namespace TaskList

namespace Quoted

/-- Can the character be shown as itself? -/
def isPrintable (c : Char) : Bool :=
  !unprintable.any fun range => range.1 ≤ c.toNat && c.toNat ≤ range.2

/-- One character between quotes of the given kind. -/
def escape (quote c : Char) : Text :=
  if c == quote || c == '\\' then ['\\', c]
  else if c == '\t' then ['\\', 't']
  else if c == '\n' then ['\\', 'n']
  else if c == '\r' then ['\\', 'r']
  else if isPrintable c then [c]
  else
    let code := Surrogate.code c
    if code ≤ 0xFF then '\\' :: 'x' :: Numeral.hex 2 code
    else if code ≤ 0xFFFF then '\\' :: 'u' :: Numeral.hex 4 code
    else '\\' :: 'U' :: Numeral.hex 8 code

end Quoted

/-- The text as a quoted literal. -/
def Text.quoted (t : Text) : Text :=
  let quote := if t.contains '\'' && !t.contains '"' then '"' else '\''
  quote :: t.flatMap (Quoted.escape quote) ++ [quote]

end TaskList
