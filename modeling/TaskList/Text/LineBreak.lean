/-
TaskList.Text.LineBreak — where one line ends and the next begins.

* `isLineBreak` — the characters that end a line.
* `Text.lines` — the lines of a text, without the breaks. A carriage
  return with the line feed after it is one break; a break at the very end
  starts no further line.
* `Text.unifyBreaks` — the text of a file as it is read: a carriage return,
  alone or before a line feed, becomes a line feed.
* `Text.ofLines` — the lines of a file as they are written: one line feed
  between each two, and one at the end.
-/
import TaskList.Text.Basic

namespace TaskList

/-- A character that ends a line. -/
def isLineBreak (c : Char) : Bool :=
  let n := c.toNat
  (0x0A ≤ n && n ≤ 0x0D) || (0x1C ≤ n && n ≤ 0x1E) || n == 0x85 || n == 0x2028 || n == 0x2029

namespace Text

/-- The lines of a text. -/
def lines : Text → List Text
  | [] => []
  | '\r' :: '\n' :: rest => [] :: lines rest
  | c :: rest =>
    if isLineBreak c then [] :: lines rest
    else match lines rest with
      | [] => [[c]]
      | line :: more => (c :: line) :: more

/-- The text with every carriage return, alone or before a line feed,
turned into one line feed. -/
def unifyBreaks : Text → Text
  | [] => []
  | '\r' :: '\n' :: rest => '\n' :: unifyBreaks rest
  | '\r' :: rest => '\n' :: unifyBreaks rest
  | c :: rest => c :: unifyBreaks rest

/-- The text of a file that holds the given lines: one line feed between
each two, and one at the end. -/
def ofLines (ls : List Text) : Text := joined ['\n'] ls ++ ['\n']

end Text

end TaskList
