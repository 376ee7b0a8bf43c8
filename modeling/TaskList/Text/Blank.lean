/-
TaskList.Text.Blank — white space, and the words between it.

* `isBlank` — the white-space characters: Unicode `White_Space` and the
  four information separators U+001C to U+001F. Zero-width characters are
  not among them.
* `Text.trim` — white space removed at both ends.
* `Text.words` — the maximal runs of other characters;
  `Text.squeeze` — those runs with one space between each two.
-/
import TaskList.Text.Basic

namespace TaskList

/-- White space: Unicode `White_Space` together with the information
separators U+001C to U+001F. -/
def isBlank (c : Char) : Bool :=
  let n := c.toNat
  (0x09 ≤ n && n ≤ 0x0D) || (0x1C ≤ n && n ≤ 0x20) || n == 0x85 || n == 0xA0 ||
  n == 0x1680 || (0x2000 ≤ n && n ≤ 0x200A) || n == 0x2028 || n == 0x2029 ||
  n == 0x202F || n == 0x205F || n == 0x3000

theorem isBlank_of_isWhitespace {c : Char} (h : c.isWhitespace = true) : isBlank c = true := by
  simp only [Char.isWhitespace, Bool.or_eq_true, decide_eq_true_eq] at h
  rcases h with ((rfl | rfl) | rfl) | rfl <;> decide

namespace Text

/-- A text of white space only; the empty text is one. -/
def allBlank (t : Text) : Bool := t.all isBlank

/-- The text without the white space it starts with. -/
def trimStart (t : Text) : Text := t.dropWhile isBlank

/-- The text without the white space it ends with. -/
def trimEnd (t : Text) : Text := (t.reverse.dropWhile isBlank).reverse

/-- The text without white space at either end. -/
def trim (t : Text) : Text := trimEnd (trimStart t)

/-- The maximal runs of characters that are not white space. -/
def words (t : Text) : List Text := (cut isBlank t).filter (fun w => !w.isEmpty)

/-- The words of a text with one space between each two. -/
def squeeze (t : Text) : Text := joined [' '] (words t)

end Text

end TaskList
