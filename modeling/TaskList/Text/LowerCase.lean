/-
TaskList.Text.LowerCase — the lower-case form of a text.

* `lowerChar` — the one-character lower-case form of a character.
* `Text.lower` — the lower-case form of a text. Two characters need more
  than a table: a dotted capital I becomes an i and a combining dot, and a
  capital sigma becomes a final sigma where it ends a word.

A sigma ends a word when, case-ignorable characters passed over, a cased
letter stands before it and none after it.
-/
import TaskList.Text.Basic
import TaskList.Text.LowerCase.Table

namespace TaskList

namespace LowerCase

/-- Is the character in one of the ranges? -/
def inRanges (table : List (Nat × Nat)) (c : Char) : Bool :=
  table.any fun range => range.1 ≤ c.toNat && c.toNat ≤ range.2

/-- The distance from a code point to its lower-case form; zero for a code
point that has none of its own. -/
def distance (n : Nat) : Int :=
  match lowerRuns.find? fun run => n ≤ run.2.1 with
  | some (first, _, stride, d) => if first ≤ n && (n - first) % stride == 0 then d else 0
  | none => 0

/-- Does a word go on here, past the case-ignorable characters? -/
def startsCased (t : Text) : Bool :=
  match t.dropWhile (inRanges caseIgnorable) with
  | [] => false
  | c :: _ => inRanges casedLetters c

end LowerCase

/-- The one-character lower-case form of a character. -/
def lowerChar (c : Char) : Char := Char.ofNat ((c.toNat : Int) + LowerCase.distance c.toNat).toNat

namespace Text

/-- The lower-case form of a text that follows `before`, which is read
backwards. -/
def lowerAfter : Text → Text → Text
  | _, [] => []
  | before, c :: rest =>
    let here :=
      if c == 'Σ' then
        if LowerCase.startsCased before && !LowerCase.startsCased rest then ['ς'] else ['σ']
      else if c == 'İ' then ['i', '\u0307']
      else [lowerChar c]
    here ++ lowerAfter (c :: before) rest

/-- The lower-case form of a text. -/
def lower (t : Text) : Text := lowerAfter [] t

end Text

end TaskList
