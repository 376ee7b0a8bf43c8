/-
TaskList.Number.Typed — numbers with a point as they are typed.

* `Binary64.magnitude?` — the number that digits denote, with a point among
  them or without, and an exponent behind them.
* `Binary64.typed?` — the number that somebody typed: such digits, or a word
  for an infinity or for no number; white space around it, a sign, and the
  digits of any script.
-/
import TaskList.Number.Binary64
import TaskList.Text.Numeral

namespace TaskList.Binary64

/-- An exponent; zero for none at all. -/
def exponent? : Text → Option Int
  | [] => some 0
  | e :: rest =>
    let (negative, digits) := Numeral.signed rest
    if (e == 'e' || e == 'E') && !digits.isEmpty && digits.all Numeral.isDigit then
      some (Numeral.withSign negative (Numeral.inBase 10 digits))
    else none

/-- The number that a run of digits without a sign denotes. -/
def magnitude? (t : Text) : Option Binary64 :=
  let whole := t.takeWhile Numeral.isDigit
  let rest := t.drop whole.length
  let fraction := if rest.head? = some '.' then (rest.drop 1).takeWhile Numeral.isDigit else []
  let tail := if rest.head? = some '.' then rest.drop (1 + fraction.length) else rest
  if whole.isEmpty && fraction.isEmpty then none
  else (exponent? tail).map fun e =>
    .ofScientific false (Numeral.inBase 10 (whole ++ fraction)) (e - fraction.length)

/-- The words that stand for what no digits denote. -/
def specialWords : List (String × Binary64) :=
  [("inf", .infinite false), ("infinity", .infinite false), ("nan", .undefined)]

/-- What a word stands for, whatever the case of its letters. -/
def special? (t : Text) : Option Binary64 :=
  (specialWords.find? (·.1.toList == t.map Char.toLower)).map (·.2)

/-- A number with its sign. -/
def withSign (negative : Bool) (d : Binary64) : Binary64 := if negative then d.neg else d

/-- The number that somebody typed. -/
def typed? (t : Text) : Option Binary64 :=
  let (negative, rest) := Numeral.signed (Numeral.unpadded t)
  ((special? rest).or (magnitude? rest)).map (withSign negative)

end TaskList.Binary64
