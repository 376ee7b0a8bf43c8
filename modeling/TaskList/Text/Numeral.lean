/-
TaskList.Text.Numeral — whole numbers as text.

* `Numeral.value` — the number that a run of digits denotes; a run longer
  than `Numeral.longest` is refused with `Numeral.TooLong`.
* `Numeral.ofNat` — the digits of a number, the first not zero unless it is
  alone; `Numeral.padded` and `Numeral.hex` fill up to a width with zeros.
* `Numeral.inBase` — the number that digits denote in a base up to sixteen.
* `Numeral.typed` — a number as somebody types it in a base: white space
  around it, a sign, the mark of the base, single underscores between
  digits, and the digits of any script. `Numeral.int?` is that in base ten.

`value_ofNat` says that the digits of a number denote it.
-/
import TaskList.Text.Blank
import TaskList.Text.Numeral.Table

namespace TaskList.Numeral

/-- A digit from `0` to `9`. -/
def isDigit (c : Char) : Bool := '0' ≤ c && c ≤ '9'

/-- A run of digits that is too long to be read as a number. -/
structure TooLong where
  /-- The length of the run, zeros in front included. -/
  digits : Nat
  deriving Repr, DecidableEq

/-- The most digits that a number may be written with. -/
def longest : Nat := 4300

/-- What is said of a run of digits that is too long. -/
def TooLong.message (e : TooLong) : String :=
  s!"Exceeds the limit ({longest} digits) for integer string conversion: value has {e.digits}" ++
  " digits; use sys.set_int_max_str_digits() to increase the limit"

/-- The number that a run of digits denotes. -/
def value (digits : Text) : Except TooLong Nat :=
  if longest < digits.length then .error ⟨digits.length⟩
  else .ok (Nat.ofDigitChars 10 digits 0)

/-- The digits of a number. -/
def ofNat (n : Nat) : Text := Nat.toDigits 10 n

/-- The digits of a number with zeros in front, up to the given width. -/
def padded (width n : Nat) : Text := List.leftpad width '0' (ofNat n)

/-- The hexadecimal digits of a number with zeros in front, up to the given
width. -/
def hex (width n : Nat) : Text := List.leftpad width '0' (Nat.toDigits 16 n)

/-- The digits of an integer, a minus sign in front of a negative one. -/
def ofInt : Int → Text
  | .ofNat n => ofNat n
  | .negSucc n => '-' :: ofNat (n + 1)

/-- The digits of a number denote it, as long as they are not too many. -/
theorem value_ofNat {n : Nat} (h : (ofNat n).length ≤ longest) : value (ofNat n) = .ok n := by
  unfold value
  rw [if_neg (by omega)]
  exact congrArg Except.ok (Nat.ofDigitChars_toDigits (by decide) (by decide))

/-! ## Other bases -/

/-- A digit of a hexadecimal number. -/
def isHexDigit (c : Char) : Bool :=
  isDigit c || ('a' ≤ c && c ≤ 'f') || ('A' ≤ c && c ≤ 'F')

/-- The value of a digit in a base up to sixteen. -/
def digitValue (c : Char) : Nat :=
  if isDigit c then c.toNat - 48 else if 'a' ≤ c then c.toNat - 87 else c.toNat - 55

/-- A digit of a number in a base up to sixteen. -/
def isDigitIn (base : Nat) (c : Char) : Bool := isHexDigit c && decide (digitValue c < base)

/-- The number that digits denote in a base. -/
def inBase (base : Nat) (t : Text) : Nat := t.foldl (fun n c => base * n + digitValue c) 0

/-! ## Numbers as they are typed -/

/-- A sign in front of a number, and what follows it. -/
def signed : Text → Bool × Text
  | '-' :: rest => (true, rest)
  | '+' :: rest => (false, rest)
  | t => (false, t)

/-- A number with its sign. -/
def withSign (negative : Bool) (n : Int) : Int := if negative then -n else n

/-- The plain digit for a digit of any script, and any other character as it
is. -/
def plainDigit (c : Char) : Char :=
  match zeros.find? fun z => z ≤ c.toNat && c.toNat < z + 10 with
  | some z => Char.ofNat (0x30 + (c.toNat - z))
  | none => c

/-- White space that may stand around a number: that of Unicode alone,
without the information separators. -/
def isPadding (c : Char) : Bool := isBlank c && !(0x1C ≤ c.toNat && c.toNat ≤ 0x1F)

/-- A text with plain digits, and without the padding at either end. -/
def unpadded (t : Text) : Text :=
  (((t.map plainDigit).dropWhile isPadding).reverse.dropWhile isPadding).reverse

/-- Why a text is no number as it is typed. -/
inductive Mistyped where
  /-- It has another shape. -/
  | shape
  /-- It has too many digits. -/
  | tooLong (cause : TooLong)
  deriving Repr, DecidableEq

/-- The letter that marks a base, behind a zero in front of the digits. -/
def isMark (base : Nat) (c : Char) : Bool :=
  match base with
  | 2 => c == 'b' || c == 'B'
  | 8 => c == 'o' || c == 'O'
  | 16 => c == 'x' || c == 'X'
  | _ => false

/-- What follows the mark of a base, and an underscore behind it; all of the
text if there is no mark. -/
def pastMark (base : Nat) (t : Text) : Text :=
  match t with
  | '0' :: c :: '_' :: rest => if isMark base c then rest else t
  | '0' :: c :: rest => if isMark base c then rest else t
  | _ => t

/-- The number that a run of digits denotes in a base, underscores left out.
The length of a run counts in base ten only. -/
def ofRun (base : Nat) (digits : Text) : Except Mistyped Nat :=
  if base = 10 then (value digits).mapError .tooLong else .ok (inBase base digits)

/-- The number that digits denote in a base, with single underscores between
them. Nothing may follow them; this is found out after a run that is too
long. -/
def digitsTyped (base : Nat) (t : Text) : Except Mistyped Nat := do
  let run := t.takeWhile fun c => isDigitIn base c || c == '_'
  if (Text.cut (· == '_') run).any (·.isEmpty) then throw .shape
  let n ← ofRun base (run.filter (· != '_'))
  if run.length = t.length then return n else throw .shape

/-- The integer that somebody typed in a base: white space around it, a sign,
the mark of the base, single underscores between digits, and the digits of
any script. -/
def typed (base : Nat) (t : Text) : Except Mistyped Int :=
  let (negative, rest) := signed (unpadded t)
  (digitsTyped base (pastMark base rest)).map fun n => withSign negative n

/-- The integer that somebody typed in base ten. -/
def int? (t : Text) : Option Int := (typed 10 t).toOption

end TaskList.Numeral
