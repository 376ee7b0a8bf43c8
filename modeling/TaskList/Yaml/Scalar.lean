/-
TaskList.Yaml.Scalar — what a word of a configuration document means.

* `Tag` — what something in a document is meant to be. `Scalar.tagOf` is
  the tag of a word without quotes: a truth value (`yes`, `Off`, `true`, …),
  nothing (`~`, `null` or an empty word), a whole number (decimal, binary,
  octal, hexadecimal or in base sixty), a number with a point, a date with
  or without a time of day, one of the signs `<<` and `=`, and otherwise a
  text.
* `Scalar.read` — the value of a word with a tag. A tag that is given holds
  for any word, so more words denote numbers than have the shape of one.
* `ReadError` — why a document has no value. A word may have the shape of a
  number or a date and yet denote none.
-/
import TaskList.Number.Typed
import TaskList.Text.LowerCase
import TaskList.Yaml.Value

namespace TaskList.Yaml

/-- What something in a document is meant to be. -/
inductive Tag where
  | null | bool | int | decimal | text | bytes | timestamp | list | map | set
  /-- A list of pairs. -/
  | pairs
  /-- A key whose value holds further entries. -/
  | merge
  /-- The sign for a usual value. -/
  | usual
  /-- Something that there is no value for. -/
  | unknown
  deriving DecidableEq, Repr

/-- Is the tag one of lists and mappings? -/
def Tag.isCollection : Tag → Bool
  | .list | .map | .set | .pairs => true
  | _ => false

/-- Why a configuration document has no value. -/
inductive ReadError where
  /-- The text is no document, or something in it has no value. -/
  | malformed
  /-- Lists and mappings are nested too deep, or a word is looked for in what
  holds itself. -/
  | tooDeep
  /-- A word names a code point that there is not. -/
  | noCharacter (code : Nat)
  /-- A whole number has too many digits. -/
  | tooLong (cause : Numeral.TooLong)
  /-- What stands for the digits of a number in a base are none. -/
  | notWhole (base : Nat) (digits : Text)
  /-- What stands for a number with a point is none. -/
  | notDecimal (t : Text)
  /-- The empty word stands for a number. -/
  | noDigits
  /-- What stands for a truth value is none. -/
  | notTruth (t : Text)
  /-- What stands for a date is none. -/
  | notDate
  /-- A mapping stands for a date. -/
  | mappedDate
  /-- A number in base sixty has too many places. -/
  | tooLarge
  /-- A date or a time of day does not exist. -/
  | noSuchMoment (cause : MomentError)
  deriving DecidableEq, Repr

/-- What is said of a document that has no value. -/
def ReadError.message : ReadError → String
  | .malformed => ""
  | .tooDeep => "maximum recursion depth exceeded"
  | .noCharacter code =>
    if code < 0x80000000 then "chr() arg not in range(0x110000)"
    else "Python int too large to convert to C int"
  | .tooLong cause => cause.message
  | .notWhole base digits =>
    s!"invalid literal for int() with base {base}: {String.ofList (digits.quoted.take 200)}"
  | .notDecimal t => s!"could not convert string to float: {String.ofList t.quoted}"
  | .noDigits => "string index out of range"
  | .notTruth t => String.ofList t.quoted
  | .notDate => "'NoneType' object has no attribute 'groupdict'"
  | .mappedDate => "expected string or bytes-like object, got 'list'"
  | .tooLarge => "int too large to convert to float"
  | .noSuchMoment cause => cause.message

namespace Scalar

/-! ## Shapes of words -/

/-- The words for true and false. -/
def truthWords : List (String × Bool) :=
  [("yes", true), ("Yes", true), ("YES", true), ("no", false), ("No", false), ("NO", false),
   ("true", true), ("True", true), ("TRUE", true), ("false", false), ("False", false),
   ("FALSE", false), ("on", true), ("On", true), ("ON", true), ("off", false), ("Off", false),
   ("OFF", false)]

/-- The words for nothing. -/
def nullWords : List String := ["~", "null", "Null", "NULL", ""]

/-- A text without the underscores in it. -/
def bare (t : Text) : Text := t.filter (· != '_')

/-- Are there only digits and underscores? -/
def isRun (digit : Char → Bool) (t : Text) : Bool := t.all fun c => digit c || c == '_'

/-- The part of a number in base sixty behind a colon: one or two digits,
below sixty. -/
def isSixtieth : Text → Bool
  | [c] => Numeral.isDigit c
  | [c, d] => Numeral.isDigitIn 6 c && Numeral.isDigit d
  | _ => false

/-- Has a run without its sign the shape of a whole number? -/
def looksWhole : Text → Bool
  | '0' :: 'b' :: rest => !rest.isEmpty && isRun (Numeral.isDigitIn 2) rest
  | '0' :: 'x' :: rest => !rest.isEmpty && isRun Numeral.isHexDigit rest
  | '0' :: rest => isRun (Numeral.isDigitIn 8) rest
  | c :: rest =>
    Numeral.isDigit c &&
      match Text.cut (· == ':') rest with
      | first :: parts => isRun Numeral.isDigit first && parts.all isSixtieth
      | [] => true
  | [] => false

/-- Is this an exponent with its sign, or nothing? -/
def looksExponent : Text → Bool
  | [] => true
  | e :: sign :: digits =>
    (e == 'e' || e == 'E') && (sign == '+' || sign == '-') && !digits.isEmpty &&
      digits.all Numeral.isDigit
  | _ => false

/-- A digit, an underscore or a colon. -/
def isBeforePoint (c : Char) : Bool := Numeral.isDigit c || c == '_' || c == ':'

/-- Has a run without its sign the shape of a number with a point? Only
without a sign may the point come first. -/
def looksDecimal (hasSign : Bool) (t : Text) : Bool :=
  match t.dropWhile isBeforePoint with
  | '.' :: rest =>
    let fraction := rest.takeWhile fun c => Numeral.isDigit c || c == '_'
    let tail := rest.drop fraction.length
    match Text.cut (· == ':') (t.takeWhile isBeforePoint) with
    | [[]] => !hasSign && fraction.head?.any Numeral.isDigit && looksExponent tail
    | [digits] => digits.head?.any Numeral.isDigit && looksExponent tail
    | first :: parts =>
      first.head?.any Numeral.isDigit && parts.all isSixtieth && tail.isEmpty
    | [] => false
  | _ => false

/-- Is a word behind its sign an infinity? -/
def isInfinity (t : Text) : Bool := [".inf", ".Inf", ".INF"].any (·.toList == t)

/-- Does a word say that it is no number? -/
def isNoNumber (t : Text) : Bool := [".nan", ".NaN", ".NAN"].any (·.toList == t)

/-! ## Dates and times of day -/

/-- One or two digits, and what follows them. -/
def oneOrTwo? : Text → Option (Nat × Text)
  | c :: rest =>
    if !Numeral.isDigit c then none
    else match rest with
      | d :: more =>
        if Numeral.isDigit d then some (Numeral.inBase 10 [c, d], more)
        else some (Numeral.digitValue c, rest)
      | [] => some (Numeral.digitValue c, [])
  | [] => none

/-- Two digits, and what follows them. -/
def two? : Text → Option (Nat × Text)
  | c :: d :: rest =>
    if Numeral.isDigit c && Numeral.isDigit d then some (Numeral.inBase 10 [c, d], rest) else none
  | _ => none

/-- What follows a character that must come first. -/
def past? (c : Char) : Text → Option Text
  | d :: rest => if c == d then some rest else none
  | [] => none

/-- A date, and what follows it. The year has four digits. -/
def date? (t : Text) : Option (Civil × Text) := do
  let (high, rest) ← two? t
  let (low, rest) ← two? rest
  let (month, rest) ← oneOrTwo? (← past? '-' rest)
  let (day, rest) ← oneOrTwo? (← past? '-' rest)
  return (⟨100 * high + low, month, day⟩, rest)

/-- A space or a tab. -/
def isSpace (c : Char) : Bool := c == ' ' || c == '\t'

/-- What separates a time of day from the date before it. -/
def pastDate? : Text → Option Text
  | 'T' :: rest | 't' :: rest => some rest
  | c :: rest => if isSpace c then some (rest.dropWhile isSpace) else none
  | [] => none

/-- The millionths that the digits behind a point denote; those behind the
sixth do not count. -/
def millionths (digits : Text) : Fin 1000000 :=
  Fin.ofNat 1000000 (Numeral.inBase 10 (digits.take 6) * Nat.pow 10 (6 - min 6 digits.length))

/-- A fraction of a second, and what follows it. -/
def fraction : Text → Fin 1000000 × Text
  | '.' :: rest =>
    (millionths (rest.takeWhile Numeral.isDigit), rest.dropWhile Numeral.isDigit)
  | t => (0, t)

/-- The minutes in a number of hours with minutes behind a colon, which
may be missing. -/
def minutesOf? (t : Text) : Option Nat := do
  let (hours, rest) ← oneOrTwo? t
  if rest.isEmpty then return 60 * hours
  let (minutes, rest) ← two? (← past? ':' rest)
  if rest.isEmpty then return 60 * hours + minutes else none

/-- The distance to universal time, in minutes; nothing for none at
all. -/
def offset? (t : Text) : Option (Option Int) :=
  if t.isEmpty then some none
  else match t.dropWhile isSpace with
    | ['Z'] => some (some 0)
    | '+' :: rest => (minutesOf? rest).map fun n => some n
    | '-' :: rest => (minutesOf? rest).map fun n => some (-(n : Int))
    | _ => none

/-- The parts of a date and of the time of day behind it. -/
def parts? (civil : Civil) (t : Text) : Option MomentParts := do
  let (hour, rest) ← oneOrTwo? (← pastDate? t)
  let (minute, rest) ← two? (← past? ':' rest)
  let (second, rest) ← two? (← past? ':' rest)
  let (micros, rest) := fraction rest
  return { civil, hour, minute, second, micros, offset := ← offset? rest }

/-- Has a word the shape of a date? Alone it has ten characters, before a
time of day it may have fewer. -/
def looksTimestamp (t : Text) : Bool :=
  match date? t with
  | some (_, []) => t.length == 10
  | some (civil, rest) => (parts? civil rest).isSome
  | none => false

/-- A word without the line feed that may end it, unless it is nothing
else. -/
def chomped (t : Text) : Text := if t = ['\n'] then t else t.chomp

/-- The tag of a word without quotes and line feeds. -/
def tagOfLine (t : Text) : Tag :=
  let word := String.ofList t
  let (_, rest) := Numeral.signed t
  if truthWords.any (·.1 == word) then .bool
  else if nullWords.contains word then .null
  else if word == "<<" then .merge
  else if word == "=" then .usual
  else if isNoNumber t || isInfinity rest || looksDecimal (t.length != rest.length) rest then
    .decimal
  else if looksWhole rest then .int
  else if looksTimestamp t then .timestamp
  else .text

/-- The tag of a word without quotes. One line feed at its end changes
nothing. -/
def tagOf (t : Text) : Tag := tagOfLine (chomped t)

/-! ## Values -/

/-- The whole number that somebody typed in a base. -/
def typedIn (base : Nat) (t : Text) : Except ReadError Int :=
  match Numeral.typed base t with
  | .ok n => .ok n
  | .error .shape => .error (.notWhole base t)
  | .error (.tooLong cause) => .error (.tooLong cause)

/-- The whole number that a word without its sign and underscores
denotes. What follows the sign and the mark of a base may again be a number
as it is typed, with both. -/
def wholeOf : Text → Except ReadError Int
  | [] => .error .noDigits
  | '0' :: 'b' :: rest => typedIn 2 rest
  | '0' :: 'x' :: rest => typedIn 16 rest
  | '0' :: rest => typedIn 8 ('0' :: rest)
  | t => do
    let parts ← (Text.cut (· == ':') t).mapM (typedIn 10)
    return parts.foldl (fun n part => 60 * n + part) 0

/-- The whole number that a word denotes. -/
def intOf (t : Text) : Except ReadError Int :=
  let (negative, rest) := Numeral.signed (bare t)
  (wholeOf rest).map (Numeral.withSign negative)

/-- The number in base sixty with the given places, the last one first,
`base` being what the first of them counts. It is added up from the last
place on. -/
def sixties (sum : Binary64) (base : Nat) : List Binary64 → Except ReadError Binary64
  | [] => .ok sum
  | place :: rest =>
    match Binary64.ofInt? base with
    | some factor => sixties (sum.add (place.mul factor)) (60 * base) rest
    | none => .error .tooLarge

/-- The number with a point that a word denotes. -/
def decimalOf (t : Text) : Except ReadError Binary64 := do
  let t := Text.lower (bare t)
  let (negative, rest) := Numeral.signed t
  let size ← if t.isEmpty then .error .noDigits
    else if isInfinity rest then .ok (.infinite false)
    else if isNoNumber rest then .ok .undefined
    else
      let places ← (Text.cut (· == ':') rest).mapM fun part =>
        match Binary64.typed? part with
        | some n => Except.ok n
        | none => .error (.notDecimal part)
      match places with
      | [place] => .ok place
      | _ => sixties .zero 1 places.reverse
  return size.withSign negative

/-- The date or the moment that a word denotes. -/
def timestampOf (t : Text) : Except ReadError Value :=
  match date? t.chomp with
  | none => .error .notDate
  | some (civil, []) =>
    match Day.ofCivil? civil with
    | some day => .ok (.date day)
    | none => .error (.noSuchMoment (.day civil))
  | some (civil, rest) =>
    match parts? civil rest with
    | none => .error .notDate
    | some parts =>
      match Moment.of? parts with
      | .ok m => .ok (.moment m)
      | .error e => .error (.noSuchMoment e)

/-- The truth value that a word stands for, whatever the case of its
letters. -/
def boolOf (t : Text) : Except ReadError Bool :=
  match truthWords.find? (·.1.toList == t.lower) with
  | some (_, b) => .ok b
  | none => .error (.notTruth t.lower)

/-- The bytes that a word denotes. -/
def bytesOf (t : Text) : Except ReadError Bytes :=
  match Bytes.ofBase64? t with
  | some bytes => .ok bytes
  | none => .error .malformed

/-- The value of a word with a tag. -/
def read (tag : Tag) (t : Text) : Except ReadError Value :=
  match tag with
  | .text => .ok (.text t)
  | .null => .ok .null
  | .bool => (boolOf t).map .bool
  | .int => (intOf t).map .int
  | .decimal => (decimalOf t).map .decimal
  | .bytes => (bytesOf t).map .bytes
  | .timestamp => timestampOf t
  | .merge | .usual | .list | .map | .set | .pairs | .unknown => .error .malformed

/-- A text means itself. -/
theorem read_text (t : Text) : read .text t = .ok (.text t) := rfl

end Scalar

end TaskList.Yaml
