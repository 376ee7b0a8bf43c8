/-
TaskList.Yaml.Write — how a mapping is written as a configuration
document.

* `Yaml.write` — one entry a line, in the order given. Lists and mappings
  go on lines of their own, one item or entry a line, and the entries of
  inner mappings in the order of their keys.
* `Yaml.style` — how a text is written: plainly if that reads back as the
  same text; between single quotes if it holds a leading or trailing blank,
  an indicator, or a word with another meaning; between double quotes,
  escaped, if it holds anything but printable ASCII and line feeds.

A line is broken at a space once it is wider than `width` columns, save in a
key. A key that is empty, long or broken into lines stands behind a question
mark.
-/
import TaskList.Yaml.Cursor
import TaskList.Yaml.Scalar

namespace TaskList.Yaml

/-- The widest line that is not broken. -/
def width : Nat := 80

/-- The ways to write a text. -/
inductive Style where
  | plain
  | single
  | double
  deriving DecidableEq, Repr

/-! ## The choice of a style -/

/-- A character that needs no escape: printable ASCII and the line feed. -/
def isSimple (c : Char) : Bool := c == '\n' || (' ' ≤ c && c ≤ '~')

/-- Does one of two characters stand right before the other? -/
def hasPair (first second : Char) : Text → Bool
  | c :: d :: rest => (c == first && d == second) || hasPair first second (d :: rest)
  | _ => false

/-- Does a text hold a colon before a gap, or a number sign behind one? -/
def hasInnerIndicator : Text → Bool
  | c :: d :: rest =>
    (c == ':' && isGap d) || (isGap c && d == '#') || hasInnerIndicator (d :: rest)
  | [c] => c == ':'
  | [] => false

/-- Does a text start with a character that means something else there? -/
def hasLeadingIndicator : Text → Bool
  | [] => false
  | c :: rest =>
    "#,[]{}&*!|>'\"%@`".toList.contains c ||
    ((c == '?' || c == ':' || c == '-') && atGap rest)

/-- May the text stand without quotes? -/
def isPlain (t : Text) : Bool :=
  t.all isSimple && !t.contains '\n' && t.head? != some ' ' && t.getLast? != some ' ' &&
  !"---".toList.isPrefixOf t && !"...".toList.isPrefixOf t &&
  !hasLeadingIndicator t && !hasInnerIndicator t && Scalar.tagOf t == .text

/-- May the text stand between single quotes? -/
def isSingle (t : Text) : Bool :=
  t.all isSimple && !hasPair '\n' ' ' t && !hasPair ' ' '\n' t

/-- How a text is written. -/
def style (t : Text) : Style :=
  if isPlain t then .plain else if isSingle t then .single else .double

/-! ## The styles -/

/-- Where a text goes on when its line is broken. -/
structure Margin where
  /-- The column. -/
  column : Nat
  /-- May a line be broken at a space? -/
  mayBreak : Bool := true

namespace Margin

/-- A new line that goes on with the same text. -/
def newLine (m : Margin) : Text := '\n' :: List.replicate m.column ' '

/-- Is a line broken that has reached a column? -/
def breaksAt (m : Margin) (column : Nat) : Bool := m.mayBreak && decide (width < column)

end Margin

/-- A plain text, written from a column on; lines are broken at single
spaces. `spaces` counts the spaces just before. -/
def plainFrom (m : Margin) (column spaces : Nat) : Text → Text
  | [] => List.replicate spaces ' '
  | ' ' :: rest => plainFrom m column (spaces + 1) rest
  | c :: rest =>
    if spaces == 1 && m.breaksAt column then m.newLine ++ c :: plainFrom m (m.column + 1) 0 rest
    else List.replicate spaces ' ' ++ c :: plainFrom m (column + spaces + 1) 0 rest

/-- A run of spaces or of line feeds that waits to be written. -/
inductive Gap where
  | none
  /-- This many spaces; `first` if the text starts with them. -/
  | spaces (count : Nat) (first : Bool)
  /-- This many line feeds. -/
  | breaks (count : Nat)

/-- A gap between single quotes, before the end of the text if `last`, and
the column behind it. -/
def Gap.single (m : Margin) (column : Nat) (last : Bool) : Gap → Text × Nat
  | .none => ([], column)
  | .spaces count first =>
    if count == 1 && m.breaksAt column && !first && !last then (m.newLine, m.column)
    else (List.replicate count ' ', column + count)
  | .breaks count => (List.replicate count '\n' ++ m.newLine, m.column)

/-- A text between single quotes, written from a column on. -/
def singleFrom (m : Margin) (column : Nat) (gap : Gap) : Text → Text
  | [] => (gap.single m column true).1 ++ ['\'']
  | c :: rest =>
    if c == ' ' then
      match gap with
      | .none => singleFrom m column (.spaces 1 false) rest
      | .spaces count first => singleFrom m column (.spaces (count + 1) first) rest
      | .breaks _ =>
        let (text, column) := gap.single m column false
        text ++ singleFrom m column (.spaces 1 false) rest
    else if c == '\n' then
      match gap with
      | .none => singleFrom m column (.breaks 1) rest
      | .breaks count => singleFrom m column (.breaks (count + 1)) rest
      | .spaces .. =>
        let (text, column) := gap.single m column false
        text ++ singleFrom m column (.breaks 1) rest
    else
      let (text, column) := gap.single m column false
      let written := if c == '\'' then ['\'', '\''] else [c]
      text ++ written ++ singleFrom m (column + written.length) .none rest

/-- The hexadecimal digits of a code point, in capitals. -/
def codeText (length n : Nat) : Text := (Numeral.hex length n).map Char.toUpper

/-- A character between double quotes, if it needs an escape. -/
def escape? (c : Char) : Option Text :=
  match (Cursor.escapes.filter fun e => e.1 != '\t' && e.1 != ' ' && e.1 != '/').find?
      (·.2 == c) with
  | some (letter, _) => some ['\\', letter]
  | none =>
    let code := Surrogate.code c
    if ' ' ≤ c && c ≤ '~' then none
    else if code ≤ 0xFF then some ('\\' :: 'x' :: codeText 2 code)
    else if code ≤ 0xFFFF then some ('\\' :: 'u' :: codeText 4 code)
    else some ('\\' :: 'U' :: codeText 8 code)

/-- A broken line between double quotes, and the column behind it: a space
that starts the new line is escaped. -/
def Margin.brokenBefore (m : Margin) (rest : Text) : Text × Nat :=
  if rest.head? == some ' ' then ('\\' :: m.newLine ++ ['\\'], m.column + 1)
  else ('\\' :: m.newLine, m.column)

/-- A text between double quotes, written from a column on. `index` is the
place of the next character among `length`, and `run` holds the characters
that are not yet written, backwards. -/
def doubleFrom (m : Margin) (length : Nat) (index column : Nat) (run : Text) : Text → Text
  | [] => run.reverse ++ ['"']
  | c :: rest =>
    let inside := 0 < index && index + 1 < length
    match escape? c with
    | some escaped =>
      let column := column + run.length + escaped.length
      if inside && m.breaksAt (column - 1) then
        let (broken, next) := m.brokenBefore rest
        run.reverse ++ escaped ++ broken ++ doubleFrom m length (index + 1) next [] rest
      else run.reverse ++ escaped ++ doubleFrom m length (index + 1) column [] rest
    | none =>
      if inside && (c == ' ' || run.isEmpty) && m.breaksAt (column + run.length) then
        let (broken, next) := m.brokenBefore (c :: rest)
        run.reverse ++ broken ++ doubleFrom m length (index + 1) next [c] rest
      else doubleFrom m length (index + 1) column (c :: run) rest

/-- A text in the style that it needs, written from a column on. -/
def textFrom (m : Margin) (column : Nat) (t : Text) : Text :=
  match style t with
  | .plain => plainFrom m column 0 t
  | .single =>
    '\'' :: singleFrom m (column + 1) (if t.head? == some ' ' then .spaces 0 true else .none) t
  | .double => '"' :: doubleFrom m t.length 0 (column + 1) [] t

/-! ## Values -/

/-- A number with a point; an exponent does not stand without one. -/
def decimalText (d : Binary64) : Text :=
  match d with
  | .infinite negative => (if negative then ['-'] else []) ++ ".inf".toList
  | .undefined => ".nan".toList
  | .finite .. =>
    if d.text.contains '.' then d.text
    else d.text.flatMap fun c => if c == 'e' then ".0e".toList else [c]

/-- A single value, written from a column on. -/
def scalarFrom (m : Margin) (column : Nat) : Value → Text
  | .null => "null".toList
  | .bool b => if b then "true".toList else "false".toList
  | .int n => Numeral.ofInt n
  | .decimal d => decimalText d
  | .text t => textFrom m column t
  | .bytes b => "!!binary '".toList ++ b.base64 ++ ['\'']
  | .date d => d.padded
  | .moment i => plainFrom m column 0 (i.padded.map fun c => if c == 'T' then ' ' else c)
  | .pair .. | .list _ | .again false => "[]".toList
  | .set _ => "!!set \x7b\x7d".toList
  | .map _ | .again true => "\x7b\x7d".toList

/-! ## Keys -/

/-- The characters of the tag that goes with a single value, which count
for the length of a key though they are not written. -/
def tagLength : Value → Nat
  | .null | .bool _ => 6
  | .decimal _ => 7
  | .bytes _ => 8
  | .date _ | .moment _ => 11
  | .int _ | .text _ | .pair .. | .list _ | .set _ | .map _ | .again _ => 5

/-- The most characters of a key that stands before its colon, with its
tag. -/
def keyWidth : Nat := 127

/-- A character that breaks a line in a document. -/
def breaksLine (c : Char) : Bool := isBreak c || c == '\u0085'

/-- Does a key stand before its colon, and not behind a question mark? -/
def isShortKey (key : Value) : Bool :=
  match key with
  | .text t => !t.isEmpty && !t.any breaksLine && decide (t.length + tagLength key ≤ keyWidth)
  | _ => decide ((scalarFrom ⟨0, false⟩ 0 key).length + tagLength key ≤ keyWidth)

/-- Has every key an order with every other? -/
def areOrdered (entries : List (Value × Text)) : Bool :=
  entries.all fun a => entries.all fun b => (a.1.clash? b.1).isNone

/-- Written entries in the order of their keys, as far as these have an
order. -/
def inOrder (entries : List (Value × Text)) : List (Value × Text) :=
  if areOrdered entries then entries.mergeSort fun a b => a.1.precedes b.1 else entries

/-! ## Lists and mappings -/

/-- Lines at a column, one part after the other; what stands before the
first of them is written already. -/
def blockAt (column : Nat) (parts : List Text) : Text :=
  Text.joined (List.replicate column ' ') parts

/-- The same on lines of their own. -/
def linesAt (column : Nat) (parts : List Text) : Text :=
  '\n' :: List.replicate column ' ' ++ blockAt column parts

/-- What stands in front of a value. -/
inductive Lead where
  /-- A hyphen, or a colon on a line of its own. -/
  | sign
  /-- A key with its colon, which ends before a column. -/
  | key (column : Nat)

/-- The column behind what stands in front of a value in a list or a
mapping at a column. -/
def Lead.stop (column : Nat) : Lead → Nat
  | .sign => column + 1
  | .key last => last

/-- A key at a column up to its colon, and what it is for the value. -/
def keyText (column : Nat) (key : Value) : Text × Lead :=
  let written := scalarFrom ⟨column + 2, false⟩ column key
  if isShortKey key then (written ++ [':'], .key (column + written.length + 1))
  else
    ('?' :: ' ' :: scalarFrom ⟨column + 2, true⟩ (column + 2) key ++
      '\n' :: List.replicate column ' ' ++ [':'], .sign)

/-- The members of a set at a column: keys without values. -/
def membersAt (column : Nat) (members : List Value) : List (Value × Text) :=
  members.map fun member => (member, (keyText column member).1 ++ " null\n".toList)

mutual

/-- A value in a list or a mapping at a column, up to the end of its last
line. Inner lists and mappings start right behind a sign, and below a
key. -/
def valueAt (column : Nat) (lead : Lead) : Value → Text
  | .list items =>
    if items.isEmpty then " []\n".toList
    else match lead with
      | .sign => ' ' :: blockAt (column + 2) (itemsAt (column + 2) items)
      | .key _ => linesAt column (itemsAt column items)
  | .pair first second =>
    match lead with
    | .sign =>
      ' ' :: blockAt (column + 2)
        ['-' :: valueAt (column + 2) .sign first, '-' :: valueAt (column + 2) .sign second]
    | .key _ =>
      linesAt column ['-' :: valueAt column .sign first, '-' :: valueAt column .sign second]
  | .set members =>
    if members.isEmpty then " !!set \x7b\x7d\n".toList
    else " !!set".toList ++
      linesAt (column + 2) ((inOrder (membersAt (column + 2) members)).map (·.2))
  | .map entries =>
    let parts := (inOrder (entriesAt (column + 2) entries)).map (·.2)
    if entries.isEmpty then " \x7b\x7d\n".toList
    else match lead with
      | .sign => ' ' :: blockAt (column + 2) parts
      | .key _ => linesAt (column + 2) parts
  | value => ' ' :: scalarFrom ⟨column + 2, true⟩ (lead.stop column + 1) value ++ ['\n']

/-- The items of a list at a column. -/
def itemsAt (column : Nat) : List Value → List Text
  | [] => []
  | item :: rest => ('-' :: valueAt column .sign item) :: itemsAt column rest

/-- The entries of a mapping at a column, with their keys. -/
def entriesAt (column : Nat) : List (Value × Value) → List (Value × Text)
  | [] => []
  | (key, value) :: rest =>
    let (text, lead) := keyText column key
    (key, text ++ valueAt column lead value) :: entriesAt column rest

end

/-- A document of entries. -/
def write (entries : List (Text × Value)) : Text :=
  blockAt 0 ((entriesAt 0 (entries.map fun e => (.text e.1, e.2))).map (·.2))

end TaskList.Yaml
