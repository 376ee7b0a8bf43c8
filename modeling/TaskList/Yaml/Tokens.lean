/-
TaskList.Yaml.Tokens — the parts of a configuration document, read from its
text.

* `Scan` — how far the reading has come: the place, the indentation of the
  lists and mappings in lines that are open, the brackets that are open, the
  places where a key may have started, and the tokens so far.
* `Scan.next?` — the reading one token further. Indentation that goes back
  ends what it has opened.
* `Tokens.read?` — the tokens of a text; none if something in it is no
  token.

Whether a word is a key shows only at the colon behind it, which must stand
on the same line and not far away. So the sign for a key is put in
afterwards, at the number of tokens that came before the word. Where only a
key may start, as at the column of a mapping in lines, its colon must come.
-/
import TaskList.Text.Bytes
import TaskList.Yaml.Cursor
import TaskList.Yaml.Token

namespace TaskList.Yaml

/-- A place where a key may have started. -/
structure PossibleKey where
  /-- The number of tokens before it. -/
  count : Nat
  /-- Must there be a key? -/
  required : Bool
  /-- The place. -/
  place : Cursor

/-- The most characters that a key may have. -/
def keyLimit : Nat := 1024

/-- Has the reading gone too far for a key that started here? -/
def PossibleKey.isStale (key : PossibleKey) (place : Cursor) : Bool :=
  key.place.line != place.line || decide (keyLimit < place.index - key.place.index)

/-- How far the reading of tokens has come. -/
structure Scan where
  /-- The place. -/
  place : Cursor
  /-- The column of the innermost list or mapping in lines. -/
  indent : Int := -1
  /-- The columns of those around it, the innermost first. -/
  outer : List Int := []
  /-- Where a key may have started, inside the innermost brackets. -/
  key : Option PossibleKey := none
  /-- The same for what is around each open bracket, the innermost
  first. -/
  around : List (Option PossibleKey) := []
  /-- The tokens so far, the last one first. -/
  done : List Token := []

namespace Scan

/-! ## Steps without reading -/

/-- Is a bracket open? -/
def inBrackets (s : Scan) : Bool := !s.around.isEmpty

/-- One more token. -/
def put (t : Token) (s : Scan) : Scan := { s with done := t :: s.done }

/-- The place moved on by some characters. -/
def forward (n : Nat) (s : Scan) : Scan := { s with place := s.place.forward n }

/-- May a key start from here on? -/
def allowKey (allowed : Bool) (s : Scan) : Scan :=
  { s with place := { s.place with fresh := allowed } }

/-- The columns around those that are to the right of a column, and the
number of the latter. -/
def unwind (column : Int) (indent : Int) : List Int → Int × List Int × Nat
  | [] => (indent, [], 0)
  | next :: outer =>
    if indent ≤ column then (indent, next :: outer, 0)
    else
      let (last, rest, count) := unwind column next outer
      (last, rest, count + 1)

/-- The end of all lists and mappings in lines that are to the right of a
column. Inside brackets indentation does not count. -/
def closeTo (column : Int) (s : Scan) : Scan :=
  if s.inBrackets then s
  else
    let (indent, outer, count) := unwind column s.indent s.outer
    { s with indent, outer, done := List.replicate count .blockEnd ++ s.done }

/-- A list or a mapping in lines at a column, unless one is open there. -/
def opened? (column : Nat) (s : Scan) : Option Scan :=
  if s.indent < column then some { s with indent := column, outer := s.indent :: s.outer }
  else none

/-- The beginning of a list or a mapping in lines at the place, unless one
is open there. -/
def openAt (t : Token) (s : Scan) : Scan :=
  match s.opened? s.place.column with
  | some opened => opened.put t
  | none => s

/-! ## Keys -/

/-- No key has started here; fails if there must be one. -/
def dropKey? (s : Scan) : Option Scan :=
  if s.key.any (·.required) then none else some { s with key := none }

/-- A possible key that is not stale; fails if it is and must be one. -/
def fresh? (place : Cursor) : Option PossibleKey → Option (Option PossibleKey)
  | none => some none
  | some key =>
    if !key.isStale place then some (some key)
    else if key.required then none else some none

/-- The reading without stale keys. -/
def dropStale? (s : Scan) : Option Scan := do
  return { s with key := ← fresh? s.place s.key, around := ← s.around.mapM (fresh? s.place) }

/-- A key may start here, if one may start here at all. -/
def saveKey? (s : Scan) : Option Scan :=
  if !s.place.fresh then some s
  else do
    let s ← s.dropKey?
    let required := !s.inBrackets && s.indent == (s.place.column : Int)
    return { s with key := some ⟨s.done.length, required, s.place⟩ }

/-- The reading with the sign for a key in front of what turned out to be
one, and the beginning of a mapping in lines in front of that, unless one is
open there. -/
def withKey (key : PossibleKey) (s : Scan) : Scan :=
  let later := s.done.take (s.done.length - key.count)
  let before := s.done.drop (s.done.length - key.count)
  let s := { s with key := none, done := later ++ Token.key :: before }
  if s.inBrackets then s
  else match s.opened? key.place.column with
    | some opened => { opened with done := later ++ Token.key :: Token.mapStart :: before }
    | none => s

/-! ## Signs -/

/-- Past an opening bracket. -/
def openBracket? (t : Token) (s : Scan) : Option Scan := do
  let s ← s.saveKey?
  return ({ s with key := none, around := s.key :: s.around }.put t).forward 1 |>.allowKey true

/-- Past a closing bracket; fails if none is open. -/
def closeBracket? (t : Token) (s : Scan) : Option Scan := do
  let s ← s.dropKey?
  match s.around with
  | [] => none
  | key :: around => return ({ s with key, around }.put t).forward 1 |>.allowKey false

/-- Past a comma. -/
def comma? (s : Scan) : Option Scan := do
  return ((← s.dropKey?).put .comma).forward 1 |>.allowKey true

/-- Where a list item or the key of a mapping in lines may start; inside
brackets anywhere. -/
def beginning? (t : Token) (s : Scan) : Option Scan :=
  if s.inBrackets then some s
  else if s.place.fresh then some (s.openAt t) else none

/-- Past the hyphen of a list item. -/
def item? (s : Scan) : Option Scan := do
  let s ← (← s.beginning? .listStart).dropKey?
  return (s.put .item).forward 1 |>.allowKey true

/-- Past the question mark of a key. -/
def keyMark? (s : Scan) : Option Scan := do
  let s ← (← s.beginning? .mapStart).dropKey?
  return (s.put .key).forward 1 |>.allowKey (!s.inBrackets)

/-- Past the colon of a value. -/
def colon? (s : Scan) : Option Scan := do
  match s.key with
  | some key => return ((s.withKey key).put .value).forward 1 |>.allowKey false
  | none =>
    let s ← s.beginning? .mapStart
    return (s.put .value).forward 1 |>.allowKey (!s.inBrackets)

/-- Past the marker of a document, which ends all lists and mappings in
lines. -/
def marker? (t : Token) (s : Scan) : Option Scan := do
  return ((← (s.closeTo (-1)).dropKey?).put t).forward 3 |>.allowKey false

/-! ## Words and marks -/

/-- Past a word, before which a key may start. -/
def word? (plain : Bool) (read : Cursor → Option (Text × Cursor)) (s : Scan) : Option Scan := do
  let s ← s.saveKey?
  let (t, after) ← read { s.place with fresh := false }
  return { s with place := after }.put (.word plain t)

/-- Past a word between double quotes, before which a key may start. If it
names a code point that there is not, it is all that is left. -/
def doubleWord? (s : Scan) : Option Scan := do
  let s ← s.saveKey?
  match ← Cursor.doubleQuoted { s.place with fresh := false } with
  | (.ok t, after) => return { s with place := after }.put (.word false t)
  | (.error code, after) => return { s with place := after, key := none }.put (.missing code)

/-- Past a word in lines of its own, which is no key. -/
def blockWord? (folded : Bool) (s : Scan) : Option Scan := do
  let s ← s.dropKey?
  let (t, after) ← s.place.blockWord folded s.indent
  return { s with place := after }.put (.word false t)

/-- A character that a name or a handle may hold. -/
def isNameChar (c : Char) : Bool := c.isAlphanum || c == '-' || c == '_'

/-- May a name end before what is left? -/
def endsName (t : Text) : Bool := t.head?.all fun c => isGap c || "?:,]\x7d%@`".toList.contains c

/-- Past a name behind its sign. -/
def name? (token : Text → Token) (s : Scan) : Option Scan := do
  let s ← s.saveKey?
  let name := (s.place.rest.drop 1).takeWhile isNameChar
  let s := (s.forward (1 + name.length)).allowKey false
  if name.isEmpty || !endsName s.place.rest then none else return s.put (token name)

/-- A character that a tag may hold as it stands. -/
def isTagChar (c : Char) : Bool := c.isAlphanum || "-;/?:@&=+$,_.!~*'()[]".toList.contains c

/-- The bytes that are written with percent signs at the start of a text,
and what follows them; none if hexadecimal digits are missing. -/
def percentBytes? : Text → Option (Bytes × Text)
  | '%' :: high :: low :: rest =>
    if Numeral.isHexDigit high && Numeral.isHexDigit low then
      (percentBytes? rest).map fun (bytes, after) =>
        (UInt8.ofNat (Numeral.inBase 16 [high, low]) :: bytes, after)
    else none
  | '%' :: _ => none
  | rest => some ([], rest)

/-- The characters of a tag, and what follows them, at most `fuel` of them.
Those behind percent signs are written in UTF-8. -/
def tagCharsFrom? : Nat → Text → Option (Text × Text)
  | 0, t => some ([], t)
  | fuel + 1, t =>
    match t with
    | [] => some ([], [])
    | c :: rest =>
      if c == '%' then do
        let (bytes, after) ← percentBytes? t
        let chars ← String.fromUTF8? ⟨bytes.toArray⟩
        let (more, after) ← tagCharsFrom? fuel after
        return (chars.toList ++ more, after)
      else if isTagChar c then
        (tagCharsFrom? fuel rest).map fun (more, after) => (c :: more, after)
      else some ([], t)

/-- The characters of a tag, and what follows them; none if there are
none. -/
def tagChars? (t : Text) : Option (Text × Text) :=
  match tagCharsFrom? t.length t with
  | some ([], _) | none => none
  | some found => some found

/-- A handle between exclamation marks, or one mark alone, and what follows
it. -/
def handle? : Text → Option (Text × Text)
  | '!' :: rest =>
    if rest.head? == some ' ' then some (['!'], rest)
    else
      let name := rest.takeWhile isNameChar
      match rest.drop name.length with
      | '!' :: after => some ('!' :: name ++ ['!'], after)
      | _ => none
  | _ => none

/-- A tag and what follows it. -/
def tag? : Text → Option (Token × Text)
  | '!' :: '<' :: rest => do
    match ← tagChars? rest with
    | (chars, '>' :: after) => return (.tag none chars, after)
    | _ => none
  | '!' :: rest =>
    if atGap rest then some (.tag none ['!'], rest)
    else if (rest.takeWhile fun c => c != ' ' && !isBreak c).contains '!' then do
      let (handle, after) ← handle? ('!' :: rest)
      let (chars, after) ← tagChars? after
      return (.tag (some handle) chars, after)
    else do
      let (chars, after) ← tagChars? rest
      return (.tag (some ['!']) chars, after)
  | _ => none

/-- Past a tag. -/
def tagMark? (s : Scan) : Option Scan := do
  let s ← s.saveKey?
  let (t, after) ← tag? s.place.rest
  if !Cursor.atSpace after then none
  else return ((s.forward (s.place.rest.length - after.length)).put t).allowKey false

/-! ## Directives -/

/-- The version that a directive names, and what follows it. -/
def version? (t : Text) : Option (Directive × Text) := do
  let t := t.dropWhile (· == ' ')
  let major := t.takeWhile Numeral.isDigit
  match t.drop major.length with
  | '.' :: rest =>
    let minor := rest.takeWhile Numeral.isDigit
    if major.isEmpty || minor.isEmpty then none
    else return (.version (Numeral.inBase 10 major), rest.drop minor.length)
  | _ => none

/-- The handle that a directive explains, and what follows it. -/
def handleMeaning? (t : Text) : Option (Directive × Text) := do
  let (name, rest) ← handle? (t.dropWhile (· == ' '))
  if rest.head? != some ' ' then none
  else
    let (lead, rest) ← tagChars? (rest.dropWhile (· == ' '))
    return (.handle name lead, rest)

/-- A directive behind its sign, and what follows it. -/
def directive? (t : Text) : Option (Directive × Text) := do
  let name := t.takeWhile isNameChar
  let rest := t.drop name.length
  if name.isEmpty || !Cursor.atSpace rest then none
  else
    let (d, rest) ←
      if name == "YAML".toList then version? rest
      else if name == "TAG".toList then handleMeaning? rest
      else some (.other, rest.dropWhile fun c => !isBreak c)
    if Cursor.atSpace rest then return (d, rest) else none

/-- Past a directive, which ends all lists and mappings in lines. -/
def directiveMark? (s : Scan) : Option Scan := do
  let s ← (s.closeTo (-1)).dropKey?
  let (d, after) ← directive? (s.place.rest.drop 1)
  let place ← (s.place.forward (s.place.rest.length - after.length)).pastLine?
  return ({ s with place }.put (.directive d)).allowKey false

/-! ## The tokens of a text -/

/-- Past the word that starts here. -/
def anyWord? (c : Char) (s : Scan) : Option Scan :=
  if (c == '|' || c == '>') && !s.inBrackets then s.blockWord? (c == '>')
  else if c == '\'' then s.word? false Cursor.singleQuoted
  else if c == '"' then s.doubleWord?
  else if Cursor.opensPlain s.inBrackets s.place.rest then
    s.word? true fun place => some (place.plain s.inBrackets (s.indent + 1) place.rest.length)
  else none

/-- The reading one token further, the next one starting with a character
before `rest`. -/
def next? (c : Char) (rest : Text) (s : Scan) : Option Scan :=
  if c == '%' && s.place.column == 0 then s.directiveMark?
  else if s.place.atMarker then s.marker? (if c == '-' then .documentStart else .documentEnd)
  else if c == '[' then s.openBracket? .openList
  else if c == '{' then s.openBracket? .openMap
  else if c == ']' then s.closeBracket? .closeList
  else if c == '}' then s.closeBracket? .closeMap
  else if c == ',' then s.comma?
  else if c == '-' && atGap rest then s.item?
  else if c == '?' && (s.inBrackets || atGap rest) then s.keyMark?
  else if c == ':' && (s.inBrackets || atGap rest) then s.colon?
  else if c == '*' then s.name? .alias
  else if c == '&' then s.name? .anchor
  else if c == '!' then s.tagMark?
  else s.anyWord? c

/-- All tokens, at most `fuel` of them still to come. -/
def run? : Nat → Scan → Option (List Token)
  | 0, _ => none
  | fuel + 1, s => do
    let s ← { s with place := s.place.skip s.inBrackets }.dropStale?
    let s := s.closeTo s.place.column
    match s.place.rest with
    | [] => return (← (s.closeTo (-1)).dropKey?).done.reverse
    | c :: rest => run? fuel (← s.next? c rest)

end Scan

namespace Tokens

/-- May the character stand in a document? -/
def isAllowed (c : Char) : Bool :=
  let n := c.toNat
  n == 0x09 || n == 0x0A || n == 0x0D || (0x20 ≤ n && n ≤ 0x7E) || n == 0x85 ||
  (0xA0 ≤ n && n ≤ 0xFFFD) || (0x10000 ≤ n && (Surrogate.code? c).isNone)

/-- The text with one kind of line break, save for the Unicode
separators. -/
def unifyBreaks : Text → Text
  | [] => []
  | '\r' :: '\n' :: rest => '\n' :: unifyBreaks rest
  | c :: rest => (if c == '\r' || c == '\u0085' then '\n' else c) :: unifyBreaks rest

/-- The tokens of a text, which may start with a byte order mark. -/
def read? (t : Text) : Option (List Token) :=
  if !t.all isAllowed then none
  else
    let t := unifyBreaks (if t.head? == some '\uFEFF' then t.drop 1 else t)
    Scan.run? (t.length + 1) { place := { rest := t } }

end Tokens

end TaskList.Yaml
