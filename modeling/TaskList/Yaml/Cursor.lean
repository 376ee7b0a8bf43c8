/-
TaskList.Yaml.Cursor — a place in a configuration document.

* `Cursor` — what is left to read, the column, the line and the number of
  characters before it, and whether a key may start here.
* `Cursor.skip` — past spaces, comments and line breaks.
* `Cursor.plain`, `Cursor.singleQuoted`, `Cursor.doubleQuoted`,
  `Cursor.blockWord` — the word that starts at a place, and the place behind
  it. A word between double quotes may name a code point that there is not.

Line breaks inside a word are folded: one becomes a space, of several the
first is dropped, and white space around them goes too. In a word that
stands in lines of its own they are folded only behind the sign `>`, and not
around lines that start with a blank.
-/
import TaskList.Text.Numeral
import TaskList.Text.Surrogate

namespace TaskList.Yaml

/-- A place in a document. -/
structure Cursor where
  /-- What is left to read. -/
  rest : Text
  /-- The column, from zero. -/
  column : Nat := 0
  /-- The line, from zero. -/
  line : Nat := 0
  /-- The number of characters before the place. -/
  index : Nat := 0
  /-- May a key start here? -/
  fresh : Bool := true
  deriving Repr

/-- A line break in a document whose other breaks are line feeds. -/
def isBreak (c : Char) : Bool := c == '\n' || c == '\u2028' || c == '\u2029'

/-- A space, a tab or a line break. -/
def isGap (c : Char) : Bool := c == ' ' || c == '\t' || isBreak c

/-- Does a gap or the end come here? -/
def atGap (t : Text) : Bool := t.head?.all isGap

namespace Cursor

/-! ## Moving on -/

/-- Is the character one that takes no column, a byte order mark? -/
def takesNoColumn (c : Char) : Bool := c == '\uFEFF'

/-- One character on. -/
def step (place : Cursor) : Cursor :=
  match place.rest with
  | [] => place
  | c :: rest =>
    let place := { place with rest := rest, index := place.index + 1 }
    if isBreak c then { place with column := 0, line := place.line + 1 }
    else if takesNoColumn c then place
    else { place with column := place.column + 1 }

/-- Some characters on. -/
def forward : Nat → Cursor → Cursor
  | 0, place => place
  | n + 1, place => forward n place.step

/-- Does a line start with a document marker, `---` or `...`? -/
def isMarker : Text → Bool
  | '-' :: '-' :: '-' :: rest => atGap rest
  | '.' :: '.' :: '.' :: rest => atGap rest
  | _ => false

/-- Does a document marker stand here? -/
def atMarker (place : Cursor) : Bool := place.column == 0 && isMarker place.rest

/-- Past spaces, comments and line breaks, at most `fuel` characters.
Outside brackets a key may start on a new line. -/
def skipFrom (inBrackets : Bool) : Nat → Bool → Cursor → Cursor
  | 0, _, place => place
  | fuel + 1, comment, place =>
    match place.rest with
    | [] => place
    | c :: _ =>
      if isBreak c then
        skipFrom inBrackets fuel false { place.step with fresh := place.fresh || !inBrackets }
      else if comment || c == ' ' then skipFrom inBrackets fuel comment place.step
      else if c == '#' then skipFrom inBrackets fuel true place.step
      else place

/-- Past spaces, comments and line breaks. -/
def skip (inBrackets : Bool) (place : Cursor) : Cursor :=
  skipFrom inBrackets place.rest.length false place

/-- Past spaces on one line. -/
def skipSpaces (place : Cursor) : Cursor :=
  place.forward (place.rest.takeWhile (· == ' ')).length

/-! ## Folding -/

/-- What a run of line breaks becomes. -/
def fold : List Char → Text
  | [] => []
  | first :: more =>
    if first != '\n' then first :: more
    else if more.isEmpty then [' '] else more

/-! ## Plain words -/

/-- May a plain word start here? -/
def opensPlain (inBrackets : Bool) : Text → Bool
  | [] => false
  | c :: rest =>
    if isGap c then false
    else if c == '-' then !atGap rest
    else if c == '?' || c == ':' then !inBrackets && !atGap rest
    else !",[]{}#&*!|>'\"%@`".toList.contains c

/-- Does a plain word end before this character, `rest` being what follows
it? -/
def closesPlain (inBrackets : Bool) (c : Char) (rest : Text) : Bool :=
  isGap c ||
  (c == ':' && (atGap rest || (inBrackets && rest.head?.any (",[]{}".toList.contains ·)))) ||
  (inBrackets && ",?[]{}".toList.contains c)

/-- The part of a plain word without a gap. -/
def plainChunk (inBrackets : Bool) : Text → Text
  | [] => []
  | c :: rest => if closesPlain inBrackets c rest then [] else c :: plainChunk inBrackets rest

/-- The line breaks and spaces that follow a line break, and the place
behind them; none if a document marker comes. -/
def moreBreaks : Nat → Cursor → Option (List Char) × Cursor
  | 0, place => (some [], place)
  | fuel + 1, place =>
    if place.atMarker then (none, place)
    else match place.rest with
      | c :: _ =>
        if c == ' ' then moreBreaks fuel place.step
        else if isBreak c then
          let (more, after) := moreBreaks fuel place.step
          (more.map (c :: ·), after)
        else (some [], place)
      | [] => (some [], place)

/-- The gap behind a part of a plain word, folded, and the place behind
it. An empty gap ends the word. -/
def plainGap (place : Cursor) : Text × Cursor :=
  let spaces := place.rest.takeWhile (· == ' ')
  let after := place.forward spaces.length
  match after.rest with
  | c :: _ =>
    if isBreak c then
      let next := { after.step with fresh := true }
      match moreBreaks next.rest.length next with
      | (some more, last) => (fold (c :: more), last)
      | (none, last) => ([], last)
    else (spaces, after)
  | [] => (spaces, after)

/-- The plain word that starts here, on further lines at column `indent`
at least. -/
def plain (inBrackets : Bool) (indent : Int) : Nat → Cursor → Text × Cursor
  | 0, place => ([], place)
  | fuel + 1, place =>
    match plainChunk inBrackets place.rest with
    | [] => ([], place)
    | chunk =>
      let (gap, after) := plainGap { place.forward chunk.length with fresh := false }
      if gap.isEmpty || after.rest.head? == some '#' ||
          (!inBrackets && decide (after.column < indent)) then
        (chunk, after)
      else
        match plain inBrackets indent fuel after with
        | ([], last) => (chunk, last)
        | (more, last) => (chunk ++ gap ++ more, last)

/-! ## Quoted words -/

/-- A part of a quoted word. -/
inductive Piece where
  /-- A character that stands for itself. -/
  | char (c : Char)
  /-- A space or a tab, which goes if a line break follows. -/
  | space (c : Char)
  /-- A line break. -/
  | lineBreak (c : Char)
  /-- A line break that is taken back. -/
  | joint
  /-- A code point that there is not. Nothing behind it is read. -/
  | missing (code : Nat)

/-- What a run of spaces and line breaks becomes: the spaces if there is
no break among them, and the folded breaks otherwise. -/
def closeGap (spaces breaks : Text) (joined : Bool) : Text :=
  if joined then breaks.reverse
  else if breaks.isEmpty then spaces.reverse
  else fold breaks.reverse

/-- The text of a quoted word, `spaces` and `breaks` being the gap before
what is left, backwards, and `joined` telling whether it began with a break
that was taken back. -/
def unfold (spaces breaks : Text) (joined : Bool) : List Piece → Text
  | [] => closeGap spaces breaks joined
  | .char c :: rest => closeGap spaces breaks joined ++ c :: unfold [] [] false rest
  | .space c :: rest => unfold (c :: spaces) breaks joined rest
  | .lineBreak c :: rest => unfold [] (c :: breaks) joined rest
  | .joint :: rest => closeGap spaces breaks joined ++ unfold [] [] true rest
  | .missing _ :: rest => unfold spaces breaks joined rest

/-- A character between quotes that is not escaped. -/
def Piece.ofChar (c : Char) : Piece :=
  if isBreak c then .lineBreak c
  else if c == ' ' || c == '\t' then .space c
  else .char c

/-- The parts of a word behind a single quote, and what follows the quote
that ends it. A quote inside is written twice. No line of the word may
start with a document marker. -/
def singlePieces : Text → Option (List Piece × Text)
  | [] => none
  | '\'' :: '\'' :: rest => (singlePieces rest).map fun (more, after) => (.char '\'' :: more, after)
  | '\'' :: rest => some ([], rest)
  | c :: rest =>
    if isBreak c && isMarker rest then none
    else (singlePieces rest).map fun (more, after) => (.ofChar c :: more, after)

/-- The characters that one letter stands for behind a backslash. -/
def escapes : List (Char × Char) :=
  [('0', '\x00'), ('a', '\x07'), ('b', '\x08'), ('t', '\t'), ('\t', '\t'), ('n', '\n'),
   ('v', '\x0B'), ('f', '\x0C'), ('r', '\r'), ('e', '\x1B'), (' ', ' '), ('"', '"'),
   ('\\', '\\'), ('/', '/'), ('N', '\u0085'), ('_', '\u00A0'), ('L', '\u2028'), ('P', '\u2029')]

/-- The number of digits behind a letter that announces a code point. -/
def codeLength? (c : Char) : Option Nat :=
  if c == 'x' then some 2 else if c == 'u' then some 4 else if c == 'U' then some 8 else none

/-- The character with a code point, or what stands for the half of a
pair. -/
def charOf? (n : Nat) : Option Char :=
  (Surrogate.ofCode? n).or (if n.isValidChar then some (Char.ofNat n) else none)

/-- The parts of a word behind a double quote, and what follows the quote
that ends it. The first `skip` characters are already taken. -/
def doublePieces : Nat → Text → Option (List Piece × Text)
  | _, [] => none
  | skip + 1, _ :: rest => doublePieces skip rest
  | 0, '"' :: rest => some ([], rest)
  | 0, '\\' :: c :: rest =>
    if isBreak c then
      if isMarker rest then none
      else (doublePieces 1 (c :: rest)).map fun (more, after) => (.joint :: more, after)
    else match escapes.find? (·.1 == c), codeLength? c with
      | some (_, meaning), _ =>
        (doublePieces 1 (c :: rest)).map fun (more, after) => (.char meaning :: more, after)
      | none, some length =>
        let digits := rest.take length
        if digits.length = length ∧ digits.all Numeral.isHexDigit then
          let code := Numeral.inBase 16 digits
          match charOf? code with
          | some meaning =>
            (doublePieces (length + 1) (c :: rest)).map fun (more, after) =>
              (.char meaning :: more, after)
          | none => some ([.missing code], [])
        else none
      | none, none => none
  | 0, c :: rest =>
    if isBreak c && isMarker rest then none
    else (doublePieces 0 rest).map fun (more, after) => (.ofChar c :: more, after)

/-- The place where only `after` is left. -/
def upTo (place : Cursor) (after : Text) : Cursor :=
  { place.forward (place.rest.length - after.length) with fresh := false }

/-- The word between single quotes that starts here. -/
def singleQuoted (place : Cursor) : Option (Text × Cursor) :=
  (singlePieces (place.rest.drop 1)).map fun (pieces, after) =>
    (unfold [] [] false pieces, place.upTo after)

/-- The code point that a word names and that there is not. -/
def missing? (pieces : List Piece) : Option Nat :=
  pieces.findSome? fun piece =>
    match piece with
    | .missing code => some code
    | _ => none

/-- The word between double quotes that starts here, or a code point in it
that there is not. -/
def doubleQuoted (place : Cursor) : Option (Except Nat Text × Cursor) :=
  (doublePieces 0 (place.rest.drop 1)).map fun (pieces, after) =>
    (match missing? pieces with
      | some code => .error code
      | none => .ok (unfold [] [] false pieces), place.upTo after)

/-! ## Words in lines of their own -/

/-- What becomes of the line breaks at the end of a word. -/
inductive Chomping where
  /-- One of them stays. -/
  | clip
  /-- None of them stays. -/
  | strip
  /-- All of them stay. -/
  | keep
  deriving DecidableEq, Repr

/-- What the sign at the end of a line says of the lines that follow. -/
structure BlockHeader where
  /-- What becomes of the line breaks at the end. -/
  chomping : Chomping
  /-- The columns by which the lines are indented, if that is said. -/
  increment : Option Nat

/-- What a sign says of the line breaks at the end. -/
def chomping? : Text → Option Chomping
  | '+' :: _ => some .keep
  | '-' :: _ => some .strip
  | _ => none

/-- The columns that a digit stands for; none if there is no digit. -/
def increment? : Text → Option Nat
  | c :: _ => if Numeral.isDigit c then some (Numeral.digitValue c) else none
  | [] => none

/-- Does a space, a line break or the end come here? A tab does not
count. -/
def atSpace (t : Text) : Bool := t.head?.all fun c => c == ' ' || isBreak c

/-- What the signs at a place say, in either order, and what follows
them. -/
def blockHeader? (place : Cursor) : Option (BlockHeader × Cursor) :=
  let first := chomping? place.rest
  let behind := if first.isSome then place.step else place
  let increment := increment? behind.rest
  let behind := if increment.isSome then behind.step else behind
  let second := if first.isSome || increment.isNone then none else chomping? behind.rest
  let behind := if second.isSome then behind.step else behind
  if increment == some 0 || !atSpace behind.rest then none
  else some (⟨(first.or second).getD .clip, increment⟩, behind)

/-- Past the rest of a line on which nothing but a comment may stand. -/
def pastLine? (place : Cursor) : Option Cursor :=
  let place := place.skipSpaces
  let place :=
    if place.rest.head? == some '#' then
      place.forward (place.rest.takeWhile fun c => !isBreak c).length
    else place
  match place.rest with
  | [] => some place
  | c :: _ => if isBreak c then some place.step else none

/-- The line breaks before the next line of a word, past the spaces before
the column at which its lines start. -/
def blockBreaks (column : Nat) : Nat → Cursor → Text × Cursor
  | 0, place => ([], place)
  | fuel + 1, place =>
    match place.rest with
    | [] => ([], place)
    | c :: _ =>
      if isBreak c then
        let (more, after) := blockBreaks column fuel place.step
        (c :: more, after)
      else if c == ' ' && decide (place.column < column) then blockBreaks column fuel place.step
      else ([], place)

/-- The line breaks before the first line of a word, past all spaces, and
the largest column that the spaces lead to. -/
def blockStart : Nat → Nat → Cursor → Text × Nat × Cursor
  | 0, column, place => ([], column, place)
  | fuel + 1, column, place =>
    match place.rest with
    | [] => ([], column, place)
    | c :: _ =>
      if isBreak c then
        let (more, last, after) := blockStart fuel column place.step
        (c :: more, last, after)
      else if c == ' ' then blockStart fuel (max column (place.column + 1)) place.step
      else ([], column, place)

/-- Does a line start with a blank? -/
def startsBlank (t : Text) : Bool := t.head?.any fun c => c == ' ' || c == '\t'

/-- The lines of a word, given the line breaks before the next of them; with
it the breaks behind the last line, the first of them apart. -/
def blockLines (folded : Bool) (column : Nat) : Nat → Text → Cursor → Text × Text × Text × Cursor
  | 0, breaks, place => ([], [], breaks, place)
  | fuel + 1, breaks, place =>
    if place.rest.isEmpty || place.column != column then ([], [], breaks, place)
    else
      let line := place.rest.takeWhile fun c => !isBreak c
      let atEnd := place.forward line.length
      let first := atEnd.rest.take 1
      let (more, next) := blockBreaks column atEnd.rest.length atEnd.step
      if next.rest.isEmpty || next.column != column then (breaks ++ line, first, more, next)
      else
        let joins := folded && first == ['\n'] && !startsBlank line && !startsBlank next.rest
        let between := if !joins then first else if more.isEmpty then [' '] else []
        let (text, last) := blockLines folded column fuel more next
        (breaks ++ line ++ between ++ text, last)

/-- The word that stands in lines of its own, `indent` being the column of
what surrounds it. -/
def blockWord (folded : Bool) (indent : Int) (place : Cursor) : Option (Text × Cursor) := do
  let (header, place) ← blockHeader? place.step
  let start ← pastLine? place
  let least := (max 1 (indent + 1)).toNat
  let (column, breaks, first) :=
    match header.increment with
    | some increment =>
      let column := least + increment - 1
      (column, blockBreaks column start.rest.length start)
    | none =>
      let (breaks, column, first) := blockStart start.rest.length 0 start
      (max least column, breaks, first)
  let (text, last, more, after) := blockLines folded column first.rest.length breaks first
  let kept := match header.chomping with
    | .strip => []
    | .clip => last
    | .keep => last ++ more
  return (text ++ kept, { after with fresh := true })

end Cursor

end TaskList.Yaml
