/-
TaskList.Yaml.Value — the values that a configuration document can hold.

* `Value` — nothing, a truth value, a number, a text, bytes, a date, a
  moment, a pair, a list, a set or a mapping. A list or a mapping may hold
  itself.
* `Value.isTrue` — whether a value counts as true where a truth value is
  wanted.
* `Value.quoted` — how a value is shown in a message.
* `Value.sameAs` — whether two values are equal. Numbers are equal by size,
  whatever their kinds, and so a truth value equals zero or one.
* `Value.clash?` — why two values have no order, if they have none.
* `Kind` — the kinds of values, for messages about a value of the wrong
  kind.
-/
import TaskList.Calendar.Moment
import TaskList.Number.Shortest
import TaskList.Text.Bytes

namespace TaskList.Yaml

/-- The values that a configuration document can hold. -/
inductive Value where
  | null
  | bool (b : Bool)
  | int (n : Int)
  /-- A number with a point. -/
  | decimal (d : Binary64)
  | text (t : Text)
  | bytes (b : Bytes)
  /-- A date without a time of day. -/
  | date (d : Day)
  /-- A point in time. -/
  | moment (m : Moment)
  | pair (first second : Value)
  | list (items : List Value)
  /-- The members, each once. -/
  | set (members : List Value)
  /-- Keys with their values, in the order in which they are written. -/
  | map (entries : List (Value × Value))
  /-- A list or a mapping inside of itself. -/
  | again (isMap : Bool)
  deriving Repr

/-- The kinds of values. -/
inductive Kind where
  | null | bool | int | decimal | text | bytes | date | moment | pair | list | set | map
  deriving DecidableEq, Repr

namespace Kind

/-- The word for a kind in most messages. -/
def name : Kind → String
  | .null => "NoneType"
  | .bool => "bool"
  | .int => "int"
  | .decimal => "float"
  | .text => "str"
  | .bytes => "bytes"
  | .date => "datetime.date"
  | .moment => "datetime.datetime"
  | .pair => "tuple"
  | .list => "list"
  | .set => "set"
  | .map => "dict"

/-- The word for a kind where only its last part is given. -/
def shortName : Kind → String
  | .date => "date"
  | .moment => "datetime"
  | kind => kind.name

/-- Is a value of the kind a number? -/
def isNumber : Kind → Bool
  | .bool | .int | .decimal => true
  | _ => false

end Kind

/-- Why two values have no order. -/
inductive Clash where
  /-- Their kinds are not compared with each other. -/
  | kinds (left right : Kind)
  /-- One is a date and the other a moment. -/
  | dateWithMoment
  /-- They are moments, and the distance to universal time is known for one
  of them only. -/
  | offsets
  deriving DecidableEq, Repr

/-- What is said when two values have no order. -/
def Clash.message : Clash → String
  | .kinds left right =>
    s!"'<' not supported between instances of '{left.name}' and '{right.name}'"
  | .dateWithMoment => "can't compare datetime.datetime to datetime.date"
  | .offsets => "can't compare offset-naive and offset-aware datetimes"

namespace Value

/-- The kind of a value. -/
def kind : Value → Kind
  | .null => .null
  | .bool _ => .bool
  | .int _ => .int
  | .decimal _ => .decimal
  | .text _ => .text
  | .bytes _ => .bytes
  | .date _ => .date
  | .moment _ => .moment
  | .pair .. => .pair
  | .list _ | .again false => .list
  | .set _ => .set
  | .map _ | .again true => .map

/-- Does the value count as true? -/
def isTrue : Value → Bool
  | .null => false
  | .bool b => b
  | .int n => n != 0
  | .decimal d => !d.isZero
  | .text t => !t.isEmpty
  | .bytes b => !b.isEmpty
  | .date _ | .moment _ | .pair .. | .again _ => true
  | .list items | .set items => !items.isEmpty
  | .map entries => !entries.isEmpty

/-! ## Values in messages -/

/-- Numbers with a comma between each two. -/
def numbersText (numbers : List Nat) : Text := Text.joined [',', ' '] (numbers.map Numeral.ofNat)

/-- The numbers of a date. -/
def dateParts (d : Day) : List Nat := [d.civil.year, d.civil.month, d.civil.day]

/-- The numbers of a moment. Microseconds are left out if there are none,
and the seconds with them if there are none of those either. -/
def momentParts (m : Moment) : List Nat :=
  dateParts m.day ++ [m.time.hour.val, m.time.minute.val] ++
    (if m.time.second.val = 0 ∧ m.micros.val = 0 then [] else [m.time.second.val]) ++
    (if m.micros.val = 0 then [] else [m.micros.val])

/-- The distance to universal time, behind the numbers of a moment. -/
def offsetText : Option Int → Text
  | none => []
  | some minutes =>
    ", tzinfo=datetime.timezone".toList ++
      if minutes = 0 then ".utc".toList
      else '(' :: (Calendar.spanOfMinutes minutes).toList ++ [')']

mutual

/-- How a value is shown in a message. -/
def quoted : Value → Text
  | .null => "None".toList
  | .bool true => "True".toList
  | .bool false => "False".toList
  | .int n => Numeral.ofInt n
  | .decimal d => d.text
  | .text t => t.quoted
  | .bytes b => b.quoted
  | .date d => "datetime.date(".toList ++ numbersText (dateParts d) ++ [')']
  | .moment m =>
    "datetime.datetime(".toList ++ numbersText (momentParts m) ++ offsetText m.offset ++ [')']
  | .pair first second => '(' :: Text.joined [',', ' '] [first.quoted, second.quoted] ++ [')']
  | .list items => '[' :: Text.joined [',', ' '] (quotedItems items) ++ [']']
  | .set [] => "set()".toList
  | .set members => '{' :: Text.joined [',', ' '] (quotedItems members) ++ ['}']
  | .map entries => '{' :: Text.joined [',', ' '] (quotedEntries entries) ++ ['}']
  | .again false => "[...]".toList
  | .again true => "\x7b...\x7d".toList

/-- How the items of a list are shown. -/
def quotedItems : List Value → List Text
  | [] => []
  | item :: rest => item.quoted :: quotedItems rest

/-- How the entries of a mapping are shown. -/
def quotedEntries : List (Value × Value) → List Text
  | [] => []
  | (key, value) :: rest => (key.quoted ++ ':' :: ' ' :: value.quoted) :: quotedEntries rest

end

/-! ## Equality -/

/-- The kind of what keeps the value from being a key, or a member of a
set. -/
def unhashable? : Value → Option Kind
  | .list _ | .again false => some .list
  | .set _ => some .set
  | .map _ | .again true => some .map
  | .pair first second => first.unhashable?.or second.unhashable?
  | _ => none

/-- May the value be a key, or a member of a set? -/
def isHashable (v : Value) : Bool := v.unhashable?.isNone

/-- The size of a number; truth values count as zero and one. -/
def number? : Value → Option Binary64
  | .bool b => some (.exact (if b then 1 else 0))
  | .int n => some (.exact n)
  | .decimal d => some d
  | _ => none

/-- Are two values equal that are made of no others? -/
def sameScalar : Value → Value → Bool
  | .null, .null => true
  | .text a, .text b => a == b
  | .bytes a, .bytes b => a == b
  | .date a, .date b => a == b
  | .moment a, .moment b => a.sameAs b
  | a, b =>
    match a.number?, b.number? with
    | some m, some n => m.sameAs n
    | _, _ => false

/-- Do two values make one key? What is no number is one key, though it
equals nothing. -/
def sameKey : Value → Value → Bool
  | .decimal .undefined, .decimal .undefined => true
  | .pair a b, .pair c d => a.sameKey c && b.sameKey d
  | a, b => sameScalar a b

mutual

/-- Are two values equal? In lists the order counts, in sets and mappings it
does not. -/
def sameAs : Value → Value → Bool
  | .pair a b, .pair c d => a.sameAs c && b.sameAs d
  | .set members, .set others =>
    members.length == others.length && members.all fun a => others.any a.sameKey
  | .list items, .list others => sameItems items others
  | .map entries, .map others => entries.length == others.length && sameEntries entries others
  | a, b => sameScalar a b

/-- Are the items of two lists equal, each to each? -/
def sameItems : List Value → List Value → Bool
  | [], [] => true
  | a :: rest, b :: others => a.sameAs b && sameItems rest others
  | _, _ => false

/-- Has a mapping all entries of another one? -/
def sameEntries : List (Value × Value) → List (Value × Value) → Bool
  | [], _ => true
  | (key, value) :: rest, others =>
    others.any (fun other => key.sameKey other.1 && value.sameAs other.2) && sameEntries rest others

end

instance : BEq Value := ⟨sameAs⟩

/-! ## Order -/

/-- Why two values have no order, if they have none. Pairs go by their first
parts, and by their second ones where those are equal. -/
def clash? : Value → Value → Option Clash
  | .text _, .text _ | .bytes _, .bytes _ | .date _, .date _ => none
  | .pair a b, .pair c d =>
    if !a.sameAs c then a.clash? c else if !b.sameAs d then b.clash? d else none
  | .moment a, .moment b => if a.comparable b then none else some .offsets
  | .date _, .moment _ | .moment _, .date _ => some .dateWithMoment
  | a, b => if a.kind.isNumber && b.kind.isNumber then none else some (.kinds a.kind b.kind)

/-- May one value stand before another with which it has an order? Numbers
go by size, texts by their characters, dates and moments by the calendar.
What is no number stays where it is. -/
def precedes : Value → Value → Bool
  | .text a, .text b => !decide (b < a)
  | .bytes a, .bytes b => !decide (b < a)
  | .pair a b, .pair c d => if a.sameAs c then b.precedes d else a.precedes c
  | .date a, .date b => a ≤ b
  | .moment a, .moment b => a.le b
  | a, b =>
    match a.number?, b.number? with
    | some m, some n => !n.lt m
    | _, _ => true

end Value

end TaskList.Yaml
