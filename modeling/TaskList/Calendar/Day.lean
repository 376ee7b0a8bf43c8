/-
TaskList.Calendar.Day — the days of the Gregorian calendar, years 1 to
9999, and arithmetic on them.

* `Day` — a day, held as its number: 1 is Monday, 1 January of year 1.
* `Day.ofCivil?` and `Day.civil` — between a day and its year, month and
  day of the month; the calendar is proleptic, so leap years follow one
  rule throughout.
* `Day.weekday`, `Day.daysUntil`, `Day.shift` — the day of the week, the
  distance to another day, and the day at a distance. `Day.shift` fails
  with a `ShiftError` when there is no such day.
-/

namespace TaskList

/-! ## Years and months -/

namespace Calendar

/-- The last year of the calendar. -/
def lastYear : Nat := 9999

/-- Every fourth year is a leap year, but of the hundredth ones only every
fourth. -/
def isLeap (year : Nat) : Bool := year % 4 == 0 && (year % 100 != 0 || year % 400 == 0)

/-- The lengths of the months of a year, January first. -/
def monthLengths (year : Nat) : List Nat :=
  [31, if isLeap year then 29 else 28, 31, 30, 31, 30, 31, 31, 30, 31, 30, 31]

/-- The number of days before the first day of a year. -/
def daysBeforeYear (year : Nat) : Nat :=
  let years := year - 1
  365 * years + years / 4 - years / 100 + years / 400

/-- The number of days of a year before the first day of a month. -/
def daysBeforeMonth (year month : Nat) : Nat :=
  ((monthLengths year).take (month - 1)).foldr (· + ·) 0

/-- The length of a month; zero for a month that does not exist. -/
def daysInMonth (year month : Nat) : Nat :=
  if month = 0 then 0 else ((monthLengths year)[month - 1]?).getD 0

/-- The year that a day number falls into. The estimate from the mean
length of a year is at most one year off. -/
def yearOf (number : Nat) : Nat :=
  let estimate := (number - 1) * 400 / 146097 + 1
  if number ≤ daysBeforeYear estimate then estimate - 1
  else if daysBeforeYear (estimate + 1) < number then estimate + 1
  else estimate

/-- The month and the day of the month, given the lengths of the months
that are left, the number of the first of them and the days to count. -/
def monthAndDay : List Nat → Nat → Nat → Nat × Nat
  | [], month, day => (month, day)
  | length :: rest, month, day =>
    if day ≤ length then (month, day) else monthAndDay rest (month + 1) (day - length)

/-- The number of the last day of the calendar. -/
def lastNumber : Nat := daysBeforeYear (lastYear + 1)

end Calendar

/-! ## Days -/

/-- A day of the calendar, as its number counted from 1 January of year 1,
which has number one. -/
structure Day where
  /-- The number of the day. -/
  number : Nat
  /-- Numbers start at one. -/
  one_le : 1 ≤ number
  /-- The last day is 31 December 9999. -/
  le_last : number ≤ Calendar.lastNumber
  deriving DecidableEq, Repr

/-- The days of the week. -/
inductive Weekday where
  | monday | tuesday | wednesday | thursday | friday | saturday | sunday
  deriving DecidableEq, Repr

/-- A year, a month and a day of the month. -/
structure Civil where
  /-- The year. -/
  year : Nat
  /-- The month, January being one. -/
  month : Nat
  /-- The day of the month. -/
  day : Nat
  deriving DecidableEq, Repr

/-- Does the calendar have such a day? -/
def Civil.Exists (c : Civil) : Prop :=
  1 ≤ c.year ∧ c.year ≤ Calendar.lastYear ∧ 1 ≤ c.month ∧ c.month ≤ 12 ∧
    1 ≤ c.day ∧ c.day ≤ Calendar.daysInMonth c.year c.month

instance (c : Civil) : Decidable c.Exists := by unfold Civil.Exists; infer_instance

/-- The number of a day, counted from its year, month and day. -/
def Civil.number (c : Civil) : Nat :=
  Calendar.daysBeforeYear c.year + Calendar.daysBeforeMonth c.year c.month + c.day

namespace Weekday

/-- The days of the week in order, Monday first. -/
def all : List Weekday := [.monday, .tuesday, .wednesday, .thursday, .friday, .saturday, .sunday]

/-- The place of a day in the week, counted from Monday as zero. -/
def number : Weekday → Nat
  | .monday => 0
  | .tuesday => 1
  | .wednesday => 2
  | .thursday => 3
  | .friday => 4
  | .saturday => 5
  | .sunday => 6

end Weekday

/-- Why there is no day at a distance. -/
inductive ShiftError where
  /-- The distance is beyond 999999999 days. -/
  | tooFar (days : Int)
  /-- The distance does not even fit into a machine word. -/
  | tooWide
  /-- The calendar has no such day. -/
  | outOfCalendar
  deriving DecidableEq, Repr

/-- What is said when there is no day at a distance. -/
def ShiftError.message : ShiftError → String
  | .tooFar days => s!"days={days}; must have magnitude <= 999999999"
  | .tooWide => "Python int too large to convert to C int"
  | .outOfCalendar => "date value out of range"

namespace Day

/-- The day with a number, if there is one. -/
def ofNumber? (number : Int) : Option Day :=
  if h : 1 ≤ number ∧ number ≤ Calendar.lastNumber then
    some ⟨number.toNat, by omega, by omega⟩
  else none

/-- The day of a year, month and day of the month, if there is one. -/
def ofCivil? (c : Civil) : Option Day :=
  if c.Exists then ofNumber? c.number else none

/-- The year, month and day of the month of a day. -/
def civil (d : Day) : Civil :=
  let year := Calendar.yearOf d.number
  let (month, day) :=
    Calendar.monthAndDay (Calendar.monthLengths year) 1 (d.number - Calendar.daysBeforeYear year)
  ⟨year, month, day⟩

/-- The day of the week. -/
def weekday (d : Day) : Weekday :=
  match (d.number - 1) % 7 with
  | 0 => .monday
  | 1 => .tuesday
  | 2 => .wednesday
  | 3 => .thursday
  | 4 => .friday
  | 5 => .saturday
  | _ => .sunday

/-- The days from one day to another, negative towards the past. -/
def daysUntil (a b : Day) : Int := (b.number : Int) - (a.number : Int)

/-- The day at a distance, negative towards the past. -/
def shift (d : Day) (days : Int) : Except ShiftError Day :=
  if days < -2147483648 ∨ 2147483647 < days then .error .tooWide
  else if 999999999 < days.natAbs then .error (.tooFar days)
  else match ofNumber? (d.number + days) with
    | some day => .ok day
    | none => .error .outOfCalendar

/-- The next day; none after the last one. -/
def next? (d : Day) : Option Day := ofNumber? (d.number + 1)

/-- The day before; none before the first one. -/
def previous? (d : Day) : Option Day := ofNumber? ((d.number : Int) - 1)

/-- Days are ordered by their numbers. -/
instance : LE Day := ⟨fun a b => a.number ≤ b.number⟩

instance : LT Day := ⟨fun a b => a.number < b.number⟩

instance (a b : Day) : Decidable (a ≤ b) := inferInstanceAs (Decidable (a.number ≤ b.number))

instance (a b : Day) : Decidable (a < b) := inferInstanceAs (Decidable (a.number < b.number))

/-- The weekday's place in the week is the remainder of the day number. -/
theorem number_weekday (d : Day) : d.weekday.number = (d.number - 1) % 7 := by
  have h : (d.number - 1) % 7 < 7 := Nat.mod_lt _ (by decide)
  unfold weekday
  split <;> simp_all [Weekday.number]
  omega

end Day

end TaskList
