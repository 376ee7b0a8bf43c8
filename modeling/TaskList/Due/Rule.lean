/-
TaskList.Due.Rule — one rule that says on which days something is due.

* `Rule` — today, every day, one day of the week, one date, a range of
  dates, or every so many days from a date on.
* `Rule.read` — the rule that a text stands for, letter case and white
  space around it apart; none for a text that is no rule.
* `Rule.state` — the state on a day.

A rule is written `today`, `ed`, the name of a weekday or its first three
letters, `2018-01-01`, `2018-01-01..2018-01-07` or `2018-01-01|e2d`, where
a hyphen may stand for the bar.
-/
import TaskList.Due.State
import TaskList.Calendar.Written
import TaskList.Text.LowerCase

namespace TaskList

/-! ## The names of the weekdays -/

namespace Weekday

/-- The name of a day of the week. -/
def name : Weekday → Text
  | .monday => "monday".toList
  | .tuesday => "tuesday".toList
  | .wednesday => "wednesday".toList
  | .thursday => "thursday".toList
  | .friday => "friday".toList
  | .saturday => "saturday".toList
  | .sunday => "sunday".toList

/-- The day of the week with a name, in full or cut to three letters, in
any letter case. -/
def ofName? (t : Text) : Option Weekday :=
  all.find? fun day => Text.lower t == day.name || Text.lower t == day.name.take 3

end Weekday

namespace Due

/-! ## Rules and their states -/

/-- A rule that says on which days something is due. -/
inductive Rule where
  /-- Due on any day, but not again and again. -/
  | today
  /-- Due on every day. -/
  | everyDay
  /-- Due on one day of the week. -/
  | weekday (day : Weekday)
  /-- Due on one date and overdue after it. -/
  | on (day : Day)
  /-- Due from one date to another and overdue after both. -/
  | range (first last : Day)
  /-- Due every `step` days from a date on. -/
  | every (start : Day) (step : Nat) (step_pos : 0 < step)
  deriving DecidableEq, Repr

/-- The state on `target` of what is due on one date. -/
def State.ofDate (day target : Day) : State :=
  if day = target then .due else if day < target then .overdue else .notDue

/-- The state on `target` of what is due from `first` to `last`. -/
def State.ofRange (first last target : Day) : State :=
  if first < target ∧ last < target then .overdue
  else if first ≤ target ∧ target ≤ last then .due
  else .notDue

/-- The state on `target` of what is due every `step` days from `start`
on. -/
def State.ofInterval (start : Day) (step : Nat) (target : Day) : State :=
  if start ≤ target ∧ (target.number - start.number) % step = 0 then .due else .notDue

namespace Rule

/-- The state on a day. -/
def state : Rule → Day → State
  | .today, _ => .due
  | .everyDay, _ => .due
  | .weekday day, target => if target.weekday = day then .due else .notDue
  | .on day, target => .ofDate day target
  | .range first last, target => .ofRange first last target
  | .every start step _, target => .ofInterval start step target

/-- Does the rule come round again? -/
def isRecurring : Rule → Bool
  | .everyDay | .weekday _ | .every .. => true
  | .today | .on _ | .range .. => false

/-- Is the rule a range of dates? -/
def isRange : Rule → Bool
  | .range .. => true
  | .today | .everyDay | .weekday _ | .on _ | .every .. => false

end Rule

/-! ## Reading a rule -/

/-- The digits of an interval, which is written `e`, digits, `d`. -/
def intervalDigits? (t : Text) : Option Text :=
  match t.chomp with
  | 'e' :: rest =>
    let digits := rest.dropLast
    if rest.getLast? = some 'd' ∧ digits ≠ [] ∧ digits.all Numeral.isDigit then some digits
    else none
  | _ => none

/-- The days of an interval; none if it is no interval or of no days. -/
def interval? (t : Text) : Except Numeral.TooLong (Option Nat) :=
  match intervalDigits? t with
  | none => .ok none
  | some digits =>
    match Numeral.value digits with
    | .error e => .error e
    | .ok n => .ok (if n = 0 then none else some n)

/-- The range between two dates, white space around each apart. -/
def Rule.ofRange? : List Text → Option Rule
  | [first, last] => do return .range (← Day.parse? first.trim) (← Day.parse? last.trim)
  | _ => none

/-- The rule that starts with a date: the date alone, or an interval
behind a bar or a hyphen. -/
def Rule.readDated (t : Text) : Except Numeral.TooLong (Option Rule) :=
  match Calendar.day? (t.take 10), t.drop 10 with
  | some day, [] => .ok (some (.on day))
  | some day, mark :: interval =>
    if mark = '|' ∨ mark = '-' then
      match interval? interval with
      | .error e => .error e
      | .ok none => .ok none
      | .ok (some n) => .ok (if h : 0 < n then some (.every day n h) else none)
    else .ok none
  | none, _ => .ok none

/-- The rule that a text stands for; none if it stands for no rule. Only
an interval with too many digits fails. -/
def Rule.read (text : Text) : Except Numeral.TooLong (Option Rule) :=
  let t := text.trim.lower
  if t = "today".toList then .ok (some .today)
  else if t = "ed".toList then .ok (some .everyDay)
  else match t.cutAtDots with
    | _ :: _ :: _ => .ok (Rule.ofRange? t.cutAtDots)
    | _ =>
      match Weekday.ofName? t with
      | some day => .ok (some (.weekday day))
      | none => Rule.readDated t

/-- Why an interval on its own has no state. -/
inductive IntervalError where
  /-- There is no date to count from. -/
  | noStart (interval : Text)
  /-- The interval has too many digits. -/
  | tooLong (cause : Numeral.TooLong)
  deriving DecidableEq, Repr

/-- What is said of an interval without a state. -/
def IntervalError.message : IntervalError → String
  | .noStart interval => s!"Interval rule '{String.ofList interval}' requires a start date"
  | .tooLong cause => cause.message

/-- The state on `target` of an interval counted from `start`. -/
def State.ofIntervalText (interval : Text) (start : Option Day) (target : Day) :
    Except IntervalError State :=
  match start with
  | none => .error (.noStart interval)
  | some day =>
    match interval? interval with
    | .error e => .error (.tooLong e)
    | .ok none => .ok .invalid
    | .ok (some n) => .ok (.ofInterval day n target)

/-- Why a range has no state. -/
inductive RangeError where
  /-- One of its ends has a time of day, and so is not compared with a
  day. -/
  | timeOfDay
  deriving DecidableEq, Repr

/-- What is said of a range without a state. -/
def RangeError.message : RangeError → String
  | .timeOfDay => "can't compare datetime.datetime to datetime.date"

/-- The state on `target` of what is due from one date to another. The
second one is looked at only if the first is not behind the target. -/
def State.ofInstants (first last : Instant) (target : Day) : Except RangeError State :=
  if first.time.isSome then .error .timeOfDay
  else if target < first.day then .ok .notDue
  else if last.time.isSome then .error .timeOfDay
  else .ok (.ofRange first.day last.day target)

end Due

end TaskList
