/-
TaskList.Calendar.Moment — a point in time, to the microsecond.

* `Moment` — a day, a time of day with a fraction of a second, and how far
  the clock is ahead of universal time, if that is known.
* `Moment.of?` — the moment of its parts; it fails with the first
  `MomentError` that applies.
* `Moment.le` — the order of moments. Two moments whose distance to
  universal time is known for only one of them have no order.
* `Moment.padded` — the moment as text.
-/
import TaskList.Calendar.Written

namespace TaskList

/-- A point in time. -/
structure Moment where
  /-- The day. -/
  day : Day
  /-- The time of day. -/
  time : TimeOfDay
  /-- The microseconds after the second. -/
  micros : Fin 1000000
  /-- The minutes by which the clock is ahead of universal time. -/
  offset : Option Int
  deriving DecidableEq, Repr

/-- Why parts make no moment. -/
inductive MomentError where
  /-- The clock is a day or more away from universal time, by as many
  minutes. -/
  | offset (minutes : Int)
  /-- The calendar has no such day. -/
  | day (civil : Civil)
  | hour
  | minute
  | second
  deriving DecidableEq, Repr

/-- The parts of a moment. -/
structure MomentParts where
  /-- The year, the month and the day of the month. -/
  civil : Civil
  /-- The hour. -/
  hour : Nat
  /-- The minute. -/
  minute : Nat
  /-- The second. -/
  second : Nat
  /-- The microseconds after the second. -/
  micros : Fin 1000000
  /-- The minutes by which the clock is ahead of universal time. -/
  offset : Option Int
  deriving DecidableEq, Repr

namespace Calendar

/-- The minutes of a day. -/
def minutesPerDay : Nat := 1440

/-- What is said of a date that does not exist. -/
def noSuchDay (date : Civil) : String :=
  if date.year = 0 then s!"year {date.year} is out of range"
  else if date.month = 0 ∨ 12 < date.month then "month must be in 1..12"
  else "day is out of range for month"

/-- A distance in time of so many minutes, by its whole days and the
seconds that are left over, which are never negative. -/
def spanOfMinutes (minutes : Int) : String :=
  let days := Int.fdiv minutes minutesPerDay
  let seconds := Int.fmod minutes minutesPerDay * 60
  let parts := (if days = 0 then [] else [s!"days={days}"]) ++
    (if seconds = 0 then [] else [s!"seconds={seconds}"])
  if parts.isEmpty then "datetime.timedelta(0)"
  else "datetime.timedelta(" ++ ", ".intercalate parts ++ ")"

end Calendar

/-- What is said of parts that make no moment. -/
def MomentError.message : MomentError → String
  | .offset minutes =>
    "offset must be a timedelta strictly between -timedelta(hours=24) and timedelta(hours=24)," ++
      s!" not {Calendar.spanOfMinutes minutes}."
  | .day civil => Calendar.noSuchDay civil
  | .hour => "hour must be in 0..23"
  | .minute => "minute must be in 0..59"
  | .second => "second must be in 0..59"

namespace Moment

/-- The moment of some parts. -/
def of? (p : MomentParts) : Except MomentError Moment :=
  if Calendar.minutesPerDay ≤ (p.offset.getD 0).natAbs then .error (.offset (p.offset.getD 0))
  else match Day.ofCivil? p.civil with
    | none => .error (.day p.civil)
    | some day =>
      if hh : ¬p.hour < 24 then .error .hour
      else if hm : ¬p.minute < 60 then .error .minute
      else if hs : ¬p.second < 60 then .error .second
      else .ok
        { day := day
          time := ⟨⟨p.hour, by omega⟩, ⟨p.minute, by omega⟩, ⟨p.second, by omega⟩⟩
          micros := p.micros
          offset := p.offset }

/-- The microseconds from the start of the calendar, by universal time as
far as that is known. -/
def number (m : Moment) : Int :=
  ((((m.day.number * 24 + m.time.hour) * 60 + m.time.minute : Nat) - m.offset.getD 0) * 60 +
    m.time.second) * 1000000 + m.micros

/-- Is the distance to universal time known for both moments or for
neither? -/
def comparable (a b : Moment) : Bool := a.offset.isSome == b.offset.isSome

/-- Is one moment not after another? -/
def le (a b : Moment) : Bool := a.comparable b && decide (a.number ≤ b.number)

/-- Are two moments one point in time? -/
def sameAs (a b : Moment) : Bool := a.comparable b && a.number == b.number

/-- The microseconds behind a point; nothing if there are none. -/
def microsText (m : Moment) : Text :=
  if m.micros.val = 0 then [] else '.' :: Numeral.padded 6 m.micros

/-- The distance to universal time, with its sign. -/
def offsetText (m : Moment) : Text :=
  match m.offset with
  | none => []
  | some minutes =>
    (if minutes < 0 then '-' else '+') :: Numeral.padded 2 (minutes.natAbs / 60) ++
      ':' :: Numeral.padded 2 (minutes.natAbs % 60)

/-- The moment with four digits for the year. -/
def padded (m : Moment) : Text :=
  m.day.padded ++ 'T' :: m.time.written ++ m.microsText ++ m.offsetText

end Moment

end TaskList
