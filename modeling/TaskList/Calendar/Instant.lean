/-
TaskList.Calendar.Instant — a day, with or without a time of day.

Everything but the text of a completion date looks at the day alone:
`Instant.day` is what every comparison uses, `Instant.shift` keeps the time
of day.
-/
import TaskList.Calendar.Day

namespace TaskList

/-- A time of day, to the second. -/
structure TimeOfDay where
  /-- The hour. -/
  hour : Fin 24
  /-- The minute. -/
  minute : Fin 60
  /-- The second. -/
  second : Fin 60
  deriving DecidableEq, Repr

/-- The first second of a day. -/
def TimeOfDay.midnight : TimeOfDay := ⟨0, 0, 0⟩

/-- The time of an hour, a minute and a second, if there is one. -/
def TimeOfDay.of? (hour minute second : Nat) : Option TimeOfDay :=
  if h : hour < 24 ∧ minute < 60 ∧ second < 60 then
    some ⟨⟨hour, h.1⟩, ⟨minute, h.2.1⟩, ⟨second, h.2.2⟩⟩
  else none

/-- A day, with or without a time of day. -/
structure Instant where
  /-- The day. -/
  day : Day
  /-- The time of day, if one is known. -/
  time : Option TimeOfDay := none
  deriving DecidableEq, Repr

namespace Instant

/-- The days from one instant's day to another's. -/
def daysUntil (a b : Instant) : Int := a.day.daysUntil b.day

/-- Do both instants fall on one day? -/
def sameDay (a b : Instant) : Bool := a.day == b.day

/-- The same time of day on the day at a distance. -/
def shift (a : Instant) (days : Int) : Except ShiftError Instant :=
  match a.day.shift days with
  | .ok day => .ok { a with day }
  | .error e => .error e

end Instant

end TaskList
