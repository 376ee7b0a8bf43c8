/-
TaskList.Calendar.Written — days and instants as text.

* `Day.parse?` — a day from `YYYY-MM-DD`: four, two and two digits, and a
  day that the calendar has. `Instant.parse?` also reads a time after a
  `T`, as `HH:MM:SS`; a day alone is its midnight. One line feed may follow.
* `Day.written` and `Instant.written` — the text that is put into a tag:
  the year has no zeros in front, so a day before year 1000 is written but
  not read again.
* `Day.padded` and `Instant.padded` — the same with four digits for the
  year.
-/
import TaskList.Calendar.Instant
import TaskList.Text.Numeral

namespace TaskList

/-! ## Reading -/

namespace Calendar

/-- The number that a few digits denote; none if one is no digit. -/
def digits? (ds : Text) : Option Nat :=
  if ds.all Numeral.isDigit then some (Nat.ofDigitChars 10 ds 0) else none

/-- A day from exactly ten characters. -/
def day? : Text → Option Day
  | [y₁, y₂, y₃, y₄, '-', m₁, m₂, '-', d₁, d₂] => do
    Day.ofCivil? ⟨← digits? [y₁, y₂, y₃, y₄], ← digits? [m₁, m₂], ← digits? [d₁, d₂]⟩
  | _ => none

/-- A time of day from exactly eight characters. -/
def time? : Text → Option TimeOfDay
  | [h₁, h₂, ':', m₁, m₂, ':', s₁, s₂] => do
    TimeOfDay.of? (← digits? [h₁, h₂]) (← digits? [m₁, m₂]) (← digits? [s₁, s₂])
  | _ => none

end Calendar

/-- The day that a text names. -/
def Day.parse? (t : Text) : Option Day := Calendar.day? t.chomp

/-- The instant that a text names; a day alone is its midnight. -/
def Instant.parse? (t : Text) : Option Instant :=
  match Day.parse? t with
  | some day => some ⟨day, some .midnight⟩
  | none =>
    match t.chomp.splitAt 10 with
    | (day, 'T' :: time) => do return ⟨← Calendar.day? day, some (← Calendar.time? time)⟩
    | _ => none

/-! ## Writing -/

/-- A month or a day of the month, behind a hyphen. -/
def Calendar.hyphenated (n : Nat) : Text := '-' :: Numeral.padded 2 n

/-- The day as it is put into a tag; the year has no zeros in front. -/
def Day.written (d : Day) : Text :=
  Numeral.ofNat d.civil.year ++ Calendar.hyphenated d.civil.month ++
    Calendar.hyphenated d.civil.day

/-- The day with four digits for the year. -/
def Day.padded (d : Day) : Text :=
  Numeral.padded 4 d.civil.year ++ Calendar.hyphenated d.civil.month ++
    Calendar.hyphenated d.civil.day

/-- The time of day as `HH:MM:SS`. -/
def TimeOfDay.written (t : TimeOfDay) : Text :=
  Numeral.padded 2 t.hour ++ ':' :: Numeral.padded 2 t.minute ++ ':' :: Numeral.padded 2 t.second

namespace Instant

/-- A time of day behind a `T`; nothing without one. -/
def timePart (i : Instant) : Text :=
  match i.time with
  | some t => 'T' :: t.written
  | none => []

/-- The instant as it is put into a tag, its time of day only on request. -/
def written (i : Instant) (withTime : Bool) : Text :=
  i.day.written ++ if withTime then i.timePart else []

/-- The instant with four digits for the year, and its time of day if it
has one. -/
def padded (i : Instant) : Text := i.day.padded ++ i.timePart

end Instant

end TaskList
