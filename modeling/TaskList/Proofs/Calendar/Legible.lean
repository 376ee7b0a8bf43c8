/-
TaskList.Proofs.Calendar.Legible — which texts are read as days and instants, and which
days and instants are read again.

* `Numeral.Spells` — a number in so many digits. `Civil.SpelledBy`, `TimeOfDay.SpelledBy`,
  `Instant.SpelledBy` — dates as `YYYY-MM-DD`, times as `HH:MM:SS`, and both with a `T`
  between them.
* `Text.Holds` — a text is a line, with a line feed behind it or none.
* `Day.parse?_eq_some_iff_holds`, `Instant.parse?_eq_some_iff_holds` — what is read is what
  is spelled, and nothing else.
* `Day.length_written_lt` — the year is written without zeros in front, so before year 1000
  the text is too short to be read.
* `Calendar.reads_spelled` — all of that together.
-/
import TaskList.Proofs.Calendar.Stamp

namespace TaskList

/-! ## Spelling -/

/-- The text is the line, with a line feed behind it or none. -/
def Text.Holds (t line : Text) : Prop := t = line ∨ t = line ++ ['\n']

theorem Text.holds_chomp (t : Text) : t.Holds t.chomp := t.chomp_cases

theorem Text.Holds.chomp_eq {t line : Text} (h : t.Holds line) (hlast : '\n' ∉ line) :
    t.chomp = line := by
  rcases h with rfl | rfl
  · exact Text.chomp_of_last fun hfeed => hlast (List.mem_of_getLast? hfeed)
  · exact Text.chomp_append line

namespace Numeral

/-- The text is the number in so many digits. -/
structure Spells (width n : Nat) (t : Text) : Prop where
  length_eq : t.length = width
  digits : ∀ c ∈ t, isDigit c = true
  value_eq : Nat.ofDigitChars 10 t 0 = n

theorem spells_padded {width n : Nat} (hwidth : 0 < width) (h : n < 10 ^ width) :
    Spells width n (padded width n) where
  length_eq := length_padded hwidth h
  digits _ hc := isDigit_of_mem_padded hc
  value_eq := ofDigitChars_padded width n

theorem Spells.eq_padded {width n : Nat} {t : Text} (hwidth : 0 < width) (h : Spells width n t) :
    t = padded width n := by
  obtain ⟨hlength, hdigits, hvalue⟩ := h
  have hne : t ≠ [] := List.ne_nil_of_length_pos (hlength ▸ hwidth)
  rw [← hlength, ← hvalue, padded_ofDigitChars hne hdigits]

theorem Spells.notMem {width n : Nat} {t : Text} (h : Spells width n t) {c : Char}
    (hc : isDigit c = false) : c ∉ t :=
  fun hmem => absurd (h.digits c hmem) (by simp [hc])

end Numeral

open Numeral (Spells padded)

/-- The text is the date: four digits, two and two, with hyphens between them. -/
def Civil.SpelledBy (c : Civil) (t : Text) : Prop :=
  ∃ year month day, Spells 4 c.year year ∧ Spells 2 c.month month ∧ Spells 2 c.day day ∧
    t = year ++ '-' :: month ++ '-' :: day

/-- The text is the time of day: two digits, two and two, with colons between them. -/
def TimeOfDay.SpelledBy (time : TimeOfDay) (t : Text) : Prop :=
  ∃ hour minute second, Spells 2 time.hour hour ∧ Spells 2 time.minute minute ∧
    Spells 2 time.second second ∧ t = hour ++ ':' :: minute ++ ':' :: second

/-- The text is the date of the instant alone, for its midnight, or the date and a time of
day with a `T` between them. -/
inductive Instant.SpelledBy (i : Instant) (t : Text) : Prop where
  | day (htime : i.time = some .midnight) (hday : i.day.civil.SpelledBy t)
  | time (time : TimeOfDay) (date clock : Text) (htime : i.time = some time)
      (hday : i.day.civil.SpelledBy date) (hclock : time.SpelledBy clock)
      (htext : t = date ++ 'T' :: clock)

namespace Civil

variable {c : Civil} {t : Text}

theorem SpelledBy.length_eq (h : c.SpelledBy t) : t.length = 10 := by
  obtain ⟨year, month, day, hyear, hmonth, hday, rfl⟩ := h
  simp [hyear.length_eq, hmonth.length_eq, hday.length_eq]

theorem SpelledBy.notMem (h : c.SpelledBy t) {d : Char} (hd : Numeral.isDigit d = false)
    (hhyphen : d ≠ '-') : d ∉ t := by
  obtain ⟨year, month, day, hyear, hmonth, hday, rfl⟩ := h
  simp [hyear.notMem hd, hmonth.notMem hd, hday.notMem hd, hhyphen]

theorem SpelledBy.eq_text (h : c.SpelledBy t) : t = c.text := by
  obtain ⟨year, month, day, hyear, hmonth, hday, rfl⟩ := h
  rw [hyear.eq_padded (by decide), hmonth.eq_padded (by decide), hday.eq_padded (by decide)]
  rfl

theorem Exists.spelledBy_text (h : c.Exists) : c.SpelledBy c.text := by
  obtain ⟨hyear, hmonth, hday⟩ := h.length_digits
  exact ⟨_, _, _, ⟨hyear, fun _ => Numeral.isDigit_of_mem_padded, Numeral.ofDigitChars_padded _ _⟩,
    ⟨hmonth, fun _ => Numeral.isDigit_of_mem_padded, Numeral.ofDigitChars_padded _ _⟩,
    ⟨hday, fun _ => Numeral.isDigit_of_mem_padded, Numeral.ofDigitChars_padded _ _⟩, rfl⟩

end Civil

namespace TimeOfDay

variable {time : TimeOfDay} {t : Text}

theorem SpelledBy.length_eq (h : time.SpelledBy t) : t.length = 8 := by
  obtain ⟨hour, minute, second, hhour, hminute, hsecond, rfl⟩ := h
  simp [hhour.length_eq, hminute.length_eq, hsecond.length_eq]

theorem SpelledBy.notMem (h : time.SpelledBy t) {d : Char} (hd : Numeral.isDigit d = false)
    (hcolon : d ≠ ':') : d ∉ t := by
  obtain ⟨hour, minute, second, hhour, hminute, hsecond, rfl⟩ := h
  simp [hhour.notMem hd, hminute.notMem hd, hsecond.notMem hd, hcolon]

theorem spelledBy_iff : time.SpelledBy t ↔ t = time.written := by
  have hwide : ∀ n : Nat, n < 60 → Spells 2 n (padded 2 n) := fun n hn =>
    Numeral.spells_padded (by decide) (by omega)
  constructor
  · rintro ⟨hour, minute, second, hhour, hminute, hsecond, rfl⟩
    rw [hhour.eq_padded (by decide), hminute.eq_padded (by decide),
      hsecond.eq_padded (by decide), written]
  · rintro rfl
    exact ⟨_, _, _, hwide _ (by omega), hwide _ (by omega), hwide _ (by omega), rfl⟩

end TimeOfDay

/-! ## Reading -/

/-- The reader of times takes the texts that spell one. -/
theorem Calendar.time?_eq_some_iff {time : TimeOfDay} {t : Text} :
    time? t = some time ↔ time.SpelledBy t := by
  rw [TimeOfDay.spelledBy_iff]
  constructor
  · intro h
    unfold time? at h
    split at h
    · rename_i h₁ h₂ m₁ m₂ s₁ s₂
      simp only [bind, Option.bind_eq_some_iff] at h
      obtain ⟨hour, hhour, minute, hminute, second, hsecond, htime⟩ := h
      obtain ⟨hh, rfl⟩ := digits?_eq_some_iff.mp hhour
      obtain ⟨hm, rfl⟩ := digits?_eq_some_iff.mp hminute
      obtain ⟨hs, rfl⟩ := digits?_eq_some_iff.mp hsecond
      unfold TimeOfDay.of? at htime
      split at htime
      · obtain rfl := Option.some.inj htime
        exact (TimeOfDay.spelledBy_iff.mp
          ⟨[h₁, h₂], [m₁, m₂], [s₁, s₂], ⟨rfl, hh, rfl⟩, ⟨rfl, hm, rfl⟩, ⟨rfl, hs, rfl⟩, rfl⟩)
      · simp at htime
    · simp at h
  · rintro rfl
    exact time?_written time

namespace Day

variable {d : Day} {t : Text}

theorem spelledBy_iff_civil : d.SpelledBy t ↔ d.civil.SpelledBy t := by
  constructor
  · rintro ⟨c, hexists, hnumber, rfl⟩
    rw [civil_eq hexists hnumber]
    exact hexists.spelledBy_text
  · exact fun h => ⟨d.civil, d.civil_exists, d.number_civil.symm, h.eq_text⟩

/-- **A text is read as the day that it spells**, perhaps with a line feed behind it. -/
theorem parse?_eq_some_iff_holds :
    parse? t = some d ↔ ∃ line, t.Holds line ∧ d.civil.SpelledBy line := by
  rw [parse?, Calendar.day?_eq_some_iff, spelledBy_iff_civil]
  constructor
  · exact fun h => ⟨t.chomp, t.holds_chomp, h⟩
  · rintro ⟨line, hholds, hline⟩
    rwa [hholds.chomp_eq (hline.notMem (by decide) (by decide))]

/-- What holds of the date of some day holds of some date of the calendar. -/
theorem exists_civil_iff {P : Civil → Prop} : (∃ d : Day, P d.civil) ↔ ∃ c, c.Exists ∧ P c := by
  constructor
  · rintro ⟨d, h⟩
    exact ⟨d.civil, d.civil_exists, h⟩
  · rintro ⟨c, hexists, h⟩
    obtain ⟨d, hnumber⟩ := Civil.exists_day hexists
    exact ⟨d, (civil_eq hexists hnumber).symm ▸ h⟩

theorem length_written (d : Day) :
    d.written.length = (Numeral.ofNat d.civil.year).length + 6 := by
  obtain ⟨-, hmonth, hday⟩ := d.civil_exists.length_digits
  simp [written, Calendar.hyphenated, hmonth, hday]

/-- Before year 1000, a day is written with less than ten characters. -/
theorem length_written_lt (h : d.civil.year < 1000) : d.written.length < 10 := by
  have hyear : (Numeral.ofNat d.civil.year).length ≤ 3 :=
    (Nat.length_toDigits_le_iff (by decide) (by decide)).mpr h
  rw [length_written]
  omega

/-- A text that is read as a day is the day as it is written, if that has four digits for
the year. -/
theorem holds_written (h : 1000 ≤ d.civil.year) (hparse : parse? t = some d) :
    t.Holds d.written := by
  obtain ⟨line, hholds, hline⟩ := parse?_eq_some_iff_holds.mp hparse
  have hpadded : line = d.padded := hline.eq_text
  rwa [written_eq_padded h, ← hpadded]

/-- **A day is read again as it is written**, from year 1000 on and no earlier. -/
theorem parse?_written_eq (d : Day) :
    parse? d.written = if 1000 ≤ d.civil.year then some d else none := by
  split
  · rename_i h
    exact parse?_written h
  · rename_i h
    refine Option.eq_none_iff_forall_ne_some.mpr fun other hother => ?_
    obtain ⟨line, hholds, hline⟩ := parse?_eq_some_iff_holds.mp hother
    have hshort := length_written_lt (Nat.lt_of_not_le h)
    have hten := hline.length_eq
    rcases hholds with heq | heq
    · rw [heq] at hshort
      omega
    · rw [heq, List.length_append] at hshort
      omega

end Day

namespace Instant

variable {i : Instant} {t : Text}

theorem SpelledBy.length_cases (h : i.SpelledBy t) : t.length = 10 ∨ t.length = 19 := by
  cases h with
  | day _ hday => exact .inl hday.length_eq
  | time time date clock _ hday hclock htext =>
    rw [htext]
    simp [hday.length_eq, hclock.length_eq]

theorem SpelledBy.feed_notMem (h : i.SpelledBy t) : '\n' ∉ t := by
  cases h with
  | day _ hday => exact hday.notMem (by decide) (by decide)
  | time time date clock _ hday hclock htext =>
    rw [htext]
    simp [hday.notMem (d := '\n') (by decide) (by decide),
      hclock.notMem (d := '\n') (by decide) (by decide)]

theorem parse?_eq_some_iff_chomp : parse? t = some i ↔ i.SpelledBy t.chomp := by
  have hday : ∀ {u : Text} {d : Day}, Calendar.day? u = some d ↔ d.civil.SpelledBy u :=
    Calendar.day?_eq_some_iff.trans Day.spelledBy_iff_civil
  rw [parse?, Day.parse?]
  constructor
  · intro h
    split at h
    · rename_i d hd
      obtain rfl := Option.some.inj h
      exact .day rfl (hday.mp hd)
    · split at h
      · rename_i date clock hsplit
        simp only [bind, Option.bind_eq_some_iff] at h
        obtain ⟨d, hd, time, htime, heq⟩ := h
        obtain rfl := Option.some.inj heq
        rw [List.splitAt_eq, Prod.mk.injEq] at hsplit
        refine .time time date clock rfl (hday.mp hd) (Calendar.time?_eq_some_iff.mp htime) ?_
        rw [← hsplit.1, ← hsplit.2, List.take_append_drop]
      · simp at h
  · obtain ⟨d, known⟩ := i
    intro h
    cases h with
    | day htime hspelled =>
      rw [hday.mpr hspelled]
      exact congrArg (fun known => some (Instant.mk d known)) htime.symm
    | time time date clock htime hspelled hclock htext =>
      -- a date with a time of day behind it is too long to be a date
      have hnone : Calendar.day? t.chomp = none := by
        refine Option.eq_none_iff_forall_ne_some.mpr fun other hother => ?_
        have hten := (hday.mp hother).length_eq
        rw [htext] at hten
        simp [hspelled.length_eq] at hten
      rw [hnone, htext]
      dsimp only
      rw [List.splitAt_eq, List.take_left' hspelled.length_eq, List.drop_left' hspelled.length_eq]
      simp only [hday.mpr hspelled, Calendar.time?_eq_some_iff.mpr hclock]
      exact congrArg (fun known => some (Instant.mk d known)) htime.symm

/-- **A text is read as the instant that it spells**, perhaps with a line feed behind it. -/
theorem parse?_eq_some_iff_holds :
    parse? t = some i ↔ ∃ line, t.Holds line ∧ i.SpelledBy line := by
  rw [parse?_eq_some_iff_chomp]
  constructor
  · exact fun h => ⟨t.chomp, t.holds_chomp, h⟩
  · rintro ⟨line, hholds, hline⟩
    rwa [hholds.chomp_eq hline.feed_notMem]

/-- A text spells an instant if it is a date of the calendar, alone or with a time of day. -/
theorem exists_spelledBy_iff : (∃ i : Instant, i.SpelledBy t) ↔
    ∃ c : Civil, c.Exists ∧ (c.SpelledBy t ∨ ∃ date clock time, t = date ++ 'T' :: clock ∧
      c.SpelledBy date ∧ TimeOfDay.SpelledBy time clock) := by
  rw [← Day.exists_civil_iff]
  constructor
  · rintro ⟨i, hday | ⟨time, date, clock, -, hday, hclock, htext⟩⟩
    · exact ⟨i.day, .inl ‹_›⟩
    · exact ⟨i.day, .inr ⟨date, clock, time, htext, hday, hclock⟩⟩
  · rintro ⟨d, hday | ⟨date, clock, time, htext, hday, hclock⟩⟩
    · exact ⟨⟨d, some .midnight⟩, .day rfl hday⟩
    · exact ⟨⟨d, some time⟩, .time time date clock rfl hday hclock htext⟩

/-- **An instant is read again as it is written**, from year 1000 on and no earlier. -/
theorem parse?_written_eq (i : Instant) (withTime : Bool) :
    parse? (i.written withTime) =
      if 1000 ≤ i.day.civil.year then some (i.stamped withTime) else none := by
  split
  · rename_i h
    exact parse?_written h withTime
  · rename_i h
    refine Option.eq_none_iff_forall_ne_some.mpr fun other hother => ?_
    obtain ⟨line, hholds, hline⟩ := parse?_eq_some_iff_holds.mp hother
    have hlength := hline.length_cases
    have hshort := Day.length_written_lt (Nat.lt_of_not_le h)
    have hday := i.day.length_written
    -- the day alone is too short, and with a time of day it lies between the two lengths
    have hwritten : (i.written withTime).length = i.day.written.length ∨
        (i.written withTime).length = i.day.written.length + 9 := by
      obtain ⟨hwritten, -⟩ | ⟨time, hwritten, -⟩ := i.written_cases withTime
      · exact .inl (congrArg List.length hwritten)
      · have height := (TimeOfDay.spelledBy_iff.mpr (Eq.refl time.written)).length_eq
        rw [hwritten]
        simp [height]
    rcases hholds with heq | heq
    · rw [heq] at hwritten
      omega
    · rw [heq, List.length_append, List.length_singleton] at hwritten
      omega

end Instant

/-- **Days and instants are read as they are spelled, and read again as they are written**
if their year has four digits. A day alone is read as its midnight. -/
theorem Calendar.reads_spelled :
    (∀ t d, Day.parse? t = some d ↔ ∃ line, t.Holds line ∧ d.civil.SpelledBy line) ∧
    (∀ t, (∃ d, Day.parse? t = some d) ↔
      ∃ line, t.Holds line ∧ ∃ c : Civil, c.Exists ∧ c.SpelledBy line) ∧
    (∀ t i, Instant.parse? t = some i ↔ ∃ line, t.Holds line ∧ i.SpelledBy line) ∧
    (∀ t, (∃ i, Instant.parse? t = some i) ↔
      ∃ line, t.Holds line ∧ ∃ c : Civil, c.Exists ∧ (c.SpelledBy line ∨
        ∃ date clock time, line = date ++ 'T' :: clock ∧ c.SpelledBy date ∧
          TimeOfDay.SpelledBy time clock)) ∧
    (∀ d : Day, Day.parse? d.written = if 1000 ≤ d.civil.year then some d else none) ∧
    (∀ (i : Instant) (withTime : Bool), Instant.parse? (i.written withTime) =
      if 1000 ≤ i.day.civil.year then
        some ⟨i.day, some (if withTime then i.time.getD .midnight else .midnight)⟩
      else none) ∧
    ∀ t d, Day.parse? t = some d → 1000 ≤ d.civil.year → t.Holds d.written := by
  refine ⟨fun t d => Day.parse?_eq_some_iff_holds, fun t => ?_,
    fun t i => Instant.parse?_eq_some_iff_holds, fun t => ?_, Day.parse?_written_eq,
    Instant.parse?_written_eq, fun t d hparse h => Day.holds_written h hparse⟩
  · simp only [Day.parse?_eq_some_iff_holds, ← Day.exists_civil_iff]
    rw [exists_comm]
    simp only [exists_and_left]
  · simp only [Instant.parse?_eq_some_iff_holds, ← Instant.exists_spelledBy_iff]
    rw [exists_comm]
    simp only [exists_and_left]

/-- A common year has no leap day. -/
example : Day.parse? "2019-02-29".toList = none := by decide

/-- A day has no hour 24. -/
example : Instant.parse? "2020-02-29T24:00:00".toList = none := by decide

end TaskList
