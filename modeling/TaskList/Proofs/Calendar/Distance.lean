/-
TaskList.Proofs.Calendar.Distance — days are counted as the calendar goes on from date to
date.

* `Civil.next` — the date of the next day, by the lengths of months and the ends of years.
  `Civil.later` and `Civil.IsAway` — so many days on, or back.
* `Civil.Valid.number_next` — the number of a date goes up by one with each day, across the
  ends of months and years. So `Day.daysUntil_eq_iff` — the distance of two days is the
  number of days from date to date.
* `Day.shift_eq_ok_iff` — a shift goes to the day at the distance; it fails where the
  calendar has none (`Day.shift_eq_outOfCalendar`) and where it goes too far
  (`Day.shift_of_tooFar`).
* `Instant.distances_shifts` — all of that together, for days with or without a time.
-/
import Mathlib.Tactic.IntervalCases
import TaskList.Calendar.Instant
import TaskList.Proofs.Calendar.Civil

namespace TaskList

/-! ## From date to date -/

namespace Civil

/-- The date of the next day: the next one of the month, or else the first of the next
month, or else New Year's Day. -/
def next (c : Civil) : Civil :=
  if c.day < Calendar.daysInMonth c.year c.month then { c with day := c.day + 1 }
  else if c.month < 12 then ⟨c.year, c.month + 1, 1⟩
  else ⟨c.year + 1, 1, 1⟩

/-- The date so many days later. -/
def later (c : Civil) : Nat → Civil
  | 0 => c
  | days + 1 => (c.later days).next

/-- Is the other date so many days later, or earlier if the number is negative? -/
def IsAway (c other : Civil) : Int → Prop
  | .ofNat days => c.later days = other
  | .negSucc days => other.later (days + 1) = c

/-- Is that a date, though its year may be behind the last one of the calendar? -/
structure Valid (c : Civil) : Prop where
  year : 1 ≤ c.year
  one_le_month : 1 ≤ c.month
  month_le : c.month ≤ 12
  one_le_day : 1 ≤ c.day
  day_le : c.day ≤ Calendar.daysInMonth c.year c.month

end Civil

namespace Calendar

theorem one_le_daysInMonth (year : Nat) {month : Nat} (hone : 1 ≤ month) (hle : month ≤ 12) :
    1 ≤ daysInMonth year month := by
  unfold daysInMonth monthLengths
  interval_cases month <;> simp
  split <;> decide

/-- The next month starts when the days of a month are over. -/
theorem daysBeforeMonth_succ (year : Nat) {month : Nat} (hone : 1 ≤ month) (hle : month ≤ 12) :
    daysBeforeMonth year (month + 1) = daysBeforeMonth year month + daysInMonth year month := by
  obtain ⟨i, rfl⟩ : ∃ i, month = i + 1 := ⟨month - 1, by omega⟩
  have hlt : i < (monthLengths year).length := hle
  rw [daysInMonth_eq hone (List.getElem?_eq_getElem hlt), daysBeforeMonth_eq, daysBeforeMonth_eq,
    Nat.add_sub_cancel, Nat.add_sub_cancel, List.take_succ_eq_append_getElem hlt, List.sum_append,
    List.sum_singleton]

/-- A year is over when its last month is. -/
theorem daysBeforeYear_december {year : Nat} (h : 1 ≤ year) :
    daysBeforeYear (year + 1) =
      daysBeforeYear year + (daysBeforeMonth year 12 + daysInMonth year 12) := by
  rw [daysBeforeYear_succ h, ← daysBeforeMonth_succ year (by decide) (by decide)]
  rfl

end Calendar

namespace Civil

open Calendar

variable {c other : Civil}

theorem Exists.valid (h : c.Exists) : c.Valid := by
  obtain ⟨hyear, -, hone, hle, hone', hle'⟩ := h
  exact ⟨hyear, hone, hle, hone', hle'⟩

theorem Valid.next (h : c.Valid) : c.next.Valid := by
  obtain ⟨hyear, hone, hle, hone', hle'⟩ := h
  unfold Civil.next
  split
  · exact ⟨hyear, hone, hle, Nat.le_add_left 1 _, ‹_›⟩
  · split
    · exact ⟨hyear, Nat.le_add_left 1 _, ‹_›, Nat.le_refl 1,
        one_le_daysInMonth c.year (Nat.le_add_left 1 _) ‹_›⟩
    · have hjanuary : 1 ≤ 12 := by decide
      exact ⟨Nat.le_add_left 1 _, Nat.le_refl 1, hjanuary, Nat.le_refl 1,
        one_le_daysInMonth (c.year + 1) (Nat.le_refl 1) hjanuary⟩

/-- **The next day has the next number.** -/
theorem Valid.number_next (h : c.Valid) : c.next.number = c.number + 1 := by
  obtain ⟨hyear, hone, hle, hone', hle'⟩ := h
  unfold Civil.next
  split
  · rfl
  · rename_i hday
    have hlast : c.day = daysInMonth c.year c.month := Nat.le_antisymm hle' (Nat.le_of_not_lt hday)
    split
    · simp only [number, hlast, daysBeforeMonth_succ c.year hone hle]
      omega
    · rename_i hmonth
      have hdecember : c.month = 12 := Nat.le_antisymm hle (Nat.le_of_not_lt hmonth)
      have hjanuary : daysBeforeMonth (c.year + 1) 1 = 0 := rfl
      simp only [number, hlast, hdecember, daysBeforeYear_december hyear, hjanuary]
      omega

theorem Valid.later (h : c.Valid) (days : Nat) :
    (c.later days).Valid ∧ (c.later days).number = c.number + days := by
  induction days with
  | zero => exact ⟨h, rfl⟩
  | succ days ih =>
    obtain ⟨hvalid, hnumber⟩ := ih
    exact ⟨hvalid.next, by rw [Civil.later, hvalid.number_next, hnumber, Nat.add_assoc]⟩

/-- A date is one of the calendar if it is not behind the last day. -/
theorem Valid.exists_iff (h : c.Valid) : c.Exists ↔ c.number ≤ lastNumber := by
  obtain ⟨hyear, hone, hle, hone', hle'⟩ := h
  constructor
  · intro hexists
    obtain ⟨d, hnumber⟩ := exists_day hexists
    exact hnumber ▸ d.le_last
  · intro hnumber
    refine ⟨hyear, Nat.le_of_not_lt fun hlate => ?_, hone, hle, hone', hle'⟩
    have hmono := daysBeforeYear_mono (Nat.le_add_left 1 lastYear) hlate
    unfold lastNumber Civil.number at hnumber
    omega

end Civil

/-! ## Distances and shifts -/

namespace Day

open Calendar

variable {a b : Day}

/-- One day is so many days behind another if its date comes so many dates later. -/
theorem later_eq_iff {days : Nat} :
    a.civil.later days = b.civil ↔ a.number + days = b.number := by
  obtain ⟨hvalid, hnumber⟩ := a.civil_exists.valid.later days
  rw [number_civil] at hnumber
  constructor
  · intro h
    rw [← hnumber, h, number_civil]
  · intro h
    have hexists := hvalid.exists_iff.mpr (by rw [hnumber, h]; exact b.le_last)
    exact (civil_eq hexists (hnumber.trans h).symm).symm

/-- **The distance of two days is counted from date to date.** -/
theorem daysUntil_eq_iff {days : Int} :
    a.daysUntil b = days ↔ a.civil.IsAway b.civil days := by
  cases days with
  | ofNat days =>
    rw [Civil.IsAway, later_eq_iff, daysUntil, Int.ofNat_eq_natCast]
    omega
  | negSucc days =>
    rw [Civil.IsAway, later_eq_iff, daysUntil, Int.negSucc_eq]
    omega

theorem civil_injective : Function.Injective civil := fun a b h => by
  rw [eq_iff, ← number_civil a, h, number_civil]

/-- The calendar is shorter than the widest shift. -/
theorem natAbs_daysUntil_le (a b : Day) : (a.daysUntil b).natAbs ≤ 999999999 := by
  have hlast : lastNumber = 3652059 := by decide
  have ha := a.one_le
  have ha' := a.le_last
  have hb := b.one_le
  have hb' := b.le_last
  rw [daysUntil]
  omega

/-- **A shift goes to the day at the distance.** -/
theorem shift_eq_ok_iff {days : Int} : a.shift days = .ok b ↔ a.daysUntil b = days := by
  constructor
  · intro h
    rw [shift] at h
    split at h
    · simp at h
    · split at h
      · simp at h
      · split at h
        · rename_i day hday
          cases h
          rw [ofNumber?_eq_some_iff] at hday
          rw [daysUntil]
          omega
        · simp at h
  · rintro rfl
    have hnear := natAbs_daysUntil_le a b
    have hday : ofNumber? (a.number + a.daysUntil b) = some b :=
      ofNumber?_eq_some_iff.mpr (by rw [daysUntil]; omega)
    rw [shift, if_neg (by omega), if_neg (by omega), hday]

/-- The dates that are so many days away are those of the days at that distance. -/
theorem exists_isAway_iff {days : Int} :
    (∃ c : Civil, c.Exists ∧ a.civil.IsAway c days) ↔ ∃ b, a.daysUntil b = days := by
  constructor
  · rintro ⟨c, hexists, haway⟩
    obtain ⟨b, hnumber⟩ := Civil.exists_day hexists
    exact ⟨b, daysUntil_eq_iff.mpr (civil_eq hexists hnumber ▸ haway)⟩
  · rintro ⟨b, hb⟩
    exact ⟨b.civil, b.civil_exists, daysUntil_eq_iff.mp hb⟩

/-- A shift that does not go too far fails where the calendar has no day. -/
theorem shift_eq_outOfCalendar {days : Int} (hdays : days.natAbs ≤ 999999999)
    (h : ∀ b, a.daysUntil b ≠ days) : a.shift days = .error .outOfCalendar := by
  rw [shift, if_neg (by omega), if_neg (by omega)]
  cases hday : ofNumber? (a.number + days) with
  | none => rfl
  | some b =>
    rw [ofNumber?_eq_some_iff] at hday
    exact absurd (by rw [daysUntil]; omega) (h b)

/-- A shift that goes too far names the distance, unless that is too wide to be held. -/
theorem shift_of_tooFar {days : Int} (hdays : 999999999 < days.natAbs) :
    a.shift days = .error .tooWide ∨ a.shift days = .error (.tooFar days) := by
  rw [shift]
  split
  · exact .inl rfl
  · exact .inr rfl

end Day

namespace Instant

variable {a b : Instant} {days : Int}

theorem shift_eq_ok_iff {r : Instant} :
    a.shift days = .ok r ↔ a.daysUntil r = days ∧ r.time = a.time := by
  obtain ⟨day, time⟩ := r
  rw [daysUntil, ← Day.shift_eq_ok_iff, shift]
  cases a.day.shift days with
  | ok other => simp [eq_comm (a := time)]
  | error e => simp

/-- A shift fails as the shift of the day does. -/
theorem shift_eq_error_iff {e : ShiftError} :
    a.shift days = .error e ↔ a.day.shift days = .error e := by
  rw [shift]
  cases a.day.shift days <;> simp

theorem exists_shift_iff : (∃ r, a.shift days = .ok r) ↔ days.natAbs ≤ 999999999 ∧
    ∃ date : Civil, date.Exists ∧ a.day.civil.IsAway date days := by
  rw [Day.exists_isAway_iff]
  simp only [shift_eq_ok_iff, daysUntil]
  constructor
  · rintro ⟨r, rfl, -⟩
    exact ⟨Day.natAbs_daysUntil_le _ _, r.day, rfl⟩
  · rintro ⟨-, b, hb⟩
    exact ⟨⟨b, a.time⟩, hb, rfl⟩

/-- Why a shift fails. -/
theorem error_of_shift {e : ShiftError} (h : a.shift days = .error e) :
    if days.natAbs ≤ 999999999 then e = .outOfCalendar else e = .tooWide ∨ e = .tooFar days := by
  rw [shift_eq_error_iff] at h
  split
  · rename_i hdays
    have hnone : ∀ b, a.day.daysUntil b ≠ days := fun b hb => by
      rw [Day.shift_eq_ok_iff.mpr hb] at h
      exact nomatch h
    rw [Day.shift_eq_outOfCalendar hdays hnone] at h
    exact (Except.error.inj h).symm
  · rename_i hdays
    rcases Day.shift_of_tooFar (a := a.day) (Nat.lt_of_not_le hdays) with hwide | hfar
    · exact .inl (Except.error.inj (h.symm.trans hwide))
    · exact .inr (Except.error.inj (h.symm.trans hfar))

theorem sameDay_iff : a.sameDay b = true ↔ a.day = b.day := beq_iff_eq

theorem daysUntil_eq_zero_iff : a.daysUntil b = 0 ↔ a.sameDay b = true := by
  rw [sameDay_iff, daysUntil, Day.daysUntil, Day.eq_iff]
  omega

/-- **Days are counted as the calendar goes on from date to date.** Distances add up, turn
around, and are zero on one day only. A shift goes to the date at the distance and
keeps the time of day; it fails exactly where it goes too far or where the calendar has
no such date. -/
theorem distances_shifts (a b c : Instant) (days : Int) :
    a.daysUntil b + b.daysUntil c = a.daysUntil c ∧
    b.daysUntil a = -a.daysUntil b ∧
    (a.daysUntil b = 0 ↔ a.sameDay b = true) ∧
    (a.sameDay b = true ↔ a.day.civil = b.day.civil) ∧
    (a.daysUntil b = days ↔ a.day.civil.IsAway b.day.civil days) ∧
    ((∃ r, a.shift days = .ok r) ↔ days.natAbs ≤ 999999999 ∧
      ∃ date : Civil, date.Exists ∧ a.day.civil.IsAway date days) ∧
    (∀ r, a.shift days = .ok r → r.time = a.time ∧ a.daysUntil r = days) ∧
    (∀ e, a.shift days = .error e → if days.natAbs ≤ 999999999 then e = .outOfCalendar
      else e = .tooWide ∨ e = .tooFar days) ∧
    a.shift (a.daysUntil b) = .ok ⟨b.day, a.time⟩ := by
  refine ⟨?_, ?_, daysUntil_eq_zero_iff, sameDay_iff.trans Day.civil_injective.eq_iff.symm,
    Day.daysUntil_eq_iff, exists_shift_iff, fun r hr => (shift_eq_ok_iff.mp hr).symm,
    fun e he => error_of_shift he, shift_eq_ok_iff.mpr ⟨rfl, rfl⟩⟩
  all_goals
    simp only [daysUntil, Day.daysUntil]
    omega

end Instant

/-- A leap day, and the end of a month behind it. -/
example : (⟨2000, 2, 28⟩ : Civil).later 2 = ⟨2000, 3, 1⟩ := by decide

end TaskList
