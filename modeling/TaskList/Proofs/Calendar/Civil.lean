/-
TaskList.Proofs.Calendar.Civil — days and dates are one and the same.

* `Calendar.daysBeforeYear_succ` and `Calendar.yearOf_eq` — years follow each
  other without a gap, so the estimate of a year is put right.
* `Calendar.monthAndDay_eq` and `Calendar.exists_month` — the same for the
  months of a year.
* `Civil.exists_day`, `Day.civil_eq`, `Day.civil_exists`, `Day.number_civil` —
  every date of the calendar is the date of one day, and every day has one.
-/
import Mathlib.Algebra.Order.Ring.Nat
import TaskList.Calendar.Day

namespace TaskList

namespace Calendar

/-! ## Years -/

theorem sum_monthLengths (year : Nat) :
    (monthLengths year).sum = if isLeap year then 366 else 365 := by
  unfold monthLengths
  split <;> rfl

theorem daysBeforeMonth_eq (year month : Nat) :
    daysBeforeMonth year month = ((monthLengths year).take (month - 1)).sum := rfl

/-- The next year starts when the months of a year are over. -/
theorem daysBeforeYear_succ {year : Nat} (h : 1 ≤ year) :
    daysBeforeYear (year + 1) = daysBeforeYear year + (monthLengths year).sum := by
  obtain ⟨years, rfl⟩ : ∃ years, year = years + 1 := ⟨year - 1, by omega⟩
  have hfour : (years + 1) / 4 = years / 4 + if (years + 1) % 4 = 0 then 1 else 0 := by
    split <;> omega
  have hhundred : (years + 1) / 100 = years / 100 + if (years + 1) % 100 = 0 then 1 else 0 := by
    split <;> omega
  have hmore : (years + 1) / 400 = years / 400 + if (years + 1) % 400 = 0 then 1 else 0 := by
    split <;> omega
  have hle : years / 100 ≤ years / 4 := by omega
  have hdivides : (years + 1) % 100 = 0 → (years + 1) % 4 = 0 := by omega
  have hdivides' : (years + 1) % 400 = 0 → (years + 1) % 100 = 0 := by omega
  rw [sum_monthLengths]
  simp only [daysBeforeYear, Nat.add_sub_cancel, hfour, hhundred, hmore, isLeap, Bool.and_eq_true,
    Bool.or_eq_true, beq_iff_eq, bne_iff_ne]
  generalize years / 4 = a, years / 100 = b, years / 400 = c at *
  generalize (years + 1) % 4 = x, (years + 1) % 100 = y, (years + 1) % 400 = z at *
  split <;> split <;> split <;> split <;> omega

theorem daysBeforeYear_mono {a b : Nat} (ha : 1 ≤ a) (h : a ≤ b) :
    daysBeforeYear a ≤ daysBeforeYear b := by
  induction b, h using Nat.le_induction with
  | base => exact Nat.le_refl _
  | succ b hab ih =>
    rw [daysBeforeYear_succ (Nat.le_trans ha hab)]
    omega

/-- The mean length of a year is the 400th part of 146097 days. -/
theorem daysBeforeYear_bounds (year : Nat) :
    146097 * (year - 1) ≤ 400 * daysBeforeYear year + 699 ∧
      400 * daysBeforeYear year ≤ 146097 * (year - 1) + 396 := by
  unfold daysBeforeYear
  dsimp only
  omega

/-- A day is in the year that its number falls into. -/
theorem yearOf_eq {year number : Nat} (hyear : 1 ≤ year) (hstart : daysBeforeYear year < number)
    (hstop : number ≤ daysBeforeYear (year + 1)) : yearOf number = year := by
  have hlow := (daysBeforeYear_bounds year).1
  have hhigh := (daysBeforeYear_bounds (year + 1)).2
  have hestimate : year - 2 ≤ (number - 1) * 400 / 146097 ∧ (number - 1) * 400 / 146097 ≤ year := by
    refine ⟨(Nat.le_div_iff_mul_le (by decide)).mpr ?_, Nat.lt_add_one_iff.mp
      ((Nat.div_lt_iff_lt_mul (by decide)).mpr ?_)⟩ <;> omega
  unfold yearOf
  dsimp only
  generalize (number - 1) * 400 / 146097 = estimate at hestimate ⊢
  -- the estimate is the year, or one of its neighbours
  obtain rfl | rfl | hnext : estimate + 1 = year ∨ estimate = year ∨ estimate + 2 = year := by omega
  · rw [if_neg (by omega), if_neg (by omega)]
  · rw [if_pos hstop]
    omega
  · subst hnext
    have hmono := daysBeforeYear_mono (a := estimate + 1) (b := estimate + 2) (by omega) (by omega)
    rw [if_neg (by omega), if_pos hstart]

/-- Every day number is in a year. -/
theorem exists_year {number : Nat} (h : 1 ≤ number) :
    ∃ year, 1 ≤ year ∧ daysBeforeYear year < number ∧ number ≤ daysBeforeYear (year + 1) := by
  induction number, h using Nat.le_induction with
  | base => exact ⟨1, by decide⟩
  | succ number _ ih =>
    obtain ⟨year, hyear, hstart, hstop⟩ := ih
    rcases Nat.lt_or_ge number (daysBeforeYear (year + 1)) with hlt | hge
    · exact ⟨year, hyear, by omega, hlt⟩
    · have hnext := daysBeforeYear_succ (Nat.le_add_left 1 year)
      rw [sum_monthLengths] at hnext
      refine ⟨year + 1, by omega, by omega, ?_⟩
      split at hnext <;> omega

/-! ## Months -/

/-- A day of a month is found behind the months before. -/
theorem monthAndDay_eq {lengths : List Nat} (month : Nat) {i length day : Nat}
    (hi : lengths[i]? = some length) (hone : 1 ≤ day) (hle : day ≤ length) :
    monthAndDay lengths month ((lengths.take i).sum + day) = (month + i, day) := by
  induction lengths generalizing month i with
  | nil => simp at hi
  | cons first rest ih =>
    cases i with
    | zero =>
      obtain rfl : first = length := by simpa using hi
      simp [monthAndDay, hle]
    | succ i =>
      rw [List.take_succ_cons, List.sum_cons, monthAndDay, if_neg (by omega), Nat.add_assoc,
        Nat.add_sub_cancel_left, ih (month + 1) (by simpa using hi), Nat.add_assoc,
        Nat.add_comm 1 i]

/-- Every day of a year is in a month. -/
theorem exists_month {lengths : List Nat} {day : Nat} (hone : 1 ≤ day) (hle : day ≤ lengths.sum) :
    ∃ i length rest, lengths[i]? = some length ∧ day = (lengths.take i).sum + rest ∧
      1 ≤ rest ∧ rest ≤ length := by
  induction lengths generalizing day with
  | nil =>
    rw [List.sum_nil] at hle
    omega
  | cons first rest ih =>
    rw [List.sum_cons] at hle
    rcases Nat.lt_or_ge first day with hlt | hge
    · have hleft : 1 ≤ day - first := by omega
      obtain ⟨i, length, left, hi, hday, hone', hle'⟩ := ih hleft (by omega)
      refine ⟨i + 1, length, left, by simpa using hi, ?_, hone', hle'⟩
      rw [List.take_succ_cons, List.sum_cons]
      omega
    · exact ⟨0, first, day, rfl, by simp, hone, hge⟩

/-- The days of a month are days of its year. -/
theorem sum_take_add_le {lengths : List Nat} {i length : Nat} (hi : lengths[i]? = some length) :
    (lengths.take i).sum + length ≤ lengths.sum := by
  induction lengths generalizing i with
  | nil => simp at hi
  | cons first rest ih =>
    cases i with
    | zero =>
      obtain rfl : first = length := by simpa using hi
      simp
    | succ i =>
      have := ih (i := i) (by simpa using hi)
      rw [List.take_succ_cons, List.sum_cons, List.sum_cons]
      omega

theorem daysInMonth_eq {year month length : Nat} (hmonth : 1 ≤ month)
    (h : (monthLengths year)[month - 1]? = some length) : daysInMonth year month = length := by
  rw [daysInMonth, if_neg (by omega), h]
  rfl

end Calendar

/-! ## Dates -/

open Calendar

/-- The length of the month of a date. -/
theorem Civil.Exists.exists_length {c : Civil} (h : c.Exists) :
    ∃ length, (monthLengths c.year)[c.month - 1]? = some length ∧ c.day ≤ length := by
  obtain ⟨-, -, hmonth, hmonth', -, hday⟩ := h
  have hlt : c.month - 1 < (monthLengths c.year).length := by
    rw [show (monthLengths c.year).length = 12 from rfl]
    omega
  refine ⟨_, List.getElem?_eq_getElem hlt, ?_⟩
  rwa [daysInMonth_eq hmonth (List.getElem?_eq_getElem hlt)] at hday

/-- A date is in its year. -/
theorem Civil.Exists.number_bounds {c : Civil} (h : c.Exists) :
    daysBeforeYear c.year < c.number ∧ c.number ≤ daysBeforeYear (c.year + 1) := by
  obtain ⟨length, hlength, hle⟩ := h.exists_length
  have hsum := sum_take_add_le hlength
  obtain ⟨hyear, -, -, -, hone, -⟩ := h
  rw [daysBeforeYear_succ hyear, Civil.number, daysBeforeMonth_eq]
  omega

/-- Every date of the calendar is a day. -/
theorem Civil.exists_day {c : Civil} (h : c.Exists) : ∃ d : Day, d.number = c.number := by
  obtain ⟨hstart, hstop⟩ := h.number_bounds
  have hmono := daysBeforeYear_mono (a := c.year + 1) (b := lastYear + 1) (by omega)
    (Nat.succ_le_succ h.2.1)
  exact ⟨⟨c.number, by omega, Nat.le_trans hstop hmono⟩, rfl⟩

namespace Day

/-- Days are told apart by their numbers. -/
theorem eq_of_number {a b : Day} (h : a.number = b.number) : a = b := by
  cases a
  cases b
  simpa using h

theorem eq_iff {a b : Day} : a = b ↔ a.number = b.number := ⟨congrArg number, eq_of_number⟩

theorem le_iff {a b : Day} : a ≤ b ↔ a.number ≤ b.number := Iff.rfl

theorem lt_iff {a b : Day} : a < b ↔ a.number < b.number := Iff.rfl

theorem ofNumber?_eq_some_iff {number : Int} {d : Day} :
    ofNumber? number = some d ↔ (d.number : Int) = number := by
  have hone := d.one_le
  have hlast := d.le_last
  unfold ofNumber?
  constructor
  · intro h
    split at h
    · rename_i hbounds
      cases h
      exact Int.toNat_of_nonneg (by omega)
    · simp at h
  · rintro rfl
    rw [dif_pos (by omega)]
    exact congrArg some (eq_of_number (Int.toNat_natCast _))

/-- The date of a day is the one that has its number. -/
theorem civil_eq {c : Civil} {d : Day} (h : c.Exists) (hnumber : d.number = c.number) :
    d.civil = c := by
  obtain ⟨length, hlength, hle⟩ := h.exists_length
  obtain ⟨hstart, hstop⟩ := h.number_bounds
  have hyear := yearOf_eq h.1 hstart hstop
  have hmonth := monthAndDay_eq 1 hlength h.2.2.2.2.1 hle
  have hrest : c.number - daysBeforeYear c.year =
      ((monthLengths c.year).take (c.month - 1)).sum + c.day := by
    rw [Civil.number, Nat.add_assoc, Nat.add_sub_cancel_left]
    rfl
  have hone : 1 + (c.month - 1) = c.month := by
    have := h.2.2.1
    omega
  rw [civil, hnumber, hyear, hrest, hmonth, hone]

/-- Every day has a date. -/
theorem exists_civil (d : Day) : ∃ c : Civil, c.Exists ∧ d.number = c.number := by
  obtain ⟨year, hyear, hstart, hstop⟩ := exists_year d.one_le
  have hlast : year ≤ lastYear := by
    refine Nat.le_of_not_lt fun hlt => ?_
    have hmono := daysBeforeYear_mono (a := lastYear + 1) (b := year) (by omega) hlt
    have := d.le_last
    unfold lastNumber at this
    omega
  rw [daysBeforeYear_succ hyear] at hstop
  have hone : 1 ≤ d.number - daysBeforeYear year := by omega
  have hle : d.number - daysBeforeYear year ≤ (monthLengths year).sum := by omega
  obtain ⟨i, length, day, hi, hday, hone, hle⟩ := exists_month hone hle
  have hlt : i < 12 := (List.getElem?_eq_some_iff.mp hi).1
  refine ⟨⟨year, i + 1, day⟩, ⟨hyear, hlast, Nat.le_add_left 1 i, hlt, hone, ?_⟩, ?_⟩
  · rwa [daysInMonth_eq (Nat.le_add_left 1 i) hi]
  · change d.number = daysBeforeYear year + ((monthLengths year).take i).sum + day
    omega

theorem civil_exists (d : Day) : d.civil.Exists := by
  obtain ⟨c, hexists, hnumber⟩ := d.exists_civil
  rwa [civil_eq hexists hnumber]

theorem number_civil (d : Day) : d.civil.number = d.number := by
  obtain ⟨c, hexists, hnumber⟩ := d.exists_civil
  rw [civil_eq hexists hnumber, hnumber]

/-- Years follow each other as their days do. -/
theorem year_mono {a b : Day} (h : a ≤ b) : a.civil.year ≤ b.civil.year := by
  obtain ⟨hstart, -⟩ := a.civil_exists.number_bounds
  obtain ⟨-, hstop⟩ := b.civil_exists.number_bounds
  rw [number_civil] at hstart hstop
  refine Nat.le_of_not_lt fun hlt => ?_
  have hmono := daysBeforeYear_mono (Nat.le_add_left 1 b.civil.year) hlt
  rw [le_iff] at h
  omega

/-- The day of a date is the one with its number. -/
theorem ofCivil?_eq_some_iff {c : Civil} {d : Day} :
    ofCivil? c = some d ↔ c.Exists ∧ d.number = c.number := by
  unfold ofCivil?
  split
  · rename_i hexists
    rw [ofNumber?_eq_some_iff, and_iff_right hexists]
    omega
  · rename_i hnot
    simp [hnot]

end Day

end TaskList
