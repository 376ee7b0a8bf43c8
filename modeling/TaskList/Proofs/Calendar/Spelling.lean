/-
TaskList.Proofs.Calendar.Spelling — how days are spelled.

* `Civil.text` — a date as `YYYY-MM-DD`. `Day.SpelledBy` — a text spells a
  day: it is such a text, of a date that the calendar has.
* `Calendar.day?_eq_some_iff` — the reader of days takes exactly the texts
  that spell one, and each of them for the day that it spells.
* `Day.parse?_written` — a day that is written into a tag is read again, from
  year 1000 on.
-/
import TaskList.Calendar.Written
import TaskList.Proofs.Calendar.Civil
import TaskList.Proofs.Text.Digits
import TaskList.Proofs.Text.Pieces

namespace TaskList

open Numeral (padded isDigit)

/-- The date with four digits for the year and two for the others. -/
def Civil.text (c : Civil) : Text :=
  padded 4 c.year ++ Calendar.hyphenated c.month ++ Calendar.hyphenated c.day

/-- Does the text spell the day, as a date that the calendar has? -/
def Day.SpelledBy (d : Day) (t : Text) : Prop :=
  ∃ c : Civil, c.Exists ∧ d.number = c.number ∧ t = c.text

/-- The digits of a date. -/
theorem Civil.Exists.length_digits {c : Civil} (h : c.Exists) :
    (padded 4 c.year).length = 4 ∧ (padded 2 c.month).length = 2 ∧
      (padded 2 c.day).length = 2 := by
  obtain ⟨-, hyear, -, hmonth, -, hday⟩ := h
  have hday' : c.day ≤ 31 := by
    refine Nat.le_trans hday ?_
    unfold Calendar.daysInMonth Calendar.monthLengths
    split
    · omega
    · generalize c.month - 1 = i
      rcases i with _ | _ | _ | _ | _ | _ | _ | _ | _ | _ | _ | _ | i <;> simp
      split <;> omega
  unfold Calendar.lastYear at hyear
  exact ⟨Numeral.length_padded (by decide) (by omega), Numeral.length_padded (by decide) (by omega),
    Numeral.length_padded (by decide) (by omega)⟩

namespace Calendar

theorem digits?_eq_some_iff {t : Text} {n : Nat} :
    digits? t = some n ↔ (∀ c ∈ t, isDigit c = true) ∧ n = Nat.ofDigitChars 10 t 0 := by
  unfold digits?
  by_cases h : t.all isDigit = true
  · rw [if_pos h, Option.some.injEq, eq_comm]
    exact ⟨fun heq => ⟨List.all_eq_true.mp h, heq⟩, And.right⟩
  · rw [if_neg h]
    exact ⟨fun hnone => by simp at hnone, fun hall => absurd (List.all_eq_true.mpr hall.1) h⟩

theorem digits?_padded (width n : Nat) : digits? (padded width n) = some n :=
  digits?_eq_some_iff.mpr ⟨fun _ hc => Numeral.isDigit_of_mem_padded hc,
    (Numeral.ofDigitChars_padded width n).symm⟩

/-- What is read from three texts of the right lengths with hyphens between. -/
theorem day?_of_lengths {y m k : Text} (hy : y.length = 4) (hm : m.length = 2)
    (hk : k.length = 2) : day? (y ++ '-' :: m ++ '-' :: k) = (digits? y).bind fun year =>
      (digits? m).bind fun month => (digits? k).bind fun day =>
        Day.ofCivil? ⟨year, month, day⟩ := by
  match y, m, k, hy, hm, hk with
  | [_, _, _, _], [_, _], [_, _], _, _, _ => rfl

/-- The reader of days takes the texts that spell one. -/
theorem day?_eq_some_iff {t : Text} {d : Day} : day? t = some d ↔ d.SpelledBy t := by
  constructor
  · intro h
    unfold day? at h
    split at h
    · rename_i y₁ y₂ y₃ y₄ m₁ m₂ d₁ d₂
      simp only [bind, Option.bind_eq_some_iff] at h
      obtain ⟨year, hyear, month, hmonth, day, hday, hcivil⟩ := h
      obtain ⟨hexists, hnumber⟩ := Day.ofCivil?_eq_some_iff.mp hcivil
      obtain ⟨hy, rfl⟩ := digits?_eq_some_iff.mp hyear
      obtain ⟨hm, rfl⟩ := digits?_eq_some_iff.mp hmonth
      obtain ⟨hd, rfl⟩ := digits?_eq_some_iff.mp hday
      have hy' := Numeral.padded_ofDigitChars (List.cons_ne_nil _ _) hy
      have hm' := Numeral.padded_ofDigitChars (List.cons_ne_nil _ _) hm
      have hd' := Numeral.padded_ofDigitChars (List.cons_ne_nil _ _) hd
      refine ⟨_, hexists, hnumber, ?_⟩
      rw [Civil.text, hyphenated, hyphenated]
      exact (congrArg₂ (fun front k => front ++ '-' :: k)
        (congrArg₂ (fun y m => y ++ '-' :: m) hy' hm') hd').symm
    · simp at h
  · rintro ⟨c, hexists, hnumber, rfl⟩
    obtain ⟨hyear, hmonth, hday⟩ := hexists.length_digits
    rw [Civil.text, hyphenated, hyphenated, day?_of_lengths hyear hmonth hday, digits?_padded,
      digits?_padded, digits?_padded]
    exact Day.ofCivil?_eq_some_iff.mpr ⟨hexists, hnumber⟩

end Calendar

namespace Day

variable {d : Day} {t : Text}

theorem spelledBy_padded (d : Day) : d.SpelledBy d.padded :=
  ⟨d.civil, d.civil_exists, d.number_civil.symm, rfl⟩

theorem SpelledBy.length_eq (h : d.SpelledBy t) : t.length = 10 := by
  obtain ⟨c, hexists, -, rfl⟩ := h
  obtain ⟨hyear, hmonth, hday⟩ := hexists.length_digits
  simp [Civil.text, Calendar.hyphenated, hyear, hmonth, hday]

/-- A date is made of digits and hyphens. -/
theorem SpelledBy.mem (h : d.SpelledBy t) {c : Char} (hc : c ∈ t) :
    isDigit c = true ∨ c = '-' := by
  obtain ⟨civil, -, -, rfl⟩ := h
  simp only [Civil.text, Calendar.hyphenated, List.mem_append, List.mem_cons] at hc
  rcases hc with (hc | rfl | hc) | rfl | hc
  · exact .inl (Numeral.isDigit_of_mem_padded hc)
  · exact .inr rfl
  · exact .inl (Numeral.isDigit_of_mem_padded hc)
  · exact .inr rfl
  · exact .inl (Numeral.isDigit_of_mem_padded hc)

theorem SpelledBy.dot_notMem (h : d.SpelledBy t) : '.' ∉ t := by
  intro hdot
  rcases h.mem hdot with hdigit | hhyphen
  · exact absurd hdigit (by decide)
  · exact absurd hhyphen (by decide)

theorem SpelledBy.exists_digit (h : d.SpelledBy t) : ∃ c ∈ t, isDigit c = true := by
  obtain ⟨civil, hexists, -, rfl⟩ := h
  have hlength := hexists.length_digits.1
  obtain ⟨c, hc⟩ := List.exists_mem_of_length_pos (Nat.lt_of_lt_of_eq (by decide : 0 < 4) hlength.symm)
  exact ⟨c, by simp [Civil.text, hc], Numeral.isDigit_of_mem_padded hc⟩

/-- No line feed, or any other character, may stand in front of or behind a
date. -/
theorem parse?_eq_some_iff (hlast : t.getLast? ≠ some '\n') :
    parse? t = some d ↔ d.SpelledBy t := by
  rw [parse?, Text.chomp_of_last hlast, Calendar.day?_eq_some_iff]

/-- A day in a tag is made of digits and hyphens, however many digits the year has. -/
theorem mem_written {c : Char} (hc : c ∈ d.written) : isDigit c = true ∨ c = '-' := by
  simp only [written, Calendar.hyphenated, List.mem_append, List.mem_cons] at hc
  rcases hc with (hc | rfl | hc) | rfl | hc
  · exact .inl (Numeral.isDigit_of_mem_ofNat hc)
  · exact .inr rfl
  · exact .inl (Numeral.isDigit_of_mem_padded hc)
  · exact .inr rfl
  · exact .inl (Numeral.isDigit_of_mem_padded hc)

/-- From year 1000 on the year needs no zeros in front. -/
theorem written_eq_padded (h : 1000 ≤ d.civil.year) : d.written = d.padded := by
  rw [written, padded, Numeral.padded_eq_ofNat (by decide) h]

/-- A day that is written into a tag is read again. -/
theorem parse?_written (h : 1000 ≤ d.civil.year) : parse? d.written = some d := by
  rw [written_eq_padded h]
  refine (parse?_eq_some_iff fun hlast => ?_).mpr d.spelledBy_padded
  rcases d.spelledBy_padded.mem (List.mem_of_getLast? hlast) with hdigit | hhyphen
  · exact absurd hdigit (by decide)
  · exact absurd hhyphen (by decide)

end Day

end TaskList
