/-
TaskList.Proofs.Calendar.Stamp — how instants are spelled in a tag.

* `Calendar.time?_written` — a time of day is read as it was written.
* `Instant.stamped` — what is left of an instant that is written into a tag: the
  time of day is midnight if it was not asked for or not known.
* `Instant.parse?_written` — that is what is read again, from year 1000 on.
-/
import TaskList.Proofs.Calendar.Spelling

namespace TaskList

open Numeral (padded isDigit)

/-! ## Times of day -/

namespace Calendar

/-- What is read from three texts of the right lengths with colons between. -/
theorem time?_of_lengths {h m s : Text} (hh : h.length = 2) (hm : m.length = 2)
    (hs : s.length = 2) : time? (h ++ ':' :: m ++ ':' :: s) = (digits? h).bind fun hour =>
      (digits? m).bind fun minute => (digits? s).bind fun second =>
        TimeOfDay.of? hour minute second := by
  match h, m, s, hh, hm, hs with
  | [_, _], [_, _], [_, _], _, _, _ => rfl

/-- A time of day is read as it was written. -/
theorem time?_written (t : TimeOfDay) : time? t.written = some t := by
  obtain ⟨hour, minute, second⟩ := t
  have hlength : ∀ n : Nat, n < 100 → (padded 2 n).length = 2 :=
    fun n hn => Numeral.length_padded (by decide) hn
  rw [TimeOfDay.written, time?_of_lengths (hlength _ (by omega)) (hlength _ (by omega))
    (hlength _ (by omega)), digits?_padded, digits?_padded, digits?_padded]
  exact dif_pos ⟨hour.isLt, minute.isLt, second.isLt⟩

/-- A time of day is made of digits and colons. -/
theorem mem_timeWritten {t : TimeOfDay} {c : Char} (hc : c ∈ t.written) :
    isDigit c = true ∨ c = ':' := by
  simp only [TimeOfDay.written, List.mem_append, List.mem_cons] at hc
  rcases hc with (hc | rfl | hc) | rfl | hc
  · exact .inl (Numeral.isDigit_of_mem_padded hc)
  · exact .inr rfl
  · exact .inl (Numeral.isDigit_of_mem_padded hc)
  · exact .inr rfl
  · exact .inl (Numeral.isDigit_of_mem_padded hc)

end Calendar

/-! ## Instants -/

namespace Instant

variable {i : Instant}

/-- What is read where the instant was written into a tag. -/
def stamped (i : Instant) (withTime : Bool) : Instant :=
  ⟨i.day, some (if withTime then i.time.getD .midnight else .midnight)⟩

/-- An instant is a day, or a day and a time of day behind a `T`. -/
theorem written_cases (i : Instant) (withTime : Bool) :
    i.written withTime = i.day.written ∧ i.stamped withTime = ⟨i.day, some .midnight⟩ ∨
      ∃ t, i.written withTime = i.day.written ++ 'T' :: t.written ∧
        i.stamped withTime = ⟨i.day, some t⟩ := by
  obtain ⟨day, time⟩ := i
  cases withTime with
  | false => exact .inl ⟨List.append_nil _, rfl⟩
  | true =>
    cases time with
    | none => exact .inl ⟨List.append_nil _, rfl⟩
    | some t => exact .inr ⟨t, rfl, rfl⟩

/-- An instant in a tag is made of digits, hyphens, a `T` and colons. -/
theorem mem_written {withTime : Bool} {c : Char} (hc : c ∈ i.written withTime) :
    isDigit c = true ∨ c = '-' ∨ c = 'T' ∨ c = ':' := by
  obtain ⟨hwritten, -⟩ | ⟨t, hwritten, -⟩ := i.written_cases withTime
  · rw [hwritten] at hc
    rcases Day.mem_written hc with hdigit | hhyphen
    · exact .inl hdigit
    · exact .inr (.inl hhyphen)
  · rw [hwritten, List.mem_append, List.mem_cons] at hc
    rcases hc with hc | rfl | hc
    · rcases Day.mem_written hc with hdigit | hhyphen
      · exact .inl hdigit
      · exact .inr (.inl hhyphen)
    · exact .inr (.inr (.inl rfl))
    · rcases Calendar.mem_timeWritten hc with hdigit | hcolon
      · exact .inl hdigit
      · exact .inr (.inr (.inr hcolon))

/-- **An instant that is written into a tag is read again**, its time of day as
far as it was asked for. -/
theorem parse?_written (h : 1000 ≤ i.day.civil.year) (withTime : Bool) :
    parse? (i.written withTime) = some (i.stamped withTime) := by
  have hchomp : (i.written withTime).chomp = i.written withTime := by
    refine Text.chomp_of_last fun hlast => ?_
    have hfeed := mem_written (List.mem_of_getLast? hlast)
    exact absurd hfeed (by decide)
  obtain ⟨hwritten, hstamped⟩ | ⟨t, hwritten, hstamped⟩ := i.written_cases withTime
  · rw [hwritten, hstamped, parse?, Day.parse?_written h]
  · rw [hwritten, Day.written_eq_padded h] at hchomp ⊢
    have hlength : i.day.padded.length = 10 := i.day.spelledBy_padded.length_eq
    have hday : Calendar.day? i.day.padded = some i.day :=
      Calendar.day?_eq_some_iff.mpr i.day.spelledBy_padded
    -- a date with a time of day behind it is too long to be a date
    have hnone : Day.parse? (i.day.padded ++ 'T' :: t.written) = none := by
      rw [Day.parse?, hchomp, Option.eq_none_iff_forall_ne_some]
      intro d hd
      have hten := (Calendar.day?_eq_some_iff.mp hd).length_eq
      simp [hlength] at hten
    rw [parse?, hnone]
    dsimp only
    rw [hchomp, List.splitAt_eq, List.take_left' hlength, List.drop_left' hlength, hstamped]
    simp only [hday, Calendar.time?_written]
    rfl

end Instant

end TaskList
