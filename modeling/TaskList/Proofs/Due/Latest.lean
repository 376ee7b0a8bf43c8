/-
TaskList.Proofs.Due.Latest — the day on which something was missed between two
visits, looked for from its text.

* `Day.shift_back` — a shift back that stays in the calendar does not fail.
* `Expression.activeBack_eq` — looking at days by their distance is the search
  backwards day by day, and it never leaves the calendar.
* `missedBetween_latest` — the search never fails for an expression that is read. It
  finds the latest day from the last visit on and before the present one on which
  the expression was due or overdue, whatever the times of day.
-/
import TaskList.Proofs.Calendar.Distance
import TaskList.Proofs.Due.Missed

namespace TaskList

namespace Day

/-- The day at a distance back, if the calendar has one. -/
theorem shift_back {d day : Day} {back : Nat} (h : day.number + back = d.number) :
    d.shift (-(back : Int)) = .ok day :=
  shift_eq_ok_iff.mpr (by rw [daysUntil]; omega)

end Day

namespace Due

namespace Expression

variable {e : Expression}

/-- Looking at days by their distance from `today`, where `day` is the one before which
the first of them lies. -/
theorem activeBack_eq {today day : Day} {count back : Nat}
    (hback : day.number + back = today.number + 1) (hcount : count < day.number) :
    e.activeBack today count back = .ok (e.lastActive count day) := by
  induction count generalizing day back with
  | zero => rfl
  | succ count ih =>
    cases hprevious : day.previous? with
    | none =>
      have hfirst : (⟨1, Nat.le_refl 1, by decide⟩ : Day) < day :=
        Day.lt_iff.mpr (by dsimp only; omega)
      exact absurd hfirst (Day.not_lt_of_previous? hprevious)
    | some previous =>
      have hnumber := Day.previous?_eq_some_iff.mp hprevious
      have hshift : today.shift (-(back : Int)) = .ok previous := Day.shift_back (by omega)
      rw [activeBack, lastActive, hshift, hprevious]
      dsimp only
      split
      · rfl
      · exact ih (by omega) (by omega)

end Expression

/-- The text of an expression that is read has the missed day of the expression. -/
theorem missedBetween_eq {raw : Text} {e : Expression} (h : Expression.read raw = .ok e)
    (lastVisit now : Instant) :
    missedBetween raw lastVisit now = .ok (e.lastMissed lastVisit.day now.day) := by
  rw [missedBetween, Expression.lastMissed, Instant.daysUntil]
  split
  · rename_i hnone
    rw [hnone]
    rfl
  · -- the day of the last visit is in the calendar, and so are those behind it
    have hcount : (lastVisit.day.daysUntil now.day).toNat < now.day.number := by
      have hone := lastVisit.day.one_le
      have hone' := now.day.one_le
      rw [Day.daysUntil]
      omega
    rw [h]
    dsimp only
    rw [Expression.activeBack_eq rfl hcount]
    rfl

/-- **The missed day is the latest one between two visits.** For an expression that is
read the search does not fail; it finds the latest day from that of the last visit on
and before that of the present one on which the expression is due or overdue, and none
exactly if there is no such day. Times of day do not matter. -/
theorem missedBetween_latest {raw : Text} {e : Expression} (h : Expression.read raw = .ok e)
    (lastVisit now : Instant) :
    ∃ found, missedBetween raw lastVisit now = .ok found ∧
      (∀ d, found = some d ↔ e.LatestActive lastVisit.day now.day d) ∧
      (found = none ↔ ¬ ∃ d, lastVisit.day ≤ d ∧ d < now.day ∧ e.ActiveOn d) ∧
      ∀ time time' : Option TimeOfDay,
        missedBetween raw ⟨lastVisit.day, time⟩ ⟨now.day, time'⟩ = .ok found := by
  refine ⟨_, missedBetween_eq h lastVisit now, fun d => Expression.lastMissed_eq_some_iff, ?_,
    fun time time' => missedBetween_eq h _ _⟩
  rw [← Expression.isSome_lastMissed_iff, Option.not_isSome_iff_eq_none]

/-- An interval, a range that is over, a date still to come and a word without a
meaning, from the noon of one day to the morning of another: the interval was due on
the sixth of January, but the range is overdue on the seventh. -/
theorem missedBetween_latest_overdue :
    ∃ e found, Expression.read
        "2018-01-02|e4d,2018-01-02..2018-01-03,never,2018-02-01".toList = .ok e ∧
      missedBetween "2018-01-02|e4d,2018-01-02..2018-01-03,never,2018-02-01".toList
        ⟨⟨736696, by decide, by decide⟩, TimeOfDay.of? 12 0 0⟩
        ⟨⟨736702, by decide, by decide⟩, TimeOfDay.of? 9 30 0⟩ = .ok found ∧
      found = some ⟨736701, by decide, by decide⟩ ∧
      ∀ d, found = some d ↔ e.LatestActive ⟨736696, by decide, by decide⟩
        ⟨736702, by decide, by decide⟩ d := by
  have heq : (Expression.read
      "2018-01-02|e4d,2018-01-02..2018-01-03,never,2018-02-01".toList).toOption.map
        (·.lastMissed ⟨736696, by decide, by decide⟩ ⟨736702, by decide, by decide⟩) =
      some (some ⟨736701, by decide, by decide⟩) := by
    decide +kernel
  generalize hread : Expression.read _ = result at heq ⊢
  cases result with
  | error cause => simp [Except.toOption] at heq
  | ok e =>
    obtain ⟨found, hfound, hlatest, -, -⟩ := missedBetween_latest hread
      ⟨⟨736696, by decide, by decide⟩, TimeOfDay.of? 12 0 0⟩
      ⟨⟨736702, by decide, by decide⟩, TimeOfDay.of? 9 30 0⟩
    refine ⟨e, found, rfl, hfound, ?_, hlatest⟩
    have hday := (missedBetween_eq hread _ _).symm.trans hfound
    rw [← Option.some.inj heq]
    exact (Except.ok.inj hday).symm

end Due

end TaskList
