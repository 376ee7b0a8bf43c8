/-
TaskList.Proofs.Due.Upcoming — the next day on which an expression is due.

* `Expression.Ahead` — what there is among the days that follow a day: a first due
  one, none at all, or the end of the calendar before there is one.
  `Expression.firstDue_ahead` says that the search forwards finds out which.
* `Expression.IsNextDue` — the first due day behind a day, within the horizon.
* `Expression.nextDue_exact` — the next due day, and exactly when there is none and
  when the calendar ends too early. An expression without a meaning on one day has
  none on any other, so that looking at one day is enough.
-/
import TaskList.Proofs.Calendar.Distance
import TaskList.Proofs.Due.Joined

namespace TaskList

namespace Day

theorem next?_eq_some_iff {d next : Day} : d.next? = some next ↔ next.number = d.number + 1 := by
  rw [next?, ofNumber?_eq_some_iff]
  omega

/-- Only the last day has no day behind it. -/
theorem next?_eq_none_iff {d : Day} : d.next? = none ↔ d.number = Calendar.lastNumber := by
  have hlast := d.le_last
  constructor
  · intro h
    by_contra hne
    have hnext : d.next? = some ⟨d.number + 1, by omega, by omega⟩ := next?_eq_some_iff.mpr rfl
    rw [h] at hnext
    exact Option.some_ne_none _ hnext.symm
  · intro h
    refine Option.eq_none_iff_forall_ne_some.mpr fun next hnext => ?_
    have hle := next.le_last
    rw [next?_eq_some_iff] at hnext
    omega

/-- The days behind a day are the next one and those behind it. -/
theorem lt_iff_of_next? {d day next : Day} (h : day.next? = some next) :
    day < d ↔ d = next ∨ next < d := by
  rw [next?_eq_some_iff] at h
  rw [lt_iff, lt_iff, eq_iff]
  omega

/-- A shift ahead by a moderate number of days fails only at the end of the calendar. -/
theorem shift_ofNat_cases (d : Day) {days : Nat} (hdays : days ≤ 999999999) :
    (∃ day, d.shift days = .ok day ∧ d.number + days ≤ Calendar.lastNumber) ∨
      d.shift days = .error .outOfCalendar ∧ Calendar.lastNumber < d.number + days := by
  have hone := d.one_le
  by_cases hle : d.number + days ≤ Calendar.lastNumber
  · refine .inl ⟨⟨d.number + days, by omega, hle⟩, shift_eq_ok_iff.mpr ?_, hle⟩
    rw [daysUntil]
    dsimp only
    omega
  · refine .inr ⟨shift_eq_outOfCalendar hdays fun b hb => ?_, Nat.lt_of_not_le hle⟩
    have hlast := b.le_last
    rw [daysUntil] at hb
    omega

end Day

namespace Due.Expression

variable {e : Expression}

/-! ## The days ahead -/

/-- The day is the first one behind another on which the expression is due. -/
def FirstBehind (e : Expression) (day d : Day) : Prop :=
  day < d ∧ e.stateOn d = .due ∧ ∀ other, day < other → other < d → e.stateOn other ≠ .due

theorem FirstBehind.unique {day d other : Day} (h : e.FirstBehind day d)
    (h' : e.FirstBehind day other) : d = other := by
  obtain ⟨hlt, hdue, hfirst⟩ := h
  obtain ⟨hlt', hdue', hfirst'⟩ := h'
  rw [Day.eq_iff]
  refine Nat.le_antisymm (Nat.le_of_not_lt fun hbefore => ?_)
    (Nat.le_of_not_lt fun hbefore => ?_)
  · exact hfirst other hlt' hbefore hdue'
  · exact hfirst' d hlt hbefore hdue

/-- What there is among the `count` days that follow a day. -/
inductive Ahead (e : Expression) (count : Nat) (day : Day) :
    Except ShiftError (Option Day) → Prop
  /-- There is a first due day. -/
  | found (d : Day) (hnear : d.number ≤ day.number + count) (hfirst : e.FirstBehind day d) :
    Ahead e count day (.ok (some d))
  /-- The calendar has all of these days, and none of them is due. -/
  | none (hinside : day.number + count ≤ Calendar.lastNumber)
      (hnot : ∀ d, day < d → d.number ≤ day.number + count → e.stateOn d ≠ .due) :
    Ahead e count day (.ok none)
  /-- The calendar ends too early, and none of the days that it has is due. -/
  | outside (houtside : Calendar.lastNumber < day.number + count)
      (hnot : ∀ d, day < d → e.stateOn d ≠ .due) :
    Ahead e count day (.error .outOfCalendar)

/-- A day that is not due changes nothing for those behind it. -/
theorem Ahead.of_next {count : Nat} {day next : Day} {found : Except ShiftError (Option Day)}
    (hnext : day.next? = some next) (hnot : e.stateOn next ≠ .due)
    (h : e.Ahead count next found) : e.Ahead (count + 1) day found := by
  have hbehind := fun d => @Day.lt_iff_of_next? d day next hnext
  have hnumber := Day.next?_eq_some_iff.mp hnext
  cases h with
  | found d hnear hfirst =>
    obtain ⟨hlt, hdue, hfirst⟩ := hfirst
    refine .found d (by omega) ⟨(hbehind d).mpr (.inr hlt), hdue, fun other hother hbefore => ?_⟩
    rcases (hbehind other).mp hother with rfl | hother
    · exact hnot
    · exact hfirst other hother hbefore
  | none hinside hnone =>
    refine .none (by omega) fun d hd hnear => ?_
    rcases (hbehind d).mp hd with rfl | hd
    · exact hnot
    · exact hnone d hd (by omega)
  | outside houtside hnone =>
    refine .outside (by omega) fun d hd => ?_
    rcases (hbehind d).mp hd with rfl | hd
    · exact hnot
    · exact hnone d hd

/-- **The search forwards finds out what there is.** -/
theorem firstDue_ahead (e : Expression) (count : Nat) (day : Day) :
    e.Ahead count day (e.firstDue count day) := by
  induction count generalizing day with
  | zero =>
    refine .none day.le_last fun d hd hnear => ?_
    rw [Day.lt_iff] at hd
    omega
  | succ count ih =>
    rw [firstDue]
    cases hnext : day.next? with
    | none =>
      have hlast := Day.next?_eq_none_iff.mp hnext
      refine .outside (by omega) fun d hd => ?_
      have hle := d.le_last
      rw [Day.lt_iff] at hd
      omega
    | some next =>
      have hnumber := Day.next?_eq_some_iff.mp hnext
      dsimp only
      split
      · rename_i hdue
        refine .found next (by omega) ⟨by rw [Day.lt_iff]; omega, hdue, fun other hother => ?_⟩
        -- there is no day between a day and the next one
        rw [Day.lt_iff] at hother
        rw [Day.lt_iff]
        omega
      · rename_i hnot
        exact (ih next).of_next hnext hnot

/-! ## The next due day -/

/-- The day is the first one behind `target`, and within the horizon, on which the
expression is due. -/
structure IsNextDue (e : Expression) (target d : Day) : Prop where
  behind : target < d
  near : target.daysUntil d ≤ horizon
  due : e.stateOn d = .due
  first : ∀ other, target < other → other < d → e.stateOn other ≠ .due

/-- The expression is due on a day behind `target` that is within the horizon. -/
def ComesDue (e : Expression) (target : Day) : Prop :=
  ∃ d, target < d ∧ target.daysUntil d ≤ horizon ∧ e.stateOn d = .due

theorem isNextDue_iff {target d : Day} :
    e.IsNextDue target d ↔ d.number ≤ target.number + horizon ∧ e.FirstBehind target d := by
  have hnear : target.daysUntil d ≤ horizon ↔ d.number ≤ target.number + horizon := by
    rw [Day.daysUntil]
    omega
  constructor
  · rintro ⟨hlt, hle, hdue, hfirst⟩
    exact ⟨hnear.mp hle, hlt, hdue, hfirst⟩
  · rintro ⟨hle, hlt, hdue, hfirst⟩
    exact ⟨hlt, hnear.mpr hle, hdue, hfirst⟩

theorem IsNextDue.comesDue {target d : Day} (h : e.IsNextDue target d) : e.ComesDue target :=
  ⟨d, h.behind, h.near, h.due⟩

theorem not_comesDue_iff {target : Day} : ¬ e.ComesDue target ↔
    ∀ d, target < d → d.number ≤ target.number + horizon → e.stateOn d ≠ .due := by
  simp only [ComesDue, not_exists, not_and, Day.daysUntil]
  exact forall_congr' fun d => forall_congr' fun _ =>
    ⟨fun h hle => h (by omega), fun h hle => h (by omega)⟩

/-- Whether an expression has a meaning shows on every day alike. -/
theorem stateOn_ne_invalid_iff (day : Day) :
    e.stateOn day ≠ .invalid ↔ ∃ a ∈ e.alternatives, a.isValid = true := by
  rw [Ne, stateOn_eq_invalid_iff]
  simp

/-- **The next due day is exact.** Whether an expression has a meaning at all shows on any
one day; without one there is no next due day. With one, the first due day within
the horizon is found if there is any. If there is none, the search fails where the
calendar ends before the horizon, and says so where it does not. -/
theorem nextDue_exact (e : Expression) (target : Day) :
    (∀ day, e.stateOn day = .invalid ↔ ∀ a ∈ e.alternatives, a.isValid = false) ∧
    (∀ d, e.nextDue target = .ok (some d) ↔ e.IsNextDue target d) ∧
    (e.ComesDue target → ∃ d, e.nextDue target = .ok (some d)) ∧
    (e.nextDue target = .ok none ↔ (∀ a ∈ e.alternatives, a.isValid = false) ∨
      ¬ e.ComesDue target ∧ ∃ last, target.shift horizon = .ok last) ∧
    ∀ err, e.nextDue target = .error err ↔ err = .outOfCalendar ∧
      (∃ a ∈ e.alternatives, a.isValid = true) ∧ ¬ e.ComesDue target ∧
        target.shift horizon = .error .outOfCalendar := by
  refine ⟨stateOn_eq_invalid_iff, ?_⟩
  by_cases hinvalid : e.stateOn target = .invalid
  · have hnot : ∀ d, e.stateOn d ≠ .due := stateOn_ne_due_of_invalid hinvalid
    have hnever : ¬ e.ComesDue target := by
      rintro ⟨d, -, -, hdue⟩
      exact hnot d hdue
    have hnone := (stateOn_eq_invalid_iff target).mp hinvalid
    rw [nextDue, if_pos hinvalid]
    refine ⟨fun d => ⟨by simp, fun h => absurd h.comesDue hnever⟩,
      fun h => absurd h hnever, ⟨fun _ => .inl hnone, fun _ => rfl⟩, fun err => ⟨by simp, ?_⟩⟩
    rintro ⟨-, hvalid, -⟩
    exact absurd hinvalid ((stateOn_ne_invalid_iff target).mpr hvalid)
  · have hvalid := (stateOn_ne_invalid_iff target).mp hinvalid
    have hsome : ¬ ∀ a ∈ e.alternatives, a.isValid = false := fun hnone =>
      hinvalid ((stateOn_eq_invalid_iff target).mpr hnone)
    have hshift := target.shift_ofNat_cases (show horizon ≤ 999999999 by decide)
    have hahead := e.firstDue_ahead horizon target
    rw [nextDue, if_neg hinvalid]
    generalize e.firstDue horizon target = answer at hahead ⊢
    cases hahead with
    | found d hnear hfirst =>
      have hnext := isNextDue_iff.mpr ⟨hnear, hfirst⟩
      have hcomes := hnext.comesDue
      refine ⟨fun other => ⟨fun h => ?_, fun h => ?_⟩, fun _ => ⟨d, rfl⟩,
        by simp [hcomes, hsome], by simp [hcomes]⟩
      · cases h
        exact hnext
      · rw [hfirst.unique (isNextDue_iff.mp h).2]
    | none hinside hnot =>
      have hnever := not_comesDue_iff.mpr hnot
      obtain ⟨last, hlast, -⟩ := hshift.resolve_right fun h => Nat.not_le_of_lt h.2 hinside
      exact ⟨fun d => ⟨by simp, fun h => absurd h.comesDue hnever⟩, fun h => absurd h hnever,
        by simp [hnever, hlast], by simp [hlast]⟩
    | outside houtside hnot =>
      have hnever := not_comesDue_iff.mpr fun d hd _ => hnot d hd
      have hfails : target.shift horizon = .error .outOfCalendar := by
        obtain ⟨_, _, hle⟩ | ⟨hfails, -⟩ := hshift
        · exact absurd hle (Nat.not_le_of_lt houtside)
        · exact hfails
      refine ⟨fun d => ⟨by simp, fun h => absurd h.comesDue hnever⟩, fun h => absurd h hnever,
        by simp [hsome, hfails], fun err => ⟨fun h => ?_, fun h => ?_⟩⟩
      · cases h
        exact ⟨rfl, hvalid, hnever, hfails⟩
      · rw [h.1]

end Due.Expression

end TaskList
