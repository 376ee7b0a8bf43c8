/-
TaskList.Proofs.Due.Later — what the state of an expression on one day says of later days.

* `Rule.ComesRoundIn` — the numbers of days that a rule comes round in: whole weeks for a day
  of the week, a multiple of the interval for an interval. `Rule.HasStarted` — the days from
  which on it does so.
* `Rule.state_later` and `Rule.state_of_recurring` — a rule that comes round again has the
  same state so many days later, and it is never overdue.
* `Expression.recurring_comesRound` — the same of an expression all of whose valid
  alternatives come round again, whatever others it has.
* `Rule.overdue_later` — a rule that is overdue stays so. `Expression.overdue_lasts` — so an
  expression that is overdue is due or overdue from then on, though it may change between
  the two from day to day.
-/
import TaskList.Proofs.Calendar.Distance
import TaskList.Proofs.Due.Joined

namespace TaskList

/-- Whole weeks later it is the same day of the week. -/
theorem Day.weekday_later {d later : Day} {days : Nat} (hweeks : 7 ∣ days)
    (hlater : later.number = d.number + days) : later.weekday = d.weekday := by
  rw [Due.Rule.weekday_eq_iff, Day.number_weekday]
  have hone := d.one_le
  omega

namespace Due

/-! ## Rules that come round again -/

namespace Rule

/-- Does the rule come round in so many days? -/
def ComesRoundIn (days : Nat) : Rule → Prop
  | .weekday _ => 7 ∣ days
  | .every _ step _ => step ∣ days
  | .today | .everyDay | .on _ | .range .. => True

/-- Is the day not before the date that the rule counts from? -/
def HasStarted (day : Day) : Rule → Prop
  | .every start _ _ => start ≤ day
  | .today | .everyDay | .weekday _ | .on _ | .range .. => True

instance (days : Nat) : (rule : Rule) → Decidable (rule.ComesRoundIn days)
  | .weekday _ => inferInstanceAs (Decidable (7 ∣ days))
  | .every _ step _ => inferInstanceAs (Decidable (step ∣ days))
  | .today | .everyDay | .on _ | .range .. => isTrue trivial

instance (day : Day) : (rule : Rule) → Decidable (rule.HasStarted day)
  | .every start _ _ => inferInstanceAs (Decidable (start ≤ day))
  | .today | .everyDay | .weekday _ | .on _ | .range .. => isTrue trivial

variable {rule : Rule} {d later : Day} {days : Nat}

/-- An interval is due again after a multiple of it, once it has started. -/
theorem ofInterval_later {start : Day} {step : Nat} (hstep : step ∣ days) (hstart : start ≤ d)
    (hlater : later.number = d.number + days) :
    State.ofInterval start step later = State.ofInterval start step d := by
  rw [Day.le_iff] at hstart
  have hstart' : start ≤ later := by
    rw [Day.le_iff]
    omega
  have hdistance : (later.number - start.number) % step = (d.number - start.number) % step := by
    obtain ⟨k, rfl⟩ := hstep
    rw [hlater, Nat.sub_add_comm hstart, Nat.add_mul_mod_self_left]
  simp only [State.ofInterval, hdistance, hstart', Day.le_iff.mpr hstart]

/-- **A rule that comes round again** has the same state after the days that it comes
round in. -/
theorem state_later (hrecurring : rule.isRecurring = true) (hround : rule.ComesRoundIn days)
    (hstarted : rule.HasStarted d) (hlater : later.number = d.number + days) :
    rule.state later = rule.state d := by
  cases rule with
  | everyDay => rfl
  | weekday name => rw [state, state, Day.weekday_later hround hlater]
  | every start step hstep => exact ofInterval_later hround hstarted hlater
  | today => exact absurd hrecurring (by decide)
  | on date => exact Bool.noConfusion hrecurring
  | range first last => exact Bool.noConfusion hrecurring

theorem state_of_recurring (hrecurring : rule.isRecurring = true) (day : Day) :
    rule.state day ≠ .overdue := by
  obtain ⟨-, hoverdue, -⟩ := rule.state_cases day
  rw [Ne, hoverdue]
  cases rule with
  | on date => exact Bool.noConfusion hrecurring
  | range first last => exact Bool.noConfusion hrecurring
  | today | everyDay | weekday | every => exact id

/-- **A rule that is overdue stays so**, also a range whose last date is before its first
one. -/
theorem overdue_later (h : rule.state d = .overdue) (hle : d ≤ later) :
    rule.state later = .overdue := by
  rw [(rule.state_cases _).2.1] at h ⊢
  rw [Day.le_iff] at hle
  cases rule with
  | on date => exact Nat.lt_of_lt_of_le h hle
  | range first last => exact ⟨Nat.lt_of_lt_of_le h.1 hle, Nat.lt_of_lt_of_le h.2 hle⟩
  | today | everyDay | weekday | every => exact h

end Rule

/-! ## Expressions that come round again -/

namespace Expression

variable {e : Expression}

/-- Do all rules of the expression come round in so many days? -/
def ComesRoundIn (e : Expression) (days : Nat) : Prop :=
  ∀ a ∈ e.alternatives, ∀ rule ∈ a.rule?, rule.ComesRoundIn days

/-- Is the day not before any date that a rule of the expression counts from? -/
def HasStarted (e : Expression) (day : Day) : Prop :=
  ∀ a ∈ e.alternatives, ∀ rule ∈ a.rule?, rule.HasStarted day

/-- **An expression whose valid alternatives all come round again** is never overdue and on
no day without a meaning. After a number of days that all its rules come round in, its
state is the same, from the latest of the dates on that its intervals are counted from. -/
theorem recurring_comesRound (hvalid : ∃ a ∈ e.alternatives, a.isValid = true)
    (hrecurring : ∀ a ∈ e.alternatives, a.isValid = true → a.isRecurring = true) :
    (∀ day, e.stateOn day ≠ .overdue ∧ e.stateOn day ≠ .invalid) ∧
    ∀ days : Nat, e.ComesRoundIn days → ∀ d later, e.HasStarted d →
      d.shift days = .ok later → e.stateOn later = e.stateOn d := by
  have hrule : ∀ a ∈ e.alternatives, ∀ rule, a.rule? = some rule → rule.isRecurring = true := by
    intro a ha rule hsome
    have hrecurring := hrecurring a ha (by rw [Alternative.isValid, hsome]; rfl)
    rwa [Alternative.isRecurring, hsome] at hrecurring
  constructor
  · intro day
    constructor
    · intro hoverdue
      obtain ⟨-, hmem⟩ := State.combine_eq_overdue_iff.mp hoverdue
      obtain ⟨a, ha, hoverdue⟩ := List.mem_map.mp hmem
      obtain ⟨rule, hsome, hoverdue⟩ := (Alternative.stateOn_eq_overdue_iff day).mp hoverdue
      exact rule.state_of_recurring (hrule a ha rule hsome) day
        ((rule.state_cases day).2.1.mpr hoverdue)
    · intro hinvalid
      obtain ⟨a, ha, hsome⟩ := hvalid
      rw [(stateOn_eq_invalid_iff day).mp hinvalid a ha] at hsome
      exact Bool.noConfusion hsome
  · intro days hround d later hstarted hshift
    have hlater : later.number = d.number + days := by
      rw [Day.shift_eq_ok_iff, Day.daysUntil] at hshift
      omega
    refine congrArg State.combine (List.map_congr_left fun a ha => ?_)
    rw [Alternative.stateOn, Alternative.stateOn]
    cases hsome : a.rule? with
    | none => rfl
    | some rule =>
      exact Rule.state_later (hrule a ha rule hsome) (hround a ha rule hsome)
        (hstarted a ha rule hsome) hlater

/-- A day of the week, two intervals and a word without a meaning: 140 days are twenty
weeks, and a multiple of both intervals. From the later of the two dates on it is the first
interval that is due, and the second one is not. -/
theorem recurring_comesRound_twoIntervals :
    ∃ e, Expression.read "Mon,2018-01-03|e10d,2017-12-31-e4d,someday".toList = .ok e ∧
      (∃ a ∈ e.alternatives, a.isValid = true) ∧
      (∀ a ∈ e.alternatives, a.isValid = true → a.isRecurring = true) ∧
      (∀ a ∈ e.alternatives, ∀ rule ∈ a.rule?, rule.ComesRoundIn 140) ∧
      (∀ a ∈ e.alternatives, ∀ rule ∈ a.rule?,
        rule.HasStarted ⟨736697, by decide, by decide⟩) ∧
      (⟨736697, by decide, by decide⟩ : Day).shift (140 : Nat) =
        .ok ⟨736837, by decide, by decide⟩ ∧
      e.stateOn ⟨736697, by decide, by decide⟩ = .due ∧
      e.stateOn ⟨736837, by decide, by decide⟩ = .due := by
  have hfacts : (Expression.read
      "Mon,2018-01-03|e10d,2017-12-31-e4d,someday".toList).toOption.map (fun e => decide (
        (∃ a ∈ e.alternatives, a.isValid = true) ∧
        (∀ a ∈ e.alternatives, a.isValid = true → a.isRecurring = true) ∧
        (∀ a ∈ e.alternatives, ∀ rule ∈ a.rule?, rule.ComesRoundIn 140) ∧
        (∀ a ∈ e.alternatives, ∀ rule ∈ a.rule?,
          rule.HasStarted ⟨736697, by decide, by decide⟩) ∧
        e.stateOn ⟨736697, by decide, by decide⟩ = .due)) = some true := by
    decide +kernel
  generalize hread : Expression.read _ = result at hfacts ⊢
  cases result with
  | error cause => simp [Except.toOption] at hfacts
  | ok e =>
    obtain ⟨hvalid, hrecurring, hround, hstarted, hdue⟩ :=
      of_decide_eq_true (Option.some.inj hfacts)
    have hshift : (⟨736697, by decide, by decide⟩ : Day).shift (140 : Nat) =
        .ok ⟨736837, by decide, by decide⟩ := Day.shift_eq_ok_iff.mpr rfl
    have hsame := (recurring_comesRound hvalid hrecurring).2 140 hround _ _ hstarted hshift
    exact ⟨e, rfl, hvalid, hrecurring, hround, hstarted, hshift, hdue, hsame.trans hdue⟩

/-! ## Expressions that are overdue -/

/-- **What is overdue is due or overdue from then on.** One alternative stays overdue, and
whatever the others do can only make the expression due. -/
theorem overdue_lasts {d : Day} (h : e.stateOn d = .overdue) :
    (∃ a ∈ e.alternatives, ∀ later, d ≤ later → a.stateOn later = .overdue) ∧
    ∀ later, d ≤ later → e.stateOn later = .due ∨ e.stateOn later = .overdue := by
  obtain ⟨-, hmem⟩ := State.combine_eq_overdue_iff.mp h
  obtain ⟨a, ha, hoverdue⟩ := List.mem_map.mp hmem
  have hlasts : ∀ later, d ≤ later → a.stateOn later = .overdue := by
    intro later hle
    rw [Alternative.stateOn] at hoverdue ⊢
    cases hsome : a.rule? with
    | none =>
      rw [hsome] at hoverdue
      exact State.noConfusion hoverdue
    | some rule =>
      rw [hsome] at hoverdue
      exact Rule.overdue_later hoverdue hle
  refine ⟨⟨a, ha, hlasts⟩, fun later hle => ?_⟩
  have hmem : .overdue ∈ e.alternatives.map (·.stateOn later) :=
    List.mem_map.mpr ⟨a, ha, hlasts later hle⟩
  by_cases hdue : .due ∈ e.alternatives.map (·.stateOn later)
  · exact .inl (State.combine_eq_due_iff.mpr hdue)
  · exact .inr (State.combine_eq_overdue_iff.mpr ⟨hdue, hmem⟩)

/-- A range whose last date is before its first one, a date that comes due later on, and a
word without a meaning: overdue on 11 January, due on 20 January, and overdue again. -/
theorem overdue_lasts_backwards :
    ∃ e, Expression.read "2018-01-10..2018-01-05,2018-01-20,never".toList = .ok e ∧
      e.stateOn ⟨736705, by decide, by decide⟩ = .overdue ∧
      e.stateOn ⟨736714, by decide, by decide⟩ = .due ∧
      e.stateOn ⟨736715, by decide, by decide⟩ = .overdue ∧
      (∃ a ∈ e.alternatives, ∀ later, (⟨736705, by decide, by decide⟩ : Day) ≤ later →
        a.stateOn later = .overdue) ∧
      ∀ later, (⟨736705, by decide, by decide⟩ : Day) ≤ later →
        e.stateOn later = .due ∨ e.stateOn later = .overdue := by
  have hstates : (Expression.read "2018-01-10..2018-01-05,2018-01-20,never".toList).toOption.map
      (fun e => (e.stateOn ⟨736705, by decide, by decide⟩,
        e.stateOn ⟨736714, by decide, by decide⟩, e.stateOn ⟨736715, by decide, by decide⟩)) =
      some (.overdue, .due, .overdue) := by
    decide +kernel
  generalize hread : Expression.read _ = result at hstates ⊢
  cases result with
  | error cause => simp [Except.toOption] at hstates
  | ok e =>
    obtain ⟨hfirst, hrest⟩ := Prod.mk.inj (Option.some.inj hstates)
    obtain ⟨hsecond, hthird⟩ := Prod.mk.inj hrest
    exact ⟨e, rfl, hfirst, hsecond, hthird, overdue_lasts hfirst⟩

end Expression

end Due

end TaskList
