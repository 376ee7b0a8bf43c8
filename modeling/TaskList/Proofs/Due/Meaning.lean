/-
TaskList.Proofs.Due.Meaning — what a due expression means.

* `Due.Rule.DueOn`, `Due.Rule.OverdueOn` — the days on which a rule is due and
  overdue, said of day numbers and not as a computation of a state.
  `Rule.state_eq_due_iff` and the theorems beside it say that the state of a
  rule is that.
* `Due.Expression.Means` — what an expression means: which alternatives it
  has, which rules they stand for, and how their states are put together.
  `Due.Expression.read_means` says it of every expression that is read.
-/
import TaskList.Due.Expression
import TaskList.Proofs.Due.Spelling
import TaskList.Proofs.Reading

namespace TaskList.Due

/-! ## One rule -/

namespace Rule

/-- The days on which a rule is due. Day number one is a Monday. -/
def DueOn : Rule → Day → Prop
  | .today, _ | .everyDay, _ => True
  | .weekday name, day => (day.number - 1) % 7 = name.number
  | .on date, day => day = date
  | .range first last, day => first ≤ day ∧ day ≤ last
  | .every start step _, day => ∃ k, day.number = start.number + k * step

/-- The days on which a rule is overdue: those behind all of its dates. -/
def OverdueOn : Rule → Day → Prop
  | .on date, day => date < day
  | .range first last, day => first < day ∧ last < day
  | .today, _ | .everyDay, _ | .weekday _, _ | .every .., _ => False

theorem weekday_eq_iff {day : Day} {name : Weekday} :
    day.weekday = name ↔ (day.number - 1) % 7 = name.number := by
  rw [← Day.number_weekday]
  constructor
  · rintro rfl
    rfl
  · intro h
    have hinj : ∀ a b : Weekday, a.number = b.number → a = b := by
      intro a b
      cases a <;> cases b <;> decide
    exact hinj _ _ h

theorem ofDate_cases (date day : Day) :
    (State.ofDate date day = .due ↔ day = date) ∧
      (State.ofDate date day = .overdue ↔ date < day) ∧ State.ofDate date day ≠ .invalid := by
  unfold State.ofDate
  simp only [Day.eq_iff, Day.lt_iff]
  split
  · simp
    omega
  · split <;> simp <;> omega

theorem ofRange_cases (first last day : Day) :
    (State.ofRange first last day = .due ↔ first ≤ day ∧ day ≤ last) ∧
      (State.ofRange first last day = .overdue ↔ first < day ∧ last < day) ∧
        State.ofRange first last day ≠ .invalid := by
  unfold State.ofRange
  simp only [Day.le_iff, Day.lt_iff]
  split
  · simp
    omega
  · split <;> simp <;> omega

theorem ofInterval_cases (start day : Day) (step : Nat) :
    (State.ofInterval start step day = .due ↔ ∃ k, day.number = start.number + k * step) ∧
      State.ofInterval start step day ≠ .overdue ∧ State.ofInterval start step day ≠ .invalid := by
  have hiff : (start ≤ day ∧ (day.number - start.number) % step = 0) ↔
      ∃ k, day.number = start.number + k * step := by
    rw [Day.le_iff]
    constructor
    · rintro ⟨hle, hmod⟩
      obtain ⟨k, hk⟩ := Nat.dvd_of_mod_eq_zero hmod
      exact ⟨k, by rw [Nat.mul_comm k, ← hk]; omega⟩
    · rintro ⟨k, hk⟩
      rw [hk, Nat.add_sub_cancel_left]
      exact ⟨Nat.le_add_right _ _, Nat.mul_mod_left k step⟩
  rw [← hiff, State.ofInterval]
  split
  · rename_i h
    exact ⟨iff_of_true rfl h, by decide, by decide⟩
  · rename_i h
    exact ⟨iff_of_false (by decide) h, by decide, by decide⟩

/-- A rule is due on its days, overdue on its others, and never without a
meaning. -/
theorem state_cases (rule : Rule) (day : Day) :
    (rule.state day = .due ↔ rule.DueOn day) ∧ (rule.state day = .overdue ↔ rule.OverdueOn day) ∧
      rule.state day ≠ .invalid := by
  cases rule with
  | today => simp [state, DueOn, OverdueOn]
  | everyDay => simp [state, DueOn, OverdueOn]
  | weekday name =>
    rw [state, DueOn, OverdueOn, ← weekday_eq_iff]
    split <;> simp [*]
  | on date => exact ofDate_cases date day
  | range first last => exact ofRange_cases first last day
  | every start step _ =>
    obtain ⟨hdue, hoverdue, hinvalid⟩ := ofInterval_cases start day step
    exact ⟨hdue, iff_of_false hoverdue id, hinvalid⟩

end Rule

/-! ## Alternatives -/

namespace Alternative

/-- The alternative stands for a rule: its text, trimmed and lower-cased,
spells it. -/
def StandsFor (a : Alternative) (rule : Rule) : Prop := rule.SpelledBy a.text.trim.lower

variable {a : Alternative} {text : Text}

theorem text_of_read (h : read text = .ok a) : a.text = text := by
  unfold read at h
  split at h
  · simp at h
  · cases h
    rfl

theorem rule?_eq_some_iff (h : read text = .ok a) (rule : Rule) :
    a.rule? = some rule ↔ a.StandsFor rule := by
  unfold read at h
  split at h
  · simp at h
  · rename_i rule? hread
    cases h
    exact Rule.read_eq_some_iff hread rule

theorem stateOn_eq_due_iff (day : Day) :
    a.stateOn day = .due ↔ ∃ rule, a.rule? = some rule ∧ rule.DueOn day := by
  unfold stateOn
  cases a.rule? with
  | none => simp
  | some rule => simp [(rule.state_cases day).1]

theorem stateOn_eq_overdue_iff (day : Day) :
    a.stateOn day = .overdue ↔ ∃ rule, a.rule? = some rule ∧ rule.OverdueOn day := by
  unfold stateOn
  cases a.rule? with
  | none => simp
  | some rule => simp [(rule.state_cases day).2.1]

theorem stateOn_eq_invalid_iff (day : Day) : a.stateOn day = .invalid ↔ a.isValid = false := by
  unfold stateOn isValid
  cases a.rule? with
  | none => simp
  | some rule => simp [(rule.state_cases day).2.2]

theorem isValid_iff : a.isValid = true ↔ ∃ rule, a.rule? = some rule := Option.isSome_iff_exists

theorem isRecurring_iff : a.isRecurring = true ↔ ∃ rule, a.rule? = some rule ∧
    (rule = .everyDay ∨ (∃ name, rule = .weekday name) ∨
      ∃ start step hstep, rule = .every start step hstep) := by
  unfold isRecurring
  cases a.rule? with
  | none => simp
  | some rule =>
    cases rule with
    | every start step hstep => simp [Rule.isRecurring, hstep]
    | _ => simp [Rule.isRecurring]

theorem isRange_iff : a.isRange = true ↔ ∃ first last, a.rule? = some (.range first last) := by
  unfold isRange
  cases a.rule? with
  | none => simp
  | some rule => cases rule <;> simp [Rule.isRange]

end Alternative

/-! ## States together -/

namespace State

theorem combine_eq_overdue_iff {states : List State} :
    combine states = .overdue ↔ .due ∉ states ∧ .overdue ∈ states := by
  unfold combine
  split
  · simp [*]
  · split
    · simp [*]
    · split <;> simp [*]

theorem combine_eq_invalid_iff {states : List State} :
    combine states = .invalid ↔ ∀ state ∈ states, state = .invalid := by
  unfold combine
  split
  · rename_i hdue
    simpa using ⟨_, hdue, by decide⟩
  · split
    · rename_i hoverdue
      simpa using ⟨_, hoverdue, by decide⟩
    · split
      · rename_i hall
        exact iff_of_true rfl (by simpa using hall)
      · rename_i hall
        exact iff_of_false (by decide) (by simpa using hall)

theorem combine_eq_notDue_iff {states : List State} :
    combine states = .notDue ↔ (∃ state ∈ states, state ≠ .invalid) ∧
      .due ∉ states ∧ .overdue ∉ states := by
  unfold combine
  split
  · simp [*]
  · split
    · simp [*]
    · rename_i hdue hoverdue
      split
      · rename_i hall
        refine iff_of_false (by decide) fun ⟨⟨state, hstate, hne⟩, _⟩ => ?_
        exact hne (beq_iff_eq.mp (List.all_eq_true.mp hall state hstate))
      · rename_i hall
        exact iff_of_true rfl ⟨by simpa using hall, hdue, hoverdue⟩

end State

/-! ## Expressions -/

/-- What a due expression means. -/
structure Expression.Means (raw : Text) (e : Expression) : Prop where
  /-- The alternatives are the parts between commas, but for blank ones. -/
  parts : ∃ parts : List Text, Text.joined [','] parts = raw ∧ (∀ part ∈ parts, ',' ∉ part) ∧
    e.alternatives.map (·.text) = parts.filter fun part => !part.allBlank
  /-- An alternative is valid if it stands for a rule, which is then its
  rule. -/
  rule : ∀ a ∈ e.alternatives, ∀ rule, a.rule? = some rule ↔ a.StandsFor rule
  valid : ∀ a ∈ e.alternatives, a.isValid = true ↔ ∃ rule, a.StandsFor rule
  /-- An alternative is due and overdue when its rule is. -/
  alternative_due : ∀ a ∈ e.alternatives, ∀ day,
    a.stateOn day = .due ↔ ∃ rule, a.StandsFor rule ∧ rule.DueOn day
  alternative_overdue : ∀ a ∈ e.alternatives, ∀ day,
    a.stateOn day = .overdue ↔ ∃ rule, a.StandsFor rule ∧ rule.OverdueOn day
  /-- On no day is a valid alternative without a meaning, and on every day an
  invalid one is. -/
  alternative_invalid : ∀ a ∈ e.alternatives, ∀ day, a.stateOn day = .invalid ↔ a.isValid = false
  /-- One alternative that is due decides. -/
  due : ∀ day, e.stateOn day = .due ↔ ∃ a ∈ e.alternatives, a.stateOn day = .due
  /-- Then one that is overdue does. -/
  overdue : ∀ day, e.stateOn day = .overdue ↔
    (∀ a ∈ e.alternatives, a.stateOn day ≠ .due) ∧ ∃ a ∈ e.alternatives, a.stateOn day = .overdue
  /-- Without a meaning is what has no valid alternative. -/
  invalid : ∀ day, e.stateOn day = .invalid ↔ ∀ a ∈ e.alternatives, a.isValid = false
  /-- Everything else is not due. -/
  notDue : ∀ day, e.stateOn day = .notDue ↔ (∃ a ∈ e.alternatives, a.isValid = true) ∧
    ∀ a ∈ e.alternatives, a.stateOn day ≠ .due ∧ a.stateOn day ≠ .overdue
  /-- An expression comes round again if it has a rule that does. -/
  recurring : e.isRecurring = true ↔ ∃ a ∈ e.alternatives, ∃ rule, a.StandsFor rule ∧
    (rule = .everyDay ∨ (∃ name, rule = .weekday name) ∨
      ∃ start step hstep, rule = .every start step hstep)
  /-- Of the others, those with a range are ranges. -/
  range : e.isRange = true ↔ e.isRecurring = false ∧ ∃ a ∈ e.alternatives, ∃ first last,
    a.StandsFor (.range first last)

/-- The alternatives of an expression are read from its pieces. -/
theorem Expression.alternatives_of_read {raw : Text} {e : Expression}
    (h : Expression.read raw = .ok e) :
    List.Forall₂ (fun piece a => Alternative.read piece = .ok a) (pieces raw) e.alternatives := by
  unfold Expression.read at h
  split at h
  · simp at h
  · rename_i alternatives hread
    cases h
    exact mapM_eq_ok_iff.mp hread

theorem texts_of_forall₂ {pieces : List Text} {alternatives : List Alternative}
    (h : List.Forall₂ (fun piece a => Alternative.read piece = .ok a) pieces alternatives) :
    alternatives.map (·.text) = pieces := by
  induction h with
  | nil => rfl
  | cons hread _ ih => rw [List.map_cons, ih, Alternative.text_of_read hread]

/-- **An expression that is read means what its alternatives say.** -/
theorem Expression.read_means {raw : Text} {e : Expression} (h : Expression.read raw = .ok e) :
    e.Means raw := by
  have halternatives := alternatives_of_read h
  have hrule : ∀ a ∈ e.alternatives, ∀ rule, a.rule? = some rule ↔ a.StandsFor rule := by
    intro a ha rule
    obtain ⟨piece, -, hread⟩ := exists_of_forall₂ halternatives ha
    exact Alternative.rule?_eq_some_iff hread rule
  constructor
  case parts =>
    refine ⟨raw.cut (· == ','), Text.joined_cut ',' raw, fun part hpart hcomma => ?_,
      texts_of_forall₂ halternatives⟩
    simpa using Text.notMem_of_mem_cut hpart ',' hcomma
  case rule => exact hrule
  case valid =>
    intro a ha
    simp only [Alternative.isValid_iff, hrule a ha]
  case alternative_due =>
    intro a ha day
    simp only [Alternative.stateOn_eq_due_iff, hrule a ha]
  case alternative_overdue =>
    intro a ha day
    simp only [Alternative.stateOn_eq_overdue_iff, hrule a ha]
  case alternative_invalid => exact fun a _ day => Alternative.stateOn_eq_invalid_iff day
  case due =>
    intro day
    simp [Expression.stateOn, State.combine_eq_due_iff]
  case overdue =>
    intro day
    simp [Expression.stateOn, State.combine_eq_overdue_iff]
  case invalid =>
    intro day
    simp [Expression.stateOn, State.combine_eq_invalid_iff, Alternative.stateOn_eq_invalid_iff]
  case notDue =>
    intro day
    simp [Expression.stateOn, State.combine_eq_notDue_iff, Alternative.stateOn_eq_invalid_iff,
      imp_and, forall_and]
  case recurring =>
    rw [Expression.isRecurring, List.any_eq_true]
    refine exists_congr fun a => and_congr_right fun ha => ?_
    simp only [Alternative.isRecurring_iff, hrule a ha]
  case range =>
    rw [Expression.isRange, Bool.and_eq_true, Bool.not_eq_true', List.any_eq_true]
    refine and_congr_right fun _ => exists_congr fun a => and_congr_right fun ha => ?_
    simp only [Alternative.isRange_iff, hrule a ha]

/-- A weekday in another case, a range with white space in it, an interval
behind a hyphen, a blank alternative, and three texts that are no rule: a
plural, a day that no calendar has, and an interval of no days. On the third
day of the year the interval decides. -/
theorem Expression.read_means_mixed :
    ∃ e, Expression.read (" Sun,2018-01-02 .. 2018-01-05,\t,2018-01-01-e02D,sundays," ++
        "2018-02-30,2018-01-01|e0d").toList = .ok e ∧
      e.alternatives.map (·.rule?) = [some (.weekday .sunday),
        some (.range ⟨736696, by decide, by decide⟩ ⟨736699, by decide, by decide⟩),
        some (.every ⟨736695, by decide, by decide⟩ 2 (by decide)), none, none, none] ∧
      (e.stateOn ⟨736697, by decide, by decide⟩, e.isRecurring, e.isRange) = (.due, true, false) ∧
      e.Means (" Sun,2018-01-02 .. 2018-01-05,\t,2018-01-01-e02D,sundays," ++
        "2018-02-30,2018-01-01|e0d").toList := by
  have heq : (Expression.read (" Sun,2018-01-02 .. 2018-01-05,\t,2018-01-01-e02D,sundays," ++
      "2018-02-30,2018-01-01|e0d").toList).toOption.map (fun e => (e.alternatives.map (·.rule?),
        e.stateOn ⟨736697, by decide, by decide⟩, e.isRecurring, e.isRange)) =
      some ([some (.weekday .sunday),
        some (.range ⟨736696, by decide, by decide⟩ ⟨736699, by decide, by decide⟩),
        some (.every ⟨736695, by decide, by decide⟩ 2 (by decide)), none, none, none],
        .due, true, false) := by
    decide +kernel
  generalize hread : Expression.read _ = result at heq ⊢
  cases result with
  | error e => simp [Except.toOption] at heq
  | ok e =>
    obtain ⟨hrules, hstate⟩ := Prod.mk.injEq .. ▸ Option.some.inj heq
    exact ⟨e, rfl, hrules, hstate, Expression.read_means hread⟩

end TaskList.Due
