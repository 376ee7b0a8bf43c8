/-
TaskList.Proofs.Due.Missed — the day on which something was missed.

* `Expression.LatestActive` — the latest day between two visits on which an
  expression is due or overdue. `Expression.lastMissed_eq_some_iff` and
  `Expression.isSome_lastMissed_iff` say that the search backwards finds it.
* `Expression.firstMissed` — the same over a sequence of visits: the first
  interval that has such a day decides. `Expression.MarkedOn` says so without a
  search, and `Expression.isSome_firstMissed_iff` that the intervals leave no
  day out.
-/
import TaskList.Due.Expression
import TaskList.Proofs.Calendar.Civil

namespace TaskList

namespace Day

theorem previous?_eq_some_iff {d previous : Day} :
    d.previous? = some previous ↔ previous.number + 1 = d.number := by
  rw [previous?, ofNumber?_eq_some_iff]
  omega

/-- The first day has no days before it. -/
theorem not_lt_of_previous? {d day : Day} (h : day.previous? = none) : ¬ d < day := by
  intro hlt
  have hone := d.one_le
  have hlast := day.le_last
  have hbounds : 1 ≤ day.number - 1 ∧ day.number - 1 ≤ Calendar.lastNumber := by
    rw [lt_iff] at hlt
    omega
  have hsome : day.previous? = some ⟨day.number - 1, hbounds.1, hbounds.2⟩ :=
    previous?_eq_some_iff.mpr (by dsimp only; omega)
  rw [h] at hsome
  exact Option.some_ne_none _ hsome.symm

/-- The days before a day are the previous one and those before it. -/
theorem lt_iff_of_previous? {d day previous : Day} (h : day.previous? = some previous) :
    d < day ↔ d = previous ∨ d < previous := by
  rw [previous?_eq_some_iff] at h
  rw [lt_iff, lt_iff, eq_iff]
  omega

end Day

namespace Due

theorem State.isActive_iff {s : State} : s.isActive = true ↔ s = .due ∨ s = .overdue := by
  cases s <;> decide

namespace Expression

/-- Is something due or overdue on the day? -/
def ActiveOn (e : Expression) (d : Day) : Prop := e.stateOn d = .due ∨ e.stateOn d = .overdue

/-- The day is the latest one, from `since` on and before `today`, on which the
expression is due or overdue. -/
structure LatestActive (e : Expression) (since today d : Day) : Prop where
  since_le : since ≤ d
  lt_today : d < today
  active : e.ActiveOn d
  latest : ∀ other, d < other → other < today → ¬ e.ActiveOn other

variable {e : Expression}

/-! ## Between two visits -/

/-- The day is the last one before `today` on which the expression is due or
overdue. -/
def LastBefore (e : Expression) (today d : Day) : Prop :=
  d < today ∧ e.ActiveOn d ∧ ∀ other, d < other → other < today → ¬ e.ActiveOn other

theorem lastBefore_of_active {today previous d : Day} (h : today.previous? = some previous)
    (hactive : e.ActiveOn previous) : e.LastBefore today d ↔ d = previous := by
  have hbefore := fun d => @Day.lt_iff_of_previous? d today previous h
  constructor
  · rintro ⟨hlt, -, hlatest⟩
    refine ((hbefore d).mp hlt).resolve_right fun hlt => ?_
    exact hlatest previous hlt ((hbefore previous).mpr (.inl rfl)) hactive
  · rintro rfl
    refine ⟨(hbefore d).mpr (.inl rfl), hactive, fun other hlt hother => ?_⟩
    rw [hbefore, Day.eq_iff, Day.lt_iff] at hother
    rw [Day.lt_iff] at hlt
    omega

theorem lastBefore_of_not_active {today previous d : Day} (h : today.previous? = some previous)
    (hinactive : ¬ e.ActiveOn previous) : e.LastBefore today d ↔ e.LastBefore previous d := by
  have hbefore := fun d => @Day.lt_iff_of_previous? d today previous h
  constructor
  · rintro ⟨hlt, hactive, hlatest⟩
    have hne : d ≠ previous := fun heq => hinactive (heq ▸ hactive)
    exact ⟨((hbefore d).mp hlt).resolve_left hne, hactive,
      fun other hlt hother => hlatest other hlt ((hbefore other).mpr (.inr hother))⟩
  · rintro ⟨hlt, hactive, hlatest⟩
    refine ⟨(hbefore d).mpr (.inr hlt), hactive, fun other hlt hother => ?_⟩
    rcases (hbefore other).mp hother with rfl | hother
    · exact hinactive
    · exact hlatest other hlt hother

theorem lastActive_eq_some_iff {count : Nat} {day d : Day} :
    e.lastActive count day = some d ↔ day.number ≤ d.number + count ∧ e.LastBefore day d := by
  induction count generalizing day with
  | zero =>
    simp only [lastActive, Nat.add_zero, LastBefore, Day.lt_iff, reduceCtorEq, false_iff]
    rintro ⟨hle, hlt, -⟩
    omega
  | succ count ih =>
    rw [lastActive]
    cases hprevious : day.previous? with
    | none =>
      refine ⟨fun h => by simp at h, ?_⟩
      rintro ⟨-, hlt, -⟩
      exact absurd hlt (Day.not_lt_of_previous? hprevious)
    | some previous =>
      have hnumber := Day.previous?_eq_some_iff.mp hprevious
      dsimp only
      split
      · rename_i hactive
        rw [lastBefore_of_active hprevious (State.isActive_iff.mp hactive), Option.some.injEq]
        constructor
        · rintro rfl
          exact ⟨by omega, rfl⟩
        · exact fun h => h.2.symm
      · rename_i hinactive
        rw [ih, lastBefore_of_not_active hprevious (mt State.isActive_iff.mpr hinactive)]
        exact and_congr_left fun _ => by omega

theorem isSome_lastActive {count : Nat} {day d : Day} (hle : day.number ≤ d.number + count)
    (hlt : d < day) (hactive : e.ActiveOn d) : (e.lastActive count day).isSome = true := by
  induction count generalizing day with
  | zero =>
    rw [Day.lt_iff] at hlt
    omega
  | succ count ih =>
    rw [lastActive]
    cases hprevious : day.previous? with
    | none => exact absurd hlt (Day.not_lt_of_previous? hprevious)
    | some previous =>
      have hbefore := (Day.lt_iff_of_previous? hprevious).mp hlt
      rw [Day.previous?_eq_some_iff] at hprevious
      dsimp only
      split
      · rfl
      · rename_i hinactive
        rcases hbefore with rfl | hlt
        · exact absurd (State.isActive_iff.mpr hactive) hinactive
        · exact ih (by omega) hlt

/-- **The search backwards finds the latest day** on which the expression was
due or overdue. -/
theorem lastMissed_eq_some_iff {since today d : Day} :
    e.lastMissed since today = some d ↔ e.LatestActive since today d := by
  rw [lastMissed, lastActive_eq_some_iff, Day.daysUntil]
  constructor
  · rintro ⟨hle, hlt, hactive, hlatest⟩
    refine ⟨?_, hlt, hactive, hlatest⟩
    rw [Day.lt_iff] at hlt
    rw [Day.le_iff]
    omega
  · rintro ⟨hle, hlt, hactive, hlatest⟩
    refine ⟨?_, hlt, hactive, hlatest⟩
    rw [Day.lt_iff] at hlt
    rw [Day.le_iff] at hle
    omega

/-- Where there is an active day at all, the search finds one. -/
theorem isSome_lastMissed_iff {since today : Day} :
    (e.lastMissed since today).isSome = true ↔ ∃ d, since ≤ d ∧ d < today ∧ e.ActiveOn d := by
  constructor
  · intro h
    obtain ⟨d, hd⟩ := Option.isSome_iff_exists.mp h
    obtain ⟨hle, hlt, hactive, -⟩ := lastMissed_eq_some_iff.mp hd
    exact ⟨d, hle, hlt, hactive⟩
  · rintro ⟨d, hle, hlt, hactive⟩
    refine isSome_lastActive ?_ hlt hactive
    rw [Day.le_iff] at hle
    rw [Day.lt_iff] at hlt
    rw [Day.daysUntil]
    omega

/-! ## Over a sequence of visits -/

/-- The day on which something was missed, from one visit on over later ones:
the first interval with such a day decides. -/
def firstMissed (e : Expression) : Day → List Day → Option Day
  | _, [] => none
  | since, today :: rest => (e.lastMissed since today).or (e.firstMissed today rest)

theorem firstMissed_cons (since today : Day) (rest : List Day) :
    e.firstMissed since (today :: rest) =
      (e.lastMissed since today).or (e.firstMissed today rest) := rfl

/-- The day is the latest active one of an interval between two visits, and no
interval before that has an active day. -/
def MarkedOn (e : Expression) (visits : List Day) (d : Day) : Prop :=
  ∃ i since today, visits[i]? = some since ∧ visits[i + 1]? = some today ∧
    e.LatestActive since today d ∧
    ∀ j < i, ∀ since today, visits[j]? = some since → visits[j + 1]? = some today →
      ∀ other, since ≤ other → other < today → ¬ e.ActiveOn other

theorem markedOn_of_firstMissed {first d : Day} {visits : List Day}
    (h : e.firstMissed first visits = some d) : e.MarkedOn (first :: visits) d := by
  induction visits generalizing first with
  | nil => simp [firstMissed] at h
  | cons today rest ih =>
    rw [firstMissed] at h
    cases hmissed : e.lastMissed first today with
    | some latest =>
      rw [hmissed, Option.some_or, Option.some.injEq] at h
      subst h
      exact ⟨0, first, today, rfl, rfl, lastMissed_eq_some_iff.mp hmissed,
        fun j hj => absurd hj (Nat.not_lt_zero j)⟩
    | none =>
      rw [hmissed, Option.none_or] at h
      obtain ⟨i, since, behind, hsince, hbehind, hlatest, hbefore⟩ := ih h
      refine ⟨i + 1, since, behind, hsince, hbehind, hlatest, fun j hj => ?_⟩
      cases j with
      | succ j => exact hbefore j (Nat.lt_of_succ_lt_succ hj)
      | zero =>
        rintro _ _ ⟨⟩ ⟨⟩ other hle hlt hactive
        have hsome := isSome_lastMissed_iff.mpr ⟨other, hle, hlt, hactive⟩
        simp [hmissed] at hsome

/-- Later visits do not change on which day something was missed. -/
theorem firstMissed_append {first d : Day} {early : List Day}
    (h : e.firstMissed first early = some d) (late : List Day) :
    e.firstMissed first (early ++ late) = some d := by
  induction early generalizing first with
  | nil => simp [firstMissed] at h
  | cons today rest ih =>
    rw [firstMissed_cons] at h
    rw [List.cons_append, firstMissed_cons]
    cases hmissed : e.lastMissed first today with
    | some latest => rwa [hmissed, Option.some_or] at h
    | none =>
      rw [hmissed, Option.none_or] at h
      exact ih h

/-- The intervals between visits leave no day out. -/
theorem isSome_firstMissed_iff {first : Day} {visits : List Day}
    (hdays : (first :: visits).Pairwise (· ≤ ·)) :
    (e.firstMissed first visits).isSome = true ↔
      ∃ d, first ≤ d ∧ d < (first :: visits).getLast (List.cons_ne_nil _ _) ∧ e.ActiveOn d := by
  induction visits generalizing first with
  | nil =>
    simp only [firstMissed, Option.isSome_none, Bool.false_eq_true, List.getLast_singleton,
      false_iff, Day.le_iff, Day.lt_iff]
    rintro ⟨d, hle, hlt, -⟩
    omega
  | cons today rest ih =>
    obtain ⟨hfirst, hrest⟩ := List.pairwise_cons.mp hdays
    have hle := hfirst today List.mem_cons_self
    have hlast : today ≤ (today :: rest).getLast (List.cons_ne_nil _ _) := by
      rcases List.mem_cons.mp (List.getLast_mem (List.cons_ne_nil today rest)) with hlast | hlast
      · rw [hlast]
        exact Nat.le_refl _
      · exact (List.pairwise_cons.mp hrest).1 _ hlast
    rw [firstMissed, Option.isSome_or, Bool.or_eq_true, isSome_lastMissed_iff, ih hrest,
      List.getLast_cons (List.cons_ne_nil _ _)]
    generalize (today :: rest).getLast (List.cons_ne_nil _ _) = last at hlast ⊢
    simp only [Day.le_iff, Day.lt_iff] at *
    constructor
    · rintro (⟨d, hd, hd', hactive⟩ | ⟨d, hd, hd', hactive⟩)
      · exact ⟨d, hd, Nat.lt_of_lt_of_le hd' hlast, hactive⟩
      · exact ⟨d, Nat.le_trans hle hd, hd', hactive⟩
    · rintro ⟨d, hd, hd', hactive⟩
      -- the day of a visit belongs to the interval that the visit begins
      rcases Nat.lt_or_ge d.number today.number with hlt | hge
      · exact .inl ⟨d, hd, hlt, hactive⟩
      · exact .inr ⟨d, hge, hd', hactive⟩

end Expression

end Due

end TaskList
