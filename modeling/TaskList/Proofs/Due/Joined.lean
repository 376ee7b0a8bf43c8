/-
TaskList.Proofs.Due.Joined — what a comma between two expressions does.

* `State.combine_append` and `State.combine_congr` — the states of two lists of
  alternatives put together, and that only which states there are matters.
* `Expression.firstDue_joined` — the search forwards for two expressions at
  once finds the earlier of their days, where a missing day counts as later
  than every other (`Day.earlier?`).
* `Expression.Joins` — what the expression of two texts with a comma between
  them has from the expressions of both. `Expression.read_joined` says it of
  every two texts that are read.
* `Expression.Agrees` — the same state on every day and the same flags.
  `Expression.read_of_pieces` says it of every two texts with the same
  alternatives, whatever their order, however often each is there, and
  whatever blank ones stand between them.
-/
import TaskList.Proofs.Due.Meaning
import TaskList.Proofs.Due.Missed

namespace TaskList

/-- The earlier of two days that may be missing. A missing day is later than
every day. -/
def Day.earlier? : Option Day → Option Day → Option Day
  | some a, some b => some (if a ≤ b then a else b)
  | some a, none => some a
  | none, b? => b?

namespace Day

@[simp] theorem earlier?_none_left (b? : Option Day) : earlier? none b? = b? := rfl

@[simp] theorem earlier?_none_right (a? : Option Day) : earlier? a? none = a? := by
  cases a? <;> rfl

theorem earlier?_of_le {a : Day} {b? : Option Day} (h : ∀ b ∈ b?, a ≤ b) :
    earlier? (some a) b? = some a := by
  cases b? with
  | none => rfl
  | some b => simp [earlier?, h b rfl]

theorem earlier?_of_lt {a? : Option Day} {b : Day} (h : ∀ a ∈ a?, b < a) :
    earlier? a? (some b) = some b := by
  cases a? with
  | none => rfl
  | some a =>
    have hlt := h a rfl
    rw [lt_iff] at hlt
    simp [earlier?, le_iff, hlt]

theorem number_of_next? {d next : Day} (h : d.next? = some next) :
    next.number = d.number + 1 := by
  have hnumber := ofNumber?_eq_some_iff.mp h
  omega

end Day

namespace Due

/-! ## States -/

namespace State

/-- Only which states there are decides, and neither their order nor how many
of each there are. -/
theorem combine_congr {xs ys : List State} (h : ∀ s, s ∈ xs ↔ s ∈ ys) :
    combine xs = combine ys := by
  have hall : xs.all (· == .invalid) = ys.all (· == .invalid) := by
    rw [Bool.eq_iff_iff]
    simp [h]
  simp only [combine, h, hall]

/-- **Combining is a homomorphism**: the state of two lists of alternatives is
that of their two states. An empty list counts as one without a meaning. -/
theorem combine_append (xs ys : List State) :
    combine (xs ++ ys) = combine [combine xs, combine ys] := by
  cases hstate : combine [combine xs, combine ys] with
  | due =>
    rw [combine_eq_due_iff] at hstate ⊢
    simpa [eq_comm (a := State.due), combine_eq_due_iff] using hstate
  | overdue =>
    rw [combine_eq_overdue_iff] at hstate ⊢
    simp only [List.mem_cons, List.not_mem_nil, or_false, not_or, eq_comm (a := State.due),
      eq_comm (a := State.overdue), combine_eq_due_iff, combine_eq_overdue_iff] at hstate
    simp only [List.mem_append, not_or]
    exact ⟨hstate.1, hstate.2.imp And.right And.right⟩
  | invalid =>
    rw [combine_eq_invalid_iff] at hstate ⊢
    simp only [List.forall_mem_cons, combine_eq_invalid_iff] at hstate
    exact List.forall_mem_append.mpr ⟨hstate.1, hstate.2.1⟩
  | notDue =>
    rw [combine_eq_notDue_iff] at hstate ⊢
    obtain ⟨⟨state, hmem, hvalid⟩, hdue, hoverdue⟩ := hstate
    simp only [List.mem_cons, List.not_mem_nil, or_false, not_or, eq_comm (a := State.due),
      combine_eq_due_iff] at hdue
    simp only [List.mem_cons, List.not_mem_nil, or_false, not_or, eq_comm (a := State.overdue),
      combine_eq_overdue_iff, not_and] at hoverdue
    simp only [List.mem_append, not_or]
    refine ⟨?_, hdue, hoverdue.1 hdue.1, hoverdue.2 hdue.2⟩
    -- one of the two has a meaning, and so one of its alternatives has
    by_contra hnone
    simp only [not_exists, not_and, not_not] at hnone
    have hxs := combine_eq_invalid_iff.mpr fun s hs => hnone s (.inl hs)
    have hys := combine_eq_invalid_iff.mpr fun s hs => hnone s (.inr hs)
    simp only [hxs, hys, List.mem_cons, List.not_mem_nil, or_false, or_self] at hmem
    exact hvalid hmem

end State

namespace Expression

/-! ## Searching the calendar -/

section Search

variable {a b e : Expression}

/-- A day that is found is behind the one from which it was looked for. -/
theorem lt_of_firstDue {count : Nat} {day d : Day} (h : e.firstDue count day = .ok (some d)) :
    day < d := by
  induction count generalizing day with
  | zero => simp [firstDue] at h
  | succ count ih =>
    rw [firstDue] at h
    cases hnext : day.next? with
    | none => simp [hnext] at h
    | some next =>
      have hnumber := Day.number_of_next? hnext
      simp only [hnext] at h
      rw [Day.lt_iff]
      split at h
      · cases h
        omega
      · have hlt := ih h
        rw [Day.lt_iff] at hlt
        omega

/-- Only the due days decide what is found. -/
theorem firstDue_congr (h : ∀ day, e.stateOn day = .due ↔ a.stateOn day = .due) (count : Nat)
    (day : Day) : e.firstDue count day = a.firstDue count day := by
  induction count generalizing day with
  | zero => rfl
  | succ count ih =>
    rw [firstDue, firstDue]
    cases day.next? with
    | none => rfl
    | some next => simp only [h next, ih next]

/-- An expression that is due when one of two others is: the search finds the
earlier of their days. -/
theorem firstDue_joined {count : Nat} {day : Day} {a? b? : Option Day}
    (h : ∀ day, e.stateOn day = .due ↔ a.stateOn day = .due ∨ b.stateOn day = .due)
    (ha : a.firstDue count day = .ok a?) (hb : b.firstDue count day = .ok b?) :
    e.firstDue count day = .ok (Day.earlier? a? b?) := by
  induction count generalizing day with
  | zero =>
    rw [firstDue] at ha hb
    cases ha
    cases hb
    rfl
  | succ count ih =>
    rw [firstDue] at ha hb ⊢
    cases hnext : day.next? with
    | none => simp [hnext] at ha
    | some next =>
      simp only [hnext, h next] at ha hb ⊢
      by_cases hadue : a.stateOn next = .due
      · rw [if_pos hadue] at ha
        rw [if_pos (.inl hadue)]
        cases ha
        -- whatever the other finds, it is this day or one behind it
        refine congrArg Except.ok (Day.earlier?_of_le fun d hd => ?_).symm
        cases hd
        rw [Day.le_iff]
        split at hb
        · cases hb
          exact Nat.le_refl _
        · exact Nat.le_of_lt (Day.lt_iff.mp (lt_of_firstDue hb))
      · rw [if_neg hadue] at ha
        by_cases hbdue : b.stateOn next = .due
        · rw [if_pos hbdue] at hb
          rw [if_pos (.inr hbdue)]
          cases hb
          refine congrArg Except.ok (Day.earlier?_of_lt fun d hd => ?_).symm
          cases hd
          exact lt_of_firstDue ha
        · rw [if_neg hbdue] at hb
          rw [if_neg (not_or.mpr ⟨hadue, hbdue⟩)]
          exact ih ha hb

/-- An expression without a meaning on one day has none on any other. -/
theorem stateOn_eq_invalid_iff (day : Day) :
    e.stateOn day = .invalid ↔ ∀ a ∈ e.alternatives, a.isValid = false := by
  simp [stateOn, State.combine_eq_invalid_iff, Alternative.stateOn_eq_invalid_iff]

theorem stateOn_ne_due_of_invalid {day : Day} (h : e.stateOn day = .invalid) (other : Day) :
    e.stateOn other ≠ .due := by
  rw [stateOn_eq_invalid_iff] at h
  have hother := (stateOn_eq_invalid_iff other).mpr h
  simp [hother]

end Search

/-! ## Two expressions with a comma between them -/

/-- What an expression has from two others that were put together. -/
structure Joins (e a b : Expression) : Prop where
  /-- On each day its state is that of their states together. -/
  stateOn : ∀ day, e.stateOn day = .combine [a.stateOn day, b.stateOn day]
  /-- It comes round again if one of the two does. -/
  isRecurring : e.isRecurring = (a.isRecurring || b.isRecurring)
  /-- It is a range if one of the two is, and neither comes round again. -/
  isRange : e.isRange = true ↔ a.isRecurring = false ∧ b.isRecurring = false ∧
    (a.isRange = true ∨ b.isRange = true)
  /-- Where neither search leaves the calendar, its own does not, and the next
  due day is the earlier one. -/
  nextDue : ∀ day a? b?, a.nextDue day = .ok a? → b.nextDue day = .ok b? →
    e.nextDue day = .ok (Day.earlier? a? b?)

section Joined

variable {a b e : Expression}

theorem stateOn_of_append (h : e.alternatives = a.alternatives ++ b.alternatives) (day : Day) :
    e.stateOn day = .combine [a.stateOn day, b.stateOn day] := by
  rw [stateOn, h, List.map_append, State.combine_append]
  rfl

/-- The next due day of two expressions together, of which either may be
without a meaning: nothing is looked for then. -/
theorem nextDue_of_stateOn
    (h : ∀ day, e.stateOn day = .combine [a.stateOn day, b.stateOn day]) {day : Day}
    {a? b? : Option Day} (ha : a.nextDue day = .ok a?) (hb : b.nextDue day = .ok b?) :
    e.nextDue day = .ok (Day.earlier? a? b?) := by
  have hdue : ∀ day, e.stateOn day = .due ↔ a.stateOn day = .due ∨ b.stateOn day = .due := by
    intro day
    rw [h, State.combine_eq_due_iff]
    simp [eq_comm (a := State.due)]
  have hinvalid : e.stateOn day = .invalid ↔
      a.stateOn day = .invalid ∧ b.stateOn day = .invalid := by
    rw [h, State.combine_eq_invalid_iff]
    simp
  rw [nextDue] at ha hb ⊢
  by_cases hainvalid : a.stateOn day = .invalid
  · rw [if_pos hainvalid] at ha
    cases ha
    have hsame : ∀ day, e.stateOn day = .due ↔ b.stateOn day = .due := fun other => by
      simp [hdue, stateOn_ne_due_of_invalid hainvalid]
    rw [Day.earlier?_none_left, ← hb, firstDue_congr hsame]
    simp [hinvalid, hainvalid]
  · rw [if_neg hainvalid] at ha
    rw [if_neg fun hboth => hainvalid (hinvalid.mp hboth).1]
    by_cases hbinvalid : b.stateOn day = .invalid
    · rw [if_pos hbinvalid] at hb
      cases hb
      have hsame : ∀ day, e.stateOn day = .due ↔ a.stateOn day = .due := fun other => by
        simp [hdue, stateOn_ne_due_of_invalid hbinvalid]
      rw [Day.earlier?_none_right, ← ha, firstDue_congr hsame]
    · rw [if_neg hbinvalid] at hb
      exact firstDue_joined hdue ha hb

theorem joins_of_append (h : e.alternatives = a.alternatives ++ b.alternatives) : e.Joins a b := by
  have hrecurring : e.isRecurring = (a.isRecurring || b.isRecurring) := by
    rw [isRecurring, h, List.any_append]
    rfl
  have hstate := stateOn_of_append h
  constructor
  case stateOn => exact hstate
  case isRecurring => exact hrecurring
  case isRange =>
    rw [isRange, h, List.any_append, hrecurring, isRange, isRange]
    simp only [Bool.and_eq_true, Bool.not_eq_true', Bool.or_eq_false_iff, Bool.or_eq_true]
    constructor
    · rintro ⟨⟨ha, hb⟩, hrange⟩
      exact ⟨ha, hb, hrange.imp (⟨ha, ·⟩) (⟨hb, ·⟩)⟩
    · rintro ⟨ha, hb, hrange⟩
      exact ⟨⟨ha, hb⟩, hrange.imp And.right And.right⟩
  case nextDue => exact fun day a? b? => nextDue_of_stateOn hstate

end Joined

/-! ## Texts of expressions -/

/-- The alternatives of two texts with a comma between them. -/
theorem pieces_append (a b : Text) : pieces (a ++ ',' :: b) = pieces a ++ pieces b := by
  rw [pieces, Text.cut_append_cons (by decide), List.filter_append]
  rfl

theorem read_eq_ok_iff {raw : Text} {e : Expression} :
    read raw = .ok e ↔ e.raw = raw ∧
      List.Forall₂ (fun piece a => Alternative.read piece = .ok a) (pieces raw) e.alternatives := by
  rw [← mapM_eq_ok_iff, read]
  cases (pieces raw).mapM Alternative.read with
  | error cause => simp
  | ok alternatives =>
    cases e
    simp [eq_comm]

/-- The expressions have the same state on every day, the same flags, and the
same next due day. -/
structure Agrees (e f : Expression) : Prop where
  stateOn : ∀ day, e.stateOn day = f.stateOn day
  isRecurring : e.isRecurring = f.isRecurring
  isRange : e.isRange = f.isRange
  nextDue : ∀ day, e.nextDue day = f.nextDue day

/-- Only which alternatives there are decides. -/
theorem agrees_of_mem_iff {e f : Expression} (h : ∀ a, a ∈ e.alternatives ↔ a ∈ f.alternatives) :
    e.Agrees f := by
  have hany : ∀ p : Alternative → Bool, e.alternatives.any p = f.alternatives.any p := by
    intro p
    rw [Bool.eq_iff_iff]
    simp [h]
  have hstate : ∀ day, e.stateOn day = f.stateOn day :=
    fun day => State.combine_congr fun s => by simp [h]
  have hrecurring : e.isRecurring = f.isRecurring := hany _
  constructor
  case stateOn => exact hstate
  case isRecurring => exact hrecurring
  case isRange => rw [isRange, isRange, hrecurring, hany]
  case nextDue =>
    intro day
    have hdue : ∀ day, e.stateOn day = .due ↔ f.stateOn day = .due := fun day => by rw [hstate]
    rw [nextDue, nextDue, hstate, firstDue_congr hdue]

/-- **A text with the same alternatives is read as an expression that
agrees.** -/
theorem read_of_pieces {raw other : Text} {e : Expression} (h : read raw = .ok e)
    (hpieces : ∀ piece, piece ∈ pieces other ↔ piece ∈ pieces raw) :
    ∃ f, read other = .ok f ∧ f.Agrees e := by
  have halternatives := alternatives_of_read h
  have hread : ∀ piece ∈ pieces other, ∃ a, Alternative.read piece = .ok a := by
    intro piece hpiece
    obtain ⟨a, -, ha⟩ := exists_of_forall₂ halternatives.flip ((hpieces piece).mp hpiece)
    exact ⟨a, ha⟩
  obtain ⟨alternatives, hothers⟩ := exists_forall₂ hread
  refine ⟨⟨other, alternatives⟩, read_eq_ok_iff.mpr ⟨rfl, hothers⟩, agrees_of_mem_iff fun a => ?_⟩
  rw [mem_iff_of_forall₂ halternatives, mem_iff_of_forall₂ hothers]
  simp only [hpieces]

/-- **The comma is a homomorphism.** Two texts that are read are read with a
comma between them, as an expression that joins theirs; and of the alternatives
of a text only which there are matters. -/
theorem read_joined :
    (∀ (a b : Text) (ea eb : Expression), read a = .ok ea → read b = .ok eb →
      ∃ e, read (a ++ ',' :: b) = .ok e ∧ e.Joins ea eb) ∧
    (∀ (raw other : Text) (e : Expression), read raw = .ok e →
      (∀ piece, piece ∈ pieces other ↔ piece ∈ pieces raw) →
        ∃ f, read other = .ok f ∧ f.Agrees e) := by
  refine ⟨fun a b ea eb ha hb => ?_, fun raw other e h hpieces => read_of_pieces h hpieces⟩
  refine ⟨⟨a ++ ',' :: b, ea.alternatives ++ eb.alternatives⟩, read_eq_ok_iff.mpr ⟨rfl, ?_⟩,
    joins_of_append rfl⟩
  rw [pieces_append]
  exact List.rel_append (alternatives_of_read ha) (alternatives_of_read hb)

/-- A range and a word without a meaning, joined with an interval, and then the
same alternatives the other way round, one of them twice and a blank one
between them. Seen from the last day of 2017, the range begins before the
interval; together they come round again and are no range. -/
theorem read_joined_range :
    ∃ ea eb e f : Expression, read "2018-01-01..2018-01-05,nonsense".toList = .ok ea ∧
      read "2018-01-02|e2d".toList = .ok eb ∧
      read ("2018-01-01..2018-01-05,nonsense".toList ++ ',' :: "2018-01-02|e2d".toList) = .ok e ∧
      read "2018-01-02|e2d,nonsense, ,2018-01-01..2018-01-05,nonsense".toList = .ok f ∧
      e.Joins ea eb ∧ f.Agrees e ∧ (ea.isRange, eb.isRecurring) = (true, true) ∧
      e.isRange = false ∧ f.nextDue ⟨736694, by decide, by decide⟩ =
        .ok (some ⟨736695, by decide, by decide⟩) := by
  have hshuffled : ∀ x y z piece : Text, piece ∈ [z, y, x, y] ↔ piece ∈ [x, y, z] := by
    intro x y z piece
    simp only [List.mem_cons, List.not_mem_nil, or_false]
    tauto
  have hpieces : ∀ piece,
      piece ∈ pieces "2018-01-02|e2d,nonsense, ,2018-01-01..2018-01-05,nonsense".toList ↔
      piece ∈ pieces ("2018-01-01..2018-01-05,nonsense".toList ++ ',' :: "2018-01-02|e2d".toList) := by
    have hother : pieces "2018-01-02|e2d,nonsense, ,2018-01-01..2018-01-05,nonsense".toList =
      ["2018-01-02|e2d".toList, "nonsense".toList, "2018-01-01..2018-01-05".toList,
        "nonsense".toList] := by decide
    have hraw : pieces ("2018-01-01..2018-01-05,nonsense".toList ++ ',' :: "2018-01-02|e2d".toList) =
      ["2018-01-01..2018-01-05".toList, "nonsense".toList, "2018-01-02|e2d".toList] := by decide
    intro piece
    rw [hother, hraw]
    exact hshuffled _ _ _ piece
  have hleft : (read "2018-01-01..2018-01-05,nonsense".toList).toOption.map
      (fun e => (e.isRange, (e.nextDue ⟨736694, by decide, by decide⟩).toOption)) =
      some (true, some (some ⟨736695, by decide, by decide⟩)) := by
    decide +kernel
  have hright : (read "2018-01-02|e2d".toList).toOption.map
      (fun e => (e.isRecurring, (e.nextDue ⟨736694, by decide, by decide⟩).toOption)) =
      some (true, some (some ⟨736696, by decide, by decide⟩)) := by
    decide +kernel
  generalize ha : read "2018-01-01..2018-01-05,nonsense".toList = left at hleft
  generalize hb : read "2018-01-02|e2d".toList = right at hright
  cases left with
  | error cause => simp [Except.toOption] at hleft
  | ok ea =>
    cases right with
    | error cause => simp [Except.toOption] at hright
    | ok eb =>
      simp only [Except.toOption, Option.map_some, Option.some.injEq, Prod.mk.injEq] at hleft hright
      obtain ⟨e, he, hjoins⟩ := read_joined.1 _ _ ea eb ha hb
      obtain ⟨f, hf, hagrees⟩ := read_joined.2 _ _ e he hpieces
      refine ⟨ea, eb, e, f, rfl, rfl, he, hf, hjoins, hagrees, by rw [hleft.1, hright.1], ?_, ?_⟩
      · have hrecurring := hjoins.isRecurring
        rw [hright.1, Bool.or_true] at hrecurring
        simp [isRange, hrecurring]
      · have hnext : ∀ (x : Except ShiftError (Option Day)) d,
            x.toOption = some (some d) → x = .ok (some d) := by
          intro x d hx
          cases x <;> simp_all [Except.toOption]
        rw [hagrees.nextDue]
        exact hjoins.nextDue _ _ _ (hnext _ _ hleft.2) (hnext _ _ hright.2)

end Expression

end Due

end TaskList
