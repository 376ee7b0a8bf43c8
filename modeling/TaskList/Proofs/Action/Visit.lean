/-
TaskList.Proofs.Action.Visit — what the edits of a visit make of a line.

* `Task.newlyMissed?` — the day that a visit finds an open task to be missed on,
  unless the task carries an overdue tag already.
* `Task.reset_of_open` — the edits of an open recurring task: that day is marked,
  and the counter is set to zero.
* `Task.carried_reset` — carried out, they make the line of `Task.visited`.
-/
import TaskList.Proofs.Edit.Carried
import TaskList.Proofs.Line.OnDay

namespace TaskList

namespace Task

/-- The day on which a visit finds the task missed, if it carries no overdue
tag. -/
def newlyMissed? (task : Task) (lastVisit now : Instant) : Option Day :=
  if task.overdue?.isNone then task.missedSince? lastVisit now else none

section Reset

variable {task : Task} {lastVisit now : Instant}

/-- Nothing is missed between two visits on one day. -/
theorem missedSince?_sameDay (h : lastVisit.day = now.day) :
    task.missedSince? lastVisit now = none := by
  rw [missedSince?, h]
  cases task.due? with
  | none => rfl
  | some tag => simp [Due.Expression.lastMissed, Day.daysUntil, Due.Expression.lastActive]

theorem reset_of_open (hopen : task.isDone = false) (hrecurring : task.isRecurring = true) :
    task.reset lastVisit now =
      ((task.newlyMissed? lastVisit now).map task.markOverdue).toList ++ task.resetCount := by
  rw [reset, if_pos hrecurring, resetState, if_neg (by simp [hopen]), newlyMissed?]
  by_cases hnone : task.overdue?.isNone = true
  · by_cases hday : lastVisit.day = now.day
    · rw [if_neg (fun h => h.2 hday), missedSince?_sameDay hday]
      simp
    · rw [if_pos ⟨hnone, hday⟩, if_pos hnone]
      cases task.missedSince? lastVisit now <;> rfl
  · rw [if_neg (fun h => hnone h.1), if_neg hnone]
    rfl

/-- The edits of a new cycle change columns of the line of the task. -/
theorem reset_columns {e : Edit} (he : e ∈ task.reset lastVisit now) :
    e.isColumnEdit = true ∧ e.line = task.line := by
  have hmarker : ∀ e ∈ task.clearMarker, e.isColumnEdit = true ∧ e.line = task.line := by
    unfold clearMarker
    split <;> simp [Edit.delete, Edit.isColumnEdit]
  have hstamp : ∀ e ∈ task.clearStamp, e.isColumnEdit = true ∧ e.line = task.line := by
    unfold clearStamp
    split <;> simp [Edit.delete, Edit.isColumnEdit]
  have hcount : ∀ e ∈ task.resetCount, e.isColumnEdit = true ∧ e.line = task.line := by
    unfold resetCount
    split <;> simp [writeCount, Edit.replace, Edit.isColumnEdit]
  by_cases hrecurring : task.isRecurring = true
  · cases hdone : task.isDone with
    | true =>
      rw [reset, if_pos hrecurring, resetState, if_pos hdone, clearCompletion, List.mem_append,
        List.mem_append] at he
      rcases he with (he | he) | he
      · exact hmarker e he
      · exact hstamp e he
      · exact hcount e he
    | false =>
      -- an overdue tag goes to the end of the line, whatever day it names
      rw [reset_of_open hdone hrecurring, List.mem_append, Option.mem_toList,
        Option.map_eq_some_iff] at he
      rcases he with ⟨day, -, rfl⟩ | he
      · exact ⟨rfl, rfl⟩
      · exact hcount e he
  · rw [reset, if_neg hrecurring] at he
    simp at he

end Reset

/-! ## Carrying the edits out -/

section Carried

variable {settings : Settings} {unit : Option IndentUnit} {target : Day} {number : Int}
  {raw : Text} {task : Task} {lastVisit now : Instant}

/-- The digits of a counter are in its line, and not at its end. -/
theorem digits_inside (h : Line.read settings unit target number raw = .ok task)
    {count : Located Count} (hcount : task.count? = some count) :
    count.value.digits.start < count.value.digits.stop ∧
      count.value.digits.stop < task.raw.length := by
  obtain ⟨⟨span, field⟩, hmem, hkind, hspan⟩ := mem_of_find? hcount
  obtain rfl : field = .count count.value := by cases field <;> simp_all
  have hwritten := Line.field_writtenAt h hmem
  obtain ⟨current, -, -, -, -, -, -, hne, -, hdigits, -, hstop⟩ := hwritten
  obtain ⟨-, token, hstands, htoken, -⟩ := Line.field_stands h hmem
  have hbound := hstands.bound
  have hlength := congrArg List.length hdigits
  have hpos := List.length_pos_iff.mpr hne
  rw [Span.textIn, Text.slice, List.length_drop, List.length_take] at hlength
  rw [Line.raw_of_read h]
  dsimp only at htoken hbound hstop
  omega

theorem applyTo_markOverdue (task : Task) (day : Day) :
    (task.markOverdue day).applyTo task.raw = task.raw.withTag (Line.overdueTag day).text :=
  Edit.applyTo_insert_end _ _ _ _ _

/-- What stands behind the line does not matter to a number that is put into
its counter. -/
theorem applyTo_writeCount {count : Located Count} (hcount : task.count? = some count)
    (hstart : count.value.digits.start ≤ task.raw.length)
    (hstop : count.value.digits.stop ≤ task.raw.length) (done : Nat) (kind : EditKind)
    (more : Text) :
    (task.writeCount count.value done kind).applyTo (task.raw ++ more) =
      task.withCount done ++ more := by
  rw [Edit.applyTo, writeCount, Edit.replace]
  dsimp only
  rw [Edit.place_of_nonneg (by omega), Edit.place_of_nonneg (by omega), Int.toNat_natCast,
    Int.toNat_natCast, List.take_append_of_le_length hstart, List.drop_append_of_le_length hstop,
    withCount, hcount]
  simp

theorem withTag_withCount {count : Located Count} (hcount : task.count? = some count)
    (hstop : count.value.digits.stop < task.raw.length) (done : Nat) (tag : Text) :
    (task.withCount done).withTag tag = task.withCount done ++
      ((if task.raw.getLast? = some ' ' then [] else [' ']) ++ tag) := by
  have hlast : (task.withCount done).getLast? = task.raw.getLast? := by
    have hdrop : (task.raw.drop count.value.digits.stop).getLast? = task.raw.getLast? := by
      rw [List.getLast?_drop, if_neg (by omega)]
    rw [withCount, hcount, List.getLast?_append, List.getLast?_append, hdrop]
    cases hraw : task.raw.getLast? with
    | none => simp [List.getLast?_eq_none_iff.mp hraw] at hstop
    | some c => rfl
  rw [Text.withTag, hlast]

/-- **The edits of a visit, carried out.** -/
theorem carried_reset (h : Line.read settings unit target number raw = .ok task)
    (hopen : task.isDone = false) (hrecurring : task.isRecurring = true) :
    ((task.reset lastVisit now).mergeSort Edit.leftOf).foldr Edit.applyTo task.raw =
      task.visited (task.newlyMissed? lastVisit now) := by
  rw [reset_of_open hopen hrecurring]
  cases hcount : task.count? with
  | none =>
    have hzero : task.withCount 0 = task.raw := by rw [withCount, hcount]
    have hnothing : task.resetCount = [] := by rw [resetCount, hcount]
    rw [hnothing, List.append_nil]
    cases task.newlyMissed? lastVisit now with
    | none => simpa [visited] using hzero.symm
    | some day => simpa [visited, hzero] using applyTo_markOverdue task day
  | some count =>
    obtain ⟨hstart, hstop⟩ := digits_inside h hcount
    have hone : task.resetCount = [task.writeCount count.value 0 .clearCount] := by
      rw [resetCount, hcount]
    have hwrite := applyTo_writeCount hcount (by omega) (by omega) 0 .clearCount
    rw [hone]
    cases task.newlyMissed? lastVisit now with
    | none =>
      have hwrite := hwrite []
      simpa [visited] using hwrite
    | some day =>
      -- the digits of the counter are further left than the end of the line
      have hsorted :
          ([task.markOverdue day] ++ [task.writeCount count.value 0 .clearCount]).mergeSort
            Edit.leftOf = [task.writeCount count.value 0 .clearCount, task.markOverdue day] := by
        refine (Edit.mergeSort_pair ?_).2
        simp only [markOverdue, writeCount, Edit.insert, Edit.replace]
        omega
      change List.foldr Edit.applyTo task.raw
        (([task.markOverdue day] ++ [_]).mergeSort Edit.leftOf) = _
      rw [hsorted, List.foldr_cons, List.foldr_cons, List.foldr_nil, applyTo_markOverdue,
        Text.withTag, hwrite, visited, withTag_withCount hcount hstop]

end Carried

end Task

end TaskList
