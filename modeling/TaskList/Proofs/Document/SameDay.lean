/-
TaskList.Proofs.Document.SameDay — the pass for a new cycle on the day of the
last visit.

* `Task.StartsAnew` — a recurring task that is done or has a counter. It is
  these that the pass changes on whatever day, while open ones are only marked
  on another day (`Task.reset_sameDay_eq_nil_iff`).
* `Document.resetEdits_sameDay` — so the pass has no edits where no reset is
  needed exactly if a document has no such task.

What says whether a reset is needed is `Due.needsReset`. The pass itself looks at
the days for the overdue tag only, so a task that was done on the same day is
reopened, as `Document.resetEdits_reopensToday` shows.
-/
import TaskList.Proofs.Document.Edited
import TaskList.Proofs.Action.Visit

namespace TaskList

/-! ## One task -/

namespace Task

/-- A recurring task that a new cycle finds done or counted. -/
def StartsAnew (task : Task) : Prop :=
  task.isRecurring = true ∧ (task.isDone = true ∨ task.count?.isSome = true)

section SameDay

variable {task : Task} {lastVisit now : Instant}

theorem clearCompletion_eq_nil_iff : task.clearCompletion = [] ↔ task.isDone = false := by
  have hmarker : task.clearMarker = [] ↔ task.marker.isSome = false := by
    unfold clearMarker
    cases task.marker <;> simp
  have hstamp : task.clearStamp = [] ↔ task.completion?.isSome = false := by
    unfold clearStamp
    cases task.completion? <;> simp
  rw [clearCompletion, List.append_eq_nil_iff, hmarker, hstamp, isDone, Bool.or_eq_false_iff]

theorem resetCount_eq_nil_iff : task.resetCount = [] ↔ task.count?.isSome = false := by
  unfold resetCount
  cases task.count? <;> simp

/-- An open task is not marked on the day of the last visit. -/
theorem resetState_sameDay (h : lastVisit.day = now.day) :
    task.resetState lastVisit now = if task.isDone then task.clearCompletion else [] := by
  have hnot : ¬ (task.overdue?.isNone = true ∧ lastVisit.day ≠ now.day) := fun hday => hday.2 h
  rw [resetState, if_neg hnot]

/-- On the day of the last visit a task has edits if it starts anew. -/
theorem reset_sameDay_eq_nil_iff (h : lastVisit.day = now.day) :
    task.reset lastVisit now = [] ↔ ¬ task.StartsAnew := by
  rw [reset, StartsAnew, resetState_sameDay h]
  by_cases hrecurring : task.isRecurring = true
  · rw [if_pos hrecurring, List.append_eq_nil_iff, resetCount_eq_nil_iff, not_and, not_or,
      Bool.not_eq_true, Bool.not_eq_true]
    cases hdone : task.isDone with
    | true => simp [clearCompletion_eq_nil_iff, hdone, hrecurring]
    | false => simp [hrecurring]
  · simp [hrecurring]

/-- And they only take the signs of completion out and write the counter. -/
theorem kind_of_mem_reset (h : lastVisit.day = now.day) {e : Edit}
    (he : e ∈ task.reset lastVisit now) : e.kind = .clearCompletion ∨ e.kind = .clearCount := by
  have hcompletion : ∀ e ∈ task.clearCompletion, e.kind = .clearCompletion := by
    intro e he
    rw [clearCompletion, clearMarker, clearStamp, List.mem_append] at he
    rcases he with he | he <;> split at he <;> simp_all [Edit.delete]
  have hcount : ∀ e ∈ task.resetCount, e.kind = .clearCount := by
    unfold resetCount
    split <;> simp [writeCount, Edit.replace]
  rw [reset, resetState_sameDay h] at he
  split at he
  · rcases List.mem_append.mp he with he | he
    · split at he
      · exact .inl (hcompletion e he)
      · exact absurd he List.not_mem_nil
    · exact .inr (hcount e he)
  · exact absurd he List.not_mem_nil

end SameDay

end Task

/-- No reset is needed on the day of the last visit. -/
theorem Due.needsReset_eq_false_iff {lastVisit now : Instant} :
    Due.needsReset (some lastVisit) now = false ↔ lastVisit.day = now.day := by
  simp [Due.needsReset, Instant.sameDay]

/-! ## The whole document -/

namespace Document

variable {settings : Settings} {unit : Option IndentUnit} {target : Day} {lines : List Text}
  {doc : Document} {lastVisit now : Instant}

/-- **The pass on a day that needs no reset** has no edits exactly if no
recurring task of the document is done or counted. Whatever edits it has, none
marks a task as overdue, and every other line stays as it is. -/
theorem resetEdits_sameDay (h : read settings unit target (number lines) = .ok doc)
    (hvisit : Due.needsReset (some lastVisit) now = false) :
    (resetEdits (doc.outline.nodes.map (·.task)) lastVisit now = [] ↔
      ∀ node ∈ doc.outline.nodes, ¬ node.task.StartsAnew) ∧
    (∀ e ∈ resetEdits (doc.outline.nodes.map (·.task)) lastVisit now,
      e.kind = .clearCompletion ∨ e.kind = .clearCount) ∧
    ∃ lines', Edit.applyAll lines (resetEdits (doc.outline.nodes.map (·.task)) lastVisit now) =
        .ok lines' ∧ lines'.length = lines.length ∧
      ∀ i : Nat, (∀ node ∈ doc.outline.nodes, node.task.line = i → ¬ node.task.StartsAnew) →
        lines'[i]? = lines[i]? := by
  have hday := Due.needsReset_eq_false_iff.mp hvisit
  obtain ⟨tasks, htasks, rfl⟩ := read_eq_ok_iff.mp h
  have hnodes := task_nodes_ofTasks tasks
  have hedits : ∀ task ∈ tasks, ∀ e ∈ task.reset lastVisit now,
      e.isColumnEdit = true ∧ e.line = task.line := fun task _ e he => Task.reset_columns he
  obtain ⟨lines', happly, hlength, -, hsame⟩ := htasks.exists_edited hedits
  refine ⟨?_, ?_, lines', ?_, hlength, fun i hnone => hsame i fun task htask hline => ?_⟩
  · rw [resetEdits, List.flatMap_eq_nil_iff, List.forall_mem_map]
    exact forall₂_congr fun node _ => Task.reset_sameDay_eq_nil_iff hday
  · intro e he
    obtain ⟨task, -, he⟩ := List.mem_flatMap.mp he
    exact Task.kind_of_mem_reset hday he
  · rw [hnodes]
    exact happly
  · rw [← hnodes] at htask
    obtain ⟨node, hnode, rfl⟩ := List.mem_map.mp htask
    exact (Task.reset_sameDay_eq_nil_iff hday).mpr (hnone node hnode hline)

/-- Open recurring tasks, one of them missed yesterday, and a done task that
does not recur. -/
theorem resetEdits_sameDay_open :
    ∃ doc, read {} none ⟨736704, by decide, by decide⟩ (number ["a \x7bdue:ed\x7d".toList,
        "# note".toList, "b \x7bdue:2018-01-01|e2d\x7d".toList,
        "x c \x7bcount:2/3\x7d".toList]) = .ok doc ∧
      Due.needsReset (some ⟨⟨736704, by decide, by decide⟩, some ⟨7, 0, 0⟩⟩)
        ⟨⟨736704, by decide, by decide⟩, some ⟨13, 37, 0⟩⟩ = false ∧
      resetEdits (doc.outline.nodes.map (·.task))
        ⟨⟨736704, by decide, by decide⟩, some ⟨7, 0, 0⟩⟩
        ⟨⟨736704, by decide, by decide⟩, some ⟨13, 37, 0⟩⟩ = [] := by
  have htasks : (read {} none ⟨736704, by decide, by decide⟩ (number ["a \x7bdue:ed\x7d".toList,
      "# note".toList, "b \x7bdue:2018-01-01|e2d\x7d".toList,
      "x c \x7bcount:2/3\x7d".toList])).toOption.map (fun doc => doc.outline.nodes.map fun node =>
        (node.task.isRecurring, node.task.isDone, node.task.count?.isSome)) =
      some [(true, false, false), (true, false, false), (false, true, true)] := by
    decide +kernel
  generalize hread : read _ _ _ _ = result at htasks ⊢
  cases result with
  | error e => simp [Except.toOption] at htasks
  | ok doc =>
    have hvisit : Due.needsReset (some ⟨⟨736704, by decide, by decide⟩, some ⟨7, 0, 0⟩⟩)
        ⟨⟨736704, by decide, by decide⟩, some ⟨13, 37, 0⟩⟩ = false := by decide
    refine ⟨doc, rfl, hvisit, (resetEdits_sameDay hread hvisit).1.mpr ?_⟩
    rintro node hnode ⟨hrecurring, hanew⟩
    have hmem : (node.task.isRecurring, node.task.isDone, node.task.count?.isSome) ∈
        [(true, false, false), (true, false, false), (false, true, true)] := by
      rw [← Option.some.inj htasks]
      exact List.mem_map_of_mem hnode
    rw [hrecurring] at hmem
    rcases hanew with hdone | hcount
    · simp [hdone] at hmem
    · simp [hcount] at hmem

/-- **A task that was done today is reopened** on the day of the last visit, and
a counter of today starts anew. -/
theorem resetEdits_reopensToday :
    ∃ doc, read {} none ⟨736704, by decide, by decide⟩
        (number ["x Water plants \x7bdue:ed\x7d \x7bcm:2018-01-10\x7d".toList,
          "Glass of water \x7bcount:2/3\x7d \x7bdue:ed\x7d".toList]) = .ok doc ∧
      Due.needsReset (some ⟨⟨736704, by decide, by decide⟩, some ⟨7, 0, 0⟩⟩)
        ⟨⟨736704, by decide, by decide⟩, some ⟨13, 37, 0⟩⟩ = false ∧
      Edit.applyAll ["x Water plants \x7bdue:ed\x7d \x7bcm:2018-01-10\x7d".toList,
          "Glass of water \x7bcount:2/3\x7d \x7bdue:ed\x7d".toList]
        (resetEdits (doc.outline.nodes.map (·.task))
          ⟨⟨736704, by decide, by decide⟩, some ⟨7, 0, 0⟩⟩
          ⟨⟨736704, by decide, by decide⟩, some ⟨13, 37, 0⟩⟩) =
        .ok ["Water plants \x7bdue:ed\x7d".toList,
          "Glass of water \x7bcount:0/3\x7d \x7bdue:ed\x7d".toList] := by
  have hedits : (read {} none ⟨736704, by decide, by decide⟩
      (number ["x Water plants \x7bdue:ed\x7d \x7bcm:2018-01-10\x7d".toList,
        "Glass of water \x7bcount:2/3\x7d \x7bdue:ed\x7d".toList])).toOption.map
        (fun doc => resetEdits (doc.outline.nodes.map (·.task))
          ⟨⟨736704, by decide, by decide⟩, some ⟨7, 0, 0⟩⟩
          ⟨⟨736704, by decide, by decide⟩, some ⟨13, 37, 0⟩⟩) =
      some [.delete 0 ⟨0, 2⟩ .clearCompletion (.text "done".toList),
        .delete 0 ⟨23, 39⟩ .clearCompletion (.text "cm".toList),
        .replace 1 ⟨22, 23⟩ ['0'] .clearCount (.number 3)] := by
    decide +kernel
  generalize hread : read _ _ _ _ = result at hedits ⊢
  cases result with
  | error e => simp [Except.toOption] at hedits
  | ok doc =>
    simp only [Except.toOption, Option.map_some, Option.some.injEq] at hedits
    refine ⟨doc, rfl, by decide, ?_⟩
    rw [hedits, Edit.applyAll, Edit.schedule,
      List.mergeSort_of_pairwise (by decide)]
    rfl

end Document

end TaskList
