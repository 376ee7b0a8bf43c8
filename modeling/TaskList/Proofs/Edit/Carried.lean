/-
TaskList.Proofs.Edit.Carried — each line gets its own edits.

* `Edit.carried` — a line with its edits of columns carried out.
* `Edit.applyAll_columns` — edits of columns, in lines that there are, can
  always be carried out, and each line is then what its own edits make of it.
* `Edit.applyAll_line` — edits of one line change that line and no other.
* `Edit.mergeSort_pair`, `Edit.applyTo_insert_end`, `Edit.applyTo_delete_end` — two
  edits of a line, and edits at its end.
* `Edit.onLine_flatMap` — of the edits of several tasks, a line gets those of
  its task.
-/
import TaskList.Proofs.Edit.Substitution
import TaskList.Task

namespace TaskList.Edit

/-- A line with its edits of columns carried out, from right to left. -/
def carried (edits : List Edit) (i : Nat) (t : Text) : Text := (onLine edits i).foldr applyTo t

theorem dropLines_nil (number : Nat) (lines : List Text) : dropLines [] number lines = lines := by
  induction lines generalizing number with
  | nil => rfl
  | cons t rest ih => rw [dropLines, ih]; rfl

/-- **Each line gets its own edits.** -/
theorem applyAll_columns {lines : List Text} {edits : List Edit}
    (hcolumns : ∀ e ∈ edits, e.isColumnEdit = true)
    (hlines : ∀ e ∈ edits, ∃ i : Nat, e.line = i ∧ i < lines.length) :
    applyAll lines edits = .ok (lines.mapIdx fun i t => carried edits i t) := by
  have hschedule : ∀ e ∈ schedule edits, ∃ i : Nat, e.line = i ∧ i < lines.length := by
    intro e he
    simp only [schedule, List.mem_mergeSort, List.mem_reverse, List.mem_filter] at he
    exact hlines e he.1
  have hdropped : dropped edits = [] := by
    rw [dropped, List.filter_eq_nil_iff.mpr fun e he => by simp [hcolumns e he], List.map_nil]
  rw [applyAll, applyInOrder_eq hschedule, hdropped]
  dsimp only
  rw [dropLines_nil]
  refine congrArg (fun f => Except.ok (lines.mapIdx f)) (funext fun i => funext fun t => ?_)
  rw [schedule_onLine, List.foldl_reverse]
  rfl

/-- Edits of one line. -/
theorem applyAll_line {lines : List Text} {edits : List Edit} {i : Nat} {t : Text}
    (hedits : ∀ e ∈ edits, e.isColumnEdit = true ∧ e.line = i) (hline : lines[i]? = some t) :
    applyAll lines edits = .ok (lines.set i ((edits.mergeSort leftOf).foldr applyTo t)) := by
  have hlt := (List.getElem?_eq_some_iff.mp hline).1
  have hcolumns : edits.filter isColumnEdit = edits :=
    List.filter_eq_self.mpr fun e he => (hedits e he).1
  rw [applyAll_columns (fun e he => (hedits e he).1) fun e he => ⟨i, (hedits e he).2, hlt⟩]
  refine congrArg Except.ok (List.ext_getElem? fun j => ?_)
  rw [List.getElem?_mapIdx, List.getElem?_set]
  by_cases hij : i = j
  · subst hij
    have hall : edits.filter (fun e => e.line == (i : Int)) = edits :=
      List.filter_eq_self.mpr fun e he => beq_iff_eq.mpr (hedits e he).2
    simp only [carried, onLine, hcolumns, hall, hline, hlt, if_true, Option.map_some]
  · have hnone : edits.filter (fun e => e.line == (j : Int)) = [] := by
      refine List.filter_eq_nil_iff.mpr fun e he => ?_
      rw [(hedits e he).2, beq_iff_eq]
      omega
    simp [carried, onLine, hcolumns, hnone, hij]

/-! ## Two edits of a line -/

/-- The left one of two edits comes first. -/
theorem mergeSort_pair {a b : Edit} (h : a.start < b.start) :
    [a, b].mergeSort leftOf = [a, b] ∧ [b, a].mergeSort leftOf = [a, b] := by
  have hab : leftOf a b = true := leftOf_iff.mpr (.inl h)
  have hba : leftOf b a = false := by
    rw [Bool.eq_false_iff, Ne, leftOf_iff]
    omega
  constructor
  · simp [List.mergeSort, hab]
  · simp [List.mergeSort, hba]

/-- A text that is put in place of some columns. -/
theorem applyTo_span (line : Int) (s : Span) (t text : Text) (kind : EditKind)
    (payload : Payload) :
    (replace line s text kind payload).applyTo t = t.take s.start ++ (text ++ t.drop s.stop) := by
  rw [applyTo, replace]
  dsimp only
  rw [place_of_nonneg (by omega), place_of_nonneg (by omega), Int.toNat_natCast,
    Int.toNat_natCast, List.append_assoc]

/-- A text that is put in place of what stands between two others. -/
theorem applyTo_replace (line : Int) {s : Span} {front middle : Text}
    (hstart : s.start = front.length) (hstop : s.stop = front.length + middle.length)
    (behind text : Text) (kind : EditKind) (payload : Payload) :
    (replace line s text kind payload).applyTo (front ++ (middle ++ behind)) =
      front ++ (text ++ behind) := by
  rw [applyTo_span, hstart, hstop, List.take_left, ← List.append_assoc front middle,
    ← List.length_append, List.drop_left]

/-- A text that is put in at the end of the line. -/
theorem applyTo_insert_end (line : Int) (t text : Text) (kind : EditKind) (payload : Payload) :
    (insert line t.length text kind payload).applyTo t = t ++ text := by
  simp [applyTo, insert, place_of_nonneg]

/-- The end of the line is taken out. -/
theorem applyTo_delete_end (line : Int) (t : Text) (column : Nat) (kind : EditKind)
    (payload : Payload) :
    (delete line ⟨column, t.length⟩ kind payload).applyTo t = t.take column := by
  simp [applyTo, delete, place_of_nonneg]

/-! ## The edits of a task -/

section Tasks

variable {tasks : List Task} {edits : Task → List Edit}

theorem filter_flatMap_of_line (h : (tasks.map (·.line)).Nodup)
    (hedits : ∀ task ∈ tasks, ∀ e ∈ edits task, e.line = task.line) {task : Task}
    (htask : task ∈ tasks) :
    (tasks.flatMap edits).filter (fun e => e.line == task.line) = edits task := by
  induction tasks with
  | nil => simp at htask
  | cons first rest ih =>
    rw [List.map_cons, List.nodup_cons] at h
    have hrest : ∀ other ∈ rest, ∀ e ∈ edits other, e.line = other.line :=
      fun other hother => hedits other (List.mem_cons_of_mem _ hother)
    rw [List.flatMap_cons, List.filter_append]
    rcases List.mem_cons.mp htask with rfl | htask
    · -- the edits of the other tasks are in other lines
      have hothers : (rest.flatMap edits).filter (fun e => e.line == task.line) = [] := by
        refine List.filter_eq_nil_iff.mpr fun e he => ?_
        obtain ⟨other, hother, he⟩ := List.mem_flatMap.mp he
        rw [hrest other hother e he, beq_iff_eq]
        exact fun hline => h.1 (hline ▸ List.mem_map_of_mem hother)
      rw [hothers, List.append_nil]
      refine List.filter_eq_self.mpr fun e he => ?_
      rw [hedits task List.mem_cons_self e he, beq_self_eq_true]
    · have hfirst : (edits first).filter (fun e => e.line == task.line) = [] := by
        refine List.filter_eq_nil_iff.mpr fun e he => ?_
        rw [hedits first List.mem_cons_self e he, beq_iff_eq]
        exact fun hline => h.1 (hline ▸ List.mem_map_of_mem htask)
      rw [hfirst, List.nil_append, ih h.2 hrest htask]

/-- A line gets the edits of its task. -/
theorem onLine_flatMap (h : (tasks.map (·.line)).Nodup)
    (hedits : ∀ task ∈ tasks, ∀ e ∈ edits task, e.isColumnEdit = true ∧ e.line = task.line)
    {task : Task} (htask : task ∈ tasks) {i : Nat} (hline : task.line = i) :
    onLine (tasks.flatMap edits) i = (edits task).mergeSort leftOf := by
  have hcolumns : (tasks.flatMap edits).filter isColumnEdit = tasks.flatMap edits := by
    refine List.filter_eq_self.mpr fun e he => ?_
    obtain ⟨other, hother, he⟩ := List.mem_flatMap.mp he
    exact (hedits other hother e he).1
  rw [onLine, hcolumns, ← hline,
    filter_flatMap_of_line h (fun other hother e he => (hedits other hother e he).2) htask]

end Tasks

end TaskList.Edit
