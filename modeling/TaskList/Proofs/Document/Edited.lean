/-
TaskList.Proofs.Document.Edited — a document whose tasks are edited.

* `Document.Reads.exists_number` — the line that a task was read from.
* `Document.Reads.exists_edited` — edits of columns, each of the line of its task,
  can be carried out, and they keep the number of lines. The line of a task is
  what its own edits make of it, and any other line is what it was.
-/
import TaskList.Proofs.Document.Reading
import TaskList.Proofs.Edit.Carried
import TaskList.Proofs.Line.Partition
import TaskList.Proofs.Outline.Links

namespace TaskList.Document

section Reads

variable {settings : Settings} {unit : Option IndentUnit} {target : Day} {lines : List Text}
  {tasks : List Task}

/-- The tasks of a document are the tasks of its lines. -/
theorem task_nodes_ofTasks (tasks : List Task) :
    (Outline.ofTasks tasks).nodes.map (·.task) = tasks := by
  rw [Outline.nodes_ofTasks, List.map_map]
  exact List.map_id tasks

/-- A task of a document was read from a line of it that is no comment. -/
theorem Reads.exists_number
    (h : Reads settings unit target (taskLines settings (number lines)) tasks) {task : Task}
    (htask : task ∈ tasks) :
    ∃ i : Nat, task.line = i ∧ lines[i]? = some task.raw ∧
      ⟨i, task.raw⟩ ∈ taskLines settings (number lines) ∧
      Line.read settings unit target i task.raw = .ok task := by
  obtain ⟨line, hmem, hread⟩ := h.exists_line htask
  obtain ⟨i, hi, hnumber⟩ := mem_number_iff.mp (List.mem_filter.mp (List.mem_filter.mp hmem).1).1
  obtain ⟨number, text⟩ := line
  obtain rfl : number = i := hnumber
  obtain rfl : task.raw = text := Line.raw_of_read hread
  exact ⟨i, Line.line_of_read hread, hi, hmem, hread⟩

theorem Reads.nodup (h : Reads settings unit target (taskLines settings (number lines)) tasks) :
    (tasks.map (·.line)).Nodup := by
  rw [h.lines_eq]
  exact (number_lines_nodup lines).sublist ((List.filter_sublist.trans List.filter_sublist).map _)

/-- **Edits of the tasks of a document** change the lines of these tasks, each by
its own edits, and nothing else. -/
theorem Reads.exists_edited
    (h : Reads settings unit target (taskLines settings (number lines)) tasks)
    {edits : Task → List Edit}
    (hedits : ∀ task ∈ tasks, ∀ e ∈ edits task, e.isColumnEdit = true ∧ e.line = task.line) :
    ∃ lines', Edit.applyAll lines (tasks.flatMap edits) = .ok lines' ∧
      lines'.length = lines.length ∧
      (∀ task ∈ tasks, ∀ i : Nat, task.line = i → lines'[i]? =
        some (((edits task).mergeSort Edit.leftOf).foldr Edit.applyTo task.raw)) ∧
      ∀ i : Nat, (∀ task ∈ tasks, task.line = i → edits task = []) → lines'[i]? = lines[i]? := by
  have hcolumns : ∀ e ∈ tasks.flatMap edits, e.isColumnEdit = true ∧
      ∃ i : Nat, e.line = i ∧ i < lines.length := by
    intro e he
    obtain ⟨task, htask, he⟩ := List.mem_flatMap.mp he
    obtain ⟨i, hline, hi, -⟩ := h.exists_number htask
    exact ⟨(hedits task htask e he).1, i, (hedits task htask e he).2.trans hline,
      (List.getElem?_eq_some_iff.mp hi).1⟩
  refine ⟨_, Edit.applyAll_columns (fun e he => (hcolumns e he).1) fun e he => (hcolumns e he).2,
    List.length_mapIdx, ?_, ?_⟩
  · intro task htask i hline
    obtain ⟨j, hline', hj, -⟩ := h.exists_number htask
    obtain rfl : i = j := by omega
    rw [List.getElem?_mapIdx, hj, Option.map_some, Edit.carried,
      Edit.onLine_flatMap h.nodup hedits htask hline]
  · intro i hnone
    have hnil : Edit.onLine (tasks.flatMap edits) i = [] := by
      refine List.eq_nil_iff_forall_not_mem.mpr fun e he => ?_
      obtain ⟨hmem, -, hline⟩ := Edit.mem_onLine.mp he
      obtain ⟨task, htask, hmem⟩ := List.mem_flatMap.mp hmem
      have hempty := hnone task htask ((hedits task htask e hmem).2.symm.trans hline)
      rw [hempty] at hmem
      simp at hmem
    rw [List.getElem?_mapIdx]
    simp [Edit.carried, hnil]

end Reads

end TaskList.Document
