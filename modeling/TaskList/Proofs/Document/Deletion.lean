/-
TaskList.Proofs.Document.Deletion — a task is deleted with all that is nested
under it, and with nothing else.

* `Document.linesWithout`, `Document.without` — lines, and the document of
  them, when some lines are gone: what is left is numbered anew.
* `Document.CutOut` — what deleting a task comes to: the lines that go, and
  the document that is read from those that stay.
  `Document.delete_cutsOut` says that deletion is like that.

The lines that stay are numbered as `Outline.moved` says
(`number_linesWithout`), so reading them gives the tasks that stay under their
new numbers, and the outline of these is known.
-/
import TaskList.Action.Basic
import TaskList.Proofs.Document.Reading
import TaskList.Proofs.Edit.Substitution

namespace TaskList

namespace Document

open Outline (moved moved_succ moved_injOn BlockAt linked nodes_ofTasks)

/-- The lines without those of some numbers. -/
def linesWithout (gone : List Int) (lines : List Text) : List Text :=
  (lines.zipIdx.filter fun p => (p.2 : Int) ∉ gone).map (·.1)

/-- A document without the tasks of some lines, the others numbered anew. -/
def without (gone : List Int) (doc : Document) : Document where
  outline := (doc.outline.without gone).renumber (moved gone)
  comments := doc.comments.map (NumberedLine.renumber (moved gone))

/-! ## The lines that stay -/

theorem numberFrom_filter {gone : List Int} (h : gone.Nodup) {start start' : Nat}
    (hstart : (start' : Int) = moved gone start) (lines : List Text) :
    numberFrom start' (((lines.zipIdx start).filter fun p => (p.2 : Int) ∉ gone).map (·.1)) =
      ((numberFrom start lines).filter fun line => line.line ∉ gone).map
        (NumberedLine.renumber (moved gone)) := by
  induction lines generalizing start start' with
  | nil => rfl
  | cons text rest ih =>
    have hnext := moved_succ h start
    rw [List.zipIdx_cons, numberFrom]
    by_cases hgone : (start : Int) ∈ gone
    · rw [if_pos hgone] at hnext
      rw [List.filter_cons_of_neg (by simpa using hgone),
        List.filter_cons_of_neg (by simpa using hgone)]
      exact ih (by push_cast; omega)
    · rw [if_neg hgone] at hnext
      have hstart' : ((start' + 1 : Nat) : Int) = moved gone (start + 1 : Nat) := by
        push_cast
        omega
      rw [List.filter_cons_of_pos (by simpa using hgone),
        List.filter_cons_of_pos (by simpa using hgone), List.map_cons, List.map_cons, numberFrom,
        ih hstart', hstart]
      rfl

/-- The lines that stay are numbered anew. -/
theorem number_linesWithout {gone : List Int} (h : gone.Nodup) (hgone : ∀ line ∈ gone, 0 ≤ line)
    (lines : List Text) :
    number (linesWithout gone lines) =
      ((number lines).filter fun line => line.line ∉ gone).map
        (NumberedLine.renumber (moved gone)) := by
  refine numberFrom_filter h ?_ lines
  have hnone : gone.countP (· < ((0 : Nat) : Int)) = 0 := by
    refine List.countP_eq_zero.mpr fun line hline hlt => ?_
    have := hgone line hline
    have := of_decide_eq_true hlt
    omega
  rw [moved, hnone]
  rfl

/-- Edits that drop lines, and do nothing else. -/
theorem applyAll_dropping (gone : List Int) (lines : List Text) :
    Edit.applyAll lines (gone.map fun line => { line := line, kind := .deleteLine }) =
      .ok (linesWithout gone lines) := by
  have hschedule : Edit.schedule (gone.map fun line => { line := line, kind := .deleteLine }) =
      [] := by
    have hnone : (gone.map fun line : Int => ({ line := line, kind := .deleteLine } : Edit)).filter
        Edit.isColumnEdit = [] := by
      rw [List.filter_map]
      exact List.map_eq_nil_iff.mpr (List.filter_eq_nil_iff.mpr fun _ _ => by
        simp [Edit.isColumnEdit])
    rw [Edit.schedule, hnone, List.reverse_nil, List.mergeSort_nil]
  have hdropped : Edit.dropped (gone.map fun line => { line := line, kind := .deleteLine }) =
      gone := by
    rw [Edit.dropped, List.filter_map, List.map_map]
    have hall : gone.filter ((fun e : Edit => !e.isColumnEdit) ∘
        fun line => { line := line, kind := .deleteLine }) = gone :=
      List.filter_eq_self.mpr fun _ _ => by simp [Edit.isColumnEdit]
    rw [hall]
    exact List.map_id gone
  rw [Edit.applyAll, hschedule, Edit.applyInOrder]
  dsimp only
  rw [hdropped, Edit.dropLines_eq, linesWithout, ← List.filterMap_eq_map, List.filterMap_filter]
  refine congrArg Except.ok (List.filterMap_congr fun p _ => ?_)
  by_cases hp : (p.2 : Int) ∈ gone <;> simp [hp]

/-! ## Reading what stays -/

section Deletion

variable {settings : Settings} {unit : Option IndentUnit} {target : Day} {lines : List Text}
  {doc : Document} {tasks : List Task}

/-- No two tasks of a document have one number. -/
theorem Reads.lines_nodup (h : Reads settings unit target (taskLines settings (number lines)) tasks) :
    (tasks.map (·.line)).Nodup := by
  rw [h.lines_eq]
  refine (number_lines_nodup lines).sublist (List.Sublist.map _ ?_)
  exact List.filter_sublist.trans List.filter_sublist

/-- A comment or a blank line is no task. -/
theorem Reads.notMem_of_other
    (h : Reads settings unit target (taskLines settings (number lines)) tasks)
    {line : NumberedLine} (hline : line ∈ number lines)
    (hother : isComment settings line = true ∨ isWritten line = false) :
    line.line ∉ tasks.map (·.line) := by
  intro hmem
  rw [h.lines_eq] at hmem
  obtain ⟨taskLine, htask, hsame⟩ := List.mem_map.mp hmem
  obtain ⟨hwritten, hcomment⟩ := List.mem_filter.mp htask
  obtain ⟨hnumber, hwritten⟩ := List.mem_filter.mp hwritten
  obtain rfl := List.inj_on_of_nodup_map (number_lines_nodup lines) hnumber hline hsame
  rcases hother with hother | hother <;> simp_all

/-- Reading without the lines of some tasks gives the tasks that stay. -/
theorem read_linesWithout
    (h : Reads settings unit target (taskLines settings (number lines)) tasks) {gone : List Int}
    (hgone : gone.Nodup) (hmem : ∀ line ∈ gone, line ∈ tasks.map (·.line)) :
    read settings unit target (number (linesWithout gone lines)) =
      .ok ⟨.ofTasks ((tasks.filter fun task => task.line ∉ gone).map (Task.renumber (moved gone))),
        (commentLines settings (number lines)).map (NumberedLine.renumber (moved gone))⟩ := by
  have hnonneg : ∀ line ∈ gone, 0 ≤ line := by
    intro line hline
    have htask := hmem line hline
    rw [h.lines_eq] at htask
    obtain ⟨taskLine, hwritten, rfl⟩ := List.mem_map.mp htask
    exact line_nonneg (List.mem_filter.mp (List.mem_filter.mp hwritten).1).1
  have hcomments : (commentLines settings (number lines)).filter (fun line => line.line ∉ gone) =
      commentLines settings (number lines) := by
    refine List.filter_eq_self.mpr fun line hline => ?_
    obtain ⟨hwritten, hcomment⟩ := List.mem_filter.mp hline
    have hother := h.notMem_of_other (List.mem_filter.mp hwritten).1 (.inl hcomment)
    simpa using fun hin => hother (hmem line.line hin)
  rw [number_linesWithout hgone hnonneg]
  have htasks := h.kept (fun line => line ∉ gone) (moved gone)
  rw [← taskLines_kept settings (fun line => line ∉ gone)] at htasks
  refine read_eq_ok_iff.mpr ⟨_, htasks, ?_⟩
  rw [commentLines_kept settings (fun line => line ∉ gone), hcomments]

/-- What deleting a task comes to. -/
structure CutOut (settings : Settings) (unit : Option IndentUnit) (target : Day)
    (lines : List Text) (doc : Document) (front : List Node) (node : Node)
    (block back : List Node) : Prop where
  /-- The block of the task are the tasks below it. -/
  nodes_eq : doc.outline.nodes = front ++ node :: (block ++ back)
  /-- They are indented deeper. -/
  deeper : ∀ other ∈ block, node.task.indent.isLess other.task.indent = true
  /-- The next task is not. -/
  closed : ∀ next ∈ back.head?, node.task.indent.isLess next.task.indent = false
  /-- Only the lines of the task and its block are dropped. -/
  dropped : ∃ edits, doc.outline.delete node.line = .ok edits ∧
    Edit.applyAll lines edits = .ok (linesWithout ((node :: block).map (·.line)) lines)
  /-- Comments and blank lines are not among them. -/
  others_stay : ∀ line ∈ number lines, isComment settings line = true ∨ isWritten line = false →
    line.line ∉ (node :: block).map (·.line)
  /-- No task that stays was nested under one that goes. -/
  parents_stay : ∀ other ∈ front ++ back, ∀ parent, other.parent = some parent →
    parent ∉ (node :: block).map (·.line)
  /-- The lines that stay are the document without these tasks. -/
  read_eq : read settings unit target
      (number (linesWithout ((node :: block).map (·.line)) lines)) =
    .ok (doc.without ((node :: block).map (·.line)))

/-- Where indentation is a whole number of columns wide, all lines can be
measured. -/
theorem measured_of_columns {n : Int} (hunit : Line.indentUnit settings unit = .columns n)
    (hread : read settings unit target (number lines) = .ok doc) :
    ∀ node ∈ doc.outline.nodes, node.task.indent ≠ .unmeasured := by
  obtain ⟨tasks, hreads, rfl⟩ := read_eq_ok_iff.mp hread
  intro node hnode
  rw [nodes_ofTasks] at hnode
  obtain ⟨task, htask, rfl⟩ := List.mem_map.mp hnode
  obtain ⟨line, -, hline⟩ := hreads.exists_line htask
  have hindent := Line.indent_of_read hline
  rw [hunit] at hindent
  change task.indent ≠ .unmeasured
  rw [hindent, IndentUnit.depthOf]
  exact Depth.noConfusion

/-- **Deleting a task drops its line and the lines of the deeper tasks below
it**, up to the next task that is not deeper, and leaves the rest of the
document as it was. -/
theorem delete_cutsOut (hread : read settings unit target (number lines) = .ok doc)
    (hmeasured : ∀ node ∈ doc.outline.nodes, node.task.indent ≠ .unmeasured) {line : Int}
    {node : Node} (hnode : doc.outline.get? line = some node) :
    node.line = line ∧
      ∃ front block back, CutOut settings unit target lines doc front node block back := by
  obtain ⟨tasks, hreads, rfl⟩ := read_eq_ok_iff.mp hread
  have hdistinct := hreads.lines_nodup
  have hline : node.line = line := by simpa using List.find?_some hnode
  -- the node is a task with its links
  have hmem := List.mem_reverse.mp (List.mem_of_find?_eq_some hnode)
  rw [nodes_ofTasks] at hmem
  obtain ⟨task, htask, rfl⟩ := List.mem_map.mp hmem
  obtain ⟨front, rest, htasks⟩ := List.append_of_mem htask
  have hblock := BlockAt.of_measured htasks hdistinct fun other hother =>
    hmeasured (linked tasks other) (by rw [nodes_ofTasks]; exact List.mem_map_of_mem hother)
  generalize rest.takeWhile (fun other => task.indent.isLess other.indent) = block,
    rest.dropWhile (fun other => task.indent.isLess other.indent) = back at hblock
  have hgone : ((linked tasks task) :: block.map (linked tasks)).map (·.line) =
      (task :: block).map (·.line) := by
    rw [List.map_cons, List.map_cons, List.map_map]
    rfl
  refine ⟨hline, front.map (linked tasks), block.map (linked tasks), back.map (linked tasks), ?_⟩
  constructor
  case nodes_eq =>
    rw [nodes_ofTasks, ← List.map_append, ← List.map_cons, ← List.map_append, ← hblock.tasks_eq]
  case deeper => exact List.forall_mem_map.mpr hblock.deeper
  case closed =>
    intro next hnext
    rw [List.head?_map, Option.mem_def, Option.map_eq_some_iff] at hnext
    obtain ⟨other, hother, rfl⟩ := hnext
    have hcloses := hblock.closed other hother task List.mem_cons_self
    exact congrArg not hcloses
  case dropped =>
    refine ⟨((task :: block).map (·.line)).map fun line => { line := line, kind := .deleteLine },
      ?_, ?_⟩
    · rw [Outline.delete, hline, hnode]
      dsimp only
      rw [hblock.nested_eq]
      rfl
    · rw [hgone]
      exact applyAll_dropping _ lines
  case others_stay =>
    intro other hother hkind hin
    rw [hgone] at hin
    exact hreads.notMem_of_other hother hkind (hblock.gone_sublist.subset hin)
  case parents_stay =>
    rw [hgone, ← List.map_append]
    intro other hother parent hparent
    obtain ⟨stays, hstays, rfl⟩ := List.mem_map.mp hother
    exact hblock.parent_notMem_gone (hblock.linked_mem hstays) (hblock.notMem_gone hstays) hparent
  case read_eq =>
    rw [hgone, read_linesWithout hreads hblock.gone_nodup fun _ hin => hblock.gone_sublist.subset hin,
      hblock.filter_tasks, Outline.ofTasks_renumber, hblock.ofTasks_without]
    · rfl
    · intro a ha b hb
      obtain ⟨staysA, hstaysA, rfl⟩ := List.mem_map.mp ha
      obtain ⟨staysB, hstaysB, rfl⟩ := List.mem_map.mp hb
      exact moved_injOn hblock.gone_nodup (hblock.notMem_gone hstaysA) (hblock.notMem_gone hstaysB)

end Deletion

/-- A line that is indented by too much goes with the task above it. A blank
line and a comment stay, and so do the two next lines, which are not deeper. -/
theorem delete_cutsOut_indented :
    ∃ lines doc node front block back,
      lines = ["t", "    a", "            b", "", "# n", "      c", "    d"].map String.toList ∧
      read {} none ⟨736695, by decide, by decide⟩ (number lines) = .ok doc ∧
      (∀ node ∈ doc.outline.nodes, node.task.indent ≠ .unmeasured) ∧
      doc.outline.get? 1 = some node ∧
      CutOut {} none ⟨736695, by decide, by decide⟩ lines doc front node block back ∧
      (doc.outline.delete 1).map (Edit.applyAll lines) =
        .ok (.ok (["t", "", "# n", "      c", "    d"].map String.toList)) := by
  let tasks : List Task := [{ line := 0, raw := "t".toList, title := "t".toList },
    { line := 1, raw := "    a".toList, indent := .level 1, title := "a".toList },
    { line := 2, raw := "            b".toList, indent := .level 3, title := "b".toList },
    { line := 5, raw := "      c".toList, indent := .level 1, title := "c".toList },
    { line := 6, raw := "    d".toList, indent := .level 1, title := "d".toList }]
  have hread : read {} none ⟨736695, by decide, by decide⟩ (number (["t", "    a",
      "            b", "", "# n", "      c", "    d"].map String.toList)) =
    .ok ⟨.ofTasks tasks, [⟨4, "# n".toList⟩]⟩ := by decide
  have hmeasured := measured_of_columns (n := 4) rfl hread
  have hnode : (Outline.ofTasks tasks).get? 1 = some (linked tasks tasks[1]) := by decide
  obtain ⟨-, front, block, back, hcut⟩ := delete_cutsOut hread hmeasured hnode
  exact ⟨_, _, _, front, block, back, rfl, hread, hmeasured, hnode, hcut, by decide +kernel⟩

end Document

end TaskList
