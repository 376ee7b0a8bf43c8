/-
TaskList.Proofs.Document.Reading — how the lines of a document become tasks.

* `Document.taskLines` — the lines that are tasks: those that hold more than
  white space and are no comments. `Document.read_eq_ok_iff` says that each of
  them is read by itself, and that this is all.
* `Document.number_lines_nodup` — no two lines of a document have one number.
* `Document.Reads.kept` — reading some of the lines, with other numbers, gives
  the tasks of these lines with those numbers.
-/
import Mathlib.Data.List.Nodup
import TaskList.Document
import TaskList.Proofs.Outline.Renumbered
import TaskList.Proofs.Reading

namespace TaskList

namespace Line

/-- The number of a line goes into its task and nowhere else. -/
theorem read_renumber {settings : Settings} {unit : Option IndentUnit} {target : Day}
    {number : Int} {raw : Text} {task : Task} (h : read settings unit target number raw = .ok task)
    (f : Int → Int) : read settings unit target (f number) raw = .ok (task.renumber f) := by
  unfold read at h ⊢
  dsimp only at h ⊢
  split at h
  · simp at h
  · rename_i found hfound
    cases h
    rfl

theorem line_of_read {settings : Settings} {unit : Option IndentUnit} {target : Day}
    {number : Int} {raw : Text} {task : Task} (h : read settings unit target number raw = .ok task) :
    task.line = number := by
  unfold read at h
  dsimp only at h
  split at h
  · simp at h
  · cases h
    rfl

theorem indent_of_read {settings : Settings} {unit : Option IndentUnit} {target : Day}
    {number : Int} {raw : Text} {task : Task} (h : read settings unit target number raw = .ok task) :
    task.indent = (indentUnit settings unit).depthOf (raw.takeWhile isIndent) := by
  unfold read at h
  dsimp only at h
  split at h
  · simp at h
  · cases h
    rfl

end Line

/-- The line with another number. -/
def NumberedLine.renumber (f : Int → Int) (line : NumberedLine) : NumberedLine :=
  ⟨f line.line, line.text⟩

namespace Document

/-- The lines that are tasks. -/
def taskLines (settings : Settings) (lines : List NumberedLine) : List NumberedLine :=
  (lines.filter isWritten).filter fun line => !isComment settings line

/-- The lines that are comments. -/
def commentLines (settings : Settings) (lines : List NumberedLine) : List NumberedLine :=
  (lines.filter isWritten).filter (isComment settings)

/-- Each of the lines is read as the task in its place. -/
def Reads (settings : Settings) (unit : Option IndentUnit) (target : Day) :
    List NumberedLine → List Task → Prop :=
  List.Forall₂ fun line task => Line.read settings unit target line.line line.text = .ok task

section Reads

variable {settings : Settings} {unit : Option IndentUnit} {target : Day}
  {lines : List NumberedLine} {tasks : List Task}

/-- A document is read line by line. -/
theorem read_eq_ok_iff {doc : Document} :
    read settings unit target lines = .ok doc ↔
      ∃ tasks, Reads settings unit target (taskLines settings lines) tasks ∧
        doc = ⟨.ofTasks tasks, commentLines settings lines⟩ := by
  unfold read
  dsimp only
  constructor
  · intro h
    split at h
    · simp at h
    · rename_i tasks htasks
      cases h
      exact ⟨tasks, mapM_eq_ok_iff.mp htasks, rfl⟩
  · rintro ⟨tasks, htasks, rfl⟩
    split
    · rename_i e he
      have hok := mapM_eq_ok_iff.mpr htasks
      exact absurd (he.symm.trans hok) (by simp)
    · rename_i found hfound
      rw [Except.ok.inj (hfound.symm.trans (mapM_eq_ok_iff.mpr htasks))]
      rfl

theorem Reads.lines_eq (h : Reads settings unit target lines tasks) :
    tasks.map (·.line) = lines.map (·.line) := by
  induction h with
  | nil => rfl
  | cons hread _ ih => rw [List.map_cons, List.map_cons, ih, Line.line_of_read hread]

theorem Reads.exists_line (h : Reads settings unit target lines tasks) {task : Task}
    (htask : task ∈ tasks) :
    ∃ line ∈ lines, Line.read settings unit target line.line line.text = .ok task :=
  exists_of_forall₂ h htask

theorem Reads.exists_task (h : Reads settings unit target lines tasks) {line : NumberedLine}
    (hline : line ∈ lines) :
    ∃ task ∈ tasks, Line.read settings unit target line.line line.text = .ok task :=
  exists_of_forall₂ h.flip hline

/-- Some of the lines with other numbers. -/
theorem Reads.kept (h : Reads settings unit target lines tasks) (p : Int → Bool) (f : Int → Int) :
    Reads settings unit target
      ((lines.filter fun line => p line.line).map (NumberedLine.renumber f))
      ((tasks.filter fun task => p task.line).map (Task.renumber f)) := by
  have hsame : ∀ (line : NumberedLine) (task : Task),
      Line.read settings unit target line.line line.text = .ok task →
        p line.line = p task.line :=
    fun line task hread => by rw [Line.line_of_read hread]
  refine List.forall₂_map_left_iff.mpr (List.forall₂_map_right_iff.mpr ?_)
  exact (forall₂_filter h hsame).imp fun line task hread => Line.read_renumber hread f

end Reads

/-- A condition on texts does not see which lines are kept and what their
numbers are. -/
theorem filter_kept {q : NumberedLine → Bool} {f : Int → Int}
    (hq : ∀ line, q (NumberedLine.renumber f line) = q line) (p : Int → Bool)
    (lines : List NumberedLine) :
    ((lines.filter fun line => p line.line).map (NumberedLine.renumber f)).filter q =
      ((lines.filter q).filter fun line => p line.line).map (NumberedLine.renumber f) := by
  rw [List.filter_map, List.filter_comm]
  exact congrArg (fun kept => (kept.filter fun line => p line.line).map (NumberedLine.renumber f))
    (List.filter_congr fun line _ => hq line)

theorem taskLines_kept (settings : Settings) (p : Int → Bool) (f : Int → Int)
    (lines : List NumberedLine) :
    taskLines settings ((lines.filter fun line => p line.line).map (NumberedLine.renumber f)) =
      ((taskLines settings lines).filter fun line => p line.line).map (NumberedLine.renumber f) := by
  rw [taskLines, taskLines, filter_kept fun _ => rfl, filter_kept fun _ => rfl]

theorem commentLines_kept (settings : Settings) (p : Int → Bool) (f : Int → Int)
    (lines : List NumberedLine) :
    commentLines settings ((lines.filter fun line => p line.line).map (NumberedLine.renumber f)) =
      ((commentLines settings lines).filter fun line => p line.line).map
        (NumberedLine.renumber f) := by
  rw [commentLines, commentLines, filter_kept fun _ => rfl, filter_kept fun _ => rfl]

/-! ## The numbers of lines -/

theorem numberFrom_lines (start : Nat) (lines : List Text) :
    (numberFrom start lines).map (·.line) = (List.range' start lines.length).map (Nat.cast) := by
  induction lines generalizing start with
  | nil => rfl
  | cons text rest ih => rw [numberFrom, List.map_cons, ih, List.length_cons, List.range'_succ,
      List.map_cons]

theorem mem_numberFrom_iff {start : Nat} {lines : List Text} {line : NumberedLine} :
    line ∈ numberFrom start lines ↔
      ∃ i : Nat, lines[i]? = some line.text ∧ line.line = (start + i : Nat) := by
  induction lines generalizing start with
  | nil => simp [numberFrom]
  | cons text rest ih =>
    rw [numberFrom, List.mem_cons, ih]
    constructor
    · rintro (rfl | ⟨i, hi, hline⟩)
      · exact ⟨0, rfl, rfl⟩
      · exact ⟨i + 1, hi, by omega⟩
    · rintro ⟨i, hi, hline⟩
      obtain ⟨number, written⟩ := line
      cases i with
      | zero =>
        obtain rfl : text = written := Option.some.inj hi
        exact .inl (congrArg (NumberedLine.mk · text) hline)
      | succ i =>
        refine .inr ⟨i, hi, ?_⟩
        dsimp only at hline ⊢
        omega

/-- A line has its place in the document as its number. -/
theorem mem_number_iff {lines : List Text} {line : NumberedLine} :
    line ∈ number lines ↔ ∃ i : Nat, lines[i]? = some line.text ∧ line.line = i := by
  rw [number, mem_numberFrom_iff]
  simp only [Nat.zero_add]

/-- No two lines have one number. -/
theorem number_lines_nodup (lines : List Text) : ((number lines).map (·.line)).Nodup := by
  rw [number, numberFrom_lines]
  exact (List.nodup_range' 1).map fun _ _ h => Int.ofNat.inj h

theorem line_nonneg {lines : List Text} {line : NumberedLine} (h : line ∈ number lines) :
    0 ≤ line.line := by
  have hmem : line.line ∈ (number lines).map (·.line) := List.mem_map_of_mem h
  rw [number, numberFrom_lines] at hmem
  obtain ⟨n, -, hn⟩ := List.mem_map.mp hmem
  omega

end Document

end TaskList
