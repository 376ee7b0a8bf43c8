/-
TaskList.Proofs.Document.Reindented — a document with other indentations.

* `Document.SaysSame` — the same lines are tasks and comments, nested in the same way, and
  the same is said of every task. `Document.ReadAlike` — that is so of what two documents
  are read as, or neither of them is read.
* `Document.Reindented` — a line with another indentation: a task that is some levels
  deeper, or a line that is none. `readAlike_of_reindented` — where all tasks are the same
  number of levels deeper, the document is read alike.
* `Document.read_reindented` — so it is when tabs are replaced by spaces, or when the
  same number of tabs is put in front of every task.
-/
import TaskList.Proofs.Document.Kept
import TaskList.Proofs.Line.Reindented

namespace TaskList

namespace Document

/-- The same lines are tasks, nested in the same way, the same lines are comments, and the
same is said of every task. -/
structure SaysSame (doc other : Document) : Prop extends SameOutline doc other where
  said_eq : other.outline.nodes.map (·.task.said) = doc.outline.nodes.map (·.task.said)

/-- Two documents of which the same is said, or none at all. -/
inductive ReadAlike {ε : Type} : Except ε Document → Except ε Document → Prop where
  /-- Both are read. -/
  | ok {doc other : Document} : doc.SaysSame other → ReadAlike (.ok doc) (.ok other)
  /-- Neither is. -/
  | error (e e' : ε) : ReadAlike (.error e) (.error e')

theorem ReadAlike.exists_ok {ε : Type} {first second : Except ε Document}
    (h : ReadAlike first second) {doc : Document} (hread : first = .ok doc) :
    ∃ other, second = .ok other ∧ doc.SaysSame other := by
  cases h with
  | ok hsame =>
    cases hread
    exact ⟨_, rfl, hsame⟩
  | error e e' => cases hread

/-! ## Lines that are indented otherwise -/

/-- The line has another indentation: a task is some number of levels deeper, and a comment
stays what it is. -/
structure Reindented (settings : Settings) (unit : Option IndentUnit) (levels : Int)
    (line other : NumberedLine) : Prop where
  line_eq : other.line = line.line
  isWritten_eq : isWritten other = isWritten line
  isComment_eq : isComment settings other = isComment settings line
  comment_eq : isComment settings line = true → other.text = line.text
  sameBody : Line.SameBody settings.doneMark line.text other.text
  depth_eq : isWritten line = true → isComment settings line = false →
    (Line.indentUnit settings unit).depthOf (other.text.takeWhile Line.isIndent) =
      ((Line.indentUnit settings unit).depthOf (line.text.takeWhile Line.isIndent)).relabel
        (· + levels)

/-- A task of which the same is said, some number of levels deeper. -/
structure Deeper (levels : Int) (task other : Task) : Prop where
  said_eq : other.said = task.said
  outlined_eq : other.outlined = (task.relabel (· + levels)).outlined

section Reindented

variable {settings : Settings} {unit : Option IndentUnit} {target : Day} {levels : Int}
  {line other : NumberedLine} {lines others : List NumberedLine} {tasks found : List Task}

theorem Reindented.symm (h : Reindented settings unit levels line other) :
    Reindented settings unit (-levels) other line where
  line_eq := h.line_eq.symm
  isWritten_eq := h.isWritten_eq.symm
  isComment_eq := h.isComment_eq.symm
  comment_eq hcomment := (h.comment_eq (h.isComment_eq.symm.trans hcomment)).symm
  sameBody := h.sameBody.symm
  depth_eq hwritten hcomment := by
    rw [h.depth_eq (h.isWritten_eq.symm.trans hwritten) (h.isComment_eq.symm.trans hcomment)]
    cases (Line.indentUnit settings unit).depthOf (line.text.takeWhile Line.isIndent) with
    | level n => exact congrArg Depth.level (Int.add_neg_cancel_right n levels).symm
    | unmeasured => rfl

/-- A task is read as one of which the same is said. -/
theorem Reindented.exists_deeper (h : Reindented settings unit levels line other)
    (hline : isWritten line = true ∧ isComment settings line = false) {task : Task}
    (hread : Line.read settings unit target line.line line.text = .ok task) :
    ∃ found, Line.read settings unit target other.line other.text = .ok found ∧
      Deeper levels task found := by
  obtain ⟨found, hfound, hsaid⟩ := h.sameBody.exists_read hread
  rw [h.line_eq]
  refine ⟨found, hfound, hsaid, ?_⟩
  have hdepth := h.depth_eq hline.1 hline.2
  simp only [Task.outlined, Task.relabel, Line.line_of_read hread, Line.line_of_read hfound,
    Line.indent_of_read hread, Line.indent_of_read hfound, hdepth]

/-- All tasks are read as ones of which the same is said. -/
theorem Reads.exists_deeper (htasks : Reads settings unit target lines tasks)
    (h : List.Forall₂ (Reindented settings unit levels) lines others)
    (hlines : ∀ line ∈ lines, isWritten line = true ∧ isComment settings line = false) :
    ∃ found, Reads settings unit target others found ∧
      List.Forall₂ (Deeper levels) tasks found := by
  induction h generalizing tasks with
  | nil =>
    cases htasks
    exact ⟨[], .nil, .nil⟩
  | cons hline _ ih =>
    obtain ⟨htask, hrest⟩ := List.forall_mem_cons.mp hlines
    cases htasks with
    | cons hread htasks =>
      obtain ⟨first, hfirst, hdeeper⟩ := hline.exists_deeper htask hread
      obtain ⟨found, hfound, hmore⟩ := ih htasks hrest
      exact ⟨first :: found, .cons hfirst hfound, .cons hdeeper hmore⟩

/-- Tasks of which the same is said have the same places. -/
theorem links_of_deeper (h : List.Forall₂ (Deeper levels) tasks found) :
    (Outline.ofTasks found).nodes.map Node.links =
        (Outline.ofTasks tasks).nodes.map Node.links ∧
      (Outline.ofTasks found).rootLines = (Outline.ofTasks tasks).rootLines := by
  have houtlined : found.map Task.outlined =
      (tasks.map (Task.relabel (· + levels))).map Task.outlined := by
    rw [List.map_map]
    exact (map_eq_of_forall₂ h fun _ _ _ hdeeper => hdeeper.outlined_eq.symm).symm
  -- as many levels for all: which of two tasks is deeper does not change
  have hopen : Outline.SameOpen (Task.relabel (· + levels)) [] tasks :=
    Outline.sameOpen_relabel fun _ _ _ _ hlt => Int.add_lt_add_right hlt levels
  obtain ⟨hlinks, hroots⟩ := Outline.links_congr houtlined
  have hplaces := Outline.ofTasks_of_sameOpen (f := Task.relabel (· + levels)) (fun _ => rfl) hopen
  rw [hlinks, hroots, hplaces, Outline.retask, List.map_map]
  exact ⟨rfl, rfl⟩

/-- **Where all tasks are the same number of levels deeper, the same is said.** -/
theorem exists_saysSame (h : List.Forall₂ (Reindented settings unit levels) lines others)
    {doc : Document} (hread : read settings unit target lines = .ok doc) :
    ∃ other, read settings unit target others = .ok other ∧ doc.SaysSame other := by
  obtain ⟨tasks, htasks, rfl⟩ := read_eq_ok_iff.mp hread
  have hwritten := forall₂_filter h fun _ _ hline => hline.isWritten_eq.symm
  have hlines : List.Forall₂ (Reindented settings unit levels) (taskLines settings lines)
      (taskLines settings others) :=
    forall₂_filter hwritten fun _ _ hline => by rw [hline.isComment_eq]
  have hcomments : List.Forall₂ (Reindented settings unit levels) (commentLines settings lines)
      (commentLines settings others) :=
    forall₂_filter hwritten fun _ _ hline => hline.isComment_eq.symm
  obtain ⟨found, hfound, hdeeper⟩ := htasks.exists_deeper hlines fun line hline =>
    ⟨(List.mem_filter.mp (List.mem_filter.mp hline).1).2, by
      simpa using (List.mem_filter.mp hline).2⟩
  obtain ⟨hlinks, hroots⟩ := links_of_deeper hdeeper
  refine ⟨_, read_eq_ok_iff.mpr ⟨found, hfound, rfl⟩, ⟨hlinks, hroots, ?_⟩, ?_⟩
  · have heq := map_eq_of_forall₂ (f := id) (g := id) hcomments fun line hmem other hline =>
      congrArg₂ NumberedLine.mk hline.line_eq.symm
        (hline.comment_eq (List.mem_filter.mp hmem).2).symm
    rw [List.map_id, List.map_id] at heq
    exact heq.symm
  · have hsaid : ∀ found : List Task,
        (Outline.ofTasks found).nodes.map (·.task.said) = found.map Task.said := fun found => by
      rw [Outline.nodes_ofTasks, List.map_map]
      rfl
    rw [hsaid, hsaid]
    exact (map_eq_of_forall₂ hdeeper fun _ _ _ h => h.said_eq.symm).symm

theorem readAlike_of_reindented (target : Day)
    (h : List.Forall₂ (Reindented settings unit levels) lines others) :
    ReadAlike (read settings unit target lines) (read settings unit target others) := by
  cases hread : read settings unit target lines with
  | ok doc =>
    obtain ⟨other, hother, hsame⟩ := exists_saysSame h hread
    rw [hother]
    exact .ok hsame
  | error e =>
    cases hother : read settings unit target others with
    | error e' => exact .error e e'
    | ok other =>
      obtain ⟨doc, hdoc, -⟩ := exists_saysSame (h.flip.imp fun _ _ hline => hline.symm) hother
      rw [hread] at hdoc
      cases hdoc

end Reindented

/-! ## Tabs and spaces -/

/-- The line with tabs in front of it if it is a task. -/
def indentTask (settings : Settings) (tabs : Nat) (line : NumberedLine) : NumberedLine :=
  if isWritten line && !isComment settings line then
    ⟨line.line, List.replicate tabs '\t' ++ line.text⟩
  else line

section Columns

variable {settings : Settings} {unit : Option IndentUnit} {width : Nat} {line other : NumberedLine}

theorem reindented_of_untabbed (hcomment : settings.commentMark = "# ".toList) (hwidth : 0 < width)
    (hunit : Line.indentUnit settings unit = .columns width) (hline : other.line = line.line)
    (h : Line.Untabbed settings.doneMark width line.text other.text) :
    Reindented settings unit 0 line other where
  line_eq := hline
  isWritten_eq := congrArg not h.sameBody.allBlank_eq
  isComment_eq := by
    rw [isComment, isComment, hcomment, h.isPrefixOf_comment_eq hwidth]
  comment_eq hnote := by
    rw [isComment, hcomment] at hnote
    exact h.eq_of_comment hnote
  sameBody := h.sameBody
  depth_eq _ _ := by
    rw [hunit, h.depthOf_eq hwidth, IndentUnit.depthOf, Depth.relabel, Int.add_zero]

theorem reindented_indentTask (hcomment : settings.commentMark = "# ".toList) (hwidth : 0 < width)
    (hunit : Line.indentUnit settings unit = .columns width) (tabs : Nat) (line : NumberedLine) :
    Reindented settings unit tabs line (indentTask settings tabs line) := by
  rw [indentTask]
  split
  · rename_i htask
    obtain ⟨-, hnot⟩ : isWritten line = true ∧ isComment settings line = false := by
      simpa using htask
    have hbody := Line.sameBody_tabs settings.doneMark tabs line.text
    refine
      { line_eq := rfl
        isWritten_eq := congrArg not hbody.allBlank_eq
        isComment_eq := ?_
        comment_eq := fun hcomment => absurd hcomment (by simp [hnot])
        sameBody := hbody
        depth_eq := fun _ _ => by rw [hunit, Line.depthOf_tabs hwidth] }
    -- a line that starts with a tab is no comment
    cases tabs with
    | zero => rfl
    | succ tabs =>
      rw [hnot, isComment, hcomment, List.replicate_succ, List.cons_append,
        Line.not_comment_of_isBlank (by decide), Bool.and_false]
  · rename_i hnot
    have hnote : isWritten line = true → isComment settings line = true := by simpa using hnot
    exact
      { line_eq := rfl
        isWritten_eq := rfl
        isComment_eq := rfl
        comment_eq := fun _ => rfl
        sameBody := .refl line.text
        depth_eq := fun hwritten hplain => absurd (hnote hwritten) (by simp [hplain]) }

/-- **Tabs and spaces.** Where a level of indentation is some whole number of columns wide, the
same is read off a document when any of the tabs in front of its lines are replaced by as many
spaces, and also when all of its tasks get the same number of tabs in front. -/
theorem read_reindented (hcomment : settings.commentMark = "# ".toList) (hwidth : 0 < width)
    (hunit : Line.indentUnit settings unit = .columns width) (target : Day)
    (lines : List NumberedLine) :
    (∀ others, List.Forall₂ (fun line other => other.line = line.line ∧
        Line.Untabbed settings.doneMark width line.text other.text) lines others →
      ReadAlike (read settings unit target lines) (read settings unit target others)) ∧
    ∀ tabs : Nat, ReadAlike (read settings unit target lines)
      (read settings unit target (lines.map (indentTask settings tabs))) := by
  constructor
  · intro others h
    exact readAlike_of_reindented target (h.imp fun _ _ ⟨hline, huntabbed⟩ =>
      reindented_of_untabbed hcomment hwidth hunit hline huntabbed)
  · intro tabs
    have hlines : List.Forall₂ (Reindented settings unit tabs) lines
        (lines.map (indentTask settings tabs)) :=
      List.forall₂_map_right_iff.mpr (List.forall₂_same.mpr fun line _ =>
        reindented_indentTask hcomment hwidth hunit tabs line)
    exact readAlike_of_reindented target hlines

end Columns

/-- Tabs and odd spaces in front of nested tasks: with spaces for the tabs, and with one more
tab in front of every task, they are nested in the same way. -/
theorem read_reindented_mixed :
    ∃ doc spaced deeper,
      read {} none ⟨736695, by decide, by decide⟩ (number ["project".toList,
        "\tx (B) first".toList, "  \t  second".toList, "# note".toList]) = .ok doc ∧
      doc.outline.nodes.map Node.links = [(0, 0, none, [1]), (1, 1, some 0, [2]),
        (2, 2, some 1, [])] ∧
      read {} none ⟨736695, by decide, by decide⟩ (number ["project".toList,
        "    x (B) first".toList, "        second".toList, "# note".toList]) = .ok spaced ∧
      doc.SaysSame spaced ∧
      read {} none ⟨736695, by decide, by decide⟩ (number ["\tproject".toList,
        "\t\tx (B) first".toList, "\t  \t  second".toList, "# note".toList]) = .ok deeper ∧
      doc.SaysSame deeper := by
  have hlinks : (read {} none ⟨736695, by decide, by decide⟩ (number ["project".toList,
      "\tx (B) first".toList, "  \t  second".toList, "# note".toList])).toOption.map
        (fun doc => doc.outline.nodes.map Node.links) =
      some [(0, 0, none, [1]), (1, 1, some 0, [2]), (2, 2, some 1, [])] := by
    decide +kernel
  obtain ⟨huntabbed, htabbed⟩ := @read_reindented {} none 4 rfl
    (by decide) rfl ⟨736695, by decide, by decide⟩ (number ["project".toList,
      "\tx (B) first".toList, "  \t  second".toList, "# note".toList])
  have hspaced := huntabbed (number ["project".toList, "    x (B) first".toList,
    "        second".toList, "# note".toList])
    (.cons ⟨rfl, .rest _⟩ (.cons ⟨rfl, .tab (.rest _)⟩ (.cons ⟨rfl, .blank rfl (.inl rfl)
      (.blank rfl (.inl rfl) (.tab (.rest _)))⟩ (.cons ⟨rfl, .rest _⟩ .nil))))
  have hdeeper := htabbed 1
  have hlines : (number ["project".toList, "\tx (B) first".toList, "  \t  second".toList,
      "# note".toList]).map (indentTask {} 1) = number ["\tproject".toList,
        "\t\tx (B) first".toList, "\t  \t  second".toList, "# note".toList] := by
    decide +kernel
  rw [hlines] at hdeeper
  generalize hread : read _ _ _ (number ["project".toList, "\tx (B) first".toList, _, _]) = result
    at hlinks hspaced hdeeper ⊢
  cases result with
  | error e => simp [Except.toOption] at hlinks
  | ok doc =>
    obtain ⟨spaced, hspaced, hsame⟩ := hspaced.exists_ok rfl
    obtain ⟨deeper, hdeeper, hsame'⟩ := hdeeper.exists_ok rfl
    exact ⟨doc, spaced, deeper, rfl, Option.some.inj hlinks, hspaced, hsame, hdeeper, hsame'⟩

end Document

end TaskList
