/-
TaskList.Proofs.Document.Kept — the outline of a document whose lines are edited.

* `Document.SameOutline` — the same lines are tasks and comments, and every task
  has the level, the parent and the subtasks that it had.
* `Document.sameOutline_of_kept` — that is so if every task stays in its place and
  every other line is what it was.
* `Document.Step` — a visit, or a deed on one task.
* `Document.step_keepsOutline` — a step keeps the outline if the lines whose start
  it lays open stay in their places. All other lines do so by themselves.
-/
import TaskList.Proofs.Action.Front
import TaskList.Proofs.Document.Edited

namespace TaskList

/-! ## The same outline -/

/-- The line of a task, with its level, its parent and its subtasks. -/
def Node.links (node : Node) : Int × Nat × Option Int × List Int :=
  (node.line, node.level, node.parent, node.subtasks)

/-- What a task has to be placed by: its line and its depth. -/
def Task.outlined (task : Task) : Task := { line := task.line, raw := [], indent := task.indent }

namespace Outline

/-- Tasks of the same lines and depths make the same outline. -/
theorem links_congr {tasks others : List Task}
    (h : tasks.map Task.outlined = others.map Task.outlined) :
    (ofTasks tasks).nodes.map Node.links = (ofTasks others).nodes.map Node.links ∧
      (ofTasks tasks).rootLines = (ofTasks others).rootLines := by
  have hlinks : ∀ found : List Task, (ofTasks found).nodes.map Node.links =
      (found.map Task.outlined).map fun task =>
        (linked (found.map Task.outlined) task).links := fun found => by
    rw [nodes_ofTasks, List.map_map, List.map_map]
    refine List.map_congr_left fun task _ => ?_
    rw [Function.comp_apply, Function.comp_apply,
      linked_map (f := Task.outlined) (fun _ => rfl) fun _ => rfl]
    rfl
  have hroots : ∀ found : List Task, (ofTasks found).rootLines =
      childLines (places (found.map Task.outlined)) none := fun found => by
    rw [rootLines_ofTasks]
    exact congrArg (childLines · none)
      (placesFrom_map (f := Task.outlined) (fun _ => rfl) (fun _ => rfl) [] [] found).symm
  rw [hlinks, hlinks, hroots, hroots, h]
  exact ⟨rfl, rfl⟩

end Outline

/-- The same lines are tasks, nested in the same way, and the same lines are
comments. -/
structure Document.SameOutline (doc other : Document) : Prop where
  links_eq : other.outline.nodes.map Node.links = doc.outline.nodes.map Node.links
  roots_eq : other.outline.rootLines = doc.outline.rootLines
  comments_eq : other.comments = doc.comments

namespace Document

/-! ## Lines that are kept -/

/-- The line is the same, or it was a task and stays in its place. -/
def KeptLine (settings : Settings) (unit : Option IndentUnit) (line other : NumberedLine) : Prop :=
  other = line ∨ other.line = line.line ∧ isWritten line = true ∧
    isComment settings line = false ∧ Line.StaysInPlace settings unit line.text other.text

section KeptLine

variable {settings : Settings} {unit : Option IndentUnit} {target : Day}
  {line other : NumberedLine} {lines others : List NumberedLine}

theorem KeptLine.isWritten_eq (h : KeptLine settings unit line other) :
    isWritten line = isWritten other := by
  obtain rfl | ⟨-, hwritten, -, hplace⟩ := h
  · rfl
  · rw [hwritten, isWritten, hplace.written]
    rfl

theorem KeptLine.isComment_eq (h : KeptLine settings unit line other) :
    isComment settings line = isComment settings other := by
  obtain rfl | ⟨-, -, hcomment, hplace⟩ := h
  · rfl
  · rw [hcomment, isComment, hplace.not_comment, Bool.and_false]

/-- The task that a line is read as, as far as its place goes. -/
def outlinedOf (settings : Settings) (unit : Option IndentUnit) (line : NumberedLine) : Task :=
  { line := line.line
    raw := []
    indent := (Line.indentUnit settings unit).depthOf (line.text.takeWhile Line.isIndent) }

theorem KeptLine.outlinedOf_eq (h : KeptLine settings unit line other) :
    outlinedOf settings unit line = outlinedOf settings unit other := by
  obtain rfl | ⟨hline, -, -, hplace⟩ := h
  · rfl
  · simp only [outlinedOf, hline, hplace.depth_eq]

theorem Reads.map_outlined {tasks : List Task} (h : Reads settings unit target lines tasks) :
    tasks.map Task.outlined = lines.map (outlinedOf settings unit) := by
  induction h with
  | nil => rfl
  | @cons line task lines tasks hread _ ih =>
    have htask : task.outlined = outlinedOf settings unit line := by
      simp only [Task.outlined, outlinedOf, Line.line_of_read hread, Line.indent_of_read hread]
    rw [List.map_cons, List.map_cons, ih, htask]

/-- **Lines that are kept make the same outline**, whatever day they are read
for. -/
theorem sameOutline_of_kept (hkept : List.Forall₂ (KeptLine settings unit) lines others)
    {day : Day} {doc found : Document} (h : read settings unit target lines = .ok doc)
    (h' : read settings unit day others = .ok found) : doc.SameOutline found := by
  obtain ⟨tasks, htasks, rfl⟩ := read_eq_ok_iff.mp h
  obtain ⟨tasks', htasks', rfl⟩ := read_eq_ok_iff.mp h'
  have hwritten := forall₂_filter hkept fun line other hline => hline.isWritten_eq
  have hlines : List.Forall₂ (KeptLine settings unit) (taskLines settings lines)
      (taskLines settings others) :=
    forall₂_filter hwritten fun line other hline => by rw [hline.isComment_eq]
  have houtlined : tasks'.map Task.outlined = tasks.map Task.outlined := by
    rw [htasks.map_outlined, htasks'.map_outlined]
    exact (map_eq_of_forall₂ hlines fun line _ other hline => hline.outlinedOf_eq).symm
  obtain ⟨hlinks, hroots⟩ := Outline.links_congr houtlined
  refine ⟨hlinks, hroots, ?_⟩
  have hcomments : List.Forall₂ (KeptLine settings unit) (commentLines settings lines)
      (commentLines settings others) :=
    forall₂_filter hwritten fun line other hline => hline.isComment_eq
  have heq := map_eq_of_forall₂ (f := id) (g := id) hcomments fun line hmem other hline => by
    -- a comment is no task, so it is the same line
    obtain rfl | ⟨-, -, hnot, -⟩ := hline
    · rfl
    · rw [(List.mem_filter.mp hmem).2] at hnot
      simp at hnot
  rw [List.map_id, List.map_id] at heq
  exact heq.symm

/-- Lines with their numbers are related if they are so one by one. -/
theorem forall₂_numberFrom {R : NumberedLine → NumberedLine → Prop} {texts texts' : List Text}
    {start : Nat} (hlength : texts.length = texts'.length)
    (h : ∀ (i : Nat) raw text, texts[i]? = some raw → texts'[i]? = some text →
      R ⟨(start + i : Nat), raw⟩ ⟨(start + i : Nat), text⟩) :
    List.Forall₂ R (numberFrom start texts) (numberFrom start texts') := by
  induction texts generalizing texts' start with
  | nil =>
    cases texts' with
    | nil => exact .nil
    | cons text texts' => simp at hlength
  | cons raw texts ih =>
    cases texts' with
    | nil => simp at hlength
    | cons text texts' =>
      refine .cons (h 0 raw text rfl rfl) (ih (Nat.succ.inj hlength) fun i raw' text' hi hi' => ?_)
      have hnext := h (i + 1) raw' text' hi hi'
      rwa [Nat.add_left_comm, Nat.add_comm i] at hnext

end KeptLine

/-! ## Steps -/

/-- What changes the lines of a document: a visit, which starts a new cycle of all
recurring tasks, or a deed on the task of one line. -/
inductive Step where
  | visit (lastVisit now : Instant)
  | deed (line : Int) (deed : Deed)

/-- The edits of a step. -/
def Step.edits (settings : Settings) (doc : Document) : Step → List Edit
  | visit lastVisit now => resetEdits (doc.outline.nodes.map (·.task)) lastVisit now
  | deed line d =>
    match doc.outline.get? line with
    | some node => d.edits settings node.task
    | none => []

/-- What a step does with a task. -/
def Step.deedOn (task : Task) : Step → Option Deed
  | visit lastVisit now => some (.reset lastVisit now)
  | deed line d => if task.line = line then some d else none

/-- The edits of a step in the line of a task. -/
def Step.editsOn (settings : Settings) (step : Step) (task : Task) : List Edit :=
  ((step.deedOn task).map (Deed.edits settings task)).getD []

section Step

variable {settings : Settings} {unit : Option IndentUnit} {target : Day} {lines : List Text}
  {tasks : List Task} {doc : Document} {step : Step}

/-- The edits of a step are those of its deeds on the tasks. -/
theorem Step.edits_eq (h : (tasks.map (·.line)).Nodup) (comments : List NumberedLine) :
    step.edits settings ⟨.ofTasks tasks, comments⟩ = tasks.flatMap (step.editsOn settings) := by
  cases step with
  | visit lastVisit now =>
    rw [Step.edits, task_nodes_ofTasks]
    rfl
  | deed line d =>
    have hother : ∀ task : Task, task.line ≠ line →
        (Step.deed line d).editsOn settings task = [] := fun task hne => by
      rw [Step.editsOn, Step.deedOn, if_neg hne]
      rfl
    rw [Step.edits]
    dsimp only
    by_cases hline : line ∈ tasks.map (·.line)
    · obtain ⟨task, htask, rfl⟩ := List.mem_map.mp hline
      rw [Outline.get?_ofTasks h htask]
      obtain ⟨front, back, rfl⟩ := List.append_of_mem htask
      -- the tasks in front and behind are in other lines
      rw [List.map_append, List.map_cons, List.nodup_append] at h
      have hfront : front.flatMap ((Step.deed task.line d).editsOn settings) = [] :=
        List.flatMap_eq_nil_iff.mpr fun other hmem => hother other fun heq =>
          h.2.2 _ (List.mem_map_of_mem hmem) _ List.mem_cons_self heq
      have hback : back.flatMap ((Step.deed task.line d).editsOn settings) = [] :=
        List.flatMap_eq_nil_iff.mpr fun other hmem => hother other fun heq =>
          (List.nodup_cons.mp h.2.1).1 (heq ▸ List.mem_map_of_mem hmem)
      rw [List.flatMap_append, List.flatMap_cons, hfront, hback, List.nil_append, List.append_nil,
        Step.editsOn, Step.deedOn, if_pos rfl]
      rfl
    · have hnone : (Outline.ofTasks tasks).get? line = none := by
        rw [Outline.get?, Outline.nodes_ofTasks, List.find?_eq_none]
        intro node hnode
        obtain ⟨task, htask, rfl⟩ := List.mem_map.mp (List.mem_reverse.mp hnode)
        rw [Outline.linked_line, beq_iff_eq]
        exact fun heq => hline (heq ▸ List.mem_map_of_mem htask)
      rw [hnone]
      refine (List.flatMap_eq_nil_iff.mpr fun task htask => hother task fun heq => hline ?_).symm
      exact heq ▸ List.mem_map_of_mem htask

theorem Step.exists_deed {task : Task} {e : Edit} (he : e ∈ step.editsOn settings task) :
    ∃ deed : Deed, step.editsOn settings task = deed.edits settings task := by
  rw [Step.editsOn] at he ⊢
  cases hdeed : step.deedOn task with
  | none => simp [hdeed] at he
  | some deed => exact ⟨deed, rfl⟩

theorem Step.owns {i : Int} {task : Task}
    (hread : Line.read settings unit target i task.raw = .ok task) {e : Edit}
    (he : e ∈ step.editsOn settings task) : task.Owns e := by
  obtain ⟨deed, hdeed⟩ := Step.exists_deed he
  exact (Deed.makes (hdeed ▸ he)).owns hread

/-- The line of a task stays in its place if the step does not lay its start open. -/
theorem Step.staysInPlace {i : Int} {task : Task}
    (hread : Line.read settings unit target i task.raw = .ok task)
    (hmark : settings.doneMark = "x ".toList) (hcomment : settings.commentMark = "# ".toList)
    (hline : isWritten ⟨i, task.raw⟩ = true ∧ isComment settings ⟨i, task.raw⟩ = false)
    (hnot : ∀ e ∈ step.editsOn settings task, ¬ e.Exposes task.raw) :
    Line.StaysInPlace settings unit task.raw
      (((step.editsOn settings task).mergeSort Edit.leftOf).foldr Edit.applyTo task.raw) := by
  have hwritten : task.raw.allBlank = false := by simpa [isWritten] using hline.1
  have hplain : settings.commentMark.isPrefixOf task.raw = false := by
    simpa [isComment, hcomment] using hline.2
  cases hedits : step.editsOn settings task with
  | nil =>
    rw [List.mergeSort_nil, List.foldr_nil]
    exact ⟨hwritten, hplain, rfl⟩
  | cons e rest =>
    obtain ⟨deed, hdeed⟩ := Step.exists_deed (hedits ▸ List.mem_cons_self)
    rw [← hedits, hdeed]
    rw [hdeed] at hnot
    exact Deed.staysInPlace hread (by rw [hmark]; decide) hcomment hwritten hplain hnot

/-- **A step keeps the outline** of a document if the lines that an edit lays open
from the start stay in their places. Where no edit does so, a line stays in its
place by itself. -/
theorem step_keepsOutline (hmark : settings.doneMark = "x ".toList)
    (hcomment : settings.commentMark = "# ".toList)
    (h : read settings unit target (number lines) = .ok doc) (step : Step) :
    ∃ lines', Edit.applyAll lines (step.edits settings doc) = .ok lines' ∧
      lines'.length = lines.length ∧
      ((∀ (i : Nat) (raw text : Text), lines[i]? = some raw → lines'[i]? = some text →
        (∃ e ∈ step.edits settings doc, e.line = i ∧ e.Exposes raw) →
          Line.StaysInPlace settings unit raw text) →
        ∀ day doc', read settings unit day (number lines') = .ok doc' → doc.SameOutline doc') := by
  obtain ⟨tasks, htasks, rfl⟩ := read_eq_ok_iff.mp h
  rw [Step.edits_eq htasks.nodup]
  have hedits : ∀ task ∈ tasks, ∀ e ∈ step.editsOn settings task,
      e.isColumnEdit = true ∧ e.line = task.line := by
    intro task htask e he
    obtain ⟨i, -, -, -, hread⟩ := htasks.exists_number htask
    exact ⟨(Step.owns hread he).columns, (Step.owns hread he).line_eq⟩
  obtain ⟨lines', happly, hlength, hchanged, hsame⟩ := htasks.exists_edited hedits
  refine ⟨lines', happly, hlength, fun hplace day doc' h' => ?_⟩
  refine sameOutline_of_kept (forall₂_numberFrom hlength.symm fun i raw text hraw htext => ?_) h h'
  rw [Nat.zero_add]
  by_cases hnone : ∃ task ∈ tasks, task.line = i
  · obtain ⟨task, htask, hline⟩ := hnone
    obtain ⟨j, hline', hj, hmem, hread⟩ := htasks.exists_number htask
    obtain rfl : i = j := by omega
    obtain rfl : task.raw = raw := Option.some.inj (hj.symm.trans hraw)
    obtain ⟨hmem, hnot⟩ := List.mem_filter.mp hmem
    have hwritten : isWritten ⟨i, task.raw⟩ = true := (List.mem_filter.mp hmem).2
    have hnot : isComment settings ⟨i, task.raw⟩ = false := by simpa using hnot
    refine .inr ⟨rfl, hwritten, hnot, ?_⟩
    by_cases hexposes : ∃ e ∈ step.editsOn settings task, e.Exposes task.raw
    · obtain ⟨e, he, hexposes⟩ := hexposes
      exact hplace i task.raw text hraw htext
        ⟨e, List.mem_flatMap.mpr ⟨task, htask, he⟩, (hedits task htask e he).2.trans hline,
          hexposes⟩
    · have hplaced := Step.staysInPlace hread hmark hcomment ⟨hwritten, hnot⟩
        fun e he hlays => hexposes ⟨e, he, hlays⟩
      rwa [Option.some.inj (htext.symm.trans (hchanged task htask i hline))]
  · -- a line of no task has no edits
    have hline := hsame i fun task htask hline => absurd ⟨task, htask, hline⟩ hnone
    rw [htext, hraw] at hline
    exact .inl (congrArg (NumberedLine.mk _) (Option.some.inj hline))

end Step

/-- A done task is reopened, which takes out the start of its line: what is left is
as deep, so that the task under it stays there. -/
theorem step_keepsOutline_reopened :
    ∃ doc doc', read {} none ⟨736695, by decide, by decide⟩
        (number ["# note".toList, "x parent".toList, "    child".toList]) = .ok doc ∧
      Edit.applyAll ["# note".toList, "x parent".toList, "    child".toList]
        (Step.edits {} doc (.deed 1 (.toggleDone ⟨⟨736695, by decide, by decide⟩, none⟩))) =
          .ok ["# note".toList, "parent".toList, "    child".toList] ∧
      read {} none ⟨736695, by decide, by decide⟩
        (number ["# note".toList, "parent".toList, "    child".toList]) = .ok doc' ∧
      doc.SameOutline doc' := by
  have heq : (read {} none ⟨736695, by decide, by decide⟩
      (number ["# note".toList, "x parent".toList, "    child".toList])).toOption.map
        (fun doc => Step.edits {} doc
          (.deed 1 (.toggleDone ⟨⟨736695, by decide, by decide⟩, none⟩)))
      = some [.delete 1 ⟨0, 2⟩ .clearCompletion (.text "done".toList)] := by
    decide +kernel
  have hsome : (read {} none ⟨736695, by decide, by decide⟩
      (number ["# note".toList, "parent".toList, "    child".toList])).toOption.isSome = true := by
    decide +kernel
  generalize hread : read _ _ _ (number ["# note".toList, "x parent".toList, _]) = result
    at heq ⊢
  generalize hread' : read _ _ _ _ = result' at hsome ⊢
  cases result with
  | error e => simp [Except.toOption] at heq
  | ok doc =>
    cases result' with
    | error e => simp [Except.toOption] at hsome
    | ok doc' =>
      have hedits : Step.edits {} doc
          (.deed 1 (.toggleDone ⟨⟨736695, by decide, by decide⟩, none⟩)) = _ :=
        Option.some.inj heq
      obtain ⟨lines', happly, -, hsame⟩ := step_keepsOutline rfl rfl hread
        (.deed 1 (.toggleDone ⟨⟨736695, by decide, by decide⟩, none⟩))
      rw [hedits] at happly hsame
      have hlines : lines' = ["# note".toList, "parent".toList, "    child".toList] := by
        rw [Edit.applyAll, Edit.schedule, List.mergeSort_of_pairwise (by decide)] at happly
        exact (Except.ok.inj happly).symm
      subst hlines
      refine ⟨doc, doc', rfl, (congrArg (Edit.applyAll _) hedits).trans happly, rfl,
        hsame (fun i raw text hraw htext hexposes => ?_) _ doc' hread'⟩
      obtain ⟨e, he, hline, -⟩ := hexposes
      obtain rfl := List.mem_singleton.mp he
      obtain rfl : i = 1 := by
        have hi : (1 : Int) = i := hline
        omega
      obtain rfl := Option.some.inj hraw
      obtain rfl := Option.some.inj htext
      exact ⟨rfl, rfl, rfl⟩

/-- A completion tag behind an indentation is taken out with the last space of it:
the task is less deep then, and no more under the one above it. -/
theorem step_losesParent :
    ∃ doc doc', read {} none ⟨736695, by decide, by decide⟩
        (number ["parent".toList, "    \x7bcm\x7dchild".toList]) = .ok doc ∧
      Edit.applyAll ["parent".toList, "    \x7bcm\x7dchild".toList]
        (Step.edits {} doc (.deed 1 (.toggleDone ⟨⟨736695, by decide, by decide⟩, none⟩))) =
          .ok ["parent".toList, "   child".toList] ∧
      read {} none ⟨736695, by decide, by decide⟩
        (number ["parent".toList, "   child".toList]) = .ok doc' ∧
      doc.outline.nodes.map Node.links = [(0, 0, none, [1]), (1, 1, some 0, [])] ∧
      doc'.outline.nodes.map Node.links = [(0, 0, none, []), (1, 0, none, [])] ∧
      ¬ doc.SameOutline doc' := by
  have hedits : (read {} none ⟨736695, by decide, by decide⟩
      (number ["parent".toList, "    \x7bcm\x7dchild".toList])).toOption.map
        (fun doc => Step.edits {} doc
          (.deed 1 (.toggleDone ⟨⟨736695, by decide, by decide⟩, none⟩)))
      = some [.delete 1 ⟨3, 8⟩ .clearCompletion (.text "cm".toList)] := by
    decide +kernel
  have hlinks : (read {} none ⟨736695, by decide, by decide⟩
      (number ["parent".toList, "    \x7bcm\x7dchild".toList])).toOption.map
        (fun doc => doc.outline.nodes.map Node.links) =
      some [(0, 0, none, [1]), (1, 1, some 0, [])] := by
    decide +kernel
  have hlinks' : (read {} none ⟨736695, by decide, by decide⟩
      (number ["parent".toList, "   child".toList])).toOption.map
        (fun doc => doc.outline.nodes.map Node.links) =
      some [(0, 0, none, []), (1, 0, none, [])] := by
    decide +kernel
  generalize read _ _ _ (number ["parent".toList, "    \x7bcm\x7dchild".toList]) = result
    at hedits hlinks ⊢
  generalize read _ _ _ _ = result' at hlinks' ⊢
  cases result with
  | error e => simp [Except.toOption] at hlinks
  | ok doc =>
    cases result' with
    | error e => simp [Except.toOption] at hlinks'
    | ok doc' =>
      have hlinks : doc.outline.nodes.map Node.links = _ := Option.some.inj hlinks
      have hlinks' : doc'.outline.nodes.map Node.links = _ := Option.some.inj hlinks'
      refine ⟨doc, doc', rfl, ?_, rfl, hlinks, hlinks', fun hsame => ?_⟩
      · rw [show Step.edits {} doc _ = _ from Option.some.inj hedits, Edit.applyAll, Edit.schedule,
          List.mergeSort_of_pairwise (by decide)]
        rfl
      · have hsame := hsame.links_eq
        rw [hlinks, hlinks'] at hsame
        exact absurd hsame (by decide)

end Document

end TaskList
