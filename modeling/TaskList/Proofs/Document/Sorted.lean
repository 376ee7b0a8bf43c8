/-
TaskList.Proofs.Document.Sorted — every line of a document is a task, a comment or blank.

* `Source.lineAt?` — the line at a place of a source, with the number that it has there.
  `Source.getElem?_lines` — these are the lines of the source.
* `Document.SortedInto` — lines sorted one after the other into tasks and comments. There is
  one way to do so (`sortedInto_iff`), and it keeps the order.
* `Document.read_sorts` — a document holds the lines of its source sorted in this way, and
  every task is what its own line is read as.
-/
import TaskList.Proofs.Document.Edited

namespace TaskList

/-! ## The numbers of lines -/

/-- The line at a place of a source. Its number is the place, unless it has its own. -/
def Source.lineAt? (place : Nat) : Source → Option NumberedLine
  | text t => t.lines[place]?.map (NumberedLine.mk place)
  | entries items => items[place]?.map (Entry.at place)

theorem Document.getElem?_numberFrom (start : Nat) (lines : List Text) (place : Nat) :
    (numberFrom start lines)[place]? =
      lines[place]?.map (NumberedLine.mk (start + place : Nat)) := by
  induction lines generalizing start place with
  | nil => rfl
  | cons text rest ih =>
    cases place with
    | zero => rfl
    | succ place =>
      rw [numberFrom, List.getElem?_cons_succ, List.getElem?_cons_succ, ih]
      rw [Nat.add_assoc, Nat.add_comm 1]

/-- **A line has its place as its number**, unless it has its own. -/
theorem Source.getElem?_lines (source : Source) (place : Nat) :
    source.lines[place]? = source.lineAt? place := by
  cases source with
  | text t =>
    rw [lines, Document.number, Document.getElem?_numberFrom, Nat.zero_add]
    rfl
  | entries items =>
    rw [lines, List.getElem?_map, List.getElem?_zipIdx, Option.map_map, Nat.zero_add]
    rfl

/-- The line that a task was read from, with its number. -/
def Task.numberedLine (task : Task) : NumberedLine := ⟨task.line, task.raw⟩

namespace Document

/-! ## Tasks and comments -/

/-- The mark opens the text. An empty mark opens none. -/
def Opens (mark text : Text) : Prop := mark ≠ [] ∧ mark <+: text

/-- The lines are sorted one after the other: each one into the tasks or into the comments,
unless it is blank. -/
inductive SortedInto (mark : Text) :
    List NumberedLine → List NumberedLine → List NumberedLine → Prop where
  /-- No lines. -/
  | nil : SortedInto mark [] [] []
  /-- A line of white space only is neither a task nor a comment. -/
  | blank {line : NumberedLine} {lines tasks comments : List NumberedLine} :
      (∀ c ∈ line.text, isBlank c = true) → SortedInto mark lines tasks comments →
      SortedInto mark (line :: lines) tasks comments
  /-- Another line is a comment if the mark opens it. -/
  | comment {line : NumberedLine} {lines tasks comments : List NumberedLine} :
      (∃ c ∈ line.text, isBlank c = false) → Opens mark line.text →
      SortedInto mark lines tasks comments →
      SortedInto mark (line :: lines) tasks (line :: comments)
  /-- And it is a task if the mark does not. -/
  | task {line : NumberedLine} {lines tasks comments : List NumberedLine} :
      (∃ c ∈ line.text, isBlank c = false) → ¬ Opens mark line.text →
      SortedInto mark lines tasks comments →
      SortedInto mark (line :: lines) (line :: tasks) comments

theorem isWritten_eq_true_iff {line : NumberedLine} :
    isWritten line = true ↔ ∃ c ∈ line.text, isBlank c = false := by
  simp [isWritten, Text.allBlank]

theorem isWritten_eq_false_iff {line : NumberedLine} :
    isWritten line = false ↔ ∀ c ∈ line.text, isBlank c = true := by
  simp [isWritten, Text.allBlank]

theorem isComment_iff {settings : Settings} {line : NumberedLine} :
    isComment settings line = true ↔ Opens settings.commentMark line.text := by
  simp [isComment, Opens]

namespace SortedInto

variable {mark : Text} {lines tasks comments : List NumberedLine}

theorem tasks_sublist (h : SortedInto mark lines tasks comments) : tasks.Sublist lines := by
  induction h with
  | nil => exact .slnil
  | blank _ _ ih => exact ih.cons _
  | comment _ _ _ ih => exact ih.cons _
  | task _ _ _ ih => exact ih.cons_cons _

theorem comments_sublist (h : SortedInto mark lines tasks comments) : comments.Sublist lines := by
  induction h with
  | nil => exact .slnil
  | blank _ _ ih => exact ih.cons _
  | comment _ _ _ ih => exact ih.cons_cons _
  | task _ _ _ ih => exact ih.cons _

end SortedInto

section Sorted

variable {settings : Settings} {unit : Option IndentUnit} {target : Day}

/-- **There is one way to sort lines.** -/
theorem sortedInto_iff {lines tasks comments : List NumberedLine} :
    SortedInto settings.commentMark lines tasks comments ↔
      tasks = taskLines settings lines ∧ comments = commentLines settings lines := by
  constructor
  · intro h
    induction h with
    | nil => exact ⟨rfl, rfl⟩
    | blank hblank _ ih =>
      have hwritten := isWritten_eq_false_iff.mpr hblank
      simpa [taskLines, commentLines, hwritten] using ih
    | comment hwritten hopens _ ih =>
      have hwritten := isWritten_eq_true_iff.mpr hwritten
      have hcomment := isComment_iff.mpr hopens
      simpa [taskLines, commentLines, hwritten, hcomment] using ih
    | task hwritten hopens _ ih =>
      have hwritten := isWritten_eq_true_iff.mpr hwritten
      have hcomment := Bool.eq_false_iff.mpr (mt isComment_iff.mp hopens)
      simpa [taskLines, commentLines, hwritten, hcomment] using ih
  · rintro ⟨rfl, rfl⟩
    induction lines with
    | nil => exact .nil
    | cons line lines ih =>
      cases hwritten : isWritten line with
      | false =>
        simpa [taskLines, commentLines, hwritten] using
          SortedInto.blank (isWritten_eq_false_iff.mp hwritten) ih
      | true =>
        cases hcomment : isComment settings line with
        | true =>
          simpa [taskLines, commentLines, hwritten, hcomment] using
            SortedInto.comment (isWritten_eq_true_iff.mp hwritten) (isComment_iff.mp hcomment) ih
        | false =>
          simpa [taskLines, commentLines, hwritten, hcomment] using
            SortedInto.task (isWritten_eq_true_iff.mp hwritten)
              (fun h => Bool.false_ne_true (hcomment.symm.trans (isComment_iff.mpr h))) ih

theorem Reads.map_numberedLine {lines : List NumberedLine} {tasks : List Task}
    (h : Reads settings unit target lines tasks) : tasks.map Task.numberedLine = lines := by
  have hlines := map_eq_of_forall₂ (f := id) (g := Task.numberedLine) h fun line _ task hread => by
    rw [Task.numberedLine, Line.line_of_read hread, Line.raw_of_read hread]
    rfl
  rw [← hlines, List.map_id]

/-! ## The document of a source -/

/-- What a document holds of its source. -/
structure HoldsLines (settings : Settings) (unit : Option IndentUnit) (target : Day)
    (source : Source) (doc : Document) : Prop where
  /-- Every line of the source has its place as its number, or a number of its own. -/
  lines_at : ∀ place, source.lines[place]? = source.lineAt? place
  /-- The lines are sorted into those of the tasks and the comments. -/
  sorted : SortedInto settings.commentMark source.lines
    (doc.outline.nodes.map (·.task.numberedLine)) doc.comments
  tasks_sublist : (doc.outline.nodes.map (·.task.numberedLine)).Sublist source.lines
  comments_sublist : doc.comments.Sublist source.lines
  /-- Every task is what its line is read as. -/
  read_eq : ∀ node ∈ doc.outline.nodes,
    Line.read settings unit target node.line node.task.raw = .ok node.task

/-- **A document holds the lines of its source**, each one once as a task or as a comment
unless it is blank. To nest the tasks changes nothing in them. -/
theorem read_sorts {source : Source} {doc : Document}
    (h : read settings unit target source.lines = .ok doc) :
    HoldsLines settings unit target source doc := by
  obtain ⟨tasks, htasks, rfl⟩ := read_eq_ok_iff.mp h
  have hnodes : (Outline.ofTasks tasks).nodes.map (·.task.numberedLine) =
      taskLines settings source.lines := by
    rw [← htasks.map_numberedLine, Outline.nodes_ofTasks, List.map_map]
    rfl
  have hsorted : SortedInto settings.commentMark source.lines
      ((Outline.ofTasks tasks).nodes.map (·.task.numberedLine))
      (commentLines settings source.lines) := sortedInto_iff.mpr ⟨hnodes, rfl⟩
  refine ⟨source.getElem?_lines, hsorted, hsorted.tasks_sublist, hsorted.comments_sublist, ?_⟩
  intro node hnode
  have htask : node.task ∈ tasks := by
    rw [← task_nodes_ofTasks tasks]
    exact List.mem_map_of_mem hnode
  obtain ⟨line, -, hread⟩ := htasks.exists_line htask
  rwa [Node.line, Line.line_of_read hread, Line.raw_of_read hread]

end Sorted

/-- Lines with and without numbers: a note at the very start of its line is a comment, an
indented one is a task, and a blank line is neither. -/
theorem read_sorts_entries :
    ∃ doc, read {} none ⟨736695, by decide, by decide⟩ (Source.entries
        [.unnumbered "# note".toList, .numbered ⟨7, "\tx task +home".toList⟩,
          .unnumbered " \t".toList, .unnumbered " # note".toList]).lines = .ok doc ∧
      doc.comments = [⟨0, "# note".toList⟩] ∧
      doc.outline.nodes.map (·.task.numberedLine) =
        [⟨7, "\tx task +home".toList⟩, ⟨3, " # note".toList⟩] ∧
      HoldsLines {} none ⟨736695, by decide, by decide⟩ (Source.entries
        [.unnumbered "# note".toList, .numbered ⟨7, "\tx task +home".toList⟩,
          .unnumbered " \t".toList, .unnumbered " # note".toList]) doc := by
  have hlines : (read {} none ⟨736695, by decide, by decide⟩ (Source.entries
      [.unnumbered "# note".toList, .numbered ⟨7, "\tx task +home".toList⟩,
        .unnumbered " \t".toList, .unnumbered " # note".toList]).lines).toOption.map
        (fun doc => (doc.comments, doc.outline.nodes.map (·.task.numberedLine))) =
      some ([⟨0, "# note".toList⟩], [⟨7, "\tx task +home".toList⟩, ⟨3, " # note".toList⟩]) := by
    decide +kernel
  generalize hread : read _ _ _ _ = result at hlines ⊢
  cases result with
  | error e => simp [Except.toOption] at hlines
  | ok doc =>
    obtain ⟨hcomments, htasks⟩ := Prod.mk.inj (Option.some.inj hlines)
    exact ⟨doc, rfl, hcomments, htasks, read_sorts hread⟩

end Document

end TaskList
