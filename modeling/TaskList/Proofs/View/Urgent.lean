/-
TaskList.Proofs.View.Urgent — what is due, the most urgent first.

* `Task.PriorityBefore` — the order of priorities. In a task that was read a priority is a
  letter from A to Z (`Task.letter_of_read`), so the stand-in for a missing one comes last.
* `Outline.DueBefore` — one task comes in front of another: by its priority, or else by
  its state, or else by its place in the document.
* `Outline.ListsDue` — what is promised of the list of what is due, and
  `Document.dueList_lists` — the outline of a document that was read keeps it.
-/
import Mathlib.Data.Char
import TaskList.Proofs.Document.Edited
import TaskList.Proofs.Due.Missed
import TaskList.Proofs.Line.Changed
import TaskList.Proofs.Outline.Nearest
import TaskList.Proofs.Sorting
import TaskList.View.DueList

namespace TaskList

/-! ## The order of urgencies -/

namespace Urgency

variable {a b c : Urgency}

theorem precedes_iff : a.precedes b = true ↔
    a.letter < b.letter ∨ a.letter = b.letter ∧ a.rank ≤ b.rank := by
  simp [precedes]

theorem precedes_trans (a b c : Urgency) (hab : a.precedes b) (hbc : b.precedes c) :
    a.precedes c := by
  rw [precedes_iff] at hab hbc ⊢
  rcases hab with hab | ⟨hab, hrank⟩
  · refine .inl ?_
    rcases hbc with hbc | ⟨hbc, -⟩
    · exact Char.lt_trans hab hbc
    · exact hbc ▸ hab
  · rcases hbc with hbc | ⟨hbc, hrank'⟩
    · exact .inl (hab ▸ hbc)
    · exact .inr ⟨hab.trans hbc, hrank.trans hrank'⟩

theorem precedes_total (a b : Urgency) : a.precedes b || b.precedes a := by
  rw [Bool.or_eq_true, precedes_iff, precedes_iff]
  rcases lt_trichotomy a.letter b.letter with hlt | heq | hgt
  · exact .inl (.inl hlt)
  · rcases Nat.le_total a.rank b.rank with hle | hge
    · exact .inl (.inr ⟨heq, hle⟩)
    · exact .inr (.inr ⟨heq.symm, hge⟩)
  · exact .inr (.inl hgt)

end Urgency

namespace Task

/-- Does one priority come in front of another? They go from A on, and none comes last. -/
def PriorityBefore : Option Char → Option Char → Prop
  | some a, some b => a < b
  | some _, none => True
  | none, _ => False

/-- A priority is a letter from A to Z. -/
def HasLetter (task : Task) : Prop := ∀ c ∈ task.letter?, 'A' ≤ c ∧ c ≤ 'Z'

theorem letter_of_read {settings : Settings} {unit : Option IndentUnit} {target : Day}
    {number : Int} {raw : Text} {task : Task}
    (h : Line.read settings unit target number raw = .ok task) : task.HasLetter := by
  intro c hc
  have hpriority : task.priority = _ := congrArg priority (Line.read_eq_ok h).2
  rw [letter?, hpriority, Option.mem_def] at hc
  obtain ⟨p, hp, rfl⟩ := Option.map_eq_some_iff.mp hc
  obtain ⟨letter, -, -, ⟨hA, hZ, -⟩, rfl⟩ := Line.priority?_eq_some_iff.mp hp
  exact ⟨hA, hZ⟩

theorem isActive_iff {task : Task} : task.isActive = true ↔
    task.dueState? = some .due ∨ task.dueState? = some .overdue := by
  rw [isActive]
  cases task.dueState? with
  | none => simp
  | some state => simp [Due.State.isActive_iff]

variable {a b : Task}

/-- The stand-in for a missing priority comes behind Z. -/
theorem letter_cases (ha : a.HasLetter) (hb : b.HasLetter) :
    (a.urgency.letter < b.urgency.letter ↔ PriorityBefore a.letter? b.letter?) ∧
      (a.urgency.letter = b.urgency.letter ↔ a.letter? = b.letter?) := by
  have hlast : ∀ c : Char, c ≤ 'Z' → c < '[' := fun c hc => lt_of_le_of_lt hc (by decide)
  unfold HasLetter at ha hb
  rw [urgency, urgency]
  cases hsome : a.letter? with
  | none =>
    cases hsome' : b.letter? with
    | none => simp [PriorityBefore]
    | some d =>
      have hd := hlast d (hb d hsome').2
      simp [PriorityBefore, hd.ne', Char.not_lt.mpr hd.le]
  | some c =>
    cases hsome' : b.letter? with
    | none =>
      have hc := hlast c (ha c hsome).2
      simp [PriorityBefore, hc, hc.ne]
    | some d => simp [PriorityBefore]

end Task

/-! ## The list -/

namespace Outline

/-- One task comes in front of another in the list of what is due. -/
inductive DueBefore (o : Outline) (a b : Node) : Prop where
  /-- Its priority comes first. -/
  | priority (h : Task.PriorityBefore a.task.letter? b.task.letter?)
  /-- The priorities are the same, and it is due where the other one is overdue. -/
  | state (hletter : a.task.letter? = b.task.letter?) (ha : a.task.dueState? = some .due)
      (hb : b.task.dueState? = some .overdue)
  /-- Priorities and states are the same, and it stands above the other one. -/
  | place (hletter : a.task.letter? = b.task.letter?)
      (hstate : a.task.dueState? = b.task.dueState?) (h : [a, b].Sublist o.nodes)

/-- What is promised of the list of what is due. -/
structure ListsDue (o : Outline) (listed : List Node) : Prop where
  /-- It has the tasks that are nested under none and are due or overdue, -/
  complete : ∀ node, node ∈ listed ↔ node ∈ o.nodes ∧ node.parent = none ∧
    (node.task.dueState? = some .due ∨ node.task.dueState? = some .overdue)
  /-- each once, -/
  once : (listed.map (·.line)).Nodup
  /-- with priorities from A to Z or none, -/
  letters : ∀ node ∈ listed, node.task.HasLetter
  /-- in order. -/
  ordered : listed.Pairwise o.DueBefore

section Listed

variable {o : Outline}

theorem precedes_trans (a b c : Node) (hab : a.task.urgency.precedes b.task.urgency)
    (hbc : b.task.urgency.precedes c.task.urgency) :
    a.task.urgency.precedes c.task.urgency :=
  Urgency.precedes_trans _ _ _ hab hbc

theorem precedes_total (a b : Node) :
    a.task.urgency.precedes b.task.urgency || b.task.urgency.precedes a.task.urgency :=
  Urgency.precedes_total _ _

/-- Of two tasks that the sort leaves in this order, the first comes in front. -/
theorem dueBefore_of_precedes {a b : Node} (ha : a.task.HasLetter) (hb : b.task.HasLetter)
    (hactive : a.task.isActive = true) (hactive' : b.task.isActive = true)
    (h : a.task.urgency.precedes b.task.urgency = true)
    (hplace : a.task.letter? = b.task.letter? → a.task.dueState? = b.task.dueState? →
      [a, b].Sublist o.nodes) : o.DueBefore a b := by
  obtain ⟨hless, hsame⟩ := Task.letter_cases ha hb
  rw [Urgency.precedes_iff, hless, hsame] at h
  rcases h with h | ⟨hletter, hrank⟩
  · exact .priority h
  · rw [Task.isActive_iff] at hactive hactive'
    rcases hactive with hdue | hover <;> rcases hactive' with hdue' | hover'
    · exact .place hletter (hdue.trans hdue'.symm) (hplace hletter (hdue.trans hdue'.symm))
    · exact .state hletter hdue hover'
    · rw [Task.urgency, Task.urgency, hover, hdue'] at hrank
      exact absurd (show 1 ≤ 0 from hrank) (by decide)
    · exact .place hletter (hover.trans hover'.symm) (hplace hletter (hover.trans hover'.symm))

/-- The sort keeps tasks of one priority and one state as they stand. -/
theorem filter_dueList (o : Outline) (letter : Option Char) (state : Option Due.State) :
    o.dueList.filter (fun node => node.task.letter? = letter ∧ node.task.dueState? = state) =
      (o.roots.filter (·.task.isActive)).filter fun node =>
        node.task.letter? = letter ∧ node.task.dueState? = state := by
  refine Sorting.filter_mergeSort precedes_trans precedes_total (fun a b ha hb => ?_) _
  obtain ⟨hletter, hstate⟩ := of_decide_eq_true ha
  obtain ⟨hletter', hstate'⟩ := of_decide_eq_true hb
  rw [Urgency.precedes_iff, Task.urgency, Task.urgency, hletter, hletter', hstate, hstate']
  exact .inr ⟨rfl, Nat.le_refl _⟩

/-- No task comes in front of another and behind it. -/
theorem DueBefore.asymm {a b : Node} (hnodes : o.nodes.Nodup) (h : o.DueBefore a b) :
    ¬ o.DueBefore b a := by
  have hpriority : ∀ p q : Option Char, Task.PriorityBefore p q →
      p ≠ q ∧ ¬ Task.PriorityBefore q p := by
    rintro (_ | p) (_ | q) <;> simp +contextual [Task.PriorityBefore, ne_of_lt, le_of_lt]
  intro h'
  cases h with
  | priority h =>
    obtain ⟨hne, hnot⟩ := hpriority _ _ h
    cases h' with
    | priority h' => exact hnot h'
    | state hletter _ _ => exact hne hletter.symm
    | place hletter _ _ => exact hne hletter.symm
  | state hletter ha hb =>
    cases h' with
    | priority h' => exact (hpriority _ _ h').1 hletter.symm
    | state _ hb' _ => simp [hb] at hb'
    | place _ hstate _ => simp [ha, hb] at hstate
  | place hletter hstate habove =>
    cases h' with
    | priority h' => exact (hpriority _ _ h').1 hletter.symm
    | state _ hb ha => simp [ha, hb] at hstate
    | place _ _ hbelow =>
      have hplaces : o.nodes.Pairwise fun x y => o.nodes.idxOf x < o.nodes.idxOf y :=
        List.pairwise_iff_getElem.mpr fun i j hi hj hlt => by
          rwa [hnodes.idxOf_getElem i hi, hnodes.idxOf_getElem j hj]
      have hlt := List.pairwise_iff_forall_sublist.mp hplaces habove
      exact Nat.lt_asymm hlt (List.pairwise_iff_forall_sublist.mp hplaces hbelow)

/-- Only one list keeps what is promised. -/
theorem ListsDue.unique {listed listed' : List Node} (hnodes : o.nodes.Nodup)
    (h : o.ListsDue listed) (h' : o.ListsDue listed') : listed = listed' := by
  have hperm : listed.Perm listed' :=
    (List.perm_ext_iff_of_nodup h.once.of_map h'.once.of_map).mpr fun node =>
      (h.complete node).trans (h'.complete node).symm
  exact hperm.eq_of_pairwise (fun a b _ _ hab hba => absurd hba (hab.asymm hnodes))
    h.ordered h'.ordered

/-- The list of what is due keeps what is promised where no two tasks have one line
number and priorities are letters from A to Z. -/
theorem dueList_listsDue {tasks : List Task} (h : (tasks.map (·.line)).Nodup)
    (hletters : ∀ task ∈ tasks, task.HasLetter) : (ofTasks tasks).ListsDue (ofTasks tasks).dueList := by
  have hnested := (ofTasks_nestedByIndent h).1
  have hperm : (ofTasks tasks).dueList.Perm
      ((ofTasks tasks).roots.filter (·.task.isActive)) := List.mergeSort_perm _ _
  have hsublist : ((ofTasks tasks).roots.filter (·.task.isActive)).Sublist (ofTasks tasks).nodes :=
    List.filter_sublist.trans (hnested.roots.1 ▸ List.filter_sublist)
  have hlines : ((ofTasks tasks).nodes.map (·.line)).Nodup := by
    rwa [← hnested.tasks_eq, List.map_map] at h
  have hletter : ∀ node ∈ (ofTasks tasks).nodes, node.task.HasLetter := fun node hnode =>
    hletters _ (hnested.tasks_eq ▸ List.mem_map_of_mem hnode)
  have hknown : ∀ node ∈ (ofTasks tasks).dueList,
      node ∈ (ofTasks tasks).nodes ∧ node.task.isActive = true := fun node hnode =>
    have hmem := hperm.subset hnode
    ⟨hsublist.subset hmem, (List.mem_filter.mp hmem).2⟩
  have hsorted : (ofTasks tasks).dueList.Pairwise fun a b =>
      a.task.urgency.precedes b.task.urgency = true :=
    List.pairwise_mergeSort precedes_trans precedes_total _
  constructor
  case complete =>
    intro node
    rw [hperm.mem_iff, List.mem_filter, hnested.roots.1, List.mem_filter, beq_iff_eq,
      Task.isActive_iff, and_assoc]
  case once => exact (hperm.map _).nodup_iff.mpr (hlines.sublist (hsublist.map _))
  case letters => exact fun node hnode => hletter node (hknown node hnode).1
  case ordered =>
    rw [List.pairwise_iff_forall_sublist]
    intro a b hab
    obtain ⟨hmem, hactive⟩ := hknown a (hab.subset (by simp))
    obtain ⟨hmem', hactive'⟩ := hknown b (hab.subset (by simp))
    refine dueBefore_of_precedes (hletter a hmem) (hletter b hmem') hactive hactive'
      (List.pairwise_iff_forall_sublist.mp hsorted hab) fun hsame hsame' => ?_
    -- both are kept where the list is cut down to their priority and state
    have hkept := hab.filter fun node =>
      decide (node.task.letter? = b.task.letter? ∧ node.task.dueState? = b.task.dueState?)
    rw [filter_dueList] at hkept
    simpa [hsame, hsame'] using (hkept.trans List.filter_sublist).trans hsublist

end Listed

end Outline

namespace Document

/-- **What is due is listed completely and in order**, where no two tasks of a document have
one line number: the list of what is due has the tasks that are nested under none and
are due or overdue, each once, by priority, then what is due before what is overdue,
and then from top to bottom. No other list is like that. -/
theorem dueList_lists {settings : Settings} {unit : Option IndentUnit} {target : Day}
    {lines : List NumberedLine} {document : Document}
    (h : read settings unit target lines = .ok document)
    (hlines : (document.outline.nodes.map (·.line)).Nodup) (listed : List Node) :
    document.outline.ListsDue listed ↔ listed = document.outline.dueList := by
  have hlists : document.outline.ListsDue document.outline.dueList := by
    obtain ⟨tasks, htasks, rfl⟩ := read_eq_ok_iff.mp h
    refine Outline.dueList_listsDue ?_ fun task htask => ?_
    · rw [← task_nodes_ofTasks tasks, List.map_map]
      exact hlines
    · obtain ⟨line, -, hread⟩ := htasks.exists_line htask
      exact Task.letter_of_read hread
  constructor
  · exact fun hlisted => hlisted.unique hlines.of_map hlists
  · rintro rfl
    exact hlists

/-- Lines with numbers that do not rise: tasks of one priority that are due or overdue, two
that are tied, one without a priority that is due, one that is nested, and one that
is not due. -/
def mixedLines : List NumberedLine :=
  [⟨7, "a {due:2017-12-31}".toList⟩, ⟨3, "(B) b {due:ed}".toList⟩,
    ⟨9, "(A) c {due:2017-12-31}".toList⟩, ⟨1, "(A) d {due:today}".toList⟩,
    ⟨4, "    (A) e {due:ed}".toList⟩, ⟨2, "f {due:ed}".toList⟩, ⟨8, "(A) g {due:ed}".toList⟩,
    ⟨6, "(A) h {due:2018-01-02}".toList⟩]

theorem dueList_lists_mixed :
    ∃ document, read {} none ⟨736695, by decide, by decide⟩ mixedLines = .ok document ∧
      (document.outline.nodes.map (·.line)).Nodup ∧
      (document.outline.roots.filter (·.task.isActive)).map (·.line) = [7, 3, 9, 1, 2, 8] ∧
      document.outline.ListsDue document.outline.dueList := by
  have hfound : (read {} none ⟨736695, by decide, by decide⟩ mixedLines).toOption.any
      (fun document => decide ((document.outline.nodes.map (·.line)).Nodup ∧
        (document.outline.roots.filter (·.task.isActive)).map (·.line) = [7, 3, 9, 1, 2, 8])) =
      true := by
    decide +kernel
  obtain ⟨document, hread, hmore⟩ := (Option.any_eq_true _ _).mp hfound
  obtain ⟨hlines, hactive⟩ := of_decide_eq_true hmore
  have hread := toOption_eq_some.mp hread
  exact ⟨document, hread, hlines, hactive, (dueList_lists hread hlines _).mpr rfl⟩

end Document

end TaskList
