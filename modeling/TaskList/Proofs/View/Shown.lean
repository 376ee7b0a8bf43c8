/-
TaskList.Proofs.View.Shown — the branches that are made of an outline.

* `Branch.listing` — a branch and all branches in it, a branch before those under it.
* `Outline.isVisible` — a task is shown, and so are all tasks that it is nested under,
  which are opened too (`isVisible_iff`). Going down one step, that is decided by the
  task alone (`isVisible_child`).
* `Outline.Shows` — what is promised of the branches of an outline: they are the visible
  tasks in the order of the document, each with the visible tasks nested directly
  under it.
* `Outline.exists_branches` — branches are made along with a walk through the outline,
  and what the walk visits and is visible is what they list.
* `Outline.fullBranches_shows` — the branches of an outline keep what is promised.
-/
import TaskList.Proofs.Outline.Ancestry
import TaskList.Proofs.Outline.Circles
import TaskList.View.Branch

namespace TaskList

/-! ## All branches in a branch -/

mutual

/-- A branch and all branches in it, a branch before those under it. -/
def Branch.listing : Branch → List Branch
  | .node task children => .node task children :: Branch.listings children

/-- Some branches and all branches in them. -/
def Branch.listings : List Branch → List Branch
  | [] => []
  | branch :: rest => branch.listing ++ Branch.listings rest

end

theorem Branch.listing_eq (branch : Branch) :
    branch.listing = branch :: Branch.listings branch.children := by
  cases branch with
  | node task children => rw [listing, Branch.children]

namespace Outline

/-! ## Visible tasks -/

/-- Is a task shown, as are all tasks that it is nested under, and are those opened? -/
def isVisible (o : Outline) (shown opened : Task → Bool) (node : Node) : Bool :=
  match o.ancestors node with
  | .error _ => false
  | .ok chain => shown node.task && chain.all fun above => shown above.task && opened above.task

/-- What is promised of the branches that are made of an outline. -/
structure Shows (o : Outline) (visible : Node → Bool) (branches : List Branch) : Prop where
  /-- The branches and those in them are of the visible tasks, from top to bottom. -/
  listed : (Branch.listings branches).map (·.task) = (o.nodes.filter visible).map (·.task)
  /-- Each of them has one branch. -/
  once : ((Branch.listings branches).map (·.task.line)).Nodup
  /-- The outermost ones are of the visible tasks that are nested under none. -/
  outermost : branches.map (·.task) =
    (o.nodes.filter fun node => visible node && node.parent == none).map (·.task)
  /-- Under a task are the branches of the visible tasks that are nested directly
  under it. -/
  under : ∀ branch ∈ Branch.listings branches, ∃ node ∈ o.nodes, branch.task = node.task ∧
    branch.children.map (·.task) =
      (o.nodes.filter fun child => visible child && child.parent == some node.line).map (·.task)

section Visible

variable {tasks : List Task} {shown opened : Task → Bool}

theorem isVisible_iff (h : (tasks.map (·.line)).Nodup) {node : Node}
    (hnode : node ∈ (ofTasks tasks).nodes) :
    (ofTasks tasks).isVisible shown opened node = true ↔
      shown node.task = true ∧ ∀ above, (ofTasks tasks).IsUnder node above →
        shown above.task = true ∧ opened above.task = true := by
  obtain ⟨i, hi⟩ := List.mem_iff_getElem?.mp hnode
  have hlt := (List.getElem?_eq_some_iff.mp hi).1
  obtain ⟨chain, hchain, -⟩ := exists_chain h hi (show i < (ofTasks tasks).nodes.length + 1 by omega)
  rw [isVisible, ancestors, hchain]
  simp only [Bool.and_eq_true, List.all_eq_true, mem_ancestorsIn hchain]

/-- The tasks directly under a task are those that name it as their parent. -/
theorem subtasks_eq (h : (tasks.map (·.line)).Nodup) {node : Node}
    (hnode : node ∈ (ofTasks tasks).nodes) :
    (ofTasks tasks).subtasks node =
      (ofTasks tasks).nodes.filter (·.parent == some node.line) := by
  have hnested := (ofTasks_nestedByIndent h).1
  rw [subtasks, hnested.subtasks node hnode]
  exact filterMap_get?_lines fun child hchild => hnested.stored child (List.mem_filter.mp hchild).1

/-- A task under a visible one that is opened is visible if it is shown; under any
other task, none is. -/
theorem isVisible_child (h : (tasks.map (·.line)).Nodup) {node child : Node}
    (hnode : node ∈ (ofTasks tasks).nodes) (hchild : child ∈ (ofTasks tasks).subtasks node) :
    (ofTasks tasks).isVisible shown opened child =
      ((ofTasks tasks).isVisible shown opened node && opened node.task && shown child.task) := by
  rw [subtasks_eq h hnode, List.mem_filter, beq_iff_eq,
    ← parent?_eq_some_iff h hnode] at hchild
  obtain ⟨hmem, hparent⟩ := hchild
  have habove : ∀ above, (ofTasks tasks).IsUnder child above ↔
      above = node ∨ (ofTasks tasks).IsUnder node above := by
    intro above
    rw [IsUnder, Relation.TransGen.head'_iff]
    simp only [hparent, Option.some.injEq, exists_eq_left',
      Relation.reflTransGen_iff_eq_or_transGen]
  rw [Bool.eq_iff_iff, Bool.and_eq_true, Bool.and_eq_true, isVisible_iff h hmem,
    isVisible_iff h hnode]
  simp only [habove, forall_eq_or_imp]
  tauto

theorem isVisible_root (h : (tasks.map (·.line)).Nodup) {root : Node}
    (hroot : root ∈ (ofTasks tasks).roots) :
    (ofTasks tasks).isVisible shown opened root = shown root.task := by
  have hnone : root.parent = none := by
    rw [(ofTasks_nestedByIndent h).1.roots.1, List.mem_filter, beq_iff_eq] at hroot
    exact hroot.2
  have habove : ∀ above, ¬ (ofTasks tasks).IsUnder root above := by
    intro above hunder
    obtain ⟨parent, hparent, -⟩ := Relation.TransGen.head'_iff.mp hunder
    simp [parent?, hnone] at hparent
  rw [Bool.eq_iff_iff, isVisible_iff h (mem_roots hroot)]
  simp [habove]

end Visible

/-! ## Branches along a walk -/

section Made

variable {tasks : List Task} {shown opened : Task → Bool}

/-- What a walk visits from a task that is not visible is not visible either. -/
theorem filter_isVisible_walk (h : (tasks.map (·.line)).Nodup) {depth : Nat} {node : Node}
    (hnode : node ∈ (ofTasks tasks).nodes) {all : List Node}
    (hall : (ofTasks tasks).walkFrom depth node = .ok all)
    (hhidden : (ofTasks tasks).isVisible shown opened node = false) :
    all.filter ((ofTasks tasks).isVisible shown opened) = [] := by
  rw [List.filter_eq_nil_iff]
  intro other hother
  rcases (mem_walkFrom (mutual_ofTasks h) hnode hall other).mp hother with rfl | ⟨hmem, hunder⟩
  · simp [hhidden]
  · -- all that the task is under, the other one is under
    rw [← Bool.not_eq_true, isVisible_iff h hnode] at hhidden
    rw [isVisible_iff h hmem]
    rintro ⟨-, habove⟩
    exact hhidden ⟨(habove node hunder).1, fun above h => habove above (hunder.trans h)⟩

/-- What holds between some tasks, all that a walk from them visits, and the branches
made of them. -/
structure Follows (o : Outline) (visible : Node → Bool) (starts all : List Node)
    (branches : List Branch) : Prop where
  heads : branches.map (·.task) = (starts.filter visible).map (·.task)
  listed : (Branch.listings branches).map (·.task) = (all.filter visible).map (·.task)
  under : ∀ branch ∈ Branch.listings branches, ∃ node ∈ o.nodes, branch.task = node.task ∧
    branch.children.map (·.task) =
      (o.nodes.filter fun child => visible child && child.parent == some node.line).map (·.task)

theorem Follows.nil {o : Outline} {visible : Node → Bool} : Follows o visible [] [] [] where
  heads := rfl
  listed := rfl
  under := by simp [Branch.listings]

theorem Follows.cons_hidden {o : Outline} {visible : Node → Bool} {start : Node}
    {part starts all : List Node} {branches : List Branch} (hstart : visible start = false)
    (hpart : part.filter visible = []) (h : Follows o visible starts all branches) :
    Follows o visible (start :: starts) (part ++ all) branches where
  heads := by rw [List.filter_cons_of_neg (by simp [hstart]), h.heads]
  listed := by rw [List.filter_append, hpart, List.nil_append, h.listed]
  under := h.under

theorem Follows.cons {o : Outline} {visible : Node → Bool} {start : Node}
    {part starts all : List Node} {branch : Branch} {branches : List Branch}
    (hstart : Follows o visible [start] part [branch])
    (h : Follows o visible starts all branches) :
    Follows o visible (start :: starts) (part ++ all) (branch :: branches) where
  heads := by
    have hsplit : start :: starts = [start] ++ starts := rfl
    rw [hsplit, List.filter_append, List.map_append, ← hstart.heads, ← h.heads]
    rfl
  listed := by
    have hlisted := hstart.listed
    rw [Branch.listings, Branch.listings, List.append_nil] at hlisted
    rw [Branch.listings, List.filter_append, List.map_append, List.map_append, hlisted, h.listed]
  under := by
    intro other hother
    rw [Branch.listings, List.mem_append] at hother
    rcases hother with hother | hother
    · exact hstart.under other (by rwa [Branch.listings, Branch.listings, List.append_nil])
    · exact h.under other hother

/-- Branches are made of the visible ones of some tasks if they are made of each. -/
theorem exists_branches (h : (tasks.map (·.line)).Nodup) {depth : Nat} {starts : List Node}
    (hstarts : ∀ start ∈ starts, start ∈ (ofTasks tasks).nodes) {parts : List (List Node)}
    (hparts : starts.mapM ((ofTasks tasks).walkFrom depth) = .ok parts)
    (hmade : ∀ start ∈ (ofTasks tasks).nodes, ∀ part,
      (ofTasks tasks).walkFrom depth start = .ok part →
      (ofTasks tasks).isVisible shown opened start = true →
      ∃ branch, (ofTasks tasks).branchFrom shown opened depth start = .ok branch ∧
        Follows (ofTasks tasks) ((ofTasks tasks).isVisible shown opened) [start] part [branch]) :
    ∃ branches, (starts.filter ((ofTasks tasks).isVisible shown opened)).mapM
        ((ofTasks tasks).branchFrom shown opened depth) = .ok branches ∧
      Follows (ofTasks tasks) ((ofTasks tasks).isVisible shown opened) starts parts.flatten
        branches := by
  simp only [mapM_eq_ok_iff] at hparts ⊢
  induction hparts with
  | nil => exact ⟨[], .nil, .nil⟩
  | @cons start part starts parts hpart _ ih =>
    obtain ⟨hstart, hstarts⟩ := List.forall_mem_cons.mp hstarts
    obtain ⟨branches, hbranches, hfollows⟩ := ih hstarts
    cases hvisible : (ofTasks tasks).isVisible shown opened start with
    | false =>
      rw [List.filter_cons_of_neg (by simp [hvisible])]
      exact ⟨branches, hbranches,
        hfollows.cons_hidden hvisible (filter_isVisible_walk h hstart hpart hvisible)⟩
    | true =>
      obtain ⟨branch, hbranch, hfirst⟩ := hmade start hstart part hpart hvisible
      rw [List.filter_cons_of_pos hvisible]
      exact ⟨branch :: branches, .cons hbranch hbranches, hfirst.cons hfollows⟩

/-- A branch is made of a visible task as deep as a walk from it goes. -/
theorem exists_branchFrom (h : (tasks.map (·.line)).Nodup) {depth : Nat} {node : Node}
    (hnode : node ∈ (ofTasks tasks).nodes) {all : List Node}
    (hall : (ofTasks tasks).walkFrom depth node = .ok all)
    (hvisible : (ofTasks tasks).isVisible shown opened node = true) :
    ∃ branch, (ofTasks tasks).branchFrom shown opened depth node = .ok branch ∧
      Follows (ofTasks tasks) ((ofTasks tasks).isVisible shown opened) [node] all [branch] := by
  induction depth generalizing node all with
  | zero => simp [walkFrom] at hall
  | succ depth ih =>
    rw [walkFrom, tasksFor_subtasks hnode] at hall
    dsimp only at hall
    cases hparts : ((ofTasks tasks).subtasks node).mapM ((ofTasks tasks).walkFrom depth) with
    | error e => simp [hparts] at hall
    | ok parts =>
      simp only [hparts, Except.ok.injEq] at hall
      have hbelow : (if opened node.task then
            ((ofTasks tasks).subtasks node).filter (shown ·.task) else []) =
          ((ofTasks tasks).subtasks node).filter ((ofTasks tasks).isVisible shown opened) := by
        have hchild : ∀ child ∈ (ofTasks tasks).subtasks node,
            (ofTasks tasks).isVisible shown opened child =
              (opened node.task && shown child.task) := fun child hchild => by
          rw [isVisible_child h hnode hchild, hvisible, Bool.true_and]
        rw [List.filter_congr hchild]
        cases opened node.task <;> simp
      have hknown : ∀ child ∈ (ofTasks tasks).subtasks node, child ∈ (ofTasks tasks).nodes := by
        rw [subtasks_eq h hnode]
        exact fun child hchild => (List.mem_filter.mp hchild).1
      obtain ⟨children, hchildren, hfollows⟩ := exists_branches h hknown hparts
        fun start hstart part hpart hvisible => ih hstart hpart hvisible
      refine ⟨.node node.task children, ?_, ?_⟩
      · rw [branchFrom, hbelow, hchildren]
      · constructor
        case heads => rw [List.filter_cons_of_pos hvisible]; rfl
        case listed =>
          rw [← hall, List.filter_cons_of_pos hvisible, List.map_cons, ← hfollows.listed,
            Branch.listings, Branch.listings, List.append_nil, Branch.listing]
          rfl
        case under =>
          rw [Branch.listings, Branch.listings, List.append_nil, Branch.listing, List.forall_mem_cons]
          refine ⟨⟨node, hnode, rfl, ?_⟩, hfollows.under⟩
          rw [Branch.children, hfollows.heads, subtasks_eq h hnode, List.filter_filter]

/-- The branches of an outline are its visible tasks. -/
theorem branches_shows (h : (tasks.map (·.line)).Nodup) (shown opened : Task → Bool) :
    ∃ branches, (ofTasks tasks).branches shown opened = .ok branches ∧
      Shows (ofTasks tasks) ((ofTasks tasks).isVisible shown opened) branches := by
  obtain ⟨-, hwalk, hroots, -, -, -, hlines⟩ := flatten_ofTasks h
  rw [flatten, hroots] at hwalk
  dsimp only [walk] at hwalk
  cases hparts : (ofTasks tasks).roots.mapM
      ((ofTasks tasks).walkFrom ((ofTasks tasks).nodes.length + 1)) with
  | error e => simp [hparts] at hwalk
  | ok parts =>
    simp only [hparts, Except.ok.injEq] at hwalk
    obtain ⟨branches, hbranches, hfollows⟩ := @exists_branches _ shown opened h _ _
      (fun root hroot => mem_roots hroot) _ hparts
      fun start hstart part hpart hvisible => exists_branchFrom h hstart hpart hvisible
    have hlisted := hfollows.listed
    rw [hwalk] at hlisted
    refine ⟨branches, ?_, hlisted, ?_, ?_, hfollows.under⟩
    · rw [Outline.branches, ← hbranches]
      exact congrArg _ (List.filter_congr fun root hroot => (isVisible_root h hroot).symm)
    · have hline := congrArg (List.map (·.line)) hlisted
      rw [List.map_map, List.map_map] at hline
      exact hline ▸ hlines.sublist (List.filter_sublist.map _)
    · rw [hfollows.heads, (ofTasks_nestedByIndent h).1.roots.1, List.filter_filter]

end Made

/-- **The branches of an outline are its tasks that are not hidden and are under no
hidden task**, each once and in the order of the document, and under each of them are
those that are nested directly under it. With the hidden ones, they are all tasks. -/
theorem fullBranches_shows {tasks : List Task} (h : (tasks.map (·.line)).Nodup) :
    (∀ withHidden, ∃ branches, (ofTasks tasks).fullBranches withHidden = .ok branches ∧
      Shows (ofTasks tasks) ((ofTasks tasks).isVisible (isShown withHidden) fun _ => true)
        branches ∧
      (withHidden = true → (Branch.listings branches).map (·.task) = tasks)) ∧
    (ofTasks tasks).nodes.map (·.task) = tasks ∧
    ∀ node ∈ (ofTasks tasks).nodes,
      (ofTasks tasks).isVisible (isShown false) (fun _ => true) node = true ↔
        node.task.isHidden = false ∧
          ∀ above, (ofTasks tasks).IsUnder node above → above.task.isHidden = false := by
  have htasks := (ofTasks_nestedByIndent h).1.tasks_eq
  refine ⟨fun withHidden => ?_, htasks, fun node hnode => ?_⟩
  · obtain ⟨branches, hbranches, hshows⟩ :=
      branches_shows h (isShown withHidden) fun _ => true
    refine ⟨branches, hbranches, hshows, fun hall => ?_⟩
    have hvisible : ∀ node ∈ (ofTasks tasks).nodes,
        (ofTasks tasks).isVisible (isShown withHidden) (fun _ => true) node = true := by
      intro node hnode
      rw [isVisible_iff h hnode]
      simp [isShown, hall]
    rw [hshows.listed, List.filter_eq_self.mpr hvisible, htasks]
  · rw [isVisible_iff h hnode]
    simp [isShown]

/-- A hidden task between a task that is shown and one that would be, a task behind it
that is shown again, and a hidden one on the top level. -/
theorem fullBranches_shows_between :
    (let hidden : List (Located Field) := [⟨⟨0, 3⟩, .hidden⟩]
    let tasks : List Task := [{ line := 7, raw := [] },
      { line := 2, raw := [], indent := .level 1, fields := hidden },
      { line := 9, raw := [], indent := .level 2 },
      { line := 4, raw := [], indent := .level 1 },
      { line := 5, raw := [], fields := hidden },
      { line := 6, raw := [], indent := .level 3 }]
    let o := ofTasks tasks
    (tasks.map (·.line)).Nodup ∧
    ∃ branches, o.fullBranches false = .ok branches ∧
      Shows o (o.isVisible (isShown false) fun _ => true) branches ∧
      (Branch.listings branches).map (·.task.line) = [7, 4]) := by
  intro hidden tasks o
  have hdistinct : (tasks.map (·.line)).Nodup := by decide
  obtain ⟨branches, hbranches, hshows, -⟩ := (fullBranches_shows hdistinct).1 false
  refine ⟨hdistinct, branches, hbranches, hshows, ?_⟩
  have hlines := congrArg (List.map (·.line)) hshows.listed
  rw [List.map_map] at hlines
  exact hlines.trans (by decide)

end Outline

end TaskList
