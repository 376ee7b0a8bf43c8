/-
TaskList.View.Branch — the tasks of an outline as a tree to be shown.

* `Branch` — a task and the branches under it.
* `Outline.branches` — the branches of an outline. A task that is not
  shown is left out with all that is nested under it; a task that is not
  opened is shown without it.

Branches are made to any depth. A call stack would set a limit to that; it is
left out here, unlike that of configuration documents (`Yaml.deepest`).
-/
import TaskList.Outline.Basic

namespace TaskList

/-- A task and the branches under it. -/
inductive Branch where
  | node (task : Task) (children : List Branch)

namespace Branch

/-- The task of a branch. -/
def task : Branch → Task
  | node task _ => task

/-- The branches under the task of a branch. -/
def children : Branch → List Branch
  | node _ children => children

end Branch

namespace Outline

/-- The branch of a task, at most `depth` levels deep. -/
def branchFrom (o : Outline) (shown opened : Task → Bool) :
    Nat → Node → Except OutlineError Branch
  | 0, _ => .error .endless
  | depth + 1, node =>
    let below := if opened node.task then (o.subtasks node).filter (shown ·.task) else []
    match below.mapM (o.branchFrom shown opened depth) with
    | .error e => .error e
    | .ok children => .ok (.node node.task children)

/-- The branches of an outline. -/
def branches (o : Outline) (shown opened : Task → Bool) : Except OutlineError (List Branch) :=
  (o.roots.filter (shown ·.task)).mapM (o.branchFrom shown opened (o.nodes.length + 1))

/-- Is the task shown, hidden ones included on request? -/
def isShown (withHidden : Bool) (task : Task) : Bool := withHidden || !task.isHidden

/-- The branches of all tasks that are shown, collapsed ones opened. -/
def fullBranches (o : Outline) (withHidden : Bool) : Except OutlineError (List Branch) :=
  o.branches (isShown withHidden) fun _ => true

/-- The branches of all tasks that are shown, collapsed ones closed. -/
def foldedBranches (o : Outline) (withHidden : Bool) : Except OutlineError (List Branch) :=
  o.branches (isShown withHidden) fun task => !task.isCollapsed

end Outline

end TaskList
