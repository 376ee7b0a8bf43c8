/-
TaskList.Outline.Basic — the tasks of a document, nested by indentation.

* `Outline.ofTasks` — the outline of a list of tasks. The parent of a task
  is the last task above it that is indented less; its level is one more
  than the parent's, however deep the line is indented.
* `Outline.get?`, `Outline.parent?`, `Outline.subtasks` — one step along
  the links between tasks, which are line numbers.
* `Outline.walk`, `Outline.nested`, `Outline.ancestors` — all steps. They
  fail with `OutlineError.endless` where the links come back to a task,
  which can only happen when two tasks have one line number. A walk that
  comes to a number without a task fails with `OutlineError.missing`.
* `Outline.index` — which tasks belong to which groups.

Where a line number repeats, the last task with it stands for the number.

Tasks are nested to any depth, and all steps are walked however many there
are. The limit of a call stack is left out.
-/
import TaskList.Task

namespace TaskList

/-- A task in its place. -/
structure Node where
  /-- The task. -/
  task : Task
  /-- How many tasks it is nested under. -/
  level : Nat
  /-- The line of the task that it is nested under. -/
  parent : Option Int
  /-- The lines of the tasks nested directly under it, from top to
  bottom. -/
  subtasks : List Int
  deriving DecidableEq, Repr

namespace Node

/-- The line of the task. -/
def line (node : Node) : Int := node.task.line

end Node

/-- The tasks of a document, nested by indentation. -/
structure Outline where
  /-- All tasks from top to bottom. -/
  nodes : List Node := []
  /-- The lines of the tasks that are nested under no other. -/
  rootLines : List Int := []
  deriving DecidableEq, Repr

/-- Why a way through an outline leads nowhere. -/
inductive OutlineError where
  /-- No task has the line number. -/
  | missing (line : Int)
  /-- The links come back to where they started. -/
  | endless
  deriving DecidableEq, Repr

/-- What is said of a way that leads nowhere. -/
def OutlineError.message : OutlineError → String
  | .missing line => toString line
  | .endless => "maximum recursion depth exceeded"

namespace Outline

/-! ## Nesting -/

/-- Where a task goes. -/
structure Place where
  /-- The line of the task. -/
  line : Int
  /-- The line of its parent. -/
  parent : Option Int
  /-- How many tasks it is nested under. -/
  level : Nat
  deriving DecidableEq, Repr

/-- The level of the last task placed with a line number. -/
def levelOf (placed : List Place) (line : Int) : Nat :=
  ((placed.find? (·.line == line)).map (·.level)).getD 0

/-- Where a task goes when `above` are the tasks that are still open for
it, the innermost first. -/
def placeUnder (above : List Task) (placed : List Place) (task : Task) : Place :=
  match above with
  | [] => ⟨task.line, none, 0⟩
  | parent :: _ => ⟨task.line, some parent.line, levelOf placed parent.line + 1⟩

/-- The tasks still open for a line of some depth: from the innermost one
that is not at least as deep. -/
def openFor (indent : Depth) (above : List Task) : List Task :=
  above.dropWhile fun task => task.indent.atLeast indent

/-- The places of further tasks, the last one first, in front of those
already placed. -/
def place (above : List Task) (placed : List Place) : List Task → List Place
  | [] => placed
  | task :: rest =>
    let stillOpen := openFor task.indent above
    place (task :: stillOpen) (placeUnder stillOpen placed task :: placed) rest

/-- A task in the last place that was given to its line number, with all
tasks placed under that number. -/
def node (placed : List Place) (task : Task) : Node where
  task := task
  level := levelOf placed task.line
  parent := (placed.find? (·.line == task.line)).bind (·.parent)
  subtasks := (placed.reverse.filter (·.parent == some task.line)).map (·.line)

/-- The outline of a list of tasks. -/
def ofTasks (tasks : List Task) : Outline :=
  let placed := place [] [] tasks
  { nodes := tasks.map (node placed)
    rootLines := (placed.reverse.filter (·.parent == none)).map (·.line) }

/-! ## One step -/

/-- The task that stands for a line number. -/
def get? (o : Outline) (line : Int) : Option Node := o.nodes.reverse.find? (·.line == line)

/-- The tasks that stand for line numbers, all of which must be known. -/
def tasksFor (o : Outline) (lines : List Int) : Except OutlineError (List Node) :=
  lines.mapM fun line =>
    match o.get? line with
    | some node => .ok node
    | none => .error (.missing line)

/-- The tasks that are nested under no other. -/
def roots (o : Outline) : List Node := o.rootLines.filterMap o.get?

/-- The tasks nested directly under a task. -/
def subtasks (o : Outline) (node : Node) : List Node := node.subtasks.filterMap o.get?

/-- The task that a task is nested under. -/
def parent? (o : Outline) (node : Node) : Option Node := node.parent.bind o.get?

/-- The tasks that satisfy a condition, from top to bottom. -/
def filter (o : Outline) (keep : Node → Bool) : List Node := o.nodes.filter keep

/-! ## All steps -/

/-- The chain of parents of a task, at most `steps` long. -/
def ancestorsIn (o : Outline) : Nat → Node → Except OutlineError (List Node)
  | 0, _ => .error .endless
  | steps + 1, node =>
    match o.parent? node with
    | none => .ok []
    | some parent =>
      match o.ancestorsIn steps parent with
      | .error e => .error e
      | .ok more => .ok (parent :: more)

/-- The parents of a task, closest first. -/
def ancestors (o : Outline) (node : Node) : Except OutlineError (List Node) :=
  o.ancestorsIn (o.nodes.length + 1) node

/-- A task and all that is nested under it, at most `depth` levels deep, a
task before what is under it. -/
def walkFrom (o : Outline) : Nat → Node → Except OutlineError (List Node)
  | 0, _ => .error .endless
  | depth + 1, node =>
    match o.tasksFor node.subtasks with
    | .error e => .error e
    | .ok subtasks =>
      match subtasks.mapM (o.walkFrom depth) with
      | .error e => .error e
      | .ok below => .ok (node :: below.flatten)

/-- Some tasks and all that is nested under them, from top to bottom. -/
def walk (o : Outline) (start : List Node) : Except OutlineError (List Node) :=
  match start.mapM (o.walkFrom (o.nodes.length + 1)) with
  | .error e => .error e
  | .ok parts => .ok parts.flatten

/-- All tasks that can be reached from the roots, from top to bottom. -/
def flatten (o : Outline) : Except OutlineError (List Node) :=
  match o.tasksFor o.rootLines with
  | .error e => .error e
  | .ok roots => o.walk roots

/-- The lines of all tasks nested under a task. -/
def nested (o : Outline) (node : Node) : Except OutlineError (List Int) :=
  match o.tasksFor node.subtasks with
  | .error e => .error e
  | .ok subtasks =>
    match o.walk subtasks with
    | .error e => .error e
    | .ok below => .ok (below.map (·.line))

/-! ## Groups -/

/-- The lines of the tasks that belong to a group, from top to bottom. -/
def members (o : Outline) (group : Group) (name : Text) : List Int :=
  (o.nodes.filter fun node => name ∈ node.task.names group).map (·.line)

/-- One more line under a name; a name that is not there yet comes last. -/
def listUnder (line : Int) (name : Text) : List (Text × List Int) → List (Text × List Int)
  | [] => [(name, [line])]
  | entry :: rest =>
    if entry.1 = name then (name, entry.2 ++ [line]) :: rest
    else entry :: listUnder line name rest

/-- Each group of a kind with the lines of its tasks: the line of each task
in turn is put under the names that the task has. -/
def index (o : Outline) (group : Group) : List (Text × List Int) :=
  o.nodes.foldl (fun entries node => (node.task.names group).foldl (fun more name =>
    listUnder node.line name more) entries) []

end Outline

end TaskList
