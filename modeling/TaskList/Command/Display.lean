/-
TaskList.Command.Display — what is shown of tasks, edits and states, with
style marks in square brackets.

* `Display` — a line, a tree or a table.
* `Task.display` — a task on one line: whether it is done, its priority and
  title, its groups, its counter, when it is due and when it was missed.
* `Display.ofOutline`, `Display.ofDueList`, `Display.ofGroups` — whole
  views.
-/
import TaskList.Edit.Basic
import TaskList.Text.Quoted
import TaskList.View.Branch
import TaskList.View.DueList
import TaskList.View.Groups

namespace TaskList

/-- A tree of labels. -/
inductive LabelTree where
  | node (label : Text) (children : List LabelTree)

/-- Something to be shown. -/
inductive Display where
  | line (text : Text)
  | tree (root : LabelTree)
  | table (title : Text) (columns : List Text) (rows : List (List Text))

/-- A text in a style. -/
def styled (style : String) (t : Text) : Text :=
  '[' :: style.toList ++ ']' :: t ++ '[' :: '/' :: style.toList ++ [']']

namespace Due.State

/-- The style of a state. -/
def style : State → String
  | .due => "green"
  | .overdue => "red"
  | .invalid => "magenta"
  | .notDue => "dim"

/-- The words for a state. -/
def label : State → Text
  | .due => "due".toList
  | .overdue => "overdue".toList
  | .invalid => "invalid".toList
  | .notDue => "not due".toList

end Due.State

/-- The number of a line as a person counts, from one. -/
def lineLabel (line : Int) : Text := Numeral.ofInt (line + 1)

namespace Task

/-- The groups of one kind, if there are any. -/
def displayGroups (task : Task) (group : Group) (style : String) : List Text :=
  match task.names group with
  | [] => []
  | names => [styled style (Text.joined [' '] (names.map (group.mark :: ·)))]

/-- The parts that a task is shown in. -/
def displayParts (task : Task) : List Text :=
  [if task.isDone then styled "green" ['✔'] else ['○']] ++
  (task.letter?.map fun letter => styled "yellow" ['(', letter, ')']).toList ++
  [if task.isDone then styled "strike" task.title else task.title] ++
  task.displayGroups .project "blue" ++
  task.displayGroups .context "cyan" ++
  task.displayGroups .tag "cyan" ++
  (task.count?.map fun count =>
    styled "dim" (Numeral.ofNat count.value.current ++ '/' ::
      Numeral.ofNat count.value.needed)).toList ++
  (task.due?.map fun due =>
    styled due.value.state.style
      (due.value.state.label ++ ':' :: ' ' :: due.value.expression.raw)).toList ++
  (task.overdue?.map fun since =>
    styled "red" ("missed ".toList ++ since.value.padded)).toList

/-- The task on one line. -/
def display (task : Task) : Text := Text.joined [' '] task.displayParts

end Task

mutual

/-- The label of a branch with those under it. -/
def Branch.labels : Branch → LabelTree
  | .node task children =>
    .node (styled "dim" (lineLabel task.line) ++ ' ' :: task.display) (Branch.allLabels children)

/-- The labels of some branches. -/
def Branch.allLabels : List Branch → List LabelTree
  | [] => []
  | branch :: rest => branch.labels :: Branch.allLabels rest

end

namespace Display

/-- A line in a style. -/
def note (style : String) (t : String) : Display := .line (styled style t.toList)

/-- The tree of an outline, hidden tasks included on request. -/
def ofOutline (o : Outline) (withHidden : Bool) : Except OutlineError Display :=
  if o.rootLines.isEmpty then .ok (note "yellow" "No tasks found.")
  else match o.foldedBranches withHidden with
    | .error e => .error e
    | .ok branches =>
      .ok (.tree (.node (styled "bold" (Numeral.ofNat o.nodes.length ++ " tasks".toList))
        (Branch.allLabels branches)))

/-- One row of the list of what is due. -/
def dueRow (node : Node) : List Text :=
  match node.task.due? with
  | some due =>
    [lineLabel node.line, node.task.title, due.value.expression.raw,
      styled due.value.state.style due.value.state.label]
  | none => [lineLabel node.line, node.task.title, [], []]

/-- A title with the number of rows under it. -/
def titled (t : Text) (rows : List (List Text)) : Text :=
  t ++ ' ' :: '(' :: Numeral.ofNat rows.length ++ [')']

/-- The list of what is due. -/
def ofDueList (o : Outline) : Display :=
  match o.dueList.map dueRow with
  | [] => note "green" "Nothing is due today."
  | rows =>
    .table (titled "Due".toList rows)
      ["Line".toList, "Task".toList, "Due".toList, "State".toList] rows

/-- The number of tasks in each group of a kind. -/
def ofGroups (o : Outline) (group : Group) (order : GroupOrder) : Display :=
  match (o.groupItems group order).map fun item => [item.title, Numeral.ofNat item.count] with
  | [] => note "yellow" s!"No {group.name}s found."
  | rows =>
    .table (titled (group.name ++ "s").toList rows)
      [group.name.capitalize.toList, "Tasks".toList] rows

/-- An edit, with the way in which its text is shown. -/
def ofEdit (e : Edit) (shown : Text) : Display :=
  .line (styled "dim" (lineLabel e.line) ++ ' ' :: e.kind.name.toList ++ ' ' :: shown)

end Display

end TaskList
