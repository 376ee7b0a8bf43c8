/-
TaskList.View.Groups — the groups of an outline as a list.

* `GroupItem` — a group and the lines of its tasks.
* `Outline.groupItems` — the groups of one kind in the order asked for.
  Groups that compare equal stay in the order in which they first appear.
* `Outline.listItems` — the same for a kind that may turn out to be no
  group at all.
-/
import TaskList.Outline.Basic
import TaskList.Settings.Basic
import TaskList.Text.LowerCase

namespace TaskList

/-- A group and the lines of its tasks. -/
structure GroupItem where
  /-- The kind of group. -/
  group : Group
  /-- Its name. -/
  title : Text
  /-- The lines of its tasks. -/
  lines : List Int
  deriving DecidableEq, Repr

namespace GroupItem

/-- The number of tasks in the group. -/
def count (item : GroupItem) : Nat := item.lines.length

/-- May one item stand before another? -/
def precedes (order : GroupOrder) (a b : GroupItem) : Bool :=
  match order with
  | .alphabetic => !decide (b.title.lower < a.title.lower)
  | .count => decide (b.count ≤ a.count)

end GroupItem

/-- What a list of an outline can be made of: groups of one kind, or the
tasks themselves. -/
inductive ItemKind where
  | group (group : Group)
  | task
  deriving DecidableEq, Repr

/-- What a word asks a list to be made of. -/
def ItemKind.ofName? (word : String) : Option ItemKind :=
  if word == "task" then some .task else (Group.ofName? word).map .group

/-- Tasks were asked for where only groups can be listed. -/
structure NotGroups where
  deriving DecidableEq, Repr

/-- What is said when tasks are asked for. -/
def NotGroups.message (_ : NotGroups) : String := "TreeItemKind.TASK_NODE is not a group kind"

/-- The groups of one kind in the order asked for. -/
def Outline.groupItems (o : Outline) (group : Group) (order : GroupOrder) : List GroupItem :=
  ((o.index group).map fun entry => ⟨group, entry.1, entry.2⟩).mergeSort
    (GroupItem.precedes order)

/-- The list of a kind of items, which must be groups. -/
def Outline.listItems (o : Outline) (kind : ItemKind) (order : GroupOrder) :
    Except NotGroups (List GroupItem) :=
  match kind with
  | .group group => .ok (o.groupItems group order)
  | .task => .error {}

end TaskList
