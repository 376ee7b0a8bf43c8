/-
TaskList.Proofs.View.Groups — the groups of an outline in the order asked for.

* `GroupItem.InOrder`, `GroupItem.ties` — may one item stand in front of another, and
  does the order not tell them apart?
* `Outline.Arranges` — what is promised of a list of groups: an item for each entry, in
  order, with entries that the order does not tell apart as they were.
* `Outline.groups_listed` — the index of an outline and its lists of groups keep what is
  promised.
-/
import TaskList.Proofs.Outline.Grouped
import TaskList.Proofs.Sorting
import TaskList.View.Groups

namespace TaskList

namespace GroupItem

/-- May one item stand in front of another? -/
def InOrder (order : GroupOrder) (a b : GroupItem) : Prop :=
  match order with
  | .alphabetic => ¬ b.title.lower < a.title.lower
  | .count => b.lines.length ≤ a.lines.length

/-- Does the order not tell two items apart? -/
def ties (order : GroupOrder) (a b : GroupItem) : Bool :=
  match order with
  | .alphabetic => a.title.lower == b.title.lower
  | .count => a.lines.length == b.lines.length

variable {order : GroupOrder} {a b c : GroupItem}

theorem precedes_iff : precedes order a b = true ↔ InOrder order a b := by
  cases order with
  | alphabetic => simp [precedes, InOrder]
  | count => exact decide_eq_true_iff

theorem precedes_trans (order : GroupOrder) (a b c : GroupItem) (hab : precedes order a b)
    (hbc : precedes order b c) : precedes order a c := by
  rw [precedes_iff] at hab hbc ⊢
  cases order with
  | alphabetic =>
    rw [InOrder, List.not_lt] at hab hbc ⊢
    exact List.le_trans hab hbc
  | count => exact Nat.le_trans hbc hab

theorem precedes_total (order : GroupOrder) (a b : GroupItem) :
    precedes order a b || precedes order b a := by
  rw [Bool.or_eq_true, precedes_iff, precedes_iff]
  cases order with
  | alphabetic =>
    rw [InOrder, InOrder, List.not_lt, List.not_lt]
    exact List.le_total _ _
  | count => exact Nat.le_total _ _

/-- Items that are tied to one item may stand in either order. -/
theorem precedes_of_ties (ha : ties order c a = true) (hb : ties order c b = true) :
    precedes order a b = true := by
  rw [precedes_iff]
  cases order with
  | alphabetic =>
    have heq : a.title.lower = b.title.lower := (eq_of_beq ha).symm.trans (eq_of_beq hb)
    rw [InOrder, heq]
    exact List.lt_irrefl _
  | count =>
    have heq : a.lines.length = b.lines.length := (eq_of_beq ha).symm.trans (eq_of_beq hb)
    exact Nat.le_of_eq heq.symm

end GroupItem

namespace Outline

/-- What is promised of a list of groups that is made of the entries of an index. -/
structure Arranges (group : Group) (order : GroupOrder) (entries : List (Text × List Int))
    (items : List GroupItem) : Prop where
  /-- There is one item for each entry, with its name and its lines, -/
  complete : items.Perm (entries.map fun entry => ⟨group, entry.1, entry.2⟩)
  /-- the items are in order, -/
  sorted : items.Pairwise (GroupItem.InOrder order)
  /-- and those that the order does not tell apart stay as the entries are. -/
  stable : ∀ item : GroupItem, items.filter (item.ties order) =
    (entries.map fun entry => ⟨group, entry.1, entry.2⟩).filter (item.ties order)

theorem groupItems_arranges (o : Outline) (group : Group) (order : GroupOrder) :
    Arranges group order (o.index group) (o.groupItems group order) := by
  have htrans := GroupItem.precedes_trans order
  have htotal := GroupItem.precedes_total order
  refine ⟨List.mergeSort_perm _ _, ?_, fun item => ?_⟩
  · exact (List.pairwise_mergeSort htrans htotal _).imp GroupItem.precedes_iff.mp
  · exact Sorting.filter_mergeSort htrans htotal (fun _ _ => GroupItem.precedes_of_ties) _

/-- **The groups of an outline are listed completely and in order**, where no two tasks
have one line number: the index has each name that a task carries with the lines of
the tasks that carry it, and a list of the groups has the entries of the index by
lower-case name or by falling count. -/
theorem groups_listed {tasks : List Task} (hlines : (tasks.map (·.line)).Nodup) (group : Group) :
    Lists tasks group ((ofTasks tasks).index group) ∧
      ∀ order, Arranges group order ((ofTasks tasks).index group)
        ((ofTasks tasks).groupItems group order) :=
  ⟨index_lists hlines group, groupItems_arranges _ group⟩

/-- A line that mentions a name twice, names that differ in case only, and line
numbers that do not rise. -/
theorem groups_listed_twice :
    (let mention := fun name : String => (⟨⟨0, 0⟩, .mention .tag name.toList⟩ : Located Field)
    let tasks : List Task := [
      { line := 5, raw := [], fields := [mention "b", mention "A", mention "b"] },
      { line := 9, raw := [], fields := [mention "a"] },
      { line := 2, raw := [], fields := [mention "a", mention "A"] },
      { line := 7, raw := [], fields := [mention "A"] }]
    (tasks.map (·.line)).Nodup ∧
    (ofTasks tasks).index .tag =
      [("b".toList, [5]), ("A".toList, [5, 2, 7]), ("a".toList, [9, 2])] ∧
    Lists tasks .tag ((ofTasks tasks).index .tag) ∧
    ∀ order, Arranges .tag order ((ofTasks tasks).index .tag)
      ((ofTasks tasks).groupItems .tag order)) := by
  exact ⟨by decide, by decide, groups_listed (by decide) .tag⟩

end Outline

end TaskList
