/-
TaskList.Proofs.Outline.Ancestry — going up from a task and going down from
another one come to the same.

* `Outline.IsUnder` — a task is nested under another one, however deep.
  `mem_ancestorsIn` finds such tasks on the way up, along the parents, and
  `mem_nested` on the way down, where the links of tasks to those under them
  are their parents turned around (`Outline.Mutual`).
* `Outline.exists_parent` — the parent of a task stands above it and is one
  level less deep, so the way up ends (`exists_chain`).
* `Outline.Ancestry` — what the two ways give, said with the depths of the
  lines only. `Outline.ofTasks_ancestry` says that an outline is like that.
-/
import Mathlib.Logic.Relation
import TaskList.Proofs.Outline.Block
import TaskList.Proofs.Reading

namespace TaskList.Outline

/-! ## Being nested under a task -/

/-- A task is nested under another one: it is the parent, or the parent is
nested under it. -/
def IsUnder (o : Outline) : Node → Node → Prop :=
  Relation.TransGen fun node above => o.parent? node = some above

section Ways

variable {o : Outline}

/-- On the way up are the tasks that a task is nested under. -/
theorem mem_ancestorsIn {steps : Nat} {node : Node} {chain : List Node}
    (h : o.ancestorsIn steps node = .ok chain) (above : Node) :
    above ∈ chain ↔ o.IsUnder node above := by
  induction steps generalizing node chain with
  | zero => simp [ancestorsIn] at h
  | succ steps ih =>
    rw [ancestorsIn] at h
    rw [IsUnder, Relation.TransGen.head'_iff]
    cases hparent : o.parent? node with
    | none =>
      simp only [hparent, Except.ok.injEq] at h
      simp [← h]
    | some parent =>
      rw [hparent] at h
      cases hmore : o.ancestorsIn steps parent with
      | error e => simp [hmore] at h
      | ok more =>
        simp only [hmore, Except.ok.injEq] at h
        simp only [← h, List.mem_cons, ih hmore, Option.some.injEq, exists_eq_left',
          Relation.reflTransGen_iff_eq_or_transGen]
        rfl

/-- The tasks that are linked under a task are those whose parent it is. -/
def Mutual (o : Outline) : Prop :=
  ∀ node ∈ o.nodes, ∀ children, o.tasksFor node.subtasks = .ok children →
    ∀ child, child ∈ children ↔ child ∈ o.nodes ∧ o.parent? child = some node

theorem mem_of_parent? {node parent : Node} (h : o.parent? node = some parent) :
    parent ∈ o.nodes := by
  obtain ⟨line, -, hget⟩ := Option.bind_eq_some_iff.mp h
  exact List.mem_reverse.mp (List.mem_of_find?_eq_some hget)

/-- A task is nested under another one when that is its parent, or when a task
between them has that one for its parent. -/
theorem isUnder_iff {node above : Node} (hnode : node ∈ o.nodes) :
    o.IsUnder node above ↔ ∃ child, (child ∈ o.nodes ∧ o.parent? child = some above) ∧
      (node = child ∨ o.IsUnder node child) := by
  rw [IsUnder, Relation.TransGen.tail'_iff]
  refine exists_congr fun child => ?_
  rw [Relation.reflTransGen_iff_eq_or_transGen, eq_comm]
  have hchild : (node = child ∨ o.IsUnder node child) → child ∈ o.nodes := by
    rintro (rfl | hunder)
    · exact hnode
    · obtain ⟨_, -, hparent⟩ := Relation.TransGen.tail'_iff.mp hunder
      exact mem_of_parent? hparent
  constructor
  · rintro ⟨hunder, hparent⟩
    exact ⟨⟨hchild hunder, hparent⟩, hunder⟩
  · rintro ⟨⟨-, hparent⟩, hunder⟩
    exact ⟨hunder, hparent⟩

/-- What walks from the tasks under a task visit is nested under it, if that
is so of each of them. -/
theorem mem_flatten_walks (hlinks : o.Mutual) {depth : Nat}
    (hwalk : ∀ child ∈ o.nodes, ∀ visited, o.walkFrom depth child = .ok visited →
      ∀ other, other ∈ visited ↔ other = child ∨ other ∈ o.nodes ∧ o.IsUnder other child)
    {node : Node} (hnode : node ∈ o.nodes) {children : List Node}
    (hchildren : o.tasksFor node.subtasks = .ok children) {parts : List (List Node)}
    (hparts : children.mapM (o.walkFrom depth) = .ok parts) (other : Node) :
    other ∈ parts.flatten ↔ other ∈ o.nodes ∧ o.IsUnder other node := by
  have hread := mapM_eq_ok_iff.mp hparts
  have hchild := hlinks node hnode children hchildren
  rw [List.mem_flatten]
  constructor
  · rintro ⟨part, hpart, hother⟩
    obtain ⟨child, hmem, hvisited⟩ := exists_of_forall₂ hread hpart
    obtain ⟨hknown, hparent⟩ := (hchild child).mp hmem
    have hplace := (hwalk child hknown part hvisited other).mp hother
    have hotherMem : other ∈ o.nodes := by
      rcases hplace with rfl | ⟨hotherMem, -⟩
      · exact hknown
      · exact hotherMem
    exact ⟨hotherMem, (isUnder_iff hotherMem).mpr
      ⟨child, ⟨hknown, hparent⟩, hplace.imp_right And.right⟩⟩
  · rintro ⟨hother, hunder⟩
    obtain ⟨child, hplaced, hplace⟩ := (isUnder_iff hother).mp hunder
    obtain ⟨part, hpart, hvisited⟩ := exists_of_forall₂ hread.flip ((hchild child).mpr hplaced)
    exact ⟨part, hpart,
      (hwalk child hplaced.1 part hvisited other).mpr (hplace.imp_right fun h => ⟨hother, h⟩)⟩

/-- A walk from a task visits it and what is nested under it. -/
theorem mem_walkFrom (hlinks : o.Mutual) {depth : Nat} {node : Node} (hnode : node ∈ o.nodes)
    {visited : List Node} (h : o.walkFrom depth node = .ok visited) (other : Node) :
    other ∈ visited ↔ other = node ∨ other ∈ o.nodes ∧ o.IsUnder other node := by
  induction depth generalizing node visited other with
  | zero => simp [walkFrom] at h
  | succ depth ih =>
    rw [walkFrom] at h
    cases hchildren : o.tasksFor node.subtasks with
    | error e => simp [hchildren] at h
    | ok children =>
      rw [hchildren] at h
      dsimp only at h
      cases hparts : children.mapM (o.walkFrom depth) with
      | error e => simp [hparts] at h
      | ok parts =>
        simp only [hparts, Except.ok.injEq] at h
        have hwalks := mem_flatten_walks hlinks (fun _ hchild _ hvisited => ih hchild hvisited)
          hnode hchildren hparts other
        rw [← h, List.mem_cons, hwalks]

/-- On the way down are the lines of the tasks that are nested under a
task. -/
theorem mem_nested (hlinks : o.Mutual) {above : Node} (habove : above ∈ o.nodes)
    {below : List Int} (h : o.nested above = .ok below) (line : Int) :
    line ∈ below ↔ ∃ node, (node ∈ o.nodes ∧ o.IsUnder node above) ∧ node.line = line := by
  rw [nested] at h
  cases hchildren : o.tasksFor above.subtasks with
  | error e => simp [hchildren] at h
  | ok children =>
    rw [hchildren] at h
    dsimp only [walk] at h
    cases hparts : children.mapM (o.walkFrom (o.nodes.length + 1)) with
    | error e => simp [hparts] at h
    | ok parts =>
      simp only [hparts, Except.ok.injEq] at h
      have hwalks := mem_flatten_walks hlinks (fun _ hchild _ => mem_walkFrom hlinks hchild)
        habove hchildren hparts
      simp only [← h, List.mem_map, hwalks]

end Ways

/-! ## The links of an outline -/

section Links

variable {tasks : List Task}

theorem get?_of_mem (h : (tasks.map (·.line)).Nodup) {node : Node}
    (hnode : node ∈ (ofTasks tasks).nodes) : (ofTasks tasks).get? node.line = some node := by
  rw [nodes_ofTasks] at hnode
  obtain ⟨task, htask, rfl⟩ := List.mem_map.mp hnode
  exact get?_ofTasks h htask

/-- Where lines are different, the parent of a task is the one whose line it
names. -/
theorem parent?_eq_some_iff (h : (tasks.map (·.line)).Nodup) {node above : Node}
    (habove : above ∈ (ofTasks tasks).nodes) :
    (ofTasks tasks).parent? node = some above ↔ node.parent = some above.line := by
  rw [parent?]
  cases node.parent with
  | none => simp
  | some line =>
    rw [Option.bind_some, Option.some.injEq]
    refine ⟨fun hget => ?_, fun hline => by rw [hline, get?_of_mem h habove]⟩
    have hline := List.find?_some (show _ = some above from hget)
    exact (beq_iff_eq.mp hline).symm

theorem mutual_ofTasks (h : (tasks.map (·.line)).Nodup) : (ofTasks tasks).Mutual := by
  intro node hnode children hchildren child
  rw [nodes_ofTasks] at hnode
  obtain ⟨task, htask, rfl⟩ := List.mem_map.mp hnode
  have hmem : linked tasks task ∈ (ofTasks tasks).nodes :=
    nodes_ofTasks tasks ▸ List.mem_map_of_mem htask
  rw [subtasks_linked, childLines_places h] at hchildren
  have hfound := filterMap_of_tasksFor hchildren
  rw [filterMap_get?_lines fun other hother => get?_of_mem h (List.mem_filter.mp hother).1]
    at hfound
  rw [← hfound, List.mem_filter, parent?_eq_some_iff h hmem, beq_iff_eq]
  rfl

/-- A task is nested under none, on the top level, or its parent stands above
it and is one level less deep. -/
theorem exists_parent (h : (tasks.map (·.line)).Nodup) {i : Nat} {node : Node}
    (hnode : (ofTasks tasks).nodes[i]? = some node) :
    (node.parent = none ∧ node.level = 0) ∨
    ∃ j < i, ∃ above, (ofTasks tasks).nodes[j]? = some above ∧
      node.parent = some above.line ∧ node.level = above.level + 1 := by
  obtain ⟨p, hp, htask, -, hparent, hlevel⟩ := exists_place h hnode
  have hopen : ∀ task ∈ ([] : List Task), task.line ∈ ([] : List Place).map (·.line) := by simp
  obtain ⟨hroot, hunder⟩ := level_placesFrom hopen h (List.mem_of_getElem? hp)
  rw [hparent, hlevel]
  have hlast := parent_placesFrom .first [] hp htask
  cases hless : lastLess node.task.indent ([] ++ tasks.take i) with
  | none =>
    rw [hless, Option.map_none] at hlast
    exact .inl ⟨hlast, hroot hlast⟩
  | some task =>
    rw [hless, Option.map_some] at hlast
    -- the last task that is indented less stands above
    have hmem := (List.mem_filter.mp (List.mem_of_getLast? hless)).1
    rw [List.nil_append] at hmem
    obtain ⟨j, hj, hjtask⟩ := List.mem_take_iff_getElem.mp hmem
    obtain ⟨hji, hlt⟩ := Nat.lt_min.mp hj
    have habove : (ofTasks tasks).nodes[j]? = some (linked tasks task) := by
      rw [nodes_ofTasks, List.getElem?_map, List.getElem?_eq_getElem hlt, hjtask, Option.map_some]
    obtain ⟨q, hq, -, hline, -, hlevel'⟩ := exists_place h habove
    rw [linked_line] at hline
    refine .inr ⟨j, hji, linked tasks task, habove, hlast, ?_⟩
    rw [hlevel']
    exact hunder q (List.mem_of_getElem? hq) (by rw [hlast, hline])

end Links

/-! ## The way up -/

/-- What a chain of parents is: each task of it is the one that the task in
front of it names as its parent, the last one names none, and the levels go
down one by one. -/
structure IsChainOf (o : Outline) (node : Node) (chain : List Node) : Prop where
  known : ∀ above ∈ chain, above ∈ o.nodes
  parents : (node :: chain).map (·.parent) = chain.map (fun above => some above.line) ++ [none]
  levels : (node :: chain).map (·.level) = (List.range (node.level + 1)).reverse

/-- The way up from a task ends: it has fewer steps than there are tasks above
the task. -/
theorem exists_chain {tasks : List Task} (h : (tasks.map (·.line)).Nodup) {i : Nat} {node : Node}
    (hnode : (ofTasks tasks).nodes[i]? = some node) {steps : Nat} (hsteps : i < steps) :
    ∃ chain, (ofTasks tasks).ancestorsIn steps node = .ok chain ∧
      IsChainOf (ofTasks tasks) node chain := by
  induction i using Nat.strongRecOn generalizing node steps with
  | ind i ih =>
    obtain ⟨steps, rfl⟩ : ∃ left, steps = left + 1 := ⟨steps - 1, by omega⟩
    rw [ancestorsIn]
    rcases exists_parent h hnode with ⟨hparent, hlevel⟩ | ⟨j, hj, above, habove, hparent, hlevel⟩
    · have hnone : (ofTasks tasks).parent? node = none := by rw [parent?, hparent, Option.bind_none]
      rw [hnone]
      exact ⟨[], rfl, by simp, by simp [hparent], by simp [hlevel]⟩
    · have hmem := List.mem_of_getElem? habove
      obtain ⟨chain, hchain, hknown, hparents, hlevels⟩ :=
        ih j hj habove (show j < steps by omega)
      rw [(parent?_eq_some_iff h hmem).mpr hparent]
      dsimp only
      rw [hchain]
      refine ⟨above :: chain, rfl, ?_, ?_, ?_⟩
      · exact List.forall_mem_cons.mpr ⟨hmem, hknown⟩
      · rw [List.map_cons, hparents, hparent, List.map_cons, List.cons_append]
      · rw [List.map_cons, hlevels, hlevel, List.range_succ (n := above.level + 1),
          List.reverse_concat]

/-! ## Both ways -/

/-- What the way up from a task and the way down from it give, in an outline
of some tasks. -/
structure Ancestry (tasks : List Task) (o : Outline) : Prop where
  tasks_eq : o.nodes.map (·.task) = tasks
  /-- The way up ends, and it is the chain of parents. -/
  up : ∀ node ∈ o.nodes, ∃ chain, o.ancestors node = .ok chain ∧ IsChainOf o node chain
  /-- The way down passes tasks right behind a task, each of them once. Where
  depths can be measured, they end in front of the first one that is not
  deeper. -/
  down : ∀ i node, o.nodes[i]? = some node → ∃ below,
    o.nested node = .ok (below.map (·.line)) ∧ (below.map (·.line)).Nodup ∧
    below <+: tasks.drop (i + 1) ∧
    ((∀ task ∈ tasks, task.indent ≠ .unmeasured) →
      below = (tasks.drop (i + 1)).takeWhile fun other => node.task.indent.isLess other.indent)
  /-- One task is on the way down from another one when that is on the way up
  from it. -/
  opposite : ∀ above ∈ o.nodes, ∀ node ∈ o.nodes, ∃ below chain,
    o.nested above = .ok below ∧ o.ancestors node = .ok chain ∧
    (node.line ∈ below ↔ above ∈ chain)

/-- What is nested under a task comes right behind it, and it is its block
where depths can be measured. -/
theorem exists_below {tasks : List Task} (h : (tasks.map (·.line)).Nodup) {i : Nat} {node : Node}
    (hnode : (ofTasks tasks).nodes[i]? = some node) :
    ∃ below, (ofTasks tasks).nested node = .ok (below.map (·.line)) ∧
      below <+: tasks.drop (i + 1) ∧
      ((∀ task ∈ tasks, task.indent ≠ .unmeasured) →
        below =
          (tasks.drop (i + 1)).takeWhile fun other => node.task.indent.isLess other.indent) := by
  rw [nodes_ofTasks, List.getElem?_map, Option.map_eq_some_iff] at hnode
  obtain ⟨task, htask, rfl⟩ := hnode
  obtain ⟨hi, htask⟩ := List.getElem?_eq_some_iff.mp htask
  have hsplit : tasks = tasks.take i ++ task :: tasks.drop (i + 1) := by
    rw [← htask, ← List.drop_eq_getElem_cons hi, List.take_append_drop]
  have hreached := Reached.first h
  rw [hsplit] at hreached
  have hafter := hreached.after
  rw [← hsplit] at hafter
  obtain ⟨below, behind, -, -, hrest, hnested, -, -⟩ := hafter.exists_nested h
  have hprefix : below <+: tasks.drop (i + 1) := ⟨behind, hrest.symm⟩
  refine ⟨below, hnested, hprefix, fun hmeasured => ?_⟩
  -- both are the first of the tasks behind it, and there are as many of them
  have hblock := (BlockAt.of_measured hsplit h hmeasured).nested_eq
  rw [hnested, Except.ok.injEq] at hblock
  have hlength := congrArg List.length hblock
  rw [List.length_map, List.length_map] at hlength
  exact (List.prefix_of_prefix_length_le hprefix (List.takeWhile_prefix _)
    (Nat.le_of_eq hlength)).eq_of_length hlength

/-- **The way up and the way down.** Where lines are different, the parents of
a task are a chain that ends on the top level, what is nested under a task is
the block of deeper lines right below it, and the two say the same. -/
theorem ofTasks_ancestry {tasks : List Task} (h : (tasks.map (·.line)).Nodup) :
    Ancestry tasks (ofTasks tasks) ∧ ∀ m n, (Depth.level m).isLess (.level n) = true ↔ m < n := by
  have hup : ∀ node ∈ (ofTasks tasks).nodes, ∃ chain,
      (ofTasks tasks).ancestors node = .ok chain ∧ IsChainOf (ofTasks tasks) node chain := by
    intro node hnode
    obtain ⟨i, hi⟩ := List.mem_iff_getElem?.mp hnode
    have hlt := (List.getElem?_eq_some_iff.mp hi).1
    exact exists_chain h hi (by omega)
  refine ⟨?_, fun m n => by rw [Depth.isLess_level, decide_eq_true_iff]⟩
  constructor
  case tasks_eq =>
    rw [nodes_ofTasks, List.map_map]
    exact List.map_id tasks
  case up => exact hup
  case down =>
    intro i node hnode
    obtain ⟨below, hnested, hbelow, hmeasured⟩ := exists_below h hnode
    refine ⟨below, hnested, ?_, hbelow, hmeasured⟩
    exact h.sublist ((hbelow.sublist.trans (List.drop_sublist _ _)).map _)
  case opposite =>
    intro above habove node hnode
    obtain ⟨i, hi⟩ := List.mem_iff_getElem?.mp habove
    obtain ⟨below, hnested, -, -⟩ := exists_below h hi
    obtain ⟨chain, hchain, -⟩ := hup node hnode
    refine ⟨_, chain, hnested, hchain, ?_⟩
    rw [mem_nested (mutual_ofTasks h) habove hnested, mem_ancestorsIn hchain]
    constructor
    · rintro ⟨other, ⟨hother, hunder⟩, hline⟩
      -- a line stands for one task
      have hsame := get?_of_mem h hother
      rw [hline, get?_of_mem h hnode, Option.some.injEq] at hsame
      exact hsame ▸ hunder
    · exact fun hunder => ⟨node, ⟨hnode, hunder⟩, rfl⟩

/-- A line that is two levels too deep, one back between the levels above it
with a deeper one, and one back at the first. -/
theorem ofTasks_ancestry_between :
    ([3, 8, 5, 1, 6] : List Int).Nodup ∧
    (let tasks : List Task := [{ line := 3, raw := [], indent := .level 1 },
      { line := 8, raw := [], indent := .level 4 }, { line := 5, raw := [], indent := .level 2 },
      { line := 1, raw := [], indent := .level 6 }, { line := 6, raw := [], indent := .level 1 }]
    let o := ofTasks tasks
    Ancestry tasks o ∧
      o.nodes.map (fun node => (o.ancestors node).map (·.map fun above => (above.line, above.level)))
        = [.ok [], .ok [(3, 0)], .ok [(3, 0)], .ok [(5, 1), (3, 0)], .ok []] ∧
      o.nodes.map o.nested = [.ok [8, 5, 1], .ok [], .ok [1], .ok [], .ok []]) := by
  refine ⟨by decide, (ofTasks_ancestry (by decide)).1, ?_, ?_⟩
  · rfl
  · rfl

end TaskList.Outline
