/-
TaskList.Proofs.Outline.Circles — when the ways through an outline end, also where line
numbers repeat.

* `Outline.Holds`, `Outline.LiesIn` — how line numbers are nested, said with the depths
  of the lines only. Every task of a number counts for what is nested under it, and only
  the last one for what it is nested under itself.
* `Outline.mem_subtasks`, `Outline.parent?_eq_some` — the links of an outline are these
  numbers, so the way down and the way up are ways along them (`isWay_down`, `isWay_up`).
* `Outline.exists_rootLine` — every number is nested under one on the top level. So a
  walk from the top comes to every circle that there is.
* `Outline.ofTasks_circles` — the ways end exactly if numbers are not nested in a circle,
  which they never are where they are different. Where they repeat they can be:
  `ofTasks_ownParent`.
-/
import TaskList.Proofs.Outline.Nearest
import TaskList.Proofs.Outline.Walk
import TaskList.Proofs.Outline.Ways
import TaskList.Proofs.Reading

namespace TaskList.Outline

/-! ## Nested numbers -/

/-- A line number holds another one: for some task of that one, the last task above it
that is indented less has the number. -/
def Holds (tasks : List Task) (above line : Int) : Prop :=
  ∃ i task, tasks[i]? = some task ∧ task.line = line ∧
    (lastLess task.indent (tasks.take i)).map (·.line) = some above

/-- A line number lies in another one: that one holds the last task of the number. -/
def LiesIn (tasks : List Task) (line above : Int) : Prop :=
  ∃ i task, tasks[i]? = some task ∧ task.line = line ∧
    (∀ j > i, ∀ other, tasks[j]? = some other → other.line ≠ line) ∧
    (lastLess task.indent (tasks.take i)).map (·.line) = some above

section Nested

variable {tasks : List Task}

theorem LiesIn.holds {line above : Int} (h : LiesIn tasks line above) : Holds tasks above line := by
  obtain ⟨i, task, htask, hline, -, habove⟩ := h
  exact ⟨i, task, htask, hline, habove⟩

/-- A circle on the way up is one on the way down. -/
theorem isCircular_holds (h : IsCircular (LiesIn tasks)) : IsCircular (Holds tasks) := by
  obtain ⟨line, hline⟩ := h
  exact ⟨line, Relation.transGen_swap.mp
    (Relation.TransGen.mono (r := LiesIn tasks) (fun _ _ hlies => hlies.holds) _ _ hline)⟩

/-- What holds a number stands above it. -/
theorem Holds.exists_lt {above line : Int} (h : Holds tasks above line) :
    ∃ i j : Nat, i < j ∧ (tasks.map (·.line))[i]? = some above ∧
      (tasks.map (·.line))[j]? = some line := by
  obtain ⟨j, task, htask, rfl, habove⟩ := h
  obtain ⟨parent, hparent, rfl⟩ := Option.map_eq_some_iff.mp habove
  have hmem := (List.mem_filter.mp (List.mem_of_getLast? hparent)).1
  obtain ⟨i, hi, rfl⟩ := List.mem_take_iff_getElem.mp hmem
  obtain ⟨hij, hlt⟩ := Nat.lt_min.mp hi
  exact ⟨i, j, hij, by simp [hlt], by simp [htask]⟩

/-- Where line numbers are different, they are not nested in a circle. -/
theorem not_isCircular_holds (h : (tasks.map (·.line)).Nodup) : ¬ IsCircular (Holds tasks) :=
  not_isCircular_of_lt h fun _ _ => Holds.exists_lt

/-! ## Links where numbers repeat -/

/-- Each place is that of a task. -/
theorem places_getElem? {i : Nat} {p : Place} (hp : (places tasks)[i]? = some p) :
    ∃ task, tasks[i]? = some task ∧ p.line = task.line ∧
      p.parent = (lastLess task.indent (tasks.take i)).map (·.line) := by
  have hlines := congrArg (·[i]?) (placesFrom_lines [] [] tasks)
  change ((places tasks).map (·.line))[i]? = _ at hlines
  simp only [List.getElem?_map, hp, Option.map_some] at hlines
  obtain ⟨task, htask, hline⟩ := Option.map_eq_some_iff.mp hlines.symm
  exact ⟨task, htask, hline.symm, parent_placesFrom .first [] hp htask⟩

theorem exists_places_getElem? {i : Nat} {task : Task} (htask : tasks[i]? = some task) :
    ∃ p, (places tasks)[i]? = some p ∧ p.line = task.line ∧
      p.parent = (lastLess task.indent (tasks.take i)).map (·.line) := by
  have hi : i < (places tasks).length := by
    rw [places, length_placesFrom]
    exact (List.getElem?_eq_some_iff.mp htask).1
  obtain ⟨task', htask', hplace⟩ := places_getElem? (List.getElem?_eq_getElem hi)
  rw [htask, Option.some.injEq] at htask'
  exact ⟨_, List.getElem?_eq_getElem hi, htask' ▸ hplace⟩

/-- The lines under a line are those of the tasks whose last task above that is indented
less has the line. -/
theorem mem_childLines_places {parent : Option Int} {line : Int} :
    line ∈ childLines (places tasks) parent ↔ ∃ i task, tasks[i]? = some task ∧
      task.line = line ∧ (lastLess task.indent (tasks.take i)).map (·.line) = parent := by
  constructor
  · intro h
    obtain ⟨p, hp, rfl⟩ := List.mem_map.mp h
    obtain ⟨hmem, hparent⟩ := List.mem_filter.mp hp
    obtain ⟨i, hi⟩ := List.mem_iff_getElem?.mp hmem
    obtain ⟨task, htask, hline, hless⟩ := places_getElem? hi
    exact ⟨i, task, htask, hline.symm, hless.symm.trans (by simpa using hparent)⟩
  · rintro ⟨i, task, htask, rfl, hless⟩
    obtain ⟨p, hp, hline, hparent⟩ := exists_places_getElem? htask
    refine List.mem_map.mpr ⟨p, List.mem_filter.mpr ⟨List.mem_of_getElem? hp, ?_⟩, hline⟩
    simp [hparent, hless]

/-- The last place of a number is that of its last task. -/
theorem exists_last {line : Int} {p : Place}
    (h : (places tasks).reverse.find? (·.line == line) = some p) :
    ∃ (i : Nat) (task : Task), tasks[i]? = some task ∧ (places tasks)[i]? = some p ∧
      task.line = line ∧ ∀ j > i, ∀ other, tasks[j]? = some other → other.line ≠ line := by
  obtain ⟨hline, behind, front, hsplit, hbehind⟩ := List.find?_eq_some_iff_append.mp h
  rw [List.reverse_eq_iff, List.reverse_append, List.reverse_cons, List.append_assoc,
    List.singleton_append] at hsplit
  have hp : (places tasks)[front.length]? = some p := by
    rw [hsplit, List.getElem?_append_right (by simp)]
    simp
  obtain ⟨task, htask, htaskLine, -⟩ := places_getElem? hp
  refine ⟨front.length, task, htask, hp, by rw [← htaskLine, ← beq_iff_eq.mp hline], ?_⟩
  intro j hj other hother heq
  obtain ⟨q, hq, hqline, -⟩ := exists_places_getElem? hother
  -- its place is one of those behind
  obtain ⟨k, rfl⟩ : ∃ k, j = front.length + (k + 1) := ⟨j - front.length - 1, by omega⟩
  rw [hsplit, List.getElem?_append_right (by simp)] at hq
  simp only [List.length_reverse, Nat.add_sub_cancel_left, List.getElem?_cons_succ] at hq
  have hmem := List.mem_reverse.mp (List.mem_of_getElem? hq)
  have := hbehind q hmem
  simp [hqline, heq] at this

/-- The parent of a task is what the last task of its number lies in. -/
theorem parent_linked {task : Task} (htask : task ∈ tasks) {above : Int} :
    (linked tasks task).parent = some above ↔ LiesIn tasks task.line above := by
  change ((places tasks).reverse.find? (·.line == task.line)).bind (·.parent) = some above ↔ _
  obtain ⟨i, hi⟩ := List.mem_iff_getElem?.mp htask
  obtain ⟨p, hp, hline, -⟩ := exists_places_getElem? hi
  cases hfind : (places tasks).reverse.find? (·.line == task.line) with
  | none =>
    have hnone := List.find?_eq_none.mp hfind p (List.mem_reverse.mpr (List.mem_of_getElem? hp))
    simp [hline] at hnone
  | some last =>
    obtain ⟨n, lastTask, hlast, hplace, hlastLine, hbehind⟩ := exists_last hfind
    obtain ⟨found, hfound, -, hparent⟩ := places_getElem? hplace
    obtain rfl := Option.some.inj (hlast.symm.trans hfound)
    rw [Option.bind_some, hparent]
    constructor
    · exact fun habove => ⟨n, lastTask, hlast, hlastLine, hbehind, habove⟩
    · rintro ⟨m, other, hother, hotherLine, hnone, habove⟩
      -- there is only one last task of a number
      have hsame : m = n := by
        rcases Nat.lt_trichotomy m n with hlt | heq | hlt
        · exact absurd hlastLine (hnone n hlt lastTask hlast)
        · exact heq
        · exact absurd hotherLine (hbehind m hlt other hother)
      obtain rfl := hsame
      rw [hlast, Option.some.injEq] at hother
      rw [hother]
      exact habove

end Nested

/-! ## The way up -/

section Ways

variable {tasks : List Task}

theorem nodes_lines (tasks : List Task) :
    (ofTasks tasks).nodes.map (·.line) = tasks.map (·.line) := by
  rw [nodes_ofTasks, List.map_map]
  rfl

/-- Nested numbers are those of tasks. -/
theorem Holds.mem {above line : Int} (h : Holds tasks above line) :
    above ∈ (ofTasks tasks).nodes.map (·.line) ∧ line ∈ (ofTasks tasks).nodes.map (·.line) := by
  obtain ⟨i, j, -, hi, hj⟩ := h.exists_lt
  rw [nodes_lines]
  exact ⟨List.mem_of_getElem? hi, List.mem_of_getElem? hj⟩

/-- The parent of a task is the one that stands for what its number lies in. -/
theorem parent?_eq_some {node parent : Node} (hnode : node ∈ (ofTasks tasks).nodes) :
    (ofTasks tasks).parent? node = some parent ↔
      LiesIn tasks node.line parent.line ∧ (ofTasks tasks).get? parent.line = some parent := by
  rw [nodes_ofTasks] at hnode
  obtain ⟨task, htask, rfl⟩ := List.mem_map.mp hnode
  rw [parent?, Option.bind_eq_some_iff]
  constructor
  · rintro ⟨line, hparent, hget⟩
    obtain ⟨-, rfl⟩ := mem_of_get? hget
    exact ⟨(parent_linked htask).mp hparent, hget⟩
  · exact fun ⟨hlies, hget⟩ => ⟨parent.line, (parent_linked htask).mpr hlies, hget⟩

/-- The way up, along the parents. -/
theorem isWay_up (tasks : List Task) :
    IsWay (ofTasks tasks) (fun node above => (ofTasks tasks).parent? node = some above)
      (LiesIn tasks) fun steps node => ∃ chain, (ofTasks tasks).ancestorsIn steps node = .ok chain where
  stored hstep := by
    obtain ⟨line, -, hget⟩ := Option.bind_eq_some_iff.mp hstep
    exact (mem_of_get? hget).2.symm ▸ hget
  along hnode hstep := ((parent?_eq_some hnode).mp hstep).1
  taken hnode hlies := by
    obtain ⟨parent, hget⟩ := exists_get? hlies.holds.mem.1
    obtain ⟨-, rfl⟩ := mem_of_get? hget
    exact ⟨parent, (parent?_eq_some hnode).mpr ⟨hlies, hget⟩, rfl⟩
  known hlies := hlies.holds.mem.2
  ends_zero node := by simp [ancestorsIn]
  ends_succ := by
    intro steps node _
    rw [ancestorsIn]
    cases (ofTasks tasks).parent? node with
    | none => simp
    | some parent =>
      dsimp only
      cases hmore : (ofTasks tasks).ancestorsIn steps parent <;> simp [hmore]

/-! ## The way down -/

theorem exists_tasksFor {o : Outline} {lines : List Int}
    (h : ∀ line ∈ lines, (o.get? line).isSome = true) :
    o.tasksFor lines = .ok (lines.filterMap o.get?) := by
  induction lines with
  | nil => rfl
  | cons line lines ih =>
    obtain ⟨hline, hlines⟩ := List.forall_mem_cons.mp h
    obtain ⟨node, hnode⟩ := Option.isSome_iff_exists.mp hline
    rw [tasksFor_cons hnode, ih hlines, List.filterMap_cons_some hnode]
    rfl

/-- What is nested directly under a task is found. -/
theorem tasksFor_subtasks {node : Node} (hnode : node ∈ (ofTasks tasks).nodes) :
    (ofTasks tasks).tasksFor node.subtasks = .ok ((ofTasks tasks).subtasks node) := by
  rw [nodes_ofTasks] at hnode
  obtain ⟨task, -, rfl⟩ := List.mem_map.mp hnode
  rw [subtasks]
  refine exists_tasksFor fun line hline => ?_
  rw [subtasks_linked] at hline
  exact get?_childLines_isSome hline

theorem tasksFor_rootLines (tasks : List Task) :
    (ofTasks tasks).tasksFor (ofTasks tasks).rootLines = .ok (ofTasks tasks).roots := by
  rw [roots]
  refine exists_tasksFor fun line hline => ?_
  rw [rootLines_ofTasks] at hline
  exact get?_childLines_isSome hline

/-- The tasks directly under a task are those that stand for what its number holds. -/
theorem mem_subtasks {node child : Node} (hnode : node ∈ (ofTasks tasks).nodes) :
    child ∈ (ofTasks tasks).subtasks node ↔
      Holds tasks node.line child.line ∧ (ofTasks tasks).get? child.line = some child := by
  rw [nodes_ofTasks] at hnode
  obtain ⟨task, -, rfl⟩ := List.mem_map.mp hnode
  rw [subtasks, List.mem_filterMap, subtasks_linked]
  constructor
  · rintro ⟨line, hline, hget⟩
    obtain ⟨-, rfl⟩ := mem_of_get? hget
    exact ⟨mem_childLines_places.mp hline, hget⟩
  · exact fun ⟨hholds, hget⟩ => ⟨child.line, mem_childLines_places.mpr hholds, hget⟩

/-- The way down, along all that is nested directly under a task. -/
theorem isWay_down (tasks : List Task) :
    IsWay (ofTasks tasks) (fun node child => child ∈ (ofTasks tasks).subtasks node)
      (Holds tasks) fun depth node => ∃ all, (ofTasks tasks).walkFrom depth node = .ok all where
  stored hstep := by
    obtain ⟨line, -, hget⟩ := List.mem_filterMap.mp hstep
    exact (mem_of_get? hget).2.symm ▸ hget
  along hnode hstep := ((mem_subtasks hnode).mp hstep).1
  taken hnode hholds := by
    obtain ⟨child, hget⟩ := exists_get? hholds.mem.2
    obtain ⟨-, rfl⟩ := mem_of_get? hget
    exact ⟨child, (mem_subtasks hnode).mpr ⟨hholds, hget⟩, rfl⟩
  known hholds := hholds.mem.1
  ends_zero node := by simp [walkFrom]
  ends_succ := by
    intro depth node hnode
    rw [walkFrom, tasksFor_subtasks hnode]
    dsimp only
    rw [← exists_mapM]
    cases ((ofTasks tasks).subtasks node).mapM ((ofTasks tasks).walkFrom depth) <;> simp

/-! ## Walks from the top -/

/-- Every number is nested under one on the top level, or is one. -/
theorem exists_rootLine {i : Nat} {task : Task} (htask : tasks[i]? = some task) :
    ∃ root ∈ (ofTasks tasks).rootLines, Relation.ReflTransGen (Holds tasks) root task.line := by
  induction i using Nat.strongRecOn generalizing task with
  | ind i ih =>
    rw [rootLines_ofTasks] at ih ⊢
    cases hless : lastLess task.indent (tasks.take i) with
    | none =>
      exact ⟨task.line, mem_childLines_places.mpr ⟨i, task, htask, rfl, by simp [hless]⟩, .refl⟩
    | some parent =>
      -- the parent stands above it
      have hmem := (List.mem_filter.mp (List.mem_of_getLast? hless)).1
      obtain ⟨j, hj, hparent⟩ := List.mem_take_iff_getElem.mp hmem
      obtain ⟨hji, hlt⟩ := Nat.lt_min.mp hj
      obtain ⟨root, hroot, hunder⟩ := ih j hji (List.getElem?_eq_some_iff.mpr ⟨hlt, hparent⟩)
      exact ⟨root, hroot, hunder.tail ⟨i, task, htask, rfl, by simp [hless]⟩⟩

theorem mem_roots {root : Node} (h : root ∈ (ofTasks tasks).roots) :
    root ∈ (ofTasks tasks).nodes := by
  obtain ⟨line, -, hget⟩ := List.mem_filterMap.mp h
  exact (mem_of_get? hget).1

/-- If the ways down from the top end, all do. -/
theorem not_isCircular_of_roots {depth : Nat}
    (h : ∀ root ∈ (ofTasks tasks).roots, ∃ all, (ofTasks tasks).walkFrom depth root = .ok all) :
    ¬ IsCircular (Holds tasks) := by
  have hway := isWay_down tasks
  rw [hway.isCircular_iff]
  rintro ⟨node, hnode, hback⟩
  have hline := List.mem_map_of_mem (f := (·.line)) hnode
  rw [nodes_lines] at hline
  obtain ⟨task, htask, hsame⟩ := List.mem_map.mp hline
  obtain ⟨i, hi⟩ := List.mem_iff_getElem?.mp htask
  obtain ⟨rootLine, hroot, hunder⟩ := exists_rootLine hi
  obtain ⟨root, hget⟩ := Option.isSome_iff_exists.mp
    (get?_childLines_isSome (rootLines_ofTasks tasks ▸ hroot))
  obtain ⟨hknown, rfl⟩ := mem_of_get? hget
  have hends := h root (List.mem_filterMap.mpr ⟨_, hroot, hget⟩)
  rw [hsame] at hunder
  -- the circle lies on the way down from the top
  have hcircle := (hway.transGen_lines hnode hback).1
  obtain ⟨other, hsteps, hother⟩ := hway.transGen_nodes hknown (.trans_right hunder hcircle)
  obtain ⟨left, -, hleft⟩ := hway.ends_of_transGen hknown hends hsteps
  have hstored := (hway.transGen_lines hknown hsteps).2
  have hstored' := (hway.transGen_lines hnode hback).2
  rw [hother, hstored', Option.some.injEq] at hstored
  exact hway.not_transGen_of_ends hnode (hstored ▸ hleft) hback

/-- A walk by levels is a walk with a stack, with one step for each task that is
visited. -/
theorem visit_of_walkFrom {o : Outline} {depth left : Nat} {start stack more : List Node}
    {parts : List (List Node)} (hstart : start.mapM (o.walkFrom depth) = .ok parts)
    (hmore : o.visit left stack = .ok more) :
    o.visit (parts.flatten.length + left) (start ++ stack) = .ok (parts.flatten ++ more) := by
  have hread := mapM_eq_ok_iff.mp hstart
  clear hstart
  induction depth generalizing start stack more parts left with
  | zero =>
    cases hread with
    | nil => simpa using hmore
    | cons hnode _ => simp [walkFrom] at hnode
  | succ depth ih =>
    induction hread with
    | nil => simpa using hmore
    | @cons node part start parts hnode hrest ihrest =>
      rw [walkFrom] at hnode
      cases hsubtasks : o.tasksFor node.subtasks with
      | error e => simp [hsubtasks] at hnode
      | ok subtasks =>
        rw [hsubtasks] at hnode
        dsimp only at hnode
        cases hbelow : subtasks.mapM (o.walkFrom depth) with
        | error e => simp [hbelow] at hnode
        | ok below =>
          simp only [hbelow, Except.ok.injEq] at hnode
          -- first what is under the task, then the tasks beside it
          have hunder := ih ihrest (mapM_eq_ok_iff.mp hbelow)
          rw [← hnode, List.flatten_cons, List.cons_append, List.cons_append, List.length_cons,
            List.length_append]
          rw [show below.flatten.length + parts.flatten.length + 1 + left =
            (below.flatten.length + (parts.flatten.length + left)) + 1 by omega, visit, hsubtasks]
          dsimp only
          rw [hunder]
          simp

theorem exists_walk {o : Outline} {start : List Node} :
    (∃ all, o.walk start = .ok all) ↔
      ∀ node ∈ start, ∃ all, o.walkFrom (o.nodes.length + 1) node = .ok all := by
  rw [walk, ← exists_mapM]
  cases start.mapM (o.walkFrom (o.nodes.length + 1)) <;> simp

theorem exists_flatten (tasks : List Task) :
    (∃ all, (ofTasks tasks).flatten = .ok all) ↔ ∀ root ∈ (ofTasks tasks).roots,
      ∃ all, (ofTasks tasks).walkFrom ((ofTasks tasks).nodes.length + 1) root = .ok all := by
  rw [flatten, tasksFor_rootLines]
  exact exists_walk

theorem exists_nested_iff {node : Node} (hnode : node ∈ (ofTasks tasks).nodes) :
    (∃ below, (ofTasks tasks).nested node = .ok below) ↔
      ∀ child ∈ (ofTasks tasks).subtasks node,
        ∃ all, (ofTasks tasks).walkFrom ((ofTasks tasks).nodes.length + 1) child = .ok all := by
  rw [nested, tasksFor_subtasks hnode]
  dsimp only
  rw [← exists_walk]
  cases (ofTasks tasks).walk ((ofTasks tasks).subtasks node) <;> simp

/-! ## Circles -/

/-- **The ways through an outline end** exactly if line numbers are not nested in a circle:
the way down from every task, the walk from the top, with and without a bound on its steps,
and the way up from every task. Where numbers are different, they are not nested in a
circle. -/
theorem ofTasks_circles (tasks : List Task) :
    [¬ IsCircular (Holds tasks),
      ∀ node ∈ (ofTasks tasks).nodes, ¬ Relation.TransGen
        (fun node child => child ∈ (ofTasks tasks).subtasks node) node node,
      ∀ node ∈ (ofTasks tasks).nodes, ∃ below, (ofTasks tasks).nested node = .ok below,
      ∃ all, (ofTasks tasks).flatten = .ok all,
      ∃ steps all, (ofTasks tasks).visit steps (ofTasks tasks).roots = .ok all].TFAE ∧
    [¬ IsCircular (LiesIn tasks),
      ∀ node ∈ (ofTasks tasks).nodes, ¬ Relation.TransGen
        (fun node above => (ofTasks tasks).parent? node = some above) node node,
      ∀ node ∈ (ofTasks tasks).nodes, ∃ chain, (ofTasks tasks).ancestors node = .ok chain].TFAE ∧
    (IsCircular (LiesIn tasks) → IsCircular (Holds tasks)) ∧
    ((tasks.map (·.line)).Nodup → ¬ IsCircular (Holds tasks)) := by
  have hway := isWay_down tasks
  refine ⟨?_, (isWay_up tasks).tfae, isCircular_holds, not_isCircular_holds⟩
  tfae_have 1 ↔ 2 := hway.tfae.out 0 1
  have hends := hway.tfae.out 0 2
  tfae_have 1 → 3 := by
    intro hcircle node hnode
    exact (exists_nested_iff hnode).mpr fun child hchild =>
      hends.mp hcircle child (hway.mem_next hchild)
  tfae_have 3 → 2 := by
    intro hnested node hnode hback
    -- the next task lies on the circle too
    obtain ⟨child, hchild, hrest⟩ := Relation.TransGen.head'_iff.mp hback
    exact hway.not_transGen_of_ends (hway.mem_next hchild)
      ((exists_nested_iff hnode).mp (hnested node hnode) child hchild) (.tail' hrest hchild)
  tfae_have 1 → 4 := fun hcircle =>
    (exists_flatten tasks).mpr fun root hroot => hends.mp hcircle root (mem_roots hroot)
  tfae_have 4 → 5 := by
    intro hflatten
    obtain ⟨parts, hparts⟩ := exists_mapM.mpr ((exists_flatten tasks).mp hflatten)
    have hvisit : (ofTasks tasks).visit _ ((ofTasks tasks).roots ++ []) = .ok (_ ++ []) :=
      visit_of_walkFrom hparts (show (ofTasks tasks).visit 0 [] = .ok [] from rfl)
    rw [List.append_nil] at hvisit
    exact ⟨_, _, hvisit⟩
  tfae_have 5 → 1 := by
    rintro ⟨steps, all, hvisit⟩
    rw [← List.append_nil (ofTasks tasks).roots] at hvisit
    obtain ⟨parts, -, -, -, -, -, hparts⟩ := walkFrom_of_visit hvisit
    exact not_isCircular_of_roots (exists_mapM.mp ⟨parts, hparts steps (Nat.le_refl steps)⟩)
  tfae_finish

/-- A number that repeats without a circle: its last task lies in another number than the
first, and holds what was nested under the first. -/
theorem ofTasks_circles_repeated :
    (let tasks : List Task := [{ line := 4, raw := [], indent := .level 0 },
      { line := 7, raw := [], indent := .level 1 }, { line := 2, raw := [], indent := .level 2 },
      { line := 5, raw := [], indent := .level 0 }, { line := 7, raw := [], indent := .level 3 }]
    let o := ofTasks tasks
    o.nodes.map (fun node => (node.line, node.parent, node.subtasks)) =
      [(4, none, [7]), (7, some 5, [2]), (2, some 7, []), (5, none, [7]), (7, some 5, [2])] ∧
    (∀ node ∈ o.nodes, ∃ below, o.nested node = .ok below) ∧
    (∀ node ∈ o.nodes, ∃ chain, o.ancestors node = .ok chain) ∧
    o.flatten.map (·.map (·.line)) = .ok [4, 7, 2, 5, 7, 2]) ∧
    ([3, 8] : List Int).Nodup ∧ ¬ IsCircular (Holds [{ line := 3, raw := [], indent := .level 0 },
      { line := 8, raw := [], indent := .level 1 }]) := by
  refine ⟨?_, by decide, (ofTasks_circles _).2.2.2 (by decide)⟩
  intro tasks o
  have hflatten : ∃ all, o.flatten = .ok all := ⟨_, rfl⟩
  obtain ⟨hdown, hup, hboth, -⟩ := ofTasks_circles tasks
  have hcircle : ¬ IsCircular (Holds tasks) := (hdown.out 0 3).mpr hflatten
  exact ⟨rfl, (hdown.out 0 2).mp hcircle, (hup.out 0 2).mp (mt hboth hcircle), rfl⟩

/-- **A task can be its own parent** where two tasks have one line number. -/
theorem ofTasks_ownParent :
    (let o := ofTasks [{ line := 0, raw := [], indent := .level 0 },
      { line := 0, raw := [], indent := .level 1 }]
    ∃ node ∈ o.nodes, o.get? node.line = some node ∧ o.parent? node = some node ∧
      o.subtasks node = [node] ∧ o.ancestors node = .error .endless ∧
      o.nested node = .error .endless ∧ o.flatten = .error .endless) :=
  ⟨_, List.mem_of_getElem? (i := 1) rfl, rfl, rfl, rfl, rfl, rfl, rfl⟩

end Ways

end TaskList.Outline
