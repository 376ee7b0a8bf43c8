/-
TaskList.Proofs.Outline.Nearest — a task is nested under the last task above
it that is indented less.

* `Depth.isLess` — one line is indented less than another;
  `Outline.lastLess` — the last of some tasks that is.
* `Outline.SameTops` — the tasks that are open and all tasks that are passed
  have the same last task that is indented less, whatever comes next. This is
  what the stack of open tasks keeps (`SameTops.next`).
* `Outline.NestedByIndent` — what the links of an outline mean, said without
  the stack. `Outline.ofTasks_nestedByIndent` says that an outline is like
  that.
-/
import TaskList.Proofs.Outline.Links

namespace TaskList

/-! ## Comparing depths -/

namespace Depth

/-- Is one line indented less than another? A line that cannot be measured
is indented less than every line that follows. -/
def isLess (a b : Depth) : Bool := !a.atLeast b

theorem atLeast_trans {a b c : Depth} (hab : a.atLeast b = true) (hbc : b.atLeast c = true) :
    a.atLeast c = true := by
  cases a <;> cases b <;> cases c <;> simp only [atLeast, decide_eq_true_eq, Bool.false_eq_true]
    at hab hbc ⊢
  omega

theorem isLess_level (m n : Int) : (level m).isLess (level n) = decide (m < n) := by
  rw [isLess, atLeast, Bool.eq_iff_iff]
  simp

end Depth

namespace Outline

/-! ## The last task that is indented less -/

/-- The last of some tasks that is indented less than a line. -/
def lastLess (indent : Depth) (tasks : List Task) : Option Task :=
  (tasks.filter fun task => task.indent.isLess indent).getLast?

theorem lastLess_concat_of_isLess {indent : Depth} {task : Task}
    (h : task.indent.isLess indent = true) (tasks : List Task) :
    lastLess indent (tasks ++ [task]) = some task := by
  have hlast : ([task].filter fun task => task.indent.isLess indent) = [task] :=
    List.filter_cons_of_pos h
  rw [lastLess, List.filter_append, hlast, List.getLast?_concat]

theorem lastLess_append_of_atLeast {indent : Depth} {more : List Task}
    (h : ∀ task ∈ more, task.indent.atLeast indent = true) (tasks : List Task) :
    lastLess indent (tasks ++ more) = lastLess indent tasks := by
  have hmore : (more.filter fun task => task.indent.isLess indent) = [] :=
    List.filter_eq_nil_iff.mpr fun task htask => by simp [Depth.isLess, h task htask]
  rw [lastLess, List.filter_append, hmore, List.append_nil]
  rfl

theorem openFor_cons_of_atLeast {indent : Depth} {task : Task}
    (h : task.indent.atLeast indent = true) (above : List Task) :
    openFor indent (task :: above) = openFor indent above :=
  List.dropWhile_cons_of_pos h

theorem openFor_cons_of_isLess {indent : Depth} {task : Task}
    (h : task.indent.isLess indent = true) (above : List Task) :
    openFor indent (task :: above) = task :: above :=
  List.dropWhile_cons_of_neg (by simpa [Depth.isLess] using h)

/-- Tasks that a deeper line closes are closed by a line that is not so
deep too. -/
theorem openFor_openFor {indent deeper : Depth} (h : deeper.atLeast indent = true)
    (above : List Task) : openFor indent (openFor deeper above) = openFor indent above := by
  induction above with
  | nil => rfl
  | cons task above ih =>
    cases hdeeper : task.indent.atLeast deeper with
    | true =>
      rw [openFor_cons_of_atLeast hdeeper, ih,
        openFor_cons_of_atLeast (Depth.atLeast_trans hdeeper h)]
    | false => rw [openFor_cons_of_isLess (by simp [Depth.isLess, hdeeper])]

/-- The tasks that are passed and those of them that are open, the innermost
first, have the same last task that is indented less than the next line. -/
def SameTops (passed above : List Task) : Prop :=
  ∀ indent, (openFor indent above).head? = lastLess indent passed

theorem SameTops.first : SameTops [] [] := fun _ => rfl

/-- One task further. -/
theorem SameTops.next {passed above : List Task} (h : SameTops passed above) (task : Task) :
    SameTops (passed ++ [task]) (task :: openFor task.indent above) := by
  intro indent
  cases hindent : task.indent.atLeast indent with
  | true =>
    -- the task itself is closed, and what it has closed would be closed now
    rw [openFor_cons_of_atLeast hindent, openFor_openFor hindent, h indent,
      lastLess_append_of_atLeast (by simpa using hindent)]
  | false =>
    have hless : task.indent.isLess indent = true := by simp [Depth.isLess, hindent]
    rw [openFor_cons_of_isLess hless, lastLess_concat_of_isLess hless, List.head?_cons]

/-! ## Places -/

/-- Every task is placed under the last one above it that is indented
less. -/
theorem parent_placesFrom {passed above : List Task} (h : SameTops passed above)
    (placed : List Place) {tasks : List Task} {i : Nat} {p : Place} {task : Task}
    (hp : (placesFrom above placed tasks)[i]? = some p) (htask : tasks[i]? = some task) :
    p.parent = (lastLess task.indent (passed ++ tasks.take i)).map (·.line) := by
  induction tasks generalizing passed above placed i with
  | nil => simp at htask
  | cons first rest ih =>
    rw [placesFrom] at hp
    cases i with
    | zero =>
      simp only [List.getElem?_cons_zero, Option.some.injEq] at hp htask
      subst hp htask
      rw [placeUnder_parent, h first.indent, List.take_zero, List.append_nil]
    | succ i =>
      rw [List.getElem?_cons_succ] at hp htask
      rw [ih (h.next first) _ hp htask, List.take_succ_cons, List.append_assoc]
      rfl

theorem levelOf_of_mem {placed : List Place} (h : (placed.map (·.line)).Nodup) {p : Place}
    (hp : p ∈ placed) : levelOf placed p.line = p.level := by
  cases hfind : placed.find? (·.line == p.line) with
  | none => exact absurd (List.find?_eq_none.mp hfind p hp) (by simp)
  | some found =>
    have hline : found.line = p.line := by simpa using List.find?_some hfind
    have hfound : found = p :=
      List.inj_on_of_nodup_map h (List.mem_of_find?_eq_some hfind) hp hline
    rw [levelOf, hfind, hfound]
    rfl

/-- A task that is placed under none has level zero, and any other one level
more than the task that it is placed under. -/
theorem level_placesFrom {above : List Task} {placed : List Place} {tasks : List Task}
    (hopen : ∀ task ∈ above, task.line ∈ placed.map (·.line))
    (hlines : (placed.map (·.line) ++ tasks.map (·.line)).Nodup) {p : Place}
    (hp : p ∈ placesFrom above placed tasks) :
    (p.parent = none → p.level = 0) ∧
    ∀ q ∈ placed ++ placesFrom above placed tasks, p.parent = some q.line →
      p.level = q.level + 1 := by
  induction tasks generalizing above placed with
  | nil => simp [placesFrom] at hp
  | cons task rest ih =>
    rw [placesFrom] at hp ⊢
    rcases List.mem_cons.mp hp with rfl | hp
    · cases hstill : openFor task.indent above with
      | nil => exact ⟨fun _ => rfl, fun q _ hq => by simp [placeUnder] at hq⟩
      | cons parent others =>
        refine ⟨fun hnone => by simp [placeUnder] at hnone, fun q hq hline => ?_⟩
        have hparent : parent ∈ above := mem_of_mem_openFor (hstill ▸ List.mem_cons_self)
        obtain ⟨q', hq', hline'⟩ := List.mem_map.mp (hopen parent hparent)
        -- the place of the parent is the only one with its line
        have hall : ((placed ++ placesFrom above placed (task :: rest)).map (·.line)).Nodup := by
          rw [List.map_append, placesFrom_lines]
          exact hlines
        have hsame : q = q' := by
          refine List.inj_on_of_nodup_map hall ?_ (List.mem_append_left _ hq') ?_
          · rw [placesFrom, hstill]
            exact hq
          · rw [hline']
            simpa [placeUnder] using hline.symm
        rw [placeUnder, hsame, ← hline', levelOf_of_mem hlines.of_append_left hq']
    · have hopen' : ∀ other ∈ task :: openFor task.indent above, other.line ∈
          (placeUnder (openFor task.indent above) placed task :: placed).map (·.line) := by
        intro other hother
        rw [List.map_cons, placeUnder_line, List.mem_cons]
        rcases List.mem_cons.mp hother with rfl | hother
        · exact .inl rfl
        · exact .inr (hopen other (mem_of_mem_openFor hother))
      have hlines' : ((placeUnder (openFor task.indent above) placed task :: placed).map (·.line) ++
          rest.map (·.line)).Nodup := by
        rw [List.map_cons, placeUnder_line]
        exact (List.perm_middle.nodup_iff).mp hlines
      obtain ⟨hroot, hunder⟩ := ih hopen' hlines' hp
      refine ⟨hroot, fun q hq => hunder q ?_⟩
      exact (List.perm_middle.mem_iff).mp hq

/-! ## The outline -/

/-- Where lines are different, the links of a task are those of the one place
with its line. -/
theorem linked_of_mem_places {tasks : List Task} (h : (tasks.map (·.line)).Nodup) {p : Place}
    (hp : p ∈ places tasks) {task : Task} (hline : p.line = task.line) :
    (linked tasks task).parent = p.parent ∧ (linked tasks task).level = p.level := by
  have hreverse : ((places tasks).reverse.map (·.line)).Nodup := by
    rw [List.map_reverse, List.nodup_reverse, places, placesFrom_lines]
    exact h
  have hmem := List.mem_reverse.mpr hp
  have hfind : (places tasks).reverse.find? (·.line == task.line) = some p := by
    cases hfind : (places tasks).reverse.find? (·.line == task.line) with
    | none => exact absurd (List.find?_eq_none.mp hfind p hmem) (by simp [hline])
    | some found =>
      have hfound : found.line = task.line := by simpa using List.find?_some hfind
      rw [List.inj_on_of_nodup_map hreverse (List.mem_of_find?_eq_some hfind) hmem
        (hfound.trans hline.symm)]
  refine ⟨?_, ?_⟩
  · rw [linked, node, hfind]
    rfl
  · rw [linked, node, ← hline]
    exact levelOf_of_mem hreverse hmem

/-- Each task of a document with its place. -/
theorem exists_place {tasks : List Task} (h : (tasks.map (·.line)).Nodup) {i : Nat} {node : Node}
    (hnode : (ofTasks tasks).nodes[i]? = some node) :
    ∃ p, (places tasks)[i]? = some p ∧ tasks[i]? = some node.task ∧ p.line = node.line ∧
      node.parent = p.parent ∧ node.level = p.level := by
  rw [nodes_ofTasks, List.getElem?_map, Option.map_eq_some_iff] at hnode
  obtain ⟨task, htask, rfl⟩ := hnode
  have hlines := congrArg (·[i]?) (placesFrom_lines [] [] tasks)
  simp only [List.getElem?_map, htask, Option.map_some, Option.map_eq_some_iff] at hlines
  obtain ⟨p, hp, hline⟩ := hlines
  obtain ⟨hparent, hlevel⟩ := linked_of_mem_places h (List.mem_of_getElem? hp) hline
  exact ⟨p, hp, htask, hline, hparent, hlevel⟩

/-- The lines placed under a line are those of the tasks that name it as
their parent. -/
theorem childLines_places {tasks : List Task} (h : (tasks.map (·.line)).Nodup)
    (parent : Option Int) : childLines (places tasks) parent =
      ((ofTasks tasks).nodes.filter (·.parent == parent)).map (·.line) := by
  have hpairs : (places tasks).map (fun p => (p.parent, p.line)) =
      (ofTasks tasks).nodes.map (fun node => (node.parent, node.line)) := by
    refine List.ext_getElem? fun i => ?_
    rw [List.getElem?_map, List.getElem?_map]
    cases hnode : (ofTasks tasks).nodes[i]? with
    | some node =>
      obtain ⟨p, hp, -, hline, hparent, -⟩ := exists_place h hnode
      simp [hp, hline, hparent]
    | none =>
      have hlength : (places tasks).length = (ofTasks tasks).nodes.length := by
        rw [places, length_placesFrom, nodes_ofTasks, List.length_map]
      rw [List.getElem?_eq_none_iff, ← hlength, ← List.getElem?_eq_none_iff] at hnode
      simp [hnode]
  have hfilter := congrArg (fun pairs => (pairs.filter (·.1 == parent)).map (·.2)) hpairs
  rw [List.filter_map, List.filter_map, List.map_map, List.map_map] at hfilter
  exact hfilter

/-- What nesting by indentation means. -/
structure NestedByIndent (tasks : List Task) (o : Outline) : Prop where
  /-- The tasks are those that are nested, as they were. -/
  tasks_eq : o.nodes.map (·.task) = tasks
  /-- A line stands for its task. -/
  stored : ∀ node ∈ o.nodes, o.get? node.line = some node
  /-- A task is nested under the last one above it that is indented less. -/
  parent : ∀ i node, o.nodes[i]? = some node →
    node.parent = (lastLess node.task.indent (tasks.take i)).map (·.line)
  /-- The tasks that are nested under none are the roots. -/
  roots : o.roots = o.nodes.filter (·.parent == none) ∧ o.rootLines = o.roots.map (·.line)
  /-- The tasks under a task are those that name it, in their order. -/
  subtasks : ∀ node ∈ o.nodes,
    node.subtasks = (o.nodes.filter (·.parent == some node.line)).map (·.line)
  level_root : ∀ node ∈ o.nodes, node.parent = none → node.level = 0
  level_under : ∀ node ∈ o.nodes, ∀ above ∈ o.nodes, node.parent = some above.line →
    node.level = above.level + 1

/-- Where lines are different, looking up the lines of some tasks gives the
tasks. -/
theorem filterMap_get?_lines {o : Outline} {nodes : List Node}
    (h : ∀ node ∈ nodes, o.get? node.line = some node) :
    (nodes.map (·.line)).filterMap o.get? = nodes := by
  rw [List.filterMap_map]
  calc nodes.filterMap (o.get? ∘ (·.line))
    _ = nodes.filterMap some := List.filterMap_congr h
    _ = nodes := List.filterMap_some

/-- **A task is nested under the last one above it that is indented less**,
one level deeper, and everything else that is known of it stays. -/
theorem ofTasks_nestedByIndent {tasks : List Task} (h : (tasks.map (·.line)).Nodup) :
    NestedByIndent tasks (ofTasks tasks) ∧
      ∀ m n, (Depth.level m).isLess (.level n) = true ↔ m < n := by
  have hstored : ∀ node ∈ (ofTasks tasks).nodes, (ofTasks tasks).get? node.line = some node := by
    intro node hnode
    rw [nodes_ofTasks] at hnode
    obtain ⟨task, htask, rfl⟩ := List.mem_map.mp hnode
    exact get?_ofTasks h htask
  have hroots : (ofTasks tasks).rootLines =
      ((ofTasks tasks).nodes.filter (·.parent == none)).map (·.line) := by
    rw [rootLines_ofTasks, childLines_places h]
  have hrootNodes : (ofTasks tasks).roots =
      (ofTasks tasks).nodes.filter (·.parent == none) := by
    rw [roots, hroots]
    exact filterMap_get?_lines fun node hnode => hstored node (List.mem_filter.mp hnode).1
  have hlevels : ∀ node ∈ (ofTasks tasks).nodes, ∃ p ∈ places tasks, p.line = node.line ∧
      node.parent = p.parent ∧ node.level = p.level := by
    intro node hnode
    obtain ⟨i, hi⟩ := List.mem_iff_getElem?.mp hnode
    obtain ⟨p, hp, -, hline, hparent, hlevel⟩ := exists_place h hi
    exact ⟨p, List.mem_of_getElem? hp, hline, hparent, hlevel⟩
  have hopen : ∀ task ∈ ([] : List Task), task.line ∈ ([] : List Place).map (·.line) := by simp
  have hplaces : ∀ {p}, p ∈ places tasks → _ := fun hp => level_placesFrom hopen h hp
  refine ⟨?_, fun m n => by rw [Depth.isLess_level, decide_eq_true_iff]⟩
  constructor
  case tasks_eq =>
    rw [nodes_ofTasks, List.map_map]
    exact List.map_id tasks
  case stored => exact hstored
  case parent =>
    intro i node hnode
    obtain ⟨p, hp, htask, -, hparent, -⟩ := exists_place h hnode
    rw [hparent]
    exact parent_placesFrom .first [] hp htask
  case roots => exact ⟨hrootNodes, by rw [hroots, hrootNodes]⟩
  case subtasks =>
    intro node hnode
    rw [nodes_ofTasks] at hnode
    obtain ⟨task, htask, rfl⟩ := List.mem_map.mp hnode
    rw [subtasks_linked, childLines_places h]
    rfl
  case level_root =>
    intro node hnode hroot
    obtain ⟨p, hp, -, hparent, hlevel⟩ := hlevels node hnode
    rw [hlevel]
    exact (hplaces hp).1 (hparent ▸ hroot)
  case level_under =>
    intro node hnode above habove hunder
    obtain ⟨p, hp, -, hparent, hlevel⟩ := hlevels node hnode
    obtain ⟨q, hq, hline, -, hlevel'⟩ := hlevels above habove
    rw [hlevel, hlevel']
    refine (hplaces hp).2 q hq ?_
    rw [← hparent, hunder, hline]

/-- A line indented by far too much, a line back at a level between the two
above it, one beside that, and one in front of all margins. -/
theorem ofTasks_nestedByIndent_between :
    ([3, 8, 5, 1, 6] : List Int).Nodup ∧
    (ofTasks [{ line := 3, raw := [], indent := .level 1 },
      { line := 8, raw := [], indent := .level 9 }, { line := 5, raw := [], indent := .level 4 },
      { line := 1, raw := [], indent := .level 4 },
      { line := 6, raw := [], indent := .level (-2) }]).nodes.map (fun node =>
        (node.line, node.parent, node.level, node.subtasks)) =
      [(3, none, 0, [8, 5, 1]), (8, some 3, 1, []), (5, some 3, 1, []), (1, some 3, 1, []),
        (6, none, 0, [])] ∧
    NestedByIndent [{ line := 3, raw := [], indent := .level 1 },
      { line := 8, raw := [], indent := .level 9 }, { line := 5, raw := [], indent := .level 4 },
      { line := 1, raw := [], indent := .level 4 }, { line := 6, raw := [], indent := .level (-2) }]
      (ofTasks [{ line := 3, raw := [], indent := .level 1 },
        { line := 8, raw := [], indent := .level 9 }, { line := 5, raw := [], indent := .level 4 },
        { line := 1, raw := [], indent := .level 4 },
        { line := 6, raw := [], indent := .level (-2) }]) := by
  refine ⟨by decide, by decide, ?_⟩
  exact (ofTasks_nestedByIndent (by decide)).1

end Outline

end TaskList
