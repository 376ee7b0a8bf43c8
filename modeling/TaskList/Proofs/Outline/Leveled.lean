/-
TaskList.Proofs.Outline.Leveled — an outline depends on the order of depths only.

* `Task.relabel` — a task with another depth. Where depths keep their order, the
  outline keeps its links.
* `Node.leveled` — a task that is as deep as its level. The outline of such tasks is
  the outline that they come from.
* `Outline.CountsDown` — the levels of the open tasks, the innermost first, go down
  to zero one by one. So the tasks that are open for the next task are as many as
  its level says, and they are found by the levels alone
  (`CountsDown.openFor_eq`).
* `Outline.ofTasks_byOrder` — both together.
-/
import TaskList.Proofs.Outline.Nearest
import TaskList.Proofs.Outline.Walk

namespace TaskList

/-- A depth with another number of levels. -/
def Depth.relabel (f : Int → Int) : Depth → Depth
  | .level n => .level (f n)
  | .unmeasured => .unmeasured

/-- A task with another depth. -/
def Task.relabel (f : Int → Int) (task : Task) : Task := { task with indent := task.indent.relabel f }

/-- A task that is as deep as its level. -/
def Node.leveled (node : Node) : Task := { node.task with indent := .level node.level }

namespace Outline

/-- An outline with other tasks in the same places. -/
def retask (f : Node → Task) (o : Outline) : Outline where
  nodes := o.nodes.map fun node => { node with task := f node }
  rootLines := o.rootLines

/-! ## Tasks in the same places -/

section SamePlaces

variable {f : Task → Task} {tasks : List Task}

/-- Tasks that are open for each other as before make the same outline. -/
theorem ofTasks_of_sameOpen (hline : ∀ task, (f task).line = task.line)
    (h : SameOpen f [] tasks) :
    ofTasks (tasks.map f) = (ofTasks tasks).retask fun node => f node.task := by
  have hplaces : places (tasks.map f) = places tasks := placesFrom_of_sameOpen hline h []
  have hnodes : (ofTasks (tasks.map f)).nodes =
      ((ofTasks tasks).retask fun node => f node.task).nodes := by
    rw [retask, nodes_ofTasks, nodes_ofTasks, List.map_map, List.map_map]
    exact List.map_congr_left fun task _ => linked_of_places hline hplaces task
  have hroots : (ofTasks (tasks.map f)).rootLines = (ofTasks tasks).rootLines := by
    rw [rootLines_ofTasks, rootLines_ofTasks, hplaces]
  exact congrArg₂ Outline.mk hnodes hroots

/-- Which tasks belong to which groups does not hang on their depths. -/
theorem index_retask {o : Outline} {f : Node → Task} (hline : ∀ node, (f node).line = node.line)
    (hnames : ∀ node group, (f node).names group = node.task.names group) (group : Group) :
    (o.retask f).index group = o.index group := by
  have hstep : ∀ node : Node, (f node).line = node.line ∧
      (f node).names group = node.task.names group := fun node => ⟨hline node, hnames node group⟩
  simp only [index, retask, List.foldl_map, Node.line, hstep]

end SamePlaces

/-! ## Depths in the same order -/

/-- Numbers that keep their order compare alike. -/
theorem atLeast_relabel {f : Int → Int} {indents : List Depth}
    (hf : ∀ m n, .level m ∈ indents → .level n ∈ indents → m < n → f m < f n)
    {a b : Depth} (ha : a ∈ indents) (hb : b ∈ indents) :
    (a.relabel f).atLeast (b.relabel f) = a.atLeast b := by
  cases a with
  | unmeasured => rfl
  | level m =>
    cases b with
    | unmeasured => rfl
    | level n =>
      simp only [Depth.relabel, Depth.atLeast, decide_eq_decide]
      rcases Int.lt_trichotomy m n with hlt | rfl | hlt
      · have := hf m n ha hb hlt
        omega
      · simp
      · have := hf n m hb ha hlt
        omega

theorem sameOpen_relabel {f : Int → Int} {tasks : List Task}
    (hf : ∀ m n, .level m ∈ tasks.map (·.indent) → .level n ∈ tasks.map (·.indent) →
      m < n → f m < f n) : SameOpen (Task.relabel f) [] tasks :=
  sameOpen_of_atLeast fun _ ha _ hb =>
    atLeast_relabel hf (List.mem_map_of_mem ha) (List.mem_map_of_mem hb)

/-! ## Levels as depths -/

/-- The levels of the open tasks, the innermost first, go down to zero. -/
def CountsDown (level : Task → Nat) : List Task → Prop
  | [] => True
  | task :: above => level task = above.length ∧ CountsDown level above

namespace CountsDown

variable {level : Task → Nat} {closed above : List Task}

theorem of_append (h : CountsDown level (closed ++ above)) : CountsDown level above := by
  induction closed with
  | nil => exact h
  | cons task closed ih => exact ih h.2

/-- The levels alone say which tasks are open. -/
theorem openFor_eq {f : Task → Task} (hf : ∀ task, (f task).indent = .level (level task))
    (h : CountsDown level (closed ++ above)) :
    openFor (.level above.length) ((closed ++ above).map f) = above.map f := by
  induction closed with
  | nil =>
    cases above with
    | nil => rfl
    | cons task above =>
      obtain ⟨htask, -⟩ : level task = above.length ∧ CountsDown level above := h
      rw [List.nil_append, List.map_cons, List.length_cons]
      refine openFor_cons_of_isLess ?_ _
      rw [hf, htask, Depth.isLess_level, decide_eq_true_iff]
      omega
  | cons task closed ih =>
    obtain ⟨htask, hrest⟩ : level task = (closed ++ above).length ∧
      CountsDown level (closed ++ above) := h
    rw [List.cons_append, List.map_cons, openFor_cons_of_atLeast, ih hrest]
    rw [hf, htask, Depth.atLeast, decide_eq_true_eq, List.length_append]
    omega

end CountsDown

section Levels

variable {tasks above rest : List Task} {passed placed : List Place} {task : Task}

/-- The level that a task has in the outline. -/
def levelIn (tasks : List Task) (task : Task) : Nat := (linked tasks task).level

/-- A task that is placed under none has level zero, and any other one level more than
the task that it is placed under. -/
theorem levelIn_of_mem_places (h : (tasks.map (·.line)).Nodup) {p : Place}
    (hp : p ∈ places tasks) (hline : p.line = task.line) :
    (p.parent = none → levelIn tasks task = 0) ∧
      ∀ parent ∈ tasks, p.parent = some parent.line →
        levelIn tasks task = levelIn tasks parent + 1 := by
  have hopen : ∀ task ∈ ([] : List Task), task.line ∈ ([] : List Place).map (·.line) := by simp
  obtain ⟨hroot, hunder⟩ := level_placesFrom hopen h hp
  rw [levelIn, (linked_of_mem_places h hp hline).2]
  refine ⟨hroot, fun parent hparent hp' => ?_⟩
  -- the parent has a place too
  have hmem : parent.line ∈ (places tasks).map (·.line) := by
    rw [places, placesFrom_lines]
    exact List.mem_map_of_mem hparent
  obtain ⟨q, hq, hqline⟩ := List.mem_map.mp hmem
  rw [levelIn, (linked_of_mem_places h hq hqline).2]
  exact hunder q hq (by rw [hp', hqline])

/-- As many tasks are open for the next task as its level says. -/
theorem Reached.levelIn_eq (h : (tasks.map (·.line)).Nodup)
    (hreached : Reached tasks passed above placed (task :: rest))
    (habove : ∀ other ∈ above, other ∈ tasks) (hdown : CountsDown (levelIn tasks) above) :
    levelIn tasks task = (openFor task.indent above).length := by
  obtain ⟨closed, hclosed⟩ := openFor_split task.indent above
  have hplace : placeUnder (openFor task.indent above) placed task ∈ places tasks := by
    rw [hreached.places_eq, placesFrom]
    simp
  obtain ⟨hroot, hunder⟩ := levelIn_of_mem_places h hplace (placeUnder_line _ _ _)
  rw [placeUnder_parent] at hroot hunder
  rw [hclosed] at hdown
  have hopen := hdown.of_append
  cases hstill : openFor task.indent above with
  | nil => exact hroot (by rw [hstill]; rfl)
  | cons parent others =>
    rw [hstill] at hopen hunder
    have hparent : parent ∈ above := mem_of_mem_openFor (hstill ▸ List.mem_cons_self)
    rw [hunder parent (habove parent hparent) rfl, hopen.1, List.length_cons]

/-- Tasks that are as deep as their levels are open for each other as before. -/
theorem sameOpen_leveled (h : (tasks.map (·.line)).Nodup)
    (hreached : Reached tasks passed above placed rest) (habove : ∀ other ∈ above, other ∈ tasks)
    (hdown : CountsDown (levelIn tasks) above) :
    SameOpen (fun task => (linked tasks task).leveled) above rest := by
  induction rest generalizing passed above placed with
  | nil => trivial
  | cons task rest ih =>
    have hlevel := hreached.levelIn_eq h habove hdown
    obtain ⟨closed, hclosed⟩ := openFor_split task.indent above
    have hdown' := hdown
    rw [hclosed] at hdown'
    refine ⟨?_, ih hreached.next ?_ ⟨hlevel, hdown'.of_append⟩⟩
    · have heq := hdown'.openFor_eq (f := fun task => (linked tasks task).leveled) fun _ => rfl
      rw [← hclosed, ← hlevel] at heq
      exact heq
    · intro other hother
      rcases List.mem_cons.mp hother with rfl | hother
      · exact hreached.known other List.mem_cons_self
      · exact habove other (mem_of_mem_openFor hother)

/-- The outline of tasks that are as deep as their levels is the outline that they come
from. -/
theorem ofTasks_leveled (h : (tasks.map (·.line)).Nodup) :
    ofTasks ((ofTasks tasks).nodes.map Node.leveled) = (ofTasks tasks).retask Node.leveled := by
  have hopen := sameOpen_leveled h (Reached.first h) (by simp) trivial
  have hagain := ofTasks_of_sameOpen
    (f := fun task => (linked tasks task).leveled) (fun _ => rfl) hopen
  have hnodes : (ofTasks tasks).nodes.map Node.leveled =
      tasks.map fun task => (linked tasks task).leveled := by
    rw [nodes_ofTasks, List.map_map]
    rfl
  rw [hnodes, hagain, retask, retask, nodes_ofTasks, List.map_map, List.map_map]
  rfl

end Levels

/-- **An outline depends on the order of depths only**: other depths in the same order
give the same links and groups, and so do the levels of the outline itself. -/
theorem ofTasks_byOrder (tasks : List Task) :
    (∀ f : Int → Int,
      (∀ m n, .level m ∈ tasks.map (·.indent) → .level n ∈ tasks.map (·.indent) →
        m < n → f m < f n) →
      ofTasks (tasks.map (Task.relabel f)) =
          (ofTasks tasks).retask (fun node => node.task.relabel f) ∧
        ∀ group, (ofTasks (tasks.map (Task.relabel f))).index group =
          (ofTasks tasks).index group) ∧
    ((tasks.map (·.line)).Nodup →
      ofTasks ((ofTasks tasks).nodes.map Node.leveled) =
          (ofTasks tasks).retask Node.leveled ∧
        ∀ group, (ofTasks ((ofTasks tasks).nodes.map Node.leveled)).index group =
          (ofTasks tasks).index group) := by
  constructor
  · intro f hf
    have heq := ofTasks_of_sameOpen (f := Task.relabel f) (fun _ => rfl) (sameOpen_relabel hf)
    rw [heq]
    exact ⟨rfl, index_retask (fun _ => rfl) fun _ _ => rfl⟩
  · intro h
    rw [ofTasks_leveled h]
    exact ⟨rfl, index_retask (fun _ => rfl) fun _ _ => rfl⟩

/-- A line that is indented by far too much, one back between the levels above it, one
in front of the first, and other depths in their order. -/
theorem ofTasks_byOrder_tooDeep :
    (let tasks : List Task := [{ line := 3, raw := [], indent := .level 1 },
      { line := 8, raw := [], indent := .level 9 }, { line := 5, raw := [], indent := .level 4 },
      { line := 1, raw := [], indent := .level (-2) },
      { line := 6, raw := [], indent := .level 4 }]
    let links := fun o : Outline => o.nodes.map fun node =>
      (node.line, node.task.indent, node.parent, node.level, node.subtasks)
    (tasks.map (·.line)).Nodup ∧
    links (ofTasks (tasks.map (Task.relabel fun n => 10 * n))) =
      [(3, .level 10, none, 0, [8, 5]), (8, .level 90, some 3, 1, []),
        (5, .level 40, some 3, 1, []), (1, .level (-20), none, 0, [6]),
        (6, .level 40, some 1, 1, [])] ∧
    links (ofTasks ((ofTasks tasks).nodes.map Node.leveled)) =
      [(3, .level 0, none, 0, [8, 5]), (8, .level 1, some 3, 1, []),
        (5, .level 1, some 3, 1, []), (1, .level 0, none, 0, [6]),
        (6, .level 1, some 1, 1, [])]) := by
  refine ⟨by decide, ?_, ?_⟩
  · rw [((ofTasks_byOrder _).1 (fun n => 10 * n) fun m n _ _ hlt => by omega).1]
    rfl
  · rw [((ofTasks_byOrder _).2 (by decide)).1]
    rfl

end Outline

end TaskList
