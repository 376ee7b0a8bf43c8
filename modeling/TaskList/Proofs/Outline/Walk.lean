/-
TaskList.Proofs.Outline.Walk — a walk from the top passes every task once,
in the order of the document.

* `Outline.visit` — a walk with a stack: the task on top is visited and the
  tasks under it take its place. `Outline.walkFrom_of_visit` says that a
  walk by levels comes to the same as a walk with a stack that ends.
* `Outline.waiting` — the lines on the stack when a document is passed up to
  some task: those still to come under each task that is open, and then those
  on the top level.
* `Outline.Reached` — what holds between the tasks that are passed and those
  to come. `Reached.next` is the step from one task to the next one.
* `Reached.exists_nested` — what is nested under a task comes right behind it.
* `Outline.flatten_ofTasks` — the walk.

The stack of open tasks that gives the links and the stack of the walk are
tied by `waiting`: the line of the next task is on top of both
(`Reached.waiting_eq`).
-/
import TaskList.Proofs.Outline.Links

namespace TaskList.Outline

/-! ## Looking lines up -/

section Lookup

variable {o : Outline}

theorem tasksFor_nil : o.tasksFor [] = .ok [] := rfl

theorem tasksFor_cons {line : Int} {node : Node} (h : o.get? line = some node)
    (lines : List Int) :
    o.tasksFor (line :: lines) = (o.tasksFor lines).map (node :: ·) := by
  rw [tasksFor, List.mapM_cons, h]
  rfl

/-- Where all lines are found, none is left out. -/
theorem filterMap_of_tasksFor {lines : List Int} {nodes : List Node}
    (h : o.tasksFor lines = .ok nodes) : lines.filterMap o.get? = nodes := by
  induction lines generalizing nodes with
  | nil =>
    cases h
    rfl
  | cons line lines ih =>
    cases hline : o.get? line with
    | none =>
      rw [tasksFor, List.mapM_cons, hline] at h
      cases h
    | some node =>
      rw [tasksFor_cons hline] at h
      cases hmore : o.tasksFor lines with
      | error e => simp [hmore, Except.map] at h
      | ok more =>
        rw [hmore, Except.map, Except.ok.injEq] at h
        rw [List.filterMap_cons_some hline, ih hmore, h]

/-- The lines of both parts of a list are found if all are. -/
theorem tasksFor_append_eq_ok {front back : List Int} {nodes : List Node}
    (h : o.tasksFor (front ++ back) = .ok nodes) :
    ∃ first more, o.tasksFor front = .ok first ∧ o.tasksFor back = .ok more ∧
      nodes = first ++ more := by
  rw [tasksFor, List.mapM_append] at h
  change (o.tasksFor front).bind (fun first => (o.tasksFor back).bind fun more =>
    .ok (first ++ more)) = .ok nodes at h
  cases hfront : o.tasksFor front with
  | error e => simp [hfront, Except.bind] at h
  | ok first =>
    cases hback : o.tasksFor back with
    | error e => simp [hfront, hback, Except.bind] at h
    | ok more =>
      simp only [hfront, hback, Except.bind, Except.ok.injEq] at h
      exact ⟨first, more, rfl, rfl, h.symm⟩

end Lookup

/-! ## A walk with a stack -/

/-- The tasks visited from a stack in at most so many steps: each step
visits the task on top and puts the tasks under it in its place. -/
def visit (o : Outline) : Nat → List Node → Except OutlineError (List Node)
  | _, [] => .ok []
  | 0, _ :: _ => .error .endless
  | steps + 1, node :: stack =>
    match o.tasksFor node.subtasks with
    | .error e => .error e
    | .ok subtasks =>
      match o.visit steps (subtasks ++ stack) with
      | .error e => .error e
      | .ok more => .ok (node :: more)

/-- What a step of a walk that ends does. -/
theorem visit_cons_eq_ok {o : Outline} {steps : Nat} {node : Node} {stack nodes : List Node}
    (h : o.visit steps (node :: stack) = .ok nodes) :
    ∃ left subtasks more, steps = left + 1 ∧ o.tasksFor node.subtasks = .ok subtasks ∧
      o.visit left (subtasks ++ stack) = .ok more ∧ nodes = node :: more := by
  cases steps with
  | zero => simp [visit] at h
  | succ left =>
    rw [visit] at h
    split at h
    · simp at h
    · rename_i subtasks hsubtasks
      split at h
      · simp at h
      · rename_i more hmore
        cases h
        exact ⟨left, subtasks, more, rfl, hsubtasks, hmore, rfl⟩

/-- A walk with a stack that ends visits what is below the tasks on top of
it, as a walk by levels does, and then the rest of the stack. -/
theorem walkFrom_of_visit {o : Outline} {steps : Nat} {start stack nodes : List Node}
    (h : o.visit steps (start ++ stack) = .ok nodes) :
    ∃ parts more left, left ≤ steps ∧ o.visit left stack = .ok more ∧
      nodes = parts.flatten ++ more ∧
      ∀ depth ≥ steps, start.mapM (o.walkFrom depth) = .ok parts := by
  induction steps using Nat.strongRecOn generalizing start stack nodes with
  | ind steps ih =>
    cases start with
    | nil => exact ⟨[], nodes, steps, Nat.le_refl _, h, rfl, fun _ _ => rfl⟩
    | cons node start =>
      rw [List.cons_append] at h
      obtain ⟨left, subtasks, below, rfl, hsubtasks, hbelow, rfl⟩ := visit_cons_eq_ok h
      -- first what is under the task, then the tasks beside it
      obtain ⟨parts, beside, left', hleft', hbeside, rfl, hparts⟩ := ih left (by omega) hbelow
      obtain ⟨parts', more, left'', hleft'', hmore, rfl, hparts'⟩ := ih left' (by omega) hbeside
      refine ⟨(node :: parts.flatten) :: parts', more, left'', by omega, hmore, by simp, ?_⟩
      intro depth hdepth
      have hnode : o.walkFrom depth node = .ok (node :: parts.flatten) := by
        obtain ⟨depth, rfl⟩ : ∃ d, depth = d + 1 := ⟨depth - 1, by omega⟩
        rw [walkFrom, hsubtasks]
        dsimp only
        rw [hparts depth (by omega)]
      rw [List.mapM_cons, hnode, hparts' depth (by omega)]
      rfl

/-- A walk with a stack that ends is a walk by levels. -/
theorem walk_of_visit {o : Outline} {steps : Nat} {start nodes : List Node}
    (h : o.visit steps start = .ok nodes) (hsteps : steps ≤ o.nodes.length + 1) :
    o.walk start = .ok nodes := by
  rw [← List.append_nil start] at h
  obtain ⟨parts, more, left, -, hmore, rfl, hparts⟩ := walkFrom_of_visit h
  have hnil : more = [] := by
    rw [visit, Except.ok.injEq] at hmore
    exact hmore.symm
  rw [walk, hparts _ hsteps, hnil]
  simp

/-! ## What is on the stack -/

/-- The lines that wait on the stack when `ps` are the places to come: those
under the open tasks, the innermost first, and those on the top level. -/
def waiting (above : List Task) (ps : List Place) : List Int :=
  above.flatMap (fun task => childLines ps (some task.line)) ++ childLines ps none

theorem waiting_cons_task (task : Task) (above : List Task) (ps : List Place) :
    waiting (task :: above) ps = childLines ps (some task.line) ++ waiting above ps := by
  rw [waiting, List.flatMap_cons, List.append_assoc]
  rfl

/-- Nothing waits under tasks that no later one is placed under. -/
theorem waiting_of_closed {closed above : List Task} {ps : List Place}
    (h : ∀ task ∈ closed, ∀ p ∈ ps, p.parent ≠ some task.line) :
    waiting (closed ++ above) ps = waiting above ps := by
  induction closed with
  | nil => rfl
  | cons task closed ih =>
    rw [List.cons_append, waiting_cons_task,
      childLines_eq_nil fun p hp => h task List.mem_cons_self p hp, List.nil_append,
      ih fun other hother => h other (List.mem_cons_of_mem task hother)]

/-- What is placed next under the innermost open task is on top. -/
theorem waiting_cons_place {above : List Task} (habove : (above.map (·.line)).Nodup) {p : Place}
    (hp : p.parent = above.head?.map (·.line)) (ps : List Place) :
    waiting above (p :: ps) = p.line :: waiting above ps := by
  have hother : ∀ more : List Task, (∀ task ∈ more, p.parent ≠ some task.line) →
      more.flatMap (fun task => childLines (p :: ps) (some task.line)) =
        more.flatMap fun task => childLines ps (some task.line) := by
    intro more hmore
    refine List.flatMap_congr fun task htask => ?_
    exact childLines_cons_of_ne (hmore task htask) ps
  cases above with
  | nil =>
    have hself := childLines_cons_self p ps
    rw [hp] at hself
    exact hself
  | cons parent more =>
    have hp : p.parent = some parent.line := hp
    have hself := childLines_cons_self p ps
    rw [hp] at hself
    have hdistinct := (List.nodup_cons.mp habove).1
    have hmore : ∀ task ∈ more, p.parent ≠ some task.line := by
      intro task htask heq
      rw [hp, Option.some.injEq] at heq
      exact hdistinct (List.mem_map.mpr ⟨task, htask, heq.symm⟩)
    rw [waiting_cons_task, waiting_cons_task, hself, List.cons_append, waiting, waiting,
      hother more hmore, childLines_cons_of_ne (by simp [hp])]

/-! ## From one task to the next -/

/-- What holds when the tasks in front of `rest` are passed: `passed` are
their places, and `above` those of them that are open. -/
structure Reached (tasks : List Task) (passed : List Place) (above : List Task)
    (placed : List Place) (rest : List Task) : Prop where
  /-- The places to come are those that are given from here on. -/
  places_eq : places tasks = passed ++ placesFrom above placed rest
  /-- Lines are different. -/
  distinct : ((above ++ rest).map (·.line)).Nodup
  /-- Tasks to come are tasks of the document. -/
  known : ∀ task ∈ rest, task ∈ tasks
  /-- No task that is passed was placed under one to come. -/
  fresh : ∀ p ∈ passed, ∀ task ∈ rest, p.parent ≠ some task.line

namespace Reached

theorem first {tasks : List Task} (h : (tasks.map (·.line)).Nodup) :
    Reached tasks [] [] [] tasks where
  places_eq := rfl
  distinct := h
  known := fun _ htask => htask
  fresh := fun _ hp => absurd hp List.not_mem_nil

variable {tasks above rest : List Task} {passed placed : List Place} {task : Task}

theorem distinct_open (h : Reached tasks passed above placed (task :: rest)) :
    ((openFor task.indent above ++ task :: rest).map (·.line)).Nodup :=
  h.distinct.sublist (((List.dropWhile_sublist _).append_right _).map _)

/-- The place of the next task is under an open one. -/
theorem parent_ne (h : Reached tasks passed above placed (task :: rest)) {other : Task}
    (hother : other ∈ task :: rest) :
    (placeUnder (openFor task.indent above) placed task).parent ≠ some other.line := by
  intro hparent
  have hdistinct := h.distinct_open
  rw [List.map_append, List.nodup_append] at hdistinct
  exact hdistinct.2.2 _ (parent_mem_openFor hparent) _ (List.mem_map_of_mem hother) rfl

/-- The tasks to come are not more than all. -/
theorem length_le (h : Reached tasks passed above placed rest) : rest.length ≤ tasks.length := by
  have hall := congrArg List.length h.places_eq
  rw [places, List.length_append, length_placesFrom, length_placesFrom] at hall
  omega

/-- One task further. -/
theorem next (h : Reached tasks passed above placed (task :: rest)) :
    Reached tasks (passed ++ [placeUnder (openFor task.indent above) placed task])
      (task :: openFor task.indent above)
      (placeUnder (openFor task.indent above) placed task :: placed) rest where
  places_eq := by
    rw [h.places_eq, placesFrom, List.append_assoc]
    rfl
  distinct := by
    refine (List.Perm.nodup_iff ?_).mp h.distinct_open
    exact (List.perm_middle.map _)
  known := fun other hother => h.known other (List.mem_cons_of_mem task hother)
  fresh := by
    intro p hp other hother
    have hother := List.mem_cons_of_mem task hother
    rcases List.mem_append.mp hp with hp | hp
    · exact h.fresh p hp other hother
    · rw [List.mem_singleton.mp hp]
      exact h.parent_ne hother

/-- The tasks under the next one are all still to come. -/
theorem childLines_eq (h : Reached tasks passed above placed (task :: rest)) :
    childLines (places tasks) (some task.line) =
      childLines (placesFrom (task :: openFor task.indent above)
        (placeUnder (openFor task.indent above) placed task :: placed) rest) (some task.line) := by
  rw [h.places_eq, childLines_append, placesFrom,
    childLines_eq_nil fun p hp => h.fresh p hp task List.mem_cons_self, List.nil_append,
    childLines_cons_of_ne (h.parent_ne List.mem_cons_self)]

/-- A task to come is not placed under one that is closed by now. -/
theorem parent_ne_closed (h : Reached tasks passed above placed (task :: rest))
    {closed : List Task} (hclosed : above = closed ++ openFor task.indent above) :
    ∀ other ∈ closed, ∀ p ∈ placesFrom above placed (task :: rest),
      p.parent ≠ some other.line := by
  intro other hother p hp hparent
  have hdistinct := h.distinct
  rw [hclosed, List.append_assoc, List.map_append, List.nodup_append] at hdistinct
  refine hdistinct.2.2 _ (List.mem_map_of_mem hother) other.line ?_ rfl
  rw [← placesFrom_openFor] at hp
  exact parent_mem hp hparent

/-- The next task is on top of the stack, in front of what waits under the
tasks that stay open. -/
theorem waiting_eq (h : Reached tasks passed above placed (task :: rest)) :
    waiting above (placesFrom above placed (task :: rest)) =
      task.line :: waiting (openFor task.indent above)
        (placesFrom (task :: openFor task.indent above)
          (placeUnder (openFor task.indent above) placed task :: placed) rest) := by
  obtain ⟨closed, hclosed⟩ := openFor_split task.indent above
  have hopen := h.distinct_open
  rw [List.map_append, List.nodup_append] at hopen
  calc waiting above (placesFrom above placed (task :: rest))
    _ = waiting (closed ++ openFor task.indent above) (placesFrom above placed (task :: rest)) := by
        rw [← hclosed]
    _ = waiting (openFor task.indent above) (placesFrom above placed (task :: rest)) :=
        waiting_of_closed (h.parent_ne_closed hclosed)
    _ = _ := by
        rw [placesFrom, waiting_cons_place hopen.1 (placeUnder_parent _ placed task),
          placeUnder_line]

/-- What waits on the stack is found, and a walk from there visits the tasks
to come, one with each step. -/
theorem visit_waiting (h : Reached tasks passed above placed rest)
    (hlines : (tasks.map (·.line)).Nodup) :
    ∃ stack, (ofTasks tasks).tasksFor (waiting above (placesFrom above placed rest)) = .ok stack ∧
      ∀ steps ≥ rest.length, (ofTasks tasks).visit steps stack = .ok (rest.map (linked tasks)) := by
  induction rest generalizing passed above placed with
  | nil =>
    have hnil : waiting above [] = [] := by
      simp [waiting, childLines]
    refine ⟨[], ?_, fun steps _ => by simp [visit]⟩
    rw [placesFrom, hnil, tasksFor_nil]
  | cons task rest ih =>
    obtain ⟨stack, hstack, hvisit⟩ := ih h.next
    rw [waiting_cons_task, ← h.childLines_eq] at hstack
    obtain ⟨subtasks, more, hsubtasks, hmore, rfl⟩ := tasksFor_append_eq_ok hstack
    refine ⟨linked tasks task :: more, ?_, fun steps hsteps => ?_⟩
    · rw [h.waiting_eq, tasksFor_cons (get?_ofTasks hlines (h.known task List.mem_cons_self)),
        hmore]
      rfl
    · rw [List.length_cons] at hsteps
      obtain ⟨left, rfl⟩ : ∃ left, steps = left + 1 := ⟨steps - 1, by omega⟩
      rw [visit, subtasks_linked, hsubtasks]
      dsimp only
      rw [hvisit left (by omega), List.map_cons]

/-- What is nested under the next task are the first of those to come. A walk
from what waits below it visits the others, once they are all passed. -/
theorem exists_nested (h : Reached tasks passed above placed (task :: rest))
    (hlines : (tasks.map (·.line)).Nodup) :
    ∃ below behind stack steps, rest = below ++ behind ∧
      (ofTasks tasks).nested (linked tasks task) = .ok (below.map (·.line)) ∧
      (ofTasks tasks).tasksFor (waiting (openFor task.indent above)
        (placesFrom (task :: openFor task.indent above)
          (placeUnder (openFor task.indent above) placed task :: placed) rest)) = .ok stack ∧
      (ofTasks tasks).visit steps stack = .ok (behind.map (linked tasks)) := by
  obtain ⟨waits, hwaits, hvisit⟩ := h.next.visit_waiting hlines
  rw [waiting_cons_task, ← h.childLines_eq] at hwaits
  obtain ⟨subtasks, stack, hsubtasks, hstack, rfl⟩ := tasksFor_append_eq_ok hwaits
  obtain ⟨parts, more, steps, -, hmore, hparts, hwalk⟩ :=
    walkFrom_of_visit (hvisit rest.length (Nat.le_refl _))
  -- the walk passes the tasks to come, first those under the task
  obtain ⟨below, behind, hrest, hbelow, hbehind⟩ := List.map_eq_append_iff.mp hparts
  have hlength : rest.length ≤ (ofTasks tasks).nodes.length + 1 := by
    have hle := h.length_le
    rw [List.length_cons] at hle
    rw [nodes_ofTasks, List.length_map]
    omega
  refine ⟨below, behind, stack, steps, hrest, ?_, hstack, by rw [hmore, hbehind]⟩
  rw [nested, subtasks_linked, hsubtasks]
  dsimp only
  rw [walk, hwalk _ hlength]
  dsimp only
  rw [← hbelow, List.map_map]
  rfl

end Reached

/-- **A walk from the top passes every task once**, in the order of the
document, and finds every line that it looks up. -/
theorem flatten_ofTasks {tasks : List Task} (h : (tasks.map (·.line)).Nodup) :
    (ofTasks tasks).nodes.map (·.task) = tasks ∧
    (ofTasks tasks).flatten = .ok (ofTasks tasks).nodes ∧
    (ofTasks tasks).tasksFor (ofTasks tasks).rootLines = .ok (ofTasks tasks).roots ∧
    (∀ steps ≥ tasks.length,
      (ofTasks tasks).visit steps (ofTasks tasks).roots = .ok (ofTasks tasks).nodes) ∧
    (∀ line ∈ (ofTasks tasks).rootLines, ((ofTasks tasks).get? line).isSome = true) ∧
    (∀ node ∈ (ofTasks tasks).nodes, ∀ line ∈ node.subtasks,
      ((ofTasks tasks).get? line).isSome = true) ∧
    ((ofTasks tasks).nodes.map (·.line)).Nodup := by
  have htasks : (ofTasks tasks).nodes.map (·.task) = tasks := by
    rw [nodes_ofTasks, List.map_map]
    exact List.map_id tasks
  have hlength : (ofTasks tasks).nodes.length = tasks.length := by
    rw [nodes_ofTasks, List.length_map]
  obtain ⟨roots, hroots, hvisit⟩ := (Reached.first h).visit_waiting h
  rw [← nodes_ofTasks] at hvisit
  have hlines : waiting [] (placesFrom [] [] tasks) = (ofTasks tasks).rootLines := by
    rw [rootLines_ofTasks]
    rfl
  rw [hlines] at hroots
  have hfound : (ofTasks tasks).roots = roots := filterMap_of_tasksFor hroots
  rw [← hfound] at hroots hvisit
  refine ⟨htasks, ?_, hroots, hvisit, ?_, ?_, ?_⟩
  · rw [flatten, hroots]
    exact walk_of_visit (hvisit tasks.length (Nat.le_refl _)) (by omega)
  · intro line hline
    rw [rootLines_ofTasks] at hline
    exact get?_childLines_isSome hline
  · intro node hnode line hline
    rw [nodes_ofTasks] at hnode
    obtain ⟨task, -, rfl⟩ := List.mem_map.mp hnode
    rw [subtasks_linked] at hline
    exact get?_childLines_isSome hline
  · rw [nodes_ofTasks, List.map_map]
    exact h

/-- Lines that start out indented, go two levels down at once and come back
to a level that no line above has. -/
theorem flatten_ofTasks_dedent :
    ([4, 9, 2, 7, 5] : List Int).Nodup ∧
    (ofTasks [{ line := 4, raw := [], indent := .level 2 },
      { line := 9, raw := [], indent := .level 5 }, { line := 2, raw := [], indent := .level 3 },
      { line := 7, raw := [], indent := .level (-1) },
      { line := 5, raw := [], indent := .level 0 }]).flatten.map (·.map fun node =>
        (node.line, node.parent)) =
      .ok [(4, none), (9, some 4), (2, some 4), (7, none), (5, some 7)] := by
  refine ⟨by decide, ?_⟩
  rw [(flatten_ofTasks (by decide)).2.1]
  rfl

end TaskList.Outline
