/-
TaskList.Proofs.Outline.Links — the links that an outline is made of.

* `Outline.placesFrom` — the places of tasks from top to bottom, where
  `Outline.place` puts each new one in front (`place_eq`). So what comes
  later is a part of the list, and the proofs can go down the document.
* `Outline.childLines` — the lines placed under a line, or under none.
* `Outline.get?_ofTasks` — where all lines are different, a task stands for
  its own line.
* `Outline.SameOpen` — tasks that are changed, but open for each other as they were.
  They are placed alike (`placesFrom_of_sameOpen`), and linked alike
  (`linked_of_places`).
-/
import Mathlib.Data.List.DropRight
import Mathlib.Data.List.Nodup
import TaskList.Outline.Basic

namespace TaskList.Outline

/-! ## Places from top to bottom -/

/-- The places of further tasks from top to bottom, `placed` being those
already placed, the last one first. -/
def placesFrom (above : List Task) (placed : List Place) : List Task → List Place
  | [] => []
  | task :: rest =>
    let stillOpen := openFor task.indent above
    placeUnder stillOpen placed task ::
      placesFrom (task :: stillOpen) (placeUnder stillOpen placed task :: placed) rest

/-- The places of all tasks of a document. -/
def places (tasks : List Task) : List Place := placesFrom [] [] tasks

theorem place_eq (above : List Task) (placed : List Place) (tasks : List Task) :
    place above placed tasks = (placesFrom above placed tasks).reverse ++ placed := by
  induction tasks generalizing above placed with
  | nil => rfl
  | cons task rest ih => rw [place, ih, placesFrom, List.reverse_cons, List.append_assoc]; rfl

theorem placeUnder_line (above : List Task) (placed : List Place) (task : Task) :
    (placeUnder above placed task).line = task.line := by
  cases above <;> rfl

theorem placeUnder_parent (above : List Task) (placed : List Place) (task : Task) :
    (placeUnder above placed task).parent = above.head?.map (·.line) := by
  cases above <;> rfl

theorem placesFrom_lines (above : List Task) (placed : List Place) (tasks : List Task) :
    (placesFrom above placed tasks).map (·.line) = tasks.map (·.line) := by
  induction tasks generalizing above placed with
  | nil => rfl
  | cons task rest ih => rw [placesFrom, List.map_cons, ih, placeUnder_line, List.map_cons]

theorem length_placesFrom (above : List Task) (placed : List Place) (tasks : List Task) :
    (placesFrom above placed tasks).length = tasks.length := by
  rw [← List.length_map (·.line), placesFrom_lines, List.length_map]

/-- The tasks that are no longer open for a line stand in front of those
that are. -/
theorem openFor_split (indent : Depth) (above : List Task) :
    ∃ closed, above = closed ++ openFor indent above :=
  ⟨_, List.takeWhile_append_dropWhile.symm⟩

/-- Closing what is closed anyway changes nothing. -/
theorem placesFrom_openFor (above : List Task) (placed : List Place) (task : Task)
    (rest : List Task) :
    placesFrom (openFor task.indent above) placed (task :: rest) =
      placesFrom above placed (task :: rest) := by
  have hopen : openFor task.indent (openFor task.indent above) = openFor task.indent above :=
    List.dropWhile_idempotent _ _
  rw [placesFrom, placesFrom, hopen]

theorem mem_of_mem_openFor {indent : Depth} {above : List Task} {task : Task}
    (h : task ∈ openFor indent above) : task ∈ above :=
  (List.dropWhile_sublist _).subset h

theorem parent_mem_openFor {above : List Task} {placed : List Place} {task : Task} {line : Int}
    (h : (placeUnder above placed task).parent = some line) : line ∈ above.map (·.line) := by
  rw [placeUnder_parent] at h
  obtain ⟨parent, hparent, rfl⟩ := Option.map_eq_some_iff.mp h
  exact List.mem_map_of_mem (List.mem_of_mem_head? hparent)

/-- A task is placed under one that was open, or under a later one. -/
theorem parent_mem {above : List Task} {placed : List Place} {tasks : List Task} {p : Place}
    (hp : p ∈ placesFrom above placed tasks) {line : Int} (hline : p.parent = some line) :
    line ∈ (above ++ tasks).map (·.line) := by
  induction tasks generalizing above placed with
  | nil => simp [placesFrom] at hp
  | cons task rest ih =>
    rw [List.map_append, List.mem_append, List.map_cons, List.mem_cons]
    have hopen : ∀ {l}, l ∈ (openFor task.indent above).map (·.line) → l ∈ above.map (·.line) := by
      intro l hl
      obtain ⟨a, ha, rfl⟩ := List.mem_map.mp hl
      exact List.mem_map_of_mem (mem_of_mem_openFor ha)
    rcases List.mem_cons.mp hp with rfl | hp
    · exact .inl (hopen (parent_mem_openFor hline))
    · have hmem := ih hp
      rw [List.map_append, List.mem_append, List.map_cons, List.mem_cons] at hmem
      rcases hmem with (rfl | hmem) | hmem
      · exact .inr (.inl rfl)
      · exact .inl (hopen hmem)
      · exact .inr (.inr hmem)

/-! ## The links of an outline -/

/-- The lines of the tasks placed under a line, from top to bottom; the top
level is under none. -/
def childLines (ps : List Place) (parent : Option Int) : List Int :=
  (ps.filter (·.parent == parent)).map (·.line)

theorem childLines_append (ps qs : List Place) (parent : Option Int) :
    childLines (ps ++ qs) parent = childLines ps parent ++ childLines qs parent := by
  rw [childLines, List.filter_append, List.map_append]
  rfl

theorem childLines_cons_self (p : Place) (ps : List Place) :
    childLines (p :: ps) p.parent = p.line :: childLines ps p.parent := by
  rw [childLines, List.filter_cons_of_pos (by simp), List.map_cons]
  rfl

theorem childLines_cons_of_ne {p : Place} {parent : Option Int} (h : p.parent ≠ parent)
    (ps : List Place) : childLines (p :: ps) parent = childLines ps parent := by
  rw [childLines, List.filter_cons_of_neg (by simpa using h)]
  rfl

theorem childLines_eq_nil {ps : List Place} {parent : Option Int}
    (h : ∀ p ∈ ps, p.parent ≠ parent) : childLines ps parent = [] := by
  rw [childLines, List.filter_eq_nil_iff.mpr (by simpa using h), List.map_nil]

/-- A task with its links, in the outline of a document. -/
def linked (tasks : List Task) (task : Task) : Node := node (places tasks).reverse task

theorem nodes_ofTasks (tasks : List Task) : (ofTasks tasks).nodes = tasks.map (linked tasks) := by
  simp only [ofTasks, place_eq, List.append_nil]
  rfl

theorem rootLines_ofTasks (tasks : List Task) :
    (ofTasks tasks).rootLines = childLines (places tasks) none := by
  simp only [ofTasks, place_eq, List.append_nil, List.reverse_reverse]
  rfl

theorem subtasks_linked (tasks : List Task) (task : Task) :
    (linked tasks task).subtasks = childLines (places tasks) (some task.line) := by
  simp only [linked, node, List.reverse_reverse]
  rfl

theorem linked_line (tasks : List Task) (task : Task) : (linked tasks task).line = task.line := rfl

theorem linked_injective (tasks : List Task) : Function.Injective (linked tasks) :=
  fun _ _ h => congrArg Node.task h

/-- Where all lines are different, a task stands for its own line. -/
theorem get?_ofTasks {tasks : List Task} (h : (tasks.map (·.line)).Nodup) {task : Task}
    (htask : task ∈ tasks) : (ofTasks tasks).get? task.line = some (linked tasks task) := by
  rw [get?, nodes_ofTasks]
  have hmem : linked tasks task ∈ (tasks.map (linked tasks)).reverse :=
    List.mem_reverse.mpr (List.mem_map_of_mem htask)
  cases hfind : (tasks.map (linked tasks)).reverse.find? (·.line == task.line) with
  | none => exact absurd (List.find?_eq_none.mp hfind _ hmem) (by simp [linked_line])
  | some found =>
    have hline := List.find?_some hfind
    obtain ⟨other, hother, rfl⟩ := List.mem_map.mp
      (List.mem_reverse.mp (List.mem_of_find?_eq_some hfind))
    rw [linked_line, beq_iff_eq] at hline
    rw [List.inj_on_of_nodup_map h hother htask hline]

/-- Every line that a task is linked to has a task. -/
theorem get?_childLines_isSome {tasks : List Task} {parent : Option Int} {line : Int}
    (h : line ∈ childLines (places tasks) parent) : ((ofTasks tasks).get? line).isSome = true := by
  obtain ⟨p, hp, rfl⟩ := List.mem_map.mp h
  have hline : p.line ∈ (places tasks).map (·.line) :=
    List.mem_map_of_mem (List.mem_filter.mp hp).1
  rw [places, placesFrom_lines] at hline
  obtain ⟨task, htask, hline⟩ := List.mem_map.mp hline
  rw [get?, nodes_ofTasks, List.find?_isSome]
  exact ⟨linked tasks task, by simpa using ⟨task, htask, rfl⟩, by simp [linked_line, hline]⟩

/-! ## Tasks that are nested alike -/

section Map

variable {f : Task → Task}

/-- Changed tasks are open for each other as the tasks themselves are, when `above`
are open for the first of them. -/
def SameOpen (f : Task → Task) (above : List Task) : List Task → Prop
  | [] => True
  | task :: rest =>
    openFor (f task).indent (above.map f) = (openFor task.indent above).map f ∧
      SameOpen f (task :: openFor task.indent above) rest

theorem openFor_map {above : List Task} {task : Task}
    (h : ∀ other ∈ above, (f other).indent.atLeast (f task).indent =
      other.indent.atLeast task.indent) :
    openFor (f task).indent (above.map f) = (openFor task.indent above).map f := by
  induction above with
  | nil => rfl
  | cons other above ih =>
    obtain ⟨hother, habove⟩ := List.forall_mem_cons.mp h
    rw [List.map_cons, openFor, openFor, List.dropWhile_cons, List.dropWhile_cons, hother]
    split
    · exact ih habove
    · rfl

/-- Tasks whose depths compare alike are open for each other alike. -/
theorem sameOpen_of_atLeast {above tasks : List Task}
    (h : ∀ a ∈ above ++ tasks, ∀ b ∈ above ++ tasks,
      (f a).indent.atLeast (f b).indent = a.indent.atLeast b.indent) :
    SameOpen f above tasks := by
  induction tasks generalizing above with
  | nil => trivial
  | cons task rest ih =>
    have htask : task ∈ above ++ task :: rest := by simp
    refine ⟨openFor_map fun other hother => h other (by simp [hother]) task htask, ih ?_⟩
    have hsub : ∀ other ∈ (task :: openFor task.indent above) ++ rest,
        other ∈ above ++ task :: rest := by
      intro other hother
      rw [List.cons_append, List.mem_cons, List.mem_append] at hother
      rcases hother with rfl | hother | hother
      · exact htask
      · exact List.mem_append_left _ (mem_of_mem_openFor hother)
      · simp [hother]
    exact fun a ha b hb => h a (hsub a ha) b (hsub b hb)

/-- Only the lines of tasks are looked at, and which tasks are open for which. -/
theorem placesFrom_of_sameOpen (hline : ∀ task, (f task).line = task.line)
    {above tasks : List Task} (h : SameOpen f above tasks) (placed : List Place) :
    placesFrom (above.map f) placed (tasks.map f) = placesFrom above placed tasks := by
  induction tasks generalizing above placed with
  | nil => rfl
  | cons task rest ih =>
    obtain ⟨hopen, hrest⟩ := h
    have hplace : placeUnder ((openFor task.indent above).map f) placed (f task) =
        placeUnder (openFor task.indent above) placed task := by
      cases openFor task.indent above with
      | nil => rw [List.map_nil, placeUnder, placeUnder, hline]
      | cons parent others => rw [List.map_cons, placeUnder, placeUnder, hline, hline]
    rw [List.map_cons, placesFrom, placesFrom, hopen, hplace, ← List.map_cons, ih hrest]

/-- Only the lines of tasks and their depths are looked at. -/
theorem placesFrom_map (hline : ∀ task, (f task).line = task.line)
    (hindent : ∀ task, (f task).indent = task.indent) (above : List Task) (placed : List Place)
    (tasks : List Task) :
    placesFrom (above.map f) placed (tasks.map f) = placesFrom above placed tasks :=
  placesFrom_of_sameOpen hline (sameOpen_of_atLeast fun _ _ _ _ => by rw [hindent, hindent])
    placed

theorem linked_of_places (hline : ∀ task, (f task).line = task.line) {tasks : List Task}
    (h : places (tasks.map f) = places tasks) (task : Task) :
    linked (tasks.map f) (f task) = { linked tasks task with task := f task } := by
  simp only [linked, node, h, hline]

theorem linked_map (hline : ∀ task, (f task).line = task.line)
    (hindent : ∀ task, (f task).indent = task.indent) (tasks : List Task) (task : Task) :
    linked (tasks.map f) (f task) = { linked tasks task with task := f task } :=
  linked_of_places hline (placesFrom_map hline hindent [] [] tasks) task

end Map

end TaskList.Outline
