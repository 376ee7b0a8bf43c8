/-
TaskList.Proofs.Outline.Renumbered — outlines without some of their tasks, and
with other line numbers.

* `Outline.renumber` — an outline with other line numbers. Nesting looks at
  numbers only to tell lines apart, so an outline of renumbered tasks is
  renumbered (`ofTasks_renumber`).
* `Outline.without` — an outline without the tasks of some lines; what is left
  keeps its place. `BlockAt.ofTasks_without` says that this is the outline of
  the tasks that are left when a task goes together with its block.
* `Outline.moved` — the number that a line has when others are gone: as many
  less as there are of them above it.
-/
import TaskList.Proofs.Outline.Block

namespace TaskList

/-- A task with another line number. -/
def Task.renumber (f : Int → Int) (task : Task) : Task := { task with line := f task.line }

/-- A task in its place, with other line numbers. -/
def Node.renumber (f : Int → Int) (node : Node) : Node where
  task := node.task.renumber f
  level := node.level
  parent := node.parent.map f
  subtasks := node.subtasks.map f

namespace Outline

/-- An outline with other line numbers. -/
def renumber (f : Int → Int) (o : Outline) : Outline where
  nodes := o.nodes.map (Node.renumber f)
  rootLines := o.rootLines.map f

/-- An outline without the tasks of some lines. -/
def without (gone : List Int) (o : Outline) : Outline where
  nodes := (o.nodes.filter fun node => node.line ∉ gone).map fun node =>
    { node with subtasks := node.subtasks.filter (· ∉ gone) }
  rootLines := o.rootLines.filter (· ∉ gone)

/-- The number of a line when the lines of some numbers are gone: one less
for each of them above it. -/
def moved (gone : List Int) (line : Int) : Int := line - (gone.countP (· < line) : Nat)

/-! ## Other numbers -/

/-- A place with other line numbers. -/
def Place.renumber (f : Int → Int) (p : Place) : Place := ⟨f p.line, p.parent.map f, p.level⟩

section Renumber

variable {f : Int → Int} {lines : List Int}

/-- Numbers that stay apart name the same place. -/
theorem find?_renumber (hf : ∀ a ∈ lines, ∀ b ∈ lines, f a = f b → a = b) {placed : List Place}
    (hplaced : ∀ p ∈ placed, p.line ∈ lines) {line : Int} (hline : line ∈ lines) :
    (placed.map (Place.renumber f)).find? (·.line == f line) =
      (placed.find? (·.line == line)).map (Place.renumber f) := by
  induction placed with
  | nil => rfl
  | cons p placed ih =>
    obtain ⟨hp, hplaced⟩ := List.forall_mem_cons.mp hplaced
    by_cases hsame : p.line = line
    · rw [List.map_cons, List.find?_cons_of_pos (by simp [Place.renumber, hsame]),
        List.find?_cons_of_pos (by simp [hsame])]
      rfl
    · have hapart : f p.line ≠ f line := fun h => hsame (hf _ hp _ hline h)
      rw [List.map_cons, List.find?_cons_of_neg (by simpa [Place.renumber] using hapart),
        List.find?_cons_of_neg (by simpa using hsame), ih hplaced]

theorem levelOf_renumber (hf : ∀ a ∈ lines, ∀ b ∈ lines, f a = f b → a = b)
    {placed : List Place} (hplaced : ∀ p ∈ placed, p.line ∈ lines) {line : Int}
    (hline : line ∈ lines) :
    levelOf (placed.map (Place.renumber f)) (f line) = levelOf placed line := by
  rw [levelOf, find?_renumber hf hplaced hline, levelOf, Option.map_map]
  rfl

theorem openFor_renumber (indent : Depth) (above : List Task) :
    openFor indent (above.map (Task.renumber f)) = (openFor indent above).map (Task.renumber f) :=
  List.dropWhile_map

theorem placeUnder_renumber (hf : ∀ a ∈ lines, ∀ b ∈ lines, f a = f b → a = b)
    {placed : List Place} (hplaced : ∀ p ∈ placed, p.line ∈ lines) {above : List Task}
    (habove : ∀ task ∈ above, task.line ∈ lines) (task : Task) :
    placeUnder (above.map (Task.renumber f)) (placed.map (Place.renumber f)) (task.renumber f) =
      (placeUnder above placed task).renumber f := by
  cases above with
  | nil => rfl
  | cons parent above =>
    have hlevel := levelOf_renumber hf hplaced (habove parent List.mem_cons_self)
    exact congrArg (fun level => Place.mk (f task.line) (some (f parent.line)) (level + 1)) hlevel

theorem placesFrom_renumber (hf : ∀ a ∈ lines, ∀ b ∈ lines, f a = f b → a = b)
    {above : List Task} {placed : List Place} {tasks : List Task}
    (habove : ∀ task ∈ above, task.line ∈ lines) (hplaced : ∀ p ∈ placed, p.line ∈ lines)
    (htasks : ∀ task ∈ tasks, task.line ∈ lines) :
    placesFrom (above.map (Task.renumber f)) (placed.map (Place.renumber f))
        (tasks.map (Task.renumber f)) =
      (placesFrom above placed tasks).map (Place.renumber f) := by
  induction tasks generalizing above placed with
  | nil => rfl
  | cons task rest ih =>
    have hopen : ∀ other ∈ openFor task.indent above, other.line ∈ lines :=
      fun other hother => habove other (mem_of_mem_openFor hother)
    have hplace := placeUnder_renumber hf hplaced hopen task
    have htask := htasks task List.mem_cons_self
    have hline : (placeUnder (openFor task.indent above) placed task).line ∈ lines := by
      rwa [placeUnder_line]
    have hrest := ih (List.forall_mem_cons.mpr ⟨htask, hopen⟩)
      (List.forall_mem_cons.mpr ⟨hline, hplaced⟩)
      (fun other hother => htasks other (List.mem_cons_of_mem task hother))
    rw [List.map_cons, placesFrom, placesFrom, List.map_cons, ← hrest, List.map_cons,
      List.map_cons, ← hplace, ← openFor_renumber]
    rfl

/-- The lines placed under a line, with other numbers. -/
theorem childLines_renumber {ps : List Place} {parent : Option Int}
    (h : ∀ p ∈ ps, p.parent.map f = parent.map f → p.parent = parent) :
    childLines (ps.map (Place.renumber f)) (parent.map f) = (childLines ps parent).map f := by
  have hfilter : ps.filter ((·.parent == parent.map f) ∘ Place.renumber f) =
      ps.filter (·.parent == parent) := by
    refine List.filter_congr fun p hp => ?_
    rw [Bool.eq_iff_iff, Function.comp_apply, beq_iff_eq, beq_iff_eq]
    exact ⟨h p hp, fun heq => congrArg (Option.map f) heq⟩
  rw [childLines, childLines, List.filter_map, hfilter, List.map_map, List.map_map]
  rfl

theorem node_renumber (hf : ∀ a ∈ lines, ∀ b ∈ lines, f a = f b → a = b) {placed : List Place}
    (hplaced : ∀ p ∈ placed, p.line ∈ lines)
    (hparents : ∀ p ∈ placed, ∀ line, p.parent = some line → line ∈ lines) {task : Task}
    (htask : task.line ∈ lines) :
    node (placed.map (Place.renumber f)) (task.renumber f) = (node placed task).renumber f := by
  have hfind := find?_renumber hf hplaced htask
  have hunder : childLines (placed.reverse.map (Place.renumber f)) (some (f task.line)) =
      (childLines placed.reverse (some task.line)).map f := by
    refine @childLines_renumber _ _ (some task.line) fun p hp hsome => ?_
    obtain ⟨line, hparent, heq⟩ := Option.map_eq_some_iff.mp hsome
    rw [hparent, hf line (hparents p (List.mem_reverse.mp hp) line hparent) _ htask heq]
  rw [node, Node.renumber, Node.mk.injEq]
  refine ⟨rfl, levelOf_renumber hf hplaced htask, ?_, ?_⟩
  · change ((placed.map (Place.renumber f)).find? (·.line == f task.line)).bind (·.parent) = _
    rw [hfind, node]
    cases placed.find? (·.line == task.line) <;> rfl
  · rw [← List.map_reverse]
    exact hunder

/-- **An outline of renumbered tasks is renumbered**, where the numbers stay
apart. -/
theorem ofTasks_renumber {tasks : List Task}
    (hf : ∀ a ∈ tasks.map (·.line), ∀ b ∈ tasks.map (·.line), f a = f b → a = b) :
    ofTasks (tasks.map (Task.renumber f)) = (ofTasks tasks).renumber f := by
  have hmem : ∀ task ∈ tasks, task.line ∈ tasks.map (·.line) :=
    fun task htask => List.mem_map_of_mem htask
  have hplaces : places (tasks.map (Task.renumber f)) = (places tasks).map (Place.renumber f) :=
    @placesFrom_renumber _ _ hf [] [] tasks (by simp) (by simp) hmem
  have hline : ∀ p ∈ (places tasks).reverse, p.line ∈ tasks.map (·.line) := by
    intro p hp
    rw [← placesFrom_lines [] []]
    exact List.mem_map_of_mem (List.mem_reverse.mp hp)
  have hparents : ∀ p ∈ (places tasks).reverse, ∀ line, p.parent = some line →
      line ∈ tasks.map (·.line) :=
    fun p hp line hparent => @parent_mem [] [] tasks p (List.mem_reverse.mp hp) line hparent
  have hnodes : ∀ task ∈ tasks, linked (tasks.map (Task.renumber f)) (task.renumber f) =
      (linked tasks task).renumber f := by
    intro task htask
    rw [linked, hplaces, ← List.map_reverse]
    exact node_renumber hf hline hparents (hmem task htask)
  have hroots : (ofTasks (tasks.map (Task.renumber f))).rootLines =
      (ofTasks tasks).rootLines.map f := by
    rw [rootLines_ofTasks, rootLines_ofTasks, hplaces]
    exact @childLines_renumber _ _ none fun p _ hnone => Option.map_eq_none_iff.mp hnone
  have hall : (ofTasks (tasks.map (Task.renumber f))).nodes =
      (ofTasks tasks).nodes.map (Node.renumber f) := by
    rw [nodes_ofTasks, nodes_ofTasks, List.map_map, List.map_map]
    exact List.map_congr_left hnodes
  exact congrArg₂ Outline.mk hall hroots

end Renumber

/-! ## Fewer tasks -/

/-- The levels of the places that are looked at decide. -/
theorem placesFrom_congr {above : List Task} {placed placed' : List Place} {tasks : List Task}
    (h : ∀ task ∈ above, levelOf placed task.line = levelOf placed' task.line) :
    placesFrom above placed tasks = placesFrom above placed' tasks := by
  induction tasks generalizing above placed placed' with
  | nil => rfl
  | cons task rest ih =>
    have hplace : placeUnder (openFor task.indent above) placed task =
        placeUnder (openFor task.indent above) placed' task := by
      cases hopen : openFor task.indent above with
      | nil => rfl
      | cons parent others =>
        have hparent : parent ∈ above := mem_of_mem_openFor (hopen ▸ List.mem_cons_self)
        rw [placeUnder, placeUnder, h parent hparent]
    rw [placesFrom, placesFrom, hplace]
    refine congrArg _ (ih fun other hother => ?_)
    rw [levelOf, levelOf, List.find?_cons, List.find?_cons]
    split
    · rfl
    · rename_i hne
      rcases List.mem_cons.mp hother with rfl | hother
      · simp [placeUnder_line] at hne
      · exact h other (mem_of_mem_openFor hother)

theorem levelOf_append_of_notMem {ps : List Place} {line : Int}
    (h : line ∉ ps.map (·.line)) (placed : List Place) :
    levelOf (ps ++ placed) line = levelOf placed line := by
  have hnone : ps.find? (·.line == line) = none :=
    List.find?_eq_none.mpr fun p hp hline => h (List.mem_map.mpr ⟨p, hp, by simpa using hline⟩)
  rw [levelOf, List.find?_append, hnone, Option.none_or]
  rfl

/-- What is looked up among the lines that stay is found there. -/
theorem find?_filter_notMem (gone : List Int) (placed : List Place) {line : Int}
    (hline : line ∉ gone) :
    (placed.filter fun p => p.line ∉ gone).find? (·.line == line) =
      placed.find? (·.line == line) := by
  rw [List.find?_filter]
  congr 1
  funext p
  by_cases h : p.line = line <;> simp [h, hline]

theorem childLines_filter_notMem (gone : List Int) (ps : List Place) (parent : Option Int) :
    childLines (ps.filter fun p => p.line ∉ gone) parent =
      (childLines ps parent).filter (· ∉ gone) := by
  rw [childLines, childLines, List.filter_map, List.filter_comm]
  rfl

/-- Without some lines, a task that stays has the links that it had, but for
those to the lines that are gone. -/
theorem node_filter_notMem (gone : List Int) (placed : List Place) {task : Task}
    (htask : task.line ∉ gone) :
    node (placed.filter fun p => p.line ∉ gone) task =
      { node placed task with subtasks := (node placed task).subtasks.filter (· ∉ gone) } := by
  have hfind := find?_filter_notMem gone placed htask
  rw [node, node, Node.mk.injEq, levelOf, levelOf, hfind, ← List.filter_reverse]
  exact ⟨rfl, rfl, rfl, childLines_filter_notMem gone _ _⟩

theorem mem_of_mem_openAfter {above front : List Task} {task : Task}
    (h : task ∈ openAfter above front) : task ∈ above ∨ task ∈ front := by
  induction front generalizing above with
  | nil => exact .inl h
  | cons first front ih =>
    rcases ih h with hmem | hmem
    · rcases List.mem_cons.mp hmem with rfl | hmem
      · exact .inr List.mem_cons_self
      · exact .inl (mem_of_mem_openFor hmem)
    · exact .inr (List.mem_cons_of_mem first hmem)

/-! ## The numbers that are left -/

theorem countP_lt_succ {gone : List Int} (h : gone.Nodup) (line : Int) :
    gone.countP (· < line + 1) = gone.countP (· < line) + if line ∈ gone then 1 else 0 := by
  induction gone with
  | nil => rfl
  | cons other gone ih =>
    obtain ⟨hnew, hrest⟩ := List.nodup_cons.mp h
    rw [List.countP_cons, List.countP_cons, ih hrest]
    by_cases hline : line = other
    · subst hline
      have hlt : line < line + 1 := by omega
      simp [hnew, hlt]
    · have hlt : other < line + 1 ↔ other < line := by omega
      simp only [List.mem_cons, hline, false_or, hlt]
      omega

/-- A line that stays takes the next number, and one that goes takes none. -/
theorem moved_succ {gone : List Int} (h : gone.Nodup) (line : Int) :
    moved gone (line + 1) = moved gone line + if line ∈ gone then 0 else 1 := by
  rw [moved, moved, countP_lt_succ h]
  split <;> omega

/-- Lines that stay keep their order. -/
theorem moved_lt_moved {gone : List Int} (h : gone.Nodup) {a : Int} (ha : a ∉ gone) (n : Nat) :
    moved gone a < moved gone (a + 1 + n) := by
  induction n with
  | zero =>
    rw [Int.natCast_zero, Int.add_zero, moved_succ h, if_neg ha]
    omega
  | succ n ih =>
    rw [Int.natCast_succ, ← Int.add_assoc, moved_succ h]
    split <;> omega

/-- Lines that stay have different numbers. -/
theorem moved_injOn {gone : List Int} (h : gone.Nodup) {a b : Int} (ha : a ∉ gone) (hb : b ∉ gone)
    (heq : moved gone a = moved gone b) : a = b := by
  rcases Int.lt_trichotomy a b with hlt | rfl | hlt
  · have hmoved := moved_lt_moved h ha (b - a - 1).toNat
    rw [show a + 1 + ((b - a - 1).toNat : Int) = b by omega] at hmoved
    omega
  · rfl
  · have hmoved := moved_lt_moved h hb (a - b - 1).toNat
    rw [show b + 1 + ((a - b - 1).toNat : Int) = a by omega] at hmoved
    omega

/-! ## Without a task and its block -/

namespace BlockAt

variable {tasks front block back : List Task} {task : Task}

theorem gone_sublist (h : BlockAt tasks front task block back) :
    ((task :: block).map (·.line)).Sublist (tasks.map (·.line)) := by
  rw [h.tasks_eq, ← List.cons_append]
  exact ((List.sublist_append_left _ back).trans (List.sublist_append_right front _)).map _

theorem gone_nodup (h : BlockAt tasks front task block back) :
    ((task :: block).map (·.line)).Nodup := h.distinct.sublist h.gone_sublist

/-- The lines of a task and its block are not those of the other tasks. -/
theorem notMem_gone (h : BlockAt tasks front task block back) {other : Task}
    (hother : other ∈ front ++ back) : other.line ∉ (task :: block).map (·.line) := by
  have hdistinct := h.distinct
  rw [h.tasks_eq, ← List.cons_append] at hdistinct
  have hperm : (front ++ ((task :: block) ++ back)).Perm ((task :: block) ++ (front ++ back)) := by
    rw [← List.append_assoc, ← List.append_assoc]
    exact List.perm_append_comm.append_right back
  have happart := (hperm.map (·.line)).nodup_iff.mp hdistinct
  rw [List.map_append, List.nodup_append] at happart
  intro hgone
  exact happart.2.2 _ hgone _ (List.mem_map_of_mem hother) rfl

theorem linked_mem (h : BlockAt tasks front task block back) {other : Task}
    (hother : other ∈ front ++ back) : linked tasks other ∈ (ofTasks tasks).nodes := by
  rw [nodes_ofTasks]
  refine List.mem_map_of_mem ?_
  rw [h.tasks_eq, List.mem_append, List.mem_cons, List.mem_append]
  exact (List.mem_append.mp hother).imp_right fun hback => .inr (.inr hback)

theorem filter_tasks (h : BlockAt tasks front task block back) :
    tasks.filter (fun other => other.line ∉ (task :: block).map (·.line)) = front ++ back := by
  have hkept : ∀ {others : List Task}, (∀ other ∈ others, other ∈ front ++ back) →
      others.filter (fun other => other.line ∉ (task :: block).map (·.line)) = others := by
    intro others hothers
    refine List.filter_eq_self.mpr fun other hother => ?_
    simpa using h.notMem_gone (hothers other hother)
  have hgone : (task :: block).filter
      (fun other => other.line ∉ (task :: block).map (·.line)) = [] := by
    refine List.filter_eq_nil_iff.mpr fun other hother hstays => ?_
    exact of_decide_eq_true hstays (List.mem_map_of_mem hother)
  rw [h.tasks_eq, ← List.cons_append, List.filter_append, List.filter_append, hgone,
    List.nil_append, hkept fun other hother => List.mem_append_left _ hother,
    hkept fun other hother => List.mem_append_right _ hother]

/-- What comes behind the block is placed as it would be without it. -/
theorem placesFrom_back (h : BlockAt tasks front task block back) (ps : List Place)
    (hps : ps.map (·.line) = ((task :: block).map (·.line)).reverse) (placed : List Place) :
    placesFrom (openAfter (openAfter [] front) (task :: block)) (ps ++ placed) back =
      placesFrom (openAfter [] front) placed back := by
  cases back with
  | nil => rfl
  | cons next back =>
    rw [← placesFrom_openFor, openAfter, h.openFor_after rfl, ← placesFrom_openFor (openAfter [] _)]
    refine placesFrom_congr fun other hother => levelOf_append_of_notMem ?_ placed
    have hfront : other ∈ front :=
      (mem_of_mem_openAfter (mem_of_mem_openFor hother)).resolve_left List.not_mem_nil
    rw [hps, List.mem_reverse]
    exact h.notMem_gone (List.mem_append_left _ hfront)

/-- The places of the other tasks are the same without the task and its
block. -/
theorem places_eq (h : BlockAt tasks front task block back) :
    places (front ++ back) =
      (places tasks).filter fun p => p.line ∉ (task :: block).map (·.line) := by
  have hall : places tasks = placesFrom [] [] front ++
      (placesFrom (openAfter [] front) (placesFrom [] [] front).reverse (task :: block) ++
        placesFrom (openAfter [] front) (placesFrom [] [] front).reverse back) := by
    rw [places, h.tasks_eq, ← List.cons_append, placesFrom_append, List.append_nil,
      placesFrom_append, h.placesFrom_back]
    rw [List.map_reverse, placesFrom_lines]
  have hkept : ∀ {ps : List Place} {others : List Task},
      ps.map (·.line) = others.map (·.line) → (∀ other ∈ others, other ∈ front ++ back) →
      ps.filter (fun p => p.line ∉ (task :: block).map (·.line)) = ps := by
    intro ps others hlines hothers
    refine List.filter_eq_self.mpr fun p hp => ?_
    have hline : p.line ∈ others.map (·.line) := hlines ▸ List.mem_map_of_mem hp
    obtain ⟨other, hother, heq⟩ := List.mem_map.mp hline
    rw [← heq]
    simpa using h.notMem_gone (hothers other hother)
  have hgone : (placesFrom (openAfter [] front) (placesFrom [] [] front).reverse
      (task :: block)).filter (fun p => p.line ∉ (task :: block).map (·.line)) = [] := by
    refine List.filter_eq_nil_iff.mpr fun p hp hstays => of_decide_eq_true hstays ?_
    rw [← placesFrom_lines (openAfter [] front) (placesFrom [] [] front).reverse]
    exact List.mem_map_of_mem hp
  rw [hall, List.filter_append, List.filter_append, hgone, List.nil_append,
    hkept (placesFrom_lines _ _ _) fun other hother => List.mem_append_left _ hother,
    hkept (placesFrom_lines _ _ _) fun other hother => List.mem_append_right _ hother, places,
    placesFrom_append, List.append_nil]

/-- A task that stays was not nested under one that goes. -/
theorem parent_notMem_gone (h : BlockAt tasks front task block back) {node : Node}
    (hnode : node ∈ (ofTasks tasks).nodes) (hstays : node.line ∉ (task :: block).map (·.line))
    {line : Int} (hparent : node.parent = some line) :
    line ∉ (task :: block).map (·.line) := by
  obtain ⟨i, hi⟩ := List.mem_iff_getElem?.mp hnode
  obtain ⟨p, hp, -, hline, hparent', -⟩ := exists_place h.distinct hi
  have hmem : p ∈ places (front ++ back) := by
    rw [h.places_eq, List.mem_filter]
    exact ⟨List.mem_of_getElem? hp, by rw [hline]; simpa using hstays⟩
  have hline := parent_mem hmem (hparent'.symm.trans hparent)
  rw [List.nil_append] at hline
  obtain ⟨other, hother, rfl⟩ := List.mem_map.mp hline
  exact h.notMem_gone hother

/-- **A task that goes together with its block leaves the rest of an outline
as it was.** -/
theorem ofTasks_without (h : BlockAt tasks front task block back) :
    ofTasks (front ++ back) = (ofTasks tasks).without ((task :: block).map (·.line)) := by
  have hnode : ∀ other ∈ front ++ back, linked (front ++ back) other =
      { linked tasks other with
        subtasks := (linked tasks other).subtasks.filter (· ∉ (task :: block).map (·.line)) } := by
    intro other hother
    rw [linked, h.places_eq, ← List.filter_reverse]
    exact node_filter_notMem _ _ (h.notMem_gone hother)
  have hnodes : (ofTasks (front ++ back)).nodes =
      ((ofTasks tasks).without ((task :: block).map (·.line))).nodes := by
    rw [nodes_ofTasks, without, nodes_ofTasks, List.filter_map, List.map_map]
    refine (List.map_congr_left hnode).trans ?_
    rw [← h.filter_tasks]
    rfl
  have hroots : (ofTasks (front ++ back)).rootLines =
      ((ofTasks tasks).without ((task :: block).map (·.line))).rootLines := by
    rw [rootLines_ofTasks, h.places_eq, childLines_filter_notMem, without, rootLines_ofTasks]
  exact congrArg₂ Outline.mk hnodes hroots

end BlockAt

end Outline

end TaskList
