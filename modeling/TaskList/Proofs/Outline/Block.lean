/-
TaskList.Proofs.Outline.Block — what is nested under a task is the block of
lines below it.

* `Outline.openAfter` — the tasks that are open when some more are passed.
  `Reached.after` carries what holds at one task over to a later one.
* `Outline.BlockAt` — a document cut at a task: the tasks above it, its block
  of deeper ones, and the rest, which starts with one that closes the block.
* `BlockAt.nested_eq` — the lines nested under the task are those of its
  block, from top to bottom.

The walk below the task ends where its block ends, because what waits on the
stack then is what waits above the task (`BlockAt.waiting_eq`).
-/
import TaskList.Proofs.Outline.Nearest
import TaskList.Proofs.Outline.Walk

namespace TaskList

/-- Of two lines that can be measured, one is indented less or as deep at
least. -/
theorem Depth.atLeast_of_isLess {a b : Depth} (ha : a ≠ .unmeasured) (hb : b ≠ .unmeasured)
    (h : a.isLess b = true) : b.atLeast a = true := by
  cases a with
  | unmeasured => exact absurd rfl ha
  | level m =>
    cases b with
    | unmeasured => exact absurd rfl hb
    | level n =>
      have hlt : m < n := by simpa [isLess_level] using h
      simpa [atLeast] using Int.le_of_lt hlt

namespace Outline

/-! ## Passing several tasks -/

/-- The tasks that are open behind further ones. -/
def openAfter (above : List Task) : List Task → List Task
  | [] => above
  | task :: rest => openAfter (task :: openFor task.indent above) rest

/-- The places of tasks in two parts. -/
theorem placesFrom_append (above : List Task) (placed : List Place) (front rest : List Task) :
    placesFrom above placed (front ++ rest) =
      placesFrom above placed front ++
        placesFrom (openAfter above front) ((placesFrom above placed front).reverse ++ placed)
          rest := by
  induction front generalizing above placed with
  | nil => rfl
  | cons task front ih =>
    rw [List.cons_append, placesFrom, ih, placesFrom, openAfter, List.cons_append,
      List.reverse_cons, List.append_assoc]
    rfl

/-- What holds at one task holds at a later one. -/
theorem Reached.after {tasks above front rest : List Task} {passed placed : List Place}
    (h : Reached tasks passed above placed (front ++ rest)) :
    Reached tasks (passed ++ placesFrom above placed front) (openAfter above front)
      ((placesFrom above placed front).reverse ++ placed) rest := by
  induction front generalizing above passed placed with
  | nil => simpa [placesFrom, openAfter] using h
  | cons task front ih =>
    have hnext := ih h.next
    rw [placesFrom, openAfter, List.reverse_cons, List.append_assoc]
    rwa [List.append_assoc] at hnext

/-- Places elsewhere add nothing to what waits. -/
theorem waiting_append {above : List Task} {ps : List Place}
    (h : ∀ p ∈ ps, p.parent ≠ none ∧ ∀ other ∈ above, p.parent ≠ some other.line)
    (qs : List Place) : waiting above (ps ++ qs) = waiting above qs := by
  have hroots : childLines (ps ++ qs) none = childLines qs none := by
    rw [childLines_append, childLines_eq_nil fun p hp => (h p hp).1, List.nil_append]
  have hunder : above.map (fun task => childLines (ps ++ qs) (some task.line)) =
      above.map fun task => childLines qs (some task.line) := by
    refine List.map_congr_left fun other hother => ?_
    rw [childLines_append, childLines_eq_nil fun p hp => (h p hp).2 other hother, List.nil_append]
  rw [waiting, waiting, hroots, List.flatMap_def, hunder, ← List.flatMap_def]

/-- A walk that ends comes to the same end with any number of steps that is
enough. -/
theorem visit_unique {o : Outline} {steps steps' : Nat} {stack nodes nodes' : List Node}
    (h : o.visit steps stack = .ok nodes) (h' : o.visit steps' stack = .ok nodes') :
    nodes = nodes' := by
  induction steps generalizing steps' stack nodes nodes' with
  | zero =>
    cases stack with
    | nil =>
      rw [visit, Except.ok.injEq] at h h'
      exact h.symm.trans h'
    | cons node stack => simp [visit] at h
  | succ steps ih =>
    cases stack with
    | nil =>
      rw [visit, Except.ok.injEq] at h h'
      exact h.symm.trans h'
    | cons node stack =>
      obtain ⟨left, subtasks, more, hleft, hsubtasks, hmore, rfl⟩ := visit_cons_eq_ok h
      obtain ⟨left', subtasks', more', -, hsubtasks', hmore', rfl⟩ := visit_cons_eq_ok h'
      obtain rfl : steps = left := by omega
      rw [hsubtasks, Except.ok.injEq] at hsubtasks'
      subst hsubtasks'
      rw [ih hmore hmore']

/-! ## Blocks -/

/-- The tasks that a line closes stand in front of the first one that it
does not close. -/
theorem openFor_append_cons {indent : Depth} {task : Task} (h : task.indent.isLess indent = true)
    (inner above : List Task) :
    openFor indent (inner ++ task :: above) = openFor indent inner ++ task :: above := by
  induction inner with
  | nil => exact openFor_cons_of_isLess h above
  | cons other inner ih =>
    cases hother : other.indent.atLeast indent with
    | true => rw [List.cons_append, openFor_cons_of_atLeast hother, ih,
        openFor_cons_of_atLeast hother]
    | false =>
      have hless : other.indent.isLess indent = true := by simp [Depth.isLess, hother]
      rw [List.cons_append, openFor_cons_of_isLess hless, openFor_cons_of_isLess hless,
        List.cons_append]

/-- What holds of the tasks that are open inside of a block, and of the
places that are given there: a task under which deeper ones follow stays
open, and they are placed under it or under each other. -/
theorem exists_inner {task : Task} {block : List Task} (inner above : List Task)
    (placed : List Place)
    (hdeeper : ∀ other ∈ block, task.indent.isLess other.indent = true) :
    (∃ inner', openAfter (inner ++ task :: above) block = inner' ++ task :: above ∧
      ∀ other ∈ inner', other ∈ inner ∨ other ∈ block) ∧
    ∀ p ∈ placesFrom (inner ++ task :: above) placed block, ∃ other,
      (other ∈ inner ∨ other = task ∨ other ∈ block) ∧ p.parent = some other.line := by
  induction block generalizing inner placed with
  | nil => exact ⟨⟨inner, rfl, fun _ hother => .inl hother⟩, by simp [placesFrom]⟩
  | cons first block ih =>
    have hfirst := hdeeper first List.mem_cons_self
    have hrest : ∀ other ∈ block, task.indent.isLess other.indent = true :=
      fun other hother => hdeeper other (List.mem_cons_of_mem first hother)
    have hstill := openFor_append_cons hfirst inner above
    obtain ⟨⟨inner', hafter, hinner'⟩, hplaces⟩ := ih (first :: openFor first.indent inner)
      (placeUnder (openFor first.indent inner ++ task :: above) placed first :: placed) hrest
    -- what is open inside of the block comes from the block or was open before
    have hfrom : ∀ other ∈ first :: openFor first.indent inner,
        other ∈ inner ∨ other ∈ first :: block := by
      intro other hother
      rcases List.mem_cons.mp hother with rfl | hother
      · exact .inr List.mem_cons_self
      · exact .inl (mem_of_mem_openFor hother)
    refine ⟨⟨inner', ?_, fun other hother => ?_⟩, fun p hp => ?_⟩
    · rw [openAfter, hstill]
      exact hafter
    · rcases hinner' other hother with hother | hother
      · exact hfrom other hother
      · exact .inr (List.mem_cons_of_mem first hother)
    · rw [placesFrom, hstill, List.mem_cons] at hp
      rcases hp with rfl | hp
      · cases hopen : openFor first.indent inner with
        | nil => exact ⟨task, .inr (.inl rfl), rfl⟩
        | cons parent others =>
          refine ⟨parent, .inl (mem_of_mem_openFor (hopen ▸ List.mem_cons_self)), rfl⟩
      · obtain ⟨other, hother, hparent⟩ := hplaces p hp
        refine ⟨other, ?_, hparent⟩
        rcases hother with hother | rfl | hother
        · rcases hfrom other hother with hother | hother
          · exact .inl hother
          · exact .inr (.inr hother)
        · exact .inr (.inl rfl)
        · exact .inr (.inr (List.mem_cons_of_mem first hother))

/-- A document cut at a task: the tasks above it, the block of deeper ones
below it, and the rest. -/
structure BlockAt (tasks front : List Task) (task : Task) (block back : List Task) : Prop where
  tasks_eq : tasks = front ++ task :: (block ++ back)
  /-- Lines are different. -/
  distinct : (tasks.map (·.line)).Nodup
  /-- The block is indented deeper than the task. -/
  deeper : ∀ other ∈ block, task.indent.isLess other.indent = true
  /-- The next line closes the task and its block. -/
  closed : ∀ next ∈ back.head?, ∀ other ∈ task :: block, other.indent.atLeast next.indent = true

/-- Where all lines can be measured, the block of a task ends in front of the
first line that is not deeper. -/
theorem BlockAt.of_measured {tasks front rest : List Task} {task : Task}
    (htasks : tasks = front ++ task :: rest) (hlines : (tasks.map (·.line)).Nodup)
    (hmeasured : ∀ other ∈ tasks, other.indent ≠ .unmeasured) :
    BlockAt tasks front task (rest.takeWhile fun other => task.indent.isLess other.indent)
      (rest.dropWhile fun other => task.indent.isLess other.indent) where
  tasks_eq := by rw [List.takeWhile_append_dropWhile, htasks]
  distinct := hlines
  deeper := fun other hother => List.all_eq_true.mp List.all_takeWhile other hother
  closed := by
    intro next hnext other hother
    have htask : task.indent.atLeast next.indent = true := by
      have hnot := List.head?_dropWhile_not (fun other => task.indent.isLess other.indent) rest
      rw [Option.mem_def.mp hnext] at hnot
      simpa [Depth.isLess] using hnot
    rcases List.mem_cons.mp hother with rfl | hother
    · exact htask
    · -- a line of the block is deeper than the task, which is as deep as the next line
      have hless := List.all_eq_true.mp List.all_takeWhile other hother
      have hmem : ∀ t ∈ task :: rest, t.indent ≠ .unmeasured := fun t ht =>
        hmeasured t (by rw [htasks]; exact List.mem_append_right _ ht)
      have hdeeper := Depth.atLeast_of_isLess (hmem task List.mem_cons_self)
        (hmem other (List.mem_cons_of_mem _ ((List.takeWhile_sublist _).subset hother))) hless
      exact Depth.atLeast_trans hdeeper htask

namespace BlockAt

variable {tasks front block back : List Task} {task : Task}

/-- What holds when the tasks in front are passed. -/
theorem reached (h : BlockAt tasks front task block back) :
    Reached tasks (placesFrom [] [] front) (openAfter [] front) (placesFrom [] [] front).reverse
      (task :: (block ++ back)) := by
  have hfirst := Reached.first h.distinct
  rw [h.tasks_eq] at hfirst
  have hafter := hfirst.after
  rw [List.nil_append, List.append_nil] at hafter
  rwa [← h.tasks_eq] at hafter

/-- What is open behind the block: some of it, the task, and what the task
left open. -/
theorem openAfter_eq (h : BlockAt tasks front task block back) (above : List Task) :
    ∃ inner, openAfter (task :: openFor task.indent above) block =
        inner ++ task :: openFor task.indent above ∧ ∀ other ∈ inner, other ∈ block := by
  obtain ⟨⟨inner, hafter, hinner⟩, -⟩ := exists_inner [] (openFor task.indent above) [] h.deeper
  exact ⟨inner, hafter, fun other hother => (hinner other hother).resolve_left List.not_mem_nil⟩

/-- The next line closes the whole block, so it finds open what it would have
found open without the block. -/
theorem openFor_after (h : BlockAt tasks front task block back) {next : Task}
    (hnext : next ∈ back.head?) (above : List Task) :
    openFor next.indent (openAfter (task :: openFor task.indent above) block) =
      openFor next.indent above := by
  obtain ⟨inner, hafter, hinner⟩ := h.openAfter_eq above
  have hclosed : ∀ other ∈ inner, other.indent.atLeast next.indent = true := fun other hother =>
    h.closed next hnext other (List.mem_cons_of_mem task (hinner other hother))
  have htask := h.closed next hnext task List.mem_cons_self
  rw [hafter, openFor, List.dropWhile_append_of_pos hclosed]
  exact (openFor_cons_of_atLeast htask _).trans (openFor_openFor htask above)

/-- The places of the block are under the task or inside of the block. -/
theorem parent_block (h : BlockAt tasks front task block back) {above : List Task}
    {placed : List Place} {p : Place} (hp : p ∈ placesFrom (task :: above) placed block) :
    ∃ other ∈ task :: block, p.parent = some other.line := by
  obtain ⟨-, hplaces⟩ := exists_inner [] above placed h.deeper
  obtain ⟨other, hother, hparent⟩ := hplaces p hp
  refine ⟨other, ?_, hparent⟩
  rcases hother with hother | rfl | hother
  · exact absurd hother List.not_mem_nil
  · exact List.mem_cons_self
  · exact List.mem_cons_of_mem task hother

/-! ## The walk below a task -/

section Walk

variable {passed placed : List Place} {above : List Task}

/-- The lines of what stays open are none of the task and its block. -/
theorem line_ne_of_open (hreached : Reached tasks passed above placed (task :: (block ++ back)))
    {other inside : Task} (hother : other ∈ openFor task.indent above)
    (hinside : inside ∈ task :: block) : inside.line ≠ other.line := by
  have hdistinct := hreached.distinct_open
  rw [List.map_append, List.nodup_append] at hdistinct
  have hmem : inside ∈ task :: (block ++ back) :=
    (List.sublist_append_left (task :: block) back).subset hinside
  intro hline
  exact hdistinct.2.2 _ (List.mem_map_of_mem hother) _ (List.mem_map_of_mem hmem) hline.symm

/-- Nothing behind the block is placed under the task or inside of the
block. -/
theorem parent_back (h : BlockAt tasks front task block back)
    (hreached : Reached tasks passed (openAfter (task :: openFor task.indent above) block) placed
      back) {inner : List Task}
    (hafter : openAfter (task :: openFor task.indent above) block =
      inner ++ task :: openFor task.indent above) :
    ∀ other ∈ inner ++ [task], ∀ p ∈ placesFrom
      (openAfter (task :: openFor task.indent above) block) placed back,
      p.parent ≠ some other.line := by
  cases back with
  | nil => simp [placesFrom]
  | cons next back =>
    obtain ⟨closed, hclosed⟩ := openFor_split next.indent (openFor task.indent above)
    have htask := h.closed next rfl task List.mem_cons_self
    have hsplit : openAfter (task :: openFor task.indent above) block =
        (inner ++ task :: closed) ++
          openFor next.indent (openAfter (task :: openFor task.indent above) block) := by
      rw [h.openFor_after rfl, ← openFor_openFor htask, List.append_assoc, List.cons_append,
        ← hclosed, hafter]
    intro other hother
    refine hreached.parent_ne_closed hsplit other ?_
    simp only [List.mem_append, List.mem_cons, List.not_mem_nil, or_false] at hother ⊢
    exact hother.imp_right .inl

/-- Behind the block, what waits on the stack is what waits above the task. -/
theorem waiting_eq (h : BlockAt tasks front task block back)
    (hreached : Reached tasks passed above placed (task :: (block ++ back))) :
    waiting (openFor task.indent above)
        (placesFrom (task :: openFor task.indent above)
          (placeUnder (openFor task.indent above) placed task :: placed) (block ++ back)) =
      waiting (openAfter (task :: openFor task.indent above) block)
        (placesFrom (openAfter (task :: openFor task.indent above) block)
          ((placesFrom (task :: openFor task.indent above)
            (placeUnder (openFor task.indent above) placed task :: placed) block).reverse ++
              placeUnder (openFor task.indent above) placed task :: placed) back) := by
  obtain ⟨inner, hafter, -⟩ := h.openAfter_eq above
  have hback := h.parent_back hreached.next.after hafter
  have hblock : ∀ p ∈ placesFrom (task :: openFor task.indent above)
      (placeUnder (openFor task.indent above) placed task :: placed) block,
      p.parent ≠ none ∧ ∀ other ∈ openFor task.indent above, p.parent ≠ some other.line := by
    intro p hp
    obtain ⟨inside, hinside, hparent⟩ := h.parent_block hp
    rw [hparent]
    refine ⟨by simp, fun other hother hline => ?_⟩
    exact line_ne_of_open hreached hother hinside (Option.some.inj hline)
  rw [placesFrom_append, waiting_append hblock]
  have hsplit := hafter.trans (List.append_cons inner task (openFor task.indent above))
  rw [hsplit] at hback ⊢
  exact (waiting_of_closed hback).symm

/-- **What is nested under a task is its block**, from top to bottom. -/
theorem nested_eq (h : BlockAt tasks front task block back) :
    (ofTasks tasks).nested (linked tasks task) = .ok (block.map (·.line)) := by
  have hreached := h.reached
  obtain ⟨below, behind, stack, steps, hrest, hnested, hstack, hvisit⟩ :=
    hreached.exists_nested h.distinct
  -- what waits below the task is what waits behind its block
  obtain ⟨stack', hstack', hvisit'⟩ := hreached.next.after.visit_waiting h.distinct
  rw [h.waiting_eq hreached, hstack', Except.ok.injEq] at hstack
  subst hstack
  have hbehind := visit_unique hvisit (hvisit' back.length (Nat.le_refl _))
  obtain rfl : behind = back := List.map_injective_iff.mpr (linked_injective tasks) hbehind
  rw [hnested, List.append_cancel_right hrest]

end Walk

end BlockAt

end Outline

end TaskList
