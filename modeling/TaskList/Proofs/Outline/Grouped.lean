/-
TaskList.Proofs.Outline.Grouped — the groups of an outline, and the lines listed in
them.

* `eraseDups_flatMap_names` — the names that tasks carry come in the order in which the
  tasks mention them, repeats or no repeats.
* `Outline.foldl_listUnder` — lines that are put under names one by one.
* `Outline.Lists` — what is promised of the groups of some tasks: which there are, in
  which order, and with which lines.
* `Outline.index_lists` — the index of an outline keeps that promise where no two tasks
  have one line number.
-/
import Mathlib.Data.List.Nodup
import TaskList.Proofs.Line.Recorded
import TaskList.Proofs.Outline.Links

namespace TaskList

/-- The names of a kind of group in the order in which a task mentions them. -/
def Task.mentioned (task : Task) (group : Group) : List Text :=
  (task.mentions group).map (·.value)

/-! ## Each name once -/

section Once

theorem eraseDups_concat (names : List Text) (name : Text) :
    (names ++ [name]).eraseDups =
      if name ∈ names then names.eraseDups else names.eraseDups ++ [name] := by
  rw [List.eraseDups_append]
  by_cases h : name ∈ names <;> simp [List.removeAll, h, List.eraseDups_cons]

theorem nodup_eraseDups (names : List Text) : names.eraseDups.Nodup := by
  refine (Task.pairwise_idxOf_eraseDups names).imp ?_
  rintro a b h rfl
  exact Nat.lt_irrefl _ h

/-- Repeats that are dropped early would be dropped later. -/
theorem eraseDups_append_eraseDups (front back : List Text) :
    (front ++ back.eraseDups).eraseDups = (front ++ back).eraseDups := by
  induction back using List.reverseRecOn with
  | nil => rfl
  | append_singleton back name ih =>
    rw [eraseDups_concat, ← List.append_assoc, eraseDups_concat, ← ih]
    by_cases hback : name ∈ back
    · rw [if_pos hback, if_pos (List.mem_append_right _ hback)]
    · rw [if_neg hback, ← List.append_assoc, eraseDups_concat]
      simp only [List.mem_append, List.mem_eraseDups]

theorem eraseDups_append_congr {front front' : List Text} (h : front.eraseDups = front'.eraseDups)
    (back : List Text) : (front ++ back).eraseDups = (front' ++ back).eraseDups := by
  have hmem : ∀ name, name ∈ front ↔ name ∈ front' := fun name => by
    rw [← List.mem_eraseDups, h, List.mem_eraseDups]
  rw [List.eraseDups_append, List.eraseDups_append, h]
  simp only [List.removeAll, List.elem_eq_mem, hmem]

/-- The names that tasks carry come in the order in which the tasks mention them. -/
theorem eraseDups_flatMap_names (tasks : List Task) (group : Group) :
    (tasks.flatMap (·.names group)).eraseDups = (tasks.flatMap (·.mentioned group)).eraseDups := by
  induction tasks using List.reverseRecOn with
  | nil => rfl
  | append_singleton tasks task ih =>
    simp only [List.flatMap_append, List.flatMap_singleton]
    rw [eraseDups_append_congr ih]
    exact eraseDups_append_eraseDups _ _

end Once

namespace Outline

/-! ## Lines put under names -/

section Listed

/-- The lines that come with a name. -/
def linesOf (pairs : List (Text × Int)) (name : Text) : List Int :=
  (pairs.filter fun pair => pair.1 = name).map (·.2)

theorem linesOf_append (front back : List (Text × Int)) (name : Text) :
    linesOf (front ++ back) name = linesOf front name ++ linesOf back name := by
  rw [linesOf, List.filter_append, List.map_append]
  rfl

theorem linesOf_singleton (pair : Text × Int) (name : Text) :
    linesOf [pair] name = if pair.1 = name then [pair.2] else [] := by
  by_cases h : pair.1 = name <;> simp [linesOf, h]

theorem linesOf_eq_nil {pairs : List (Text × Int)} {name : Text}
    (h : name ∉ pairs.map (·.1)) : linesOf pairs name = [] := by
  rw [linesOf, List.filter_eq_nil_iff.mpr, List.map_nil]
  exact fun pair hpair heq => h (of_decide_eq_true heq ▸ List.mem_map_of_mem hpair)

/-- A line is put under a name that is in a table already. -/
theorem listUnder_of_mem {line : Int} {name : Text} {names : List Text} (hnames : names.Nodup)
    (hname : name ∈ names) (lines : Text → List Int) :
    listUnder line name (names.map fun n => (n, lines n)) =
      names.map fun n => (n, lines n ++ if name = n then [line] else []) := by
  induction names with
  | nil => exact absurd hname List.not_mem_nil
  | cons first rest ih =>
    obtain ⟨hfirst, hrest⟩ := List.nodup_cons.mp hnames
    rw [List.map_cons, List.map_cons, listUnder]
    by_cases heq : first = name
    · have hsame : ∀ n ∈ rest, (n, lines n) = (n, lines n ++ if name = n then [line] else []) := by
        intro n hn
        have hne : name ≠ n := fun h => hfirst (heq ▸ h ▸ hn)
        rw [if_neg hne, List.append_nil]
      rw [if_pos heq, if_pos heq.symm, List.map_congr_left hsame, heq]
    · rw [if_neg heq, if_neg (Ne.symm heq), List.append_nil,
        ih hrest ((List.mem_cons.mp hname).resolve_left (Ne.symm heq))]

theorem listUnder_of_notMem {line : Int} {name : Text} {entries : List (Text × List Int)}
    (hname : name ∉ entries.map (·.1)) :
    listUnder line name entries = entries ++ [(name, [line])] := by
  induction entries with
  | nil => rfl
  | cons first rest ih =>
    rw [List.map_cons, List.mem_cons, not_or] at hname
    rw [listUnder, if_neg (Ne.symm hname.1), ih hname.2, List.cons_append]

/-- Lines that are put under names one by one end up so: each name once, in the order
in which the names came, with its lines in theirs. -/
theorem foldl_listUnder (pairs : List (Text × Int)) :
    pairs.foldl (fun entries pair => listUnder pair.2 pair.1 entries) [] =
      (pairs.map (·.1)).eraseDups.map fun name => (name, linesOf pairs name) := by
  induction pairs using List.reverseRecOn with
  | nil => rfl
  | append_singleton pairs pair ih =>
    rw [List.foldl_concat, ih, List.map_append, List.map_singleton, eraseDups_concat]
    by_cases hmem : pair.1 ∈ pairs.map (·.1)
    · rw [if_pos hmem, listUnder_of_mem (nodup_eraseDups _) (List.mem_eraseDups.mpr hmem)]
      exact List.map_congr_left fun name _ => by rw [linesOf_append, linesOf_singleton]
    · have hold : ∀ name ∈ (pairs.map (·.1)).eraseDups,
          (name, linesOf pairs name) = (name, linesOf (pairs ++ [pair]) name) := by
        intro name hname
        have hne : pair.1 ≠ name := fun h => hmem (h ▸ List.mem_eraseDups.mp hname)
        rw [linesOf_append, linesOf_singleton, if_neg hne, List.append_nil]
      have hnew : linesOf (pairs ++ [pair]) pair.1 = [pair.2] := by
        rw [linesOf_append, linesOf_eq_nil hmem, linesOf_singleton, if_pos rfl, List.nil_append]
      rw [if_neg hmem, List.map_append, List.map_singleton, hnew, ← List.map_congr_left hold]
      refine listUnder_of_notMem ?_
      simpa [List.map_map, Function.comp_def] using hmem

end Listed

/-! ## The groups of tasks -/

/-- What is promised of the groups of a kind that are listed for tasks. -/
structure Lists (tasks : List Task) (group : Group) (entries : List (Text × List Int)) :
    Prop where
  /-- A group is listed if some task carries its name, -/
  listed : ∀ name, name ∈ entries.map (·.1) ↔ ∃ task ∈ tasks, name ∈ task.names group
  /-- once, -/
  once : (entries.map (·.1)).Nodup
  /-- the groups in the order in which they are first mentioned, -/
  firstSeen : (entries.map (·.1)).Pairwise fun a b =>
    (tasks.flatMap (·.mentioned group)).idxOf a < (tasks.flatMap (·.mentioned group)).idxOf b
  /-- each with the lines of the tasks that carry the name, from top to bottom, -/
  lines : ∀ entry ∈ entries,
    entry.2 = (tasks.filter fun task => entry.1 ∈ task.names group).map (·.line)
  /-- and with no line twice. -/
  lines_once : ∀ entry ∈ entries, entry.2.Nodup

/-- Each name that a task carries, with the line of the task. -/
def carried (tasks : List Task) (group : Group) : List (Text × Int) :=
  tasks.flatMap fun task => (task.names group).map (·, task.line)

theorem carried_names (tasks : List Task) (group : Group) :
    (carried tasks group).map (·.1) = tasks.flatMap (·.names group) := by
  simp only [carried, List.map_flatMap, List.map_map, Function.comp_def, List.map_id']

/-- A task carries a name once, so its line comes once with it. -/
theorem linesOf_names (task : Task) (group : Group) (name : Text) :
    linesOf ((task.names group).map (·, task.line)) name =
      if name ∈ task.names group then [task.line] else [] := by
  by_cases hmem : name ∈ task.names group
  · have hcount : (task.names group).count name = 1 :=
      List.count_eq_one_of_mem (nodup_eraseDups _) hmem
    have hfilter : (task.names group).filter (fun n => decide (n = name)) = [name] := by
      rw [List.filter_eq, hcount, List.replicate_one]
    rw [if_pos hmem, linesOf, List.filter_map, List.map_map]
    exact congrArg (List.map fun _ => task.line) hfilter
  · rw [if_neg hmem, linesOf_eq_nil]
    simpa using hmem

theorem linesOf_carried (tasks : List Task) (group : Group) (name : Text) :
    linesOf (carried tasks group) name =
      (tasks.filter fun task => name ∈ task.names group).map (·.line) := by
  induction tasks with
  | nil => rfl
  | cons task rest ih =>
    have hrest : linesOf (carried (task :: rest) group) name =
        (if name ∈ task.names group then [task.line] else []) ++
          linesOf (carried rest group) name := by
      rw [carried, List.flatMap_cons, linesOf_append, linesOf_names, carried]
    rw [hrest, ih, List.filter_cons]
    by_cases hmem : name ∈ task.names group <;> simp [hmem]

/-- The groups of an outline in one equation. -/
theorem index_ofTasks (tasks : List Task) (group : Group) :
    (ofTasks tasks).index group =
      (tasks.flatMap (·.mentioned group)).eraseDups.map fun name =>
        (name, (tasks.filter fun task => name ∈ task.names group).map (·.line)) := by
  have hloop : (ofTasks tasks).index group = (carried tasks group).foldl
      (fun entries pair => listUnder pair.2 pair.1 entries) [] := by
    simp only [index, nodes_ofTasks, carried, List.foldl_map, List.foldl_flatMap]
    rfl
  rw [hloop, foldl_listUnder, carried_names, eraseDups_flatMap_names]
  exact List.map_congr_left fun name _ => by rw [linesOf_carried]

/-- Where no two tasks have one line number, the index of an outline is the list of
its groups. -/
theorem index_lists {tasks : List Task} (hlines : (tasks.map (·.line)).Nodup) (group : Group) :
    Lists tasks group ((ofTasks tasks).index group) := by
  have hnames : ((ofTasks tasks).index group).map (·.1) =
      (tasks.flatMap (·.mentioned group)).eraseDups := by
    rw [index_ofTasks, List.map_map]
    exact List.map_id _
  have hentry : ∀ entry ∈ (ofTasks tasks).index group,
      entry.2 = (tasks.filter fun task => entry.1 ∈ task.names group).map (·.line) := by
    rw [index_ofTasks]
    rintro _ hentry
    obtain ⟨name, -, rfl⟩ := List.mem_map.mp hentry
    rfl
  refine ⟨fun name => ?_, ?_, ?_, hentry, fun entry hmem => ?_⟩
  · rw [hnames, ← eraseDups_flatMap_names, List.mem_eraseDups, List.mem_flatMap]
  · exact hnames ▸ nodup_eraseDups _
  · exact hnames ▸ Task.pairwise_idxOf_eraseDups _
  · exact hentry entry hmem ▸ hlines.sublist (List.filter_sublist.map _)

end Outline

end TaskList
