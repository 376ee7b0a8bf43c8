/-
TaskList.Proofs.Outline.Ways — ways through an outline, step by step.

* `Outline.IsCircular` — steps lead from a line number back to it. If they never do, they
  are counted by a rank that is bounded by how many numbers there are (`exists_rank`).
* `Outline.IsWay` — a way through an outline that takes one step at a time, along nested
  line numbers. `IsWay.tfae` says that it ends from every task exactly if the numbers are
  not nested in a circle.

A line number may have several tasks here, of which the last one stands for it.
-/
import Mathlib.Data.Fintype.Card
import Mathlib.Logic.Relation
import Mathlib.Tactic.TFAE
import TaskList.Outline.Basic

namespace TaskList.Outline

/-! ## Steps that do not come back -/

/-- Steps lead from a line number back to it. -/
def IsCircular (R : Int → Int → Prop) : Prop := ∃ line, Relation.TransGen R line line

/-- Steps among finitely many numbers that never come back are counted by a rank, here
by how many numbers can still be reached. -/
theorem exists_rank {R : Int → Int → Prop} {lines : List Int} (hR : ∀ a b, R a b → b ∈ lines)
    (h : ¬ IsCircular R) :
    ∃ rank : Int → Nat, (∀ a, rank a ≤ lines.length) ∧ ∀ a b, R a b → rank b < rank a := by
  classical
  refine ⟨fun a => (lines.toFinset.filter (Relation.TransGen R a)).card, fun a => ?_,
    fun a b hab => Finset.card_lt_card ?_⟩
  · exact (Finset.card_filter_le _ _).trans (List.toFinset_card_le lines)
  · rw [Finset.ssubset_iff_of_subset]
    · exact ⟨b, by simp [hR a b hab, Relation.TransGen.single hab], by simpa using fun _ hb => h ⟨b, hb⟩⟩
    · intro c hc
      rw [Finset.mem_filter] at hc ⊢
      exact ⟨hc.1, .head hab hc.2⟩

/-- Steps that lead further down a list without repeats never come back. -/
theorem not_isCircular_of_lt {R : Int → Int → Prop} {lines : List Int} (hlines : lines.Nodup)
    (hR : ∀ a b, R a b → ∃ i j : Nat, i < j ∧ lines[i]? = some a ∧ lines[j]? = some b) :
    ¬ IsCircular R := by
  have hstep : ∀ a b, R a b → lines.idxOf a < lines.idxOf b := by
    intro a b hab
    obtain ⟨i, j, hij, hi, hj⟩ := hR a b hab
    obtain ⟨hi', rfl⟩ := List.getElem?_eq_some_iff.mp hi
    obtain ⟨hj', rfl⟩ := List.getElem?_eq_some_iff.mp hj
    rwa [hlines.idxOf_getElem, hlines.idxOf_getElem]
  rintro ⟨line, hline⟩
  have hlt : ∀ {b}, Relation.TransGen R line b → lines.idxOf line < lines.idxOf b := by
    intro b hb
    induction hb with
    | single hab => exact hstep _ _ hab
    | tail _ hbc ih => exact ih.trans (hstep _ _ hbc)
  exact Nat.lt_irrefl _ (hlt hline)

/-! ## Ways through an outline -/

section Ways

/-- A way through an outline that takes one step at a time: a step goes to a task that
stands for its number, along nested numbers, and the way ends within so many steps if it
does so, with one step less, from every task that is next. -/
structure IsWay (o : Outline) (step : Node → Node → Prop) (nested : Int → Int → Prop)
    (ends : Nat → Node → Prop) : Prop where
  stored : ∀ {node next}, step node next → o.get? next.line = some next
  along : ∀ {node next}, node ∈ o.nodes → step node next → nested node.line next.line
  taken : ∀ {node line}, node ∈ o.nodes → nested node.line line →
    ∃ next, step node next ∧ next.line = line
  known : ∀ {line other}, nested line other → line ∈ o.nodes.map (·.line)
  ends_zero : ∀ node, ¬ ends 0 node
  ends_succ : ∀ {steps node}, node ∈ o.nodes →
    (ends (steps + 1) node ↔ ∀ next, step node next → ends steps next)

theorem mem_of_get? {o : Outline} {line : Int} {node : Node} (h : o.get? line = some node) :
    node ∈ o.nodes ∧ node.line = line :=
  ⟨List.mem_reverse.mp (List.mem_of_find?_eq_some h), by simpa using List.find?_some h⟩

theorem exists_get? {o : Outline} {line : Int} (h : line ∈ o.nodes.map (·.line)) :
    ∃ node, o.get? line = some node := by
  obtain ⟨node, hnode, rfl⟩ := List.mem_map.mp h
  rw [← Option.isSome_iff_exists, get?, List.find?_isSome]
  exact ⟨node, List.mem_reverse.mpr hnode, by simp⟩

variable {o : Outline} {step : Node → Node → Prop} {nested : Int → Int → Prop}
  {ends : Nat → Node → Prop}

namespace IsWay

theorem mem_next (h : IsWay o step nested ends) {node next : Node} (hstep : step node next) :
    next ∈ o.nodes := (mem_of_get? (h.stored hstep)).1

/-- Some steps lead along nested numbers, to a task that stands for its number. -/
theorem transGen_lines (h : IsWay o step nested ends) {node other : Node} (hnode : node ∈ o.nodes)
    (hsteps : Relation.TransGen step node other) :
    Relation.TransGen nested node.line other.line ∧ o.get? other.line = some other := by
  induction hsteps with
  | single hstep => exact ⟨.single (h.along hnode hstep), h.stored hstep⟩
  | tail _ hstep ih => exact ⟨ih.1.tail (h.along (mem_of_get? ih.2).1 hstep), h.stored hstep⟩

/-- Nested numbers are led along by some steps. -/
theorem transGen_nodes (h : IsWay o step nested ends) {node : Node} {line : Int}
    (hnode : node ∈ o.nodes) (hlines : Relation.TransGen nested node.line line) :
    ∃ other, Relation.TransGen step node other ∧ other.line = line := by
  induction hlines with
  | single hnested =>
    obtain ⟨next, hstep, hline⟩ := h.taken hnode hnested
    exact ⟨next, .single hstep, hline⟩
  | tail _ hnested ih =>
    obtain ⟨other, hsteps, rfl⟩ := ih
    have hother := (mem_of_get? (h.transGen_lines hnode hsteps).2).1
    obtain ⟨next, hstep, hline⟩ := h.taken hother hnested
    exact ⟨next, hsteps.tail hstep, hline⟩

theorem isCircular_iff (h : IsWay o step nested ends) :
    IsCircular nested ↔ ∃ node ∈ o.nodes, Relation.TransGen step node node := by
  constructor
  · rintro ⟨line, hline⟩
    obtain ⟨first, hfirst, -⟩ := Relation.TransGen.head'_iff.mp hline
    obtain ⟨node, hget⟩ := exists_get? (h.known hfirst)
    obtain ⟨hnode, rfl⟩ := mem_of_get? hget
    obtain ⟨other, hsteps, hother⟩ := h.transGen_nodes hnode hline
    -- it is the task that stands for the number
    have hstored := (h.transGen_lines hnode hsteps).2
    rw [hother, hget, Option.some.injEq] at hstored
    exact ⟨node, hnode, hstored ▸ hsteps⟩
  · rintro ⟨node, hnode, hsteps⟩
    exact ⟨node.line, (h.transGen_lines hnode hsteps).1⟩

/-- A way that ends has less steps left behind each of them. -/
theorem ends_of_transGen (h : IsWay o step nested ends) {node other : Node} {steps : Nat}
    (hnode : node ∈ o.nodes) (hends : ends steps node) (hsteps : Relation.TransGen step node other) :
    ∃ left < steps, ends left other := by
  have hnext : ∀ {steps node next}, node ∈ o.nodes → ends steps node → step node next →
      ∃ left < steps, ends left next := by
    intro steps node next hnode hends hstep
    cases steps with
    | zero => exact absurd hends (h.ends_zero node)
    | succ left => exact ⟨left, Nat.lt_succ_self left, (h.ends_succ hnode).mp hends next hstep⟩
  induction hsteps with
  | single hstep => exact hnext hnode hends hstep
  | tail hsteps hstep ih =>
    obtain ⟨left, hleft, hends'⟩ := ih
    obtain ⟨left', hleft', hends''⟩ :=
      hnext (mem_of_get? (h.transGen_lines hnode hsteps).2).1 hends' hstep
    exact ⟨left', hleft'.trans hleft, hends''⟩

/-- A way that ends never comes back. -/
theorem not_transGen_of_ends (h : IsWay o step nested ends) {node : Node} {steps : Nat}
    (hnode : node ∈ o.nodes) (hends : ends steps node) : ¬ Relation.TransGen step node node := by
  intro hsteps
  induction steps using Nat.strongRecOn with
  | ind steps ih =>
    obtain ⟨left, hleft, hends'⟩ := h.ends_of_transGen hnode hends hsteps
    exact ih left hleft hends'

/-- A way whose steps are counted by a rank ends. -/
theorem ends_of_rank (h : IsWay o step nested ends) {rank : Int → Nat}
    (hrank : ∀ a b, nested a b → rank b < rank a) {node : Node} (hnode : node ∈ o.nodes)
    {steps : Nat} (hsteps : rank node.line < steps) : ends steps node := by
  induction steps generalizing node with
  | zero => exact absurd hsteps (Nat.not_lt_zero _)
  | succ steps ih =>
    refine (h.ends_succ hnode).mpr fun next hstep => ih (h.mem_next hstep) ?_
    have hlt := hrank _ _ (h.along hnode hstep)
    omega

/-- **A way ends from every task** exactly if it never comes back, which it does exactly
if numbers are nested in a circle. -/
theorem tfae (h : IsWay o step nested ends) :
    [¬ IsCircular nested,
      ∀ node ∈ o.nodes, ¬ Relation.TransGen step node node,
      ∀ node ∈ o.nodes, ends (o.nodes.length + 1) node].TFAE := by
  tfae_have 1 → 3 := by
    intro hcircle node hnode
    have hlines : ∀ a b, nested a b → b ∈ o.nodes.map (·.line) := by
      intro a b hab
      obtain ⟨node, hget⟩ := exists_get? (h.known hab)
      obtain ⟨hnode, rfl⟩ := mem_of_get? hget
      obtain ⟨next, hstep, rfl⟩ := h.taken hnode hab
      exact List.mem_map_of_mem (h.mem_next hstep)
    obtain ⟨rank, hbound, hrank⟩ := exists_rank hlines hcircle
    have hle := hbound node.line
    rw [List.length_map] at hle
    exact h.ends_of_rank hrank hnode (Nat.lt_succ_of_le hle)
  tfae_have 3 → 2 := fun hends node hnode => h.not_transGen_of_ends hnode (hends node hnode)
  tfae_have 2 → 1 := by
    intro hback hcircle
    obtain ⟨node, hnode, hsteps⟩ := h.isCircular_iff.mp hcircle
    exact hback node hnode hsteps
  tfae_finish

end IsWay

end Ways

end TaskList.Outline
