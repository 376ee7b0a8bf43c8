/-
TaskList.Proofs.Sorting — what a stable sort leaves open, and what it does
not.

* `filter_mergeSort` — elements that may all stand in front of each other
  keep their order.
* `eq_of_ties` — a list is given by its elements, that it is sorted, and the
  order of those elements that a sort does not tell apart. So two ways of
  sorting give one list when they agree on these.
-/

namespace TaskList.Sorting

variable {α : Type} {le : α → α → Bool}

/-- May each of two elements stand in front of the other? -/
def tied (le : α → α → Bool) (a b : α) : Bool := le a b && le b a

/-- Sorting keeps the order of elements that it does not tell apart. -/
theorem filter_mergeSort (htrans : ∀ a b c, le a b → le b c → le a c)
    (htotal : ∀ a b, le a b || le b a) {p : α → Bool}
    (hp : ∀ a b, p a = true → p b = true → le a b = true) (l : List α) :
    (l.mergeSort le).filter p = l.filter p := by
  have hsorted : (l.filter p).Pairwise fun a b => le a b = true := by
    refine List.pairwise_of_forall_mem_list fun a ha b hb => ?_
    exact hp a b (List.mem_filter.mp ha).2 (List.mem_filter.mp hb).2
  have hsub := (List.sublist_mergeSort htrans htotal hsorted List.filter_sublist).filter p
  rw [List.filter_filter] at hsub
  simp only [Bool.and_self] at hsub
  exact (hsub.eq_of_length ((List.mergeSort_perm l le).filter p).length_eq.symm).symm

/-- Two sorted lists of the same elements are equal if they agree on the
order of elements that are tied. -/
theorem eq_of_ties (htotal : ∀ a b, le a b || le b a) {l l' : List α}
    (hl : l.Pairwise fun a b => le a b = true) (hl' : l'.Pairwise fun a b => le a b = true)
    (hperm : l.Perm l') (hties : ∀ a, l.filter (tied le a) = l'.filter (tied le a)) : l = l' := by
  induction l generalizing l' with
  | nil => exact hperm.nil_eq
  | cons a l ih =>
    cases l' with
    | nil => exact absurd hperm.length_eq (by simp)
    | cons b l' =>
      have hrefl : ∀ c, le c c = true := fun c => by simpa using htotal c c
      obtain ⟨ha, hrest⟩ := List.pairwise_cons.mp hl
      obtain ⟨hb, hrest'⟩ := List.pairwise_cons.mp hl'
      have hab : le a b = true := by
        rcases List.mem_cons.mp (hperm.symm.subset List.mem_cons_self) with rfl | hmem
        · exact hrefl _
        · exact ha b hmem
      have hba : le b a = true := by
        rcases List.mem_cons.mp (hperm.subset List.mem_cons_self) with rfl | hmem
        · exact hrefl _
        · exact hb a hmem
      -- both heads are tied to `a`, so they are the head of the same filter
      have hhead := hties a
      rw [List.filter_cons_of_pos (by simp [tied, hrefl]),
        List.filter_cons_of_pos (by simp [tied, hab, hba])] at hhead
      obtain ⟨rfl, -⟩ := List.cons.inj hhead
      refine congrArg (a :: ·) (ih hrest hrest' hperm.cons_inv fun c => ?_)
      have htail := hties c
      by_cases hc : tied le c a = true
      · rw [List.filter_cons_of_pos hc, List.filter_cons_of_pos hc] at htail
        exact (List.cons.inj htail).2
      · rwa [List.filter_cons_of_neg hc, List.filter_cons_of_neg hc] at htail

end TaskList.Sorting
