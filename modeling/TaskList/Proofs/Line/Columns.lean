/-
TaskList.Proofs.Line.Columns — columns that are cut out of a line.

* `Span.Disjoint` — no column is in both spans. Of spans that are disjoint
  in pairs at most one covers a column (`covering_le_one`).
* `Span.outside` — the characters of a text at the columns that no span
  covers. `Span.erase_eq` says that this is what erasing leaves, from any
  column on.
-/
import TaskList.Line.Span

namespace TaskList.Span

theorem covers_iff {s : Span} {column : Nat} :
    s.covers column = true ↔ s.start ≤ column ∧ column < s.stop := by
  simp [covers]

/-- No column is in both spans. -/
def Disjoint (a b : Span) : Prop := a.stop ≤ b.start ∨ b.stop ≤ a.start

instance : Std.Symm Disjoint where
  symm _ _ h := Or.symm h

theorem Disjoint.not_covers {a b : Span} (h : a.Disjoint b) {column : Nat}
    (ha : a.covers column = true) : b.covers column = false := by
  rw [covers_iff] at ha
  rw [Bool.eq_false_iff, Ne, covers_iff]
  rcases h with h | h <;> omega

/-- What stands at disjoint columns stands one behind the other, in some order. -/
theorem exists_chain {α : Type} {xs : List (Located α)}
    (hne : ∀ x ∈ xs, x.span.start < x.span.stop)
    (hdisjoint : xs.Pairwise fun a b => a.span.Disjoint b.span) :
    ∃ ys : List (Located α), ys.Perm xs ∧ ys.Pairwise fun a b => a.span.stop ≤ b.span.start := by
  let before (a b : Located α) : Bool := decide (a.span.start ≤ b.span.start)
  have htrans : ∀ a b c, before a b → before b c → before a c := fun a b c hab hbc => by
    simp only [before, decide_eq_true_eq] at *
    omega
  have htotal : ∀ a b, before a b || before b a := fun a b => by
    simp only [before, Bool.or_eq_true, decide_eq_true_eq]
    omega
  have hperm := List.mergeSort_perm xs before
  have hsorted := List.pairwise_mergeSort htrans htotal xs
  refine ⟨_, hperm, (hsorted.and ((hperm.pairwise_iff Or.symm).mpr hdisjoint)).imp_of_mem ?_⟩
  rintro a b ha hb ⟨hle, hab⟩
  have ha := hne a (hperm.mem_iff.mp ha)
  have hb := hne b (hperm.mem_iff.mp hb)
  simp only [before, decide_eq_true_eq] at hle
  obtain hab | hab := hab <;> omega

/-- At most one of disjoint spans covers a column. -/
theorem covering_le_one {spans : List Span} (h : spans.Pairwise Disjoint) (column : Nat) :
    (spans.filter (·.covers column)).length ≤ 1 := by
  induction h with
  | nil => simp
  | @cons s spans hs _ ih =>
    by_cases hc : s.covers column = true
    · have hnone : spans.filter (·.covers column) = [] := by
        refine List.filter_eq_nil_iff.mpr fun b hb => ?_
        simp [(hs b hb).not_covers hc]
      simp [hc, hnone]
    · simpa [hc] using ih

/-! ## What is left of a text -/

/-- Does some span cover the column? -/
def anyCovers (spans : List Span) (column : Nat) : Bool := spans.any (·.covers column)

/-- The characters of a text at the columns that no span covers. -/
def outside (spans : List Span) (t : Text) : Text :=
  (t.zipIdx.filter fun p => !anyCovers spans p.2).map (·.1)

theorem erase_eq (spans : List Span) (column : Nat) (t : Text) :
    erase spans column t = ((t.zipIdx column).filter fun p => !anyCovers spans p.2).map (·.1) := by
  induction t generalizing column with
  | nil => rfl
  | cons c t ih =>
    rw [erase, List.zipIdx_cons, ih (column + 1)]
    change (if anyCovers spans column = true then _ else _) = _
    by_cases h : anyCovers spans column = true <;> simp [h]

theorem erase_zero (spans : List Span) (t : Text) : erase spans 0 t = outside spans t :=
  erase_eq spans 0 t

theorem erase_append (spans : List Span) (column : Nat) (s t : Text) :
    erase spans column (s ++ t) = erase spans column s ++ erase spans (column + s.length) t := by
  simp only [erase_eq, List.zipIdx_append, List.filter_append, List.map_append]

/-- Only the spans that reach into a text matter to what is left of it. -/
theorem erase_congr {spans others : List Span} {column : Nat} {t : Text}
    (h : ∀ i, column ≤ i → i < column + t.length → anyCovers spans i = anyCovers others i) :
    erase spans column t = erase others column t := by
  simp only [erase_eq]
  congr 1
  refine List.filter_congr fun p hp => ?_
  have hbound := List.mem_zipIdx hp
  rw [h p.2 hbound.1 (by omega)]

theorem erase_nil (column : Nat) (t : Text) : erase [] column t = t := by
  induction t generalizing column with
  | nil => rfl
  | cons c t ih => simp [erase, ih]

/-- A text that no span reaches into is left as it is. -/
theorem erase_of_uncovered {spans : List Span} {column : Nat} {t : Text}
    (h : ∀ i, column ≤ i → i < column + t.length → anyCovers spans i = false) :
    erase spans column t = t := by
  have hnil : ∀ i, column ≤ i → i < column + t.length → anyCovers spans i = anyCovers [] i :=
    fun i hle hlt => h i hle hlt
  rw [erase_congr hnil, erase_nil]

/-- Nothing is left of a text whose columns are all covered. -/
theorem erase_of_covered {spans : List Span} {column : Nat} {t : Text}
    (h : ∀ i, column ≤ i → i < column + t.length → anyCovers spans i = true) :
    erase spans column t = [] := by
  rw [erase_eq, List.map_eq_nil_iff, List.filter_eq_nil_iff]
  intro p hp
  have hbound := List.mem_zipIdx hp
  simp [h p.2 hbound.1 (by omega)]

end TaskList.Span
