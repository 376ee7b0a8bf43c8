/-
TaskList.Proofs.Reading — lists that are read one by one.

* `mapM_eq_ok_iff` — reading a list succeeds with the results of reading each
  of its members, and `exists_of_mapM_eq_error` — it fails where one of them
  does.
* `forall₂_filter`, `exists_of_forall₂`, `mem_iff_of_forall₂` — what follows for
  some of the members, and for one.
* `exists_forall₂` — a list of results from a result for each member; `exists_mapM` — a
  list is read if each of its members is.
* `toOption_eq_some`, `error?_eq_some` — what came out or went wrong, so that it can be
  looked at where the results themselves cannot be compared.
-/
import Mathlib.Data.List.Forall2

namespace TaskList

/-- A list is read one by one. -/
theorem mapM_eq_ok_iff {ε α β : Type} {f : α → Except ε β} {xs : List α} {ys : List β} :
    xs.mapM f = .ok ys ↔ List.Forall₂ (fun x y => f x = .ok y) xs ys := by
  induction xs generalizing ys with
  | nil => cases ys <;> simp [pure, Except.pure]
  | cons x xs ih =>
    rw [List.mapM_cons]
    cases hx : f x with
    | error e => cases ys <;> simp [bind, Except.bind, hx]
    | ok y =>
      cases hxs : xs.mapM f with
      | error e => cases ys <;> simp [bind, Except.bind, ← ih, hxs, hx]
      | ok more => cases ys <;> simp [bind, Except.bind, pure, Except.pure, ← ih, hxs, hx]

/-- Lists stay related when the same places are kept in both. -/
theorem forall₂_filter {α β : Type} {R : α → β → Prop} {p : α → Bool} {q : β → Bool}
    {xs : List α} {ys : List β} (h : List.Forall₂ R xs ys) (hpq : ∀ x y, R x y → p x = q y) :
    List.Forall₂ R (xs.filter p) (ys.filter q) := by
  induction h with
  | nil => exact .nil
  | @cons x y xs ys hxy _ ih =>
    have hsame := hpq x y hxy
    cases hq : q y with
    | true =>
      rw [List.filter_cons_of_pos (hsame.trans hq), List.filter_cons_of_pos hq]
      exact .cons hxy ih
    | false =>
      rw [List.filter_cons_of_neg (by simp [hsame, hq]), List.filter_cons_of_neg (by simp [hq])]
      exact ih

/-- What is the same of related members is the same of both lists. -/
theorem map_eq_of_forall₂ {α β γ : Type} {R : α → β → Prop} {f : α → γ} {g : β → γ}
    {xs : List α} {ys : List β} (h : List.Forall₂ R xs ys)
    (hfg : ∀ x ∈ xs, ∀ y, R x y → f x = g y) : xs.map f = ys.map g := by
  induction h with
  | nil => rfl
  | cons hxy _ ih =>
    rw [List.map_cons, List.map_cons, hfg _ List.mem_cons_self _ hxy,
      ih fun x hx => hfg x (List.mem_cons_of_mem _ hx)]

theorem exists_of_forall₂ {α β : Type} {R : α → β → Prop} {xs : List α} {ys : List β}
    (h : List.Forall₂ R xs ys) {y : β} (hy : y ∈ ys) : ∃ x ∈ xs, R x y := by
  obtain ⟨i, hi, rfl⟩ := List.mem_iff_getElem.mp hy
  have hx : i < xs.length := by rwa [h.length_eq]
  exact ⟨xs[i], List.getElem_mem hx, h.get hx hi⟩

/-- The results are those of the members. -/
theorem mem_iff_of_forall₂ {ε α β : Type} {f : α → Except ε β} {xs : List α} {ys : List β}
    (h : List.Forall₂ (fun x y => f x = .ok y) xs ys) {y : β} :
    y ∈ ys ↔ ∃ x ∈ xs, f x = .ok y := by
  refine ⟨exists_of_forall₂ h, ?_⟩
  rintro ⟨x, hx, hy⟩
  obtain ⟨z, hz, hxz⟩ := exists_of_forall₂ h.flip hx
  rw [hxz] at hy
  cases hy
  exact hz

/-- A list fails where one of its members does. -/
theorem exists_of_mapM_eq_error {ε α β : Type} {f : α → Except ε β} {xs : List α} {e : ε}
    (h : xs.mapM f = .error e) : ∃ x ∈ xs, f x = .error e := by
  induction xs with
  | nil => simp [pure, Except.pure] at h
  | cons x xs ih =>
    rw [List.mapM_cons] at h
    cases hx : f x with
    | error cause =>
      simp only [bind, Except.bind, hx, Except.error.injEq] at h
      exact ⟨x, List.mem_cons_self, h ▸ hx⟩
    | ok y =>
      cases hxs : xs.mapM f with
      | error cause =>
        simp only [bind, Except.bind, hx, hxs, Except.error.injEq] at h
        obtain ⟨z, hz, hze⟩ := ih (h ▸ hxs)
        exact ⟨z, List.mem_cons_of_mem x hz, hze⟩
      | ok ys => simp [bind, Except.bind, pure, Except.pure, hx, hxs] at h

theorem exists_forall₂ {α β : Type} {R : α → β → Prop} {xs : List α}
    (h : ∀ x ∈ xs, ∃ y, R x y) : ∃ ys, List.Forall₂ R xs ys := by
  induction xs with
  | nil => exact ⟨[], .nil⟩
  | cons x xs ih =>
    obtain ⟨hx, hxs⟩ := List.forall_mem_cons.mp h
    obtain ⟨y, hy⟩ := hx
    obtain ⟨ys, hys⟩ := ih hxs
    exact ⟨y :: ys, .cons hy hys⟩

/-- A list is read if each of its members is. -/
theorem exists_mapM {ε α β : Type} {f : α → Except ε β} {xs : List α} :
    (∃ ys, xs.mapM f = .ok ys) ↔ ∀ x ∈ xs, ∃ y, f x = .ok y := by
  constructor
  · rintro ⟨ys, hys⟩ x hx
    obtain ⟨y, -, hy⟩ := exists_of_forall₂ (mapM_eq_ok_iff.mp hys).flip hx
    exact ⟨y, hy⟩
  · intro h
    obtain ⟨ys, hys⟩ := exists_forall₂ h
    exact ⟨ys, mapM_eq_ok_iff.mpr hys⟩

theorem toOption_eq_some {ε α : Type} {result : Except ε α} {a : α} :
    result.toOption = some a ↔ result = .ok a := by
  cases result <;> simp [Except.toOption]

/-- What went wrong, if something did. -/
def error? {ε α : Type} : Except ε α → Option ε
  | .ok _ => none
  | .error e => some e

theorem error?_eq_some {ε α : Type} {result : Except ε α} {e : ε} :
    error? result = some e ↔ result = .error e := by
  cases result <;> simp [error?]

end TaskList
