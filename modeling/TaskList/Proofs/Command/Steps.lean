/-
TaskList.Proofs.Command.Steps — steps that may end a command, and what they do to files.

* `tell_of_shows`, `exists_tell_error` — a command goes on behind what is shown, and ends
  at what is not. The files are by then what they were before.
* `IsQuiet` — a step changes no files where it stops. All steps in front of an errand are
  quiet.
* `LeavesFiles` — a step changes no files wherever it ends, so that neither does the
  command (`files_outcome`).
-/
import TaskList.Proofs.Command.Terminal

namespace TaskList

/-- What a command leads to that shows one thing: this is shown, or the command ends
with what is wrong with it. -/
def Outcome.Shows (o : Outcome) (terminal : Terminal) (display : Display) : Prop :=
  match terminal.fault? display with
  | none => o.ending = .done ∧ o.shown = [display]
  | some fault => o.ending = .crashed (.display fault) ∧ o.shown = []

namespace Command

theorem bind_eq_ok_iff {α β : Type} {step : Step α} {f : α → Step β} {b : β} :
    (step >>= f) = .ok b ↔ ∃ a, step = .ok a ∧ f a = .ok b := by
  cases step <;> simp [bind, Except.bind]

/-! ## Showing something -/

section Tell

variable {terminal : Terminal} {displays : List Display}

theorem tell_of_shows (before : List Display × FileTree)
    (h : ∀ display ∈ displays, terminal.Shows display) :
    tell terminal before displays = .ok (before.1 ++ displays, before.2) := by
  rw [tell, Terminal.upToFault_of_shows h]

theorem exists_tell_error (before : List Display × FileTree)
    (h : ∃ display ∈ displays, ¬ terminal.Shows display) :
    ∃ fault shown, tell terminal before displays =
      .error (.crashed (.display fault) shown (some before.2)) := by
  obtain ⟨shown, fault, hfault⟩ := Terminal.exists_fault h
  exact ⟨fault, before.1 ++ shown, by rw [tell, hfault]⟩

end Tell

/-! ## Steps that leave the files as they are -/

/-- The step changes no files where it stops. -/
def IsQuiet {α : Type} (world : World) (step : Step α) : Prop :=
  ∀ cause shown files, step = .error (.crashed cause shown (some files)) → files = world.files

/-- The step changes no files, wherever it ends. -/
structure LeavesFiles (world : World) (step : Step (List Display × FileTree)) : Prop where
  quiet : IsQuiet world step
  ok : ∀ done, step = .ok done → done.2 = world.files

section Quiet

variable {α β : Type} {world : World}

theorem isQuiet_ok (a : α) : IsQuiet world (.ok a : Step α) := fun _ _ _ h => nomatch h

theorem isQuiet_failed (words : Text) : IsQuiet world (.error (.failed words) : Step α) :=
  fun _ _ _ h => nomatch h

theorem isQuiet_crashed (cause : Crash) : IsQuiet world (.error (.crashed cause) : Step α) :=
  fun _ _ _ h => nomatch h

theorem isQuiet_orCrash {ε : Type} (cause : ε → Crash) (result : Except ε α) :
    IsQuiet world (orCrash cause result) := by
  cases result with
  | ok a => exact isQuiet_ok a
  | error e => exact isQuiet_crashed (cause e)

theorem isQuiet_bind {step : Step α} {f : α → Step β} (hstep : IsQuiet world step)
    (hf : ∀ a, IsQuiet world (f a)) : IsQuiet world (step >>= f) := by
  cases step with
  | ok a => exact hf a
  | error stop =>
    intro cause shown files h
    obtain rfl := Except.error.inj h
    exact hstep cause shown files rfl

variable (world) (profile : Profile)

theorem isQuiet_resolve (file : Option Text) : IsQuiet world (resolve world profile file) := by
  refine isQuiet_bind ?_ fun name => ?_
  · unfold chosenFile
    split
    · exact isQuiet_ok _
    · split
      · exact isQuiet_ok _
      · exact isQuiet_crashed _
  · repeat' split
    all_goals first
      | exact isQuiet_ok _
      | exact isQuiet_failed _
      | exact isQuiet_crashed _

theorem isQuiet_readLines (path : Path) : IsQuiet world (readLines world path) := by
  unfold readLines
  split
  · exact isQuiet_ok _
  · exact isQuiet_crashed _

theorem isQuiet_readDocument (lines : List Text) :
    IsQuiet world (readDocument world profile lines) :=
  isQuiet_orCrash _ _

theorem isQuiet_loadDocument (file : Option Text) :
    IsQuiet world (loadDocument world profile file) :=
  isQuiet_bind (isQuiet_resolve world profile file) fun path =>
    isQuiet_bind (isQuiet_readLines world path) (isQuiet_readDocument world profile)

theorem isQuiet_resetErrand (file : Option Text) (lastVisit : Text) :
    IsQuiet world (resetErrand world profile file lastVisit) := by
  refine isQuiet_bind (isQuiet_resolve world profile file) fun path => ?_
  split
  · exact isQuiet_bind (isQuiet_readLines world path) fun lines =>
      isQuiet_bind (isQuiet_readDocument world profile lines) fun _ => isQuiet_ok _
  · exact isQuiet_failed _

theorem isQuiet_finishErrand (file : Option Text) (line : Int) :
    IsQuiet world (finishErrand world profile file line) := by
  refine isQuiet_bind (isQuiet_resolve world profile file) fun path =>
    isQuiet_bind (isQuiet_readLines world path) fun lines =>
      isQuiet_bind (isQuiet_readDocument world profile lines) fun document => ?_
  split
  · exact isQuiet_ok _
  · exact isQuiet_failed _

end Quiet

section Leaves

variable {α : Type} {world : World} {step : Step (List Display × FileTree)}

/-- Showing something changes no files. -/
theorem leavesFiles_tell {terminal : Terminal} {before : List Display × FileTree}
    (h : before.2 = world.files) (displays : List Display) :
    LeavesFiles world (tell terminal before displays) := by
  unfold tell
  split
  · refine ⟨isQuiet_ok _, fun done hdone => ?_⟩
    obtain rfl := Except.ok.inj hdone
    exact h
  · refine ⟨fun cause shown files hstop => ?_, fun done hdone => nomatch hdone⟩
    cases hstop
    exact h

theorem leavesFiles_bind {first : Step α} {f : α → Step (List Display × FileTree)}
    (hfirst : IsQuiet world first) (hf : ∀ a, first = .ok a → LeavesFiles world (f a)) :
    LeavesFiles world (first >>= f) := by
  cases first with
  | ok a => exact hf a rfl
  | error stop =>
    refine ⟨fun cause shown files h => ?_, fun done h => nomatch h⟩
    obtain rfl := Except.error.inj h
    exact hfirst cause shown files rfl

theorem files_outcome (h : LeavesFiles world step) :
    (Step.outcome world step).files = world.files := by
  match step, h with
  | .ok done, h => exact h.ok done rfl
  | .error (.failed words), _ =>
    unfold Step.outcome
    dsimp only
    split <;> rfl
  | .error (.crashed cause shown none), _ => rfl
  | .error (.crashed cause shown (some files)), h => exact h.quiet cause shown files rfl

end Leaves

end Command

end TaskList
