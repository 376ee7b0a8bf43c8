/-
TaskList.Proofs.Command.Rewritten — what a command line makes of the files.

* `Command.errand?` — the edits that a command line carries out, and the profile that
  they are made with. There are none on a dry run, for a view, or where a step fails.
* `run_rewrites` — a command line with an errand rewrites its file, and any other
  leaves all files as they are. So does one with an edit that is not shown.

Two done marks that break no line do not get into a file (`run_losesEdits`). One with
halves of surrogate pairs has no bytes, which shows only when the file is empty already.
One that closes a style where none is open may not be shown, and an edit that is not
shown is not written.
-/
import TaskList.Proofs.Command.Errand

namespace TaskList

namespace Command

/-! ## Requests -/

/-- The request of a command line, and the profile that it is carried out with. -/
def asked? (world : World) (words : List Text) : Option (Profile × Request) :=
  match GlobalRequest.read words with
  | .error _ => none
  | .ok request =>
    match Store.load world.home { files := world.files } (configPath request.config) with
    | (.error _, _) => none
    | (.ok profile, _) =>
      match Request.read request.command request.rest with
      | .error _ => none
      | .ok request => some (profile, request)

/-- What a request is to carry out. -/
def requested? (world : World) (profile : Profile) : Request → Option Errand
  | .reset file lastVisit false => (resetErrand world profile file lastVisit).toOption
  | .done file line false => (finishErrand world profile file line).toOption
  | _ => none

/-- The errand of a command line, and the profile that it is done with, if there
are edits to carry out and it is no dry run. -/
def errand? (world : World) (words : List Text) : Option (Profile × Errand) :=
  match asked? world words with
  | none => none
  | some (profile, request) =>
    match requested? world profile request with
    | none => none
    | some errand => if errand.edits.isEmpty then none else some (profile, errand)

section Run

variable {world : World} {words : List Text} {profile : Profile} {request : Request}
  {errand : Errand}

theorem run_of_asked (h : asked? world words = some (profile, request)) :
    ∃ warnings, run world words = { perform world profile request with warnings } := by
  unfold asked? at h
  split at h
  · simp at h
  · rename_i found hfound
    split at h
    · simp at h
    · rename_i used rest hload
      split at h
      · simp at h
      · rename_i wanted hwanted
        cases h
        refine ⟨rest.2, ?_⟩
        simp only [run, hfound, hload, hwanted]

theorem files_of_not_asked (h : asked? world words = none) :
    (run world words).files = world.files := by
  unfold asked? at h
  unfold run
  cases hfound : GlobalRequest.read words with
  | error refusal => rfl
  | ok found =>
    rw [hfound] at h
    dsimp only at h ⊢
    rcases hload : Store.load world.home { files := world.files } (configPath found.config) with
      ⟨loaded, used, warnings⟩
    rw [hload] at h
    cases loaded with
    | error e => rfl
    | ok profile =>
      dsimp only at h ⊢
      cases hrequest : Request.read found.command found.rest with
      | error refusal => rfl
      | ok request => simp [hrequest] at h

theorem files_view (file : Option Text) (display : Outline → Except OutlineError Display) :
    (view world profile file display).files = world.files :=
  files_outcome <| leavesFiles_bind (isQuiet_loadDocument world profile file) fun _ _ =>
    leavesFiles_bind (isQuiet_orCrash _ _) fun _ _ => leavesFiles_tell rfl _

theorem files_check (text : Text) (date : Option Text) :
    (check world text date).files = world.files := by
  unfold check
  dsimp only
  split
  · split <;> rfl
  · rename_i stop hstop
    refine files_outcome ⟨fun cause shown files h => ?_, fun _ h => nomatch h⟩
    obtain rfl := Except.error.inj h
    -- the steps before the result are quiet
    refine isQuiet_bind ?_ (fun day => ?_) cause shown files hstop
    · unfold dayAsked
      repeat' split
      all_goals first
        | exact isQuiet_ok _
        | exact isQuiet_failed _
    · exact isQuiet_bind (isQuiet_orCrash _ _) fun _ => isQuiet_ok _

theorem files_reset {file : Option Text} {lastVisit : Text} {dryRun : Bool}
    (h : ∀ errand, resetErrand world profile file lastVisit = .ok errand →
      dryRun = true ∨ errand.edits = []) :
    (Step.outcome world (reset world profile file lastVisit dryRun)).files = world.files := by
  refine files_outcome (leavesFiles_bind (isQuiet_resetErrand world profile file lastVisit)
    fun errand herrand => ?_)
  split
  · exact leavesFiles_tell rfl _
  · have hperform : LeavesFiles world (errand.perform world profile dryRun) :=
      Errand.leavesFiles_perform (h errand herrand)
    exact leavesFiles_bind hperform.quiet fun done hdone =>
      leavesFiles_tell (hperform.ok done hdone) _

theorem files_finish {file : Option Text} {line : Int} {dryRun : Bool}
    (h : ∀ errand, finishErrand world profile file line = .ok errand →
      dryRun = true ∨ errand.edits = []) :
    (Step.outcome world (finish world profile file line dryRun)).files = world.files :=
  files_outcome <| leavesFiles_bind (isQuiet_finishErrand world profile file line)
    fun errand herrand => Errand.leavesFiles_perform (h errand herrand)

/-- **A request without edits to carry out** changes no files. -/
theorem files_perform
    (h : ∀ errand, requested? world profile request = some errand → errand.edits = []) :
    (perform world profile request).files = world.files := by
  cases request with
  | «show» file withHidden => exact files_view file _
  | due file => exact files_view file _
  | groups file group => exact files_view file _
  | check text date => exact files_check text date
  | reset file lastVisit dryRun =>
    refine files_reset fun errand herrand => ?_
    cases dryRun with
    | true => exact .inl rfl
    | false => exact .inr (h errand (by simp [requested?, herrand, Except.toOption]))
  | done file line dryRun =>
    refine files_finish fun errand herrand => ?_
    cases dryRun with
    | true => exact .inl rfl
    | false => exact .inr (h errand (by simp [requested?, herrand, Except.toOption]))

/-- Only a new cycle and a completion, which may be a count, have something to carry
out. -/
theorem requested_cases (h : requested? world profile request = some errand) :
    (∃ file lastVisit, request = .reset file lastVisit false ∧
      resetErrand world profile file lastVisit = .ok errand) ∨
    ∃ file line, request = .done file line false ∧
      finishErrand world profile file line = .ok errand := by
  match request, h with
  | .reset file lastVisit false, h => exact .inl ⟨file, lastVisit, rfl, toOption_eq_some.mp h⟩
  | .done file line false, h => exact .inr ⟨file, line, rfl, toOption_eq_some.mp h⟩

/-- The edits of a request fit its file. -/
theorem fits_of_requested (h : requested? world profile request = some errand) :
    errand.Fits world profile.settings.doneMark := by
  obtain ⟨file, lastVisit, -, herrand⟩ | ⟨file, line, -, herrand⟩ := requested_cases h
  · exact fits_of_resetErrand herrand
  · exact fits_of_finishErrand herrand

/-- A request with edits to carry out does its errand, and perhaps sums it up. -/
theorem perform_eq_of_requested (h : requested? world profile request = some errand)
    (hedits : errand.edits ≠ []) :
    perform world profile request = Step.outcome world (errand.perform world profile false) ∨
    perform world profile request = Step.outcome world (do
      tell world.terminal (← errand.perform world profile false) [errand.summary false]) := by
  have hsome : errand.edits.isEmpty = false := by simpa using hedits
  obtain ⟨file, lastVisit, rfl, herrand⟩ | ⟨file, line, rfl, herrand⟩ := requested_cases h
  · exact .inr (by simp [perform, reset, herrand, bind, Except.bind, hsome])
  · exact .inl (by simp [perform, finish, herrand, bind, Except.bind])

/-- **A request with an edit that is not shown** ends there and changes no files. -/
theorem perform_of_not_shown (h : requested? world profile request = some errand)
    (hnot : ∃ e ∈ errand.edits, ¬ world.terminal.Shows (displayEdit profile e)) :
    (∃ fault, (perform world profile request).ending = .crashed (.display fault)) ∧
      (perform world profile request).files = world.files := by
  have hedits : errand.edits ≠ [] := by
    obtain ⟨e, he, -⟩ := hnot
    exact List.ne_nil_of_mem he
  obtain ⟨fault, shown, hperform⟩ := Errand.exists_perform_error false hnot
  rcases perform_eq_of_requested h hedits with heq | heq <;> rw [heq, hperform] <;>
    exact ⟨⟨fault, rfl⟩, rfl⟩

/-- **A request with edits to carry out** ends well where these are shown and can be
written. -/
theorem perform_of_write (h : requested? world profile request = some errand)
    (hedits : errand.edits ≠ []) (hstyles : world.terminal.ShowsStyles)
    (hshows : ∀ display ∈ errand.edits.map (displayEdit profile), world.terminal.Shows display)
    {files : FileTree} (hwrite : errand.write world profile = .ok files) :
    (perform world profile request).ending = .done ∧
      (perform world profile request).files = files := by
  have hperform := Errand.perform_eq_ok hedits hshows hwrite
  rcases perform_eq_of_requested h hedits with heq | heq <;> rw [heq, hperform]
  · exact ⟨rfl, rfl⟩
  · have hsummary : ∀ display ∈ [errand.summary false], world.terminal.Shows display :=
      List.forall_mem_singleton.mpr (Errand.shows_summary hstyles errand false)
    dsimp only [bind, Except.bind]
    rw [tell_of_shows _ hsummary]
    exact ⟨rfl, rfl⟩

/-- **What a command line makes of the files.** Without edits to carry out, all files are
as they were, and so they are if one of the edits is not shown: the command line ends
there. Otherwise it ends well and rewrites the file of its errand. -/
theorem run_rewrites (world : World) (words : List Text) :
    (errand? world words = none → (run world words).files = world.files) ∧
    ∀ profile errand, errand? world words = some (profile, errand) →
      ((∃ e ∈ errand.edits, ¬ world.terminal.Shows (displayEdit profile e)) →
        (∃ fault, (run world words).ending = .crashed (.display fault)) ∧
          (run world words).files = world.files) ∧
      (profile.doneMark.kind = .text → profile.settings.doneMark.IsWritable →
        world.terminal.ShowsStyles → errand.MarkShown world.terminal profile →
          (run world words).ending = .done ∧
            ∃ changed, errand.Rewrites world.files (run world words).files changed) := by
  unfold errand?
  cases hasked : asked? world words with
  | none => exact ⟨fun _ => files_of_not_asked hasked, fun _ _ h => nomatch h⟩
  | some asked =>
    obtain ⟨profile, request⟩ := asked
    obtain ⟨warnings, hrun⟩ := run_of_asked hasked
    rw [hrun]
    dsimp only
    cases hrequested : requested? world profile request with
    | none => exact ⟨fun _ => files_perform (by simp [hrequested]), fun _ _ h => nomatch h⟩
    | some errand =>
      dsimp only
      by_cases hedits : errand.edits = []
      · rw [if_pos (by simp [hedits])]
        refine ⟨fun _ => files_perform fun other hother => ?_, fun _ _ h => nomatch h⟩
        rwa [← Option.some.inj (hrequested.symm.trans hother)]
      · rw [if_neg (by simpa using hedits)]
        refine ⟨fun h => absurd h (Option.some_ne_none _), ?_⟩
        rintro _ _ ⟨⟩
        refine ⟨perform_of_not_shown hrequested, fun hkind hmark hstyles hmarkShown => ?_⟩
        have hfits := fits_of_requested hrequested
        obtain ⟨files, changed, hwrite, hrewrites⟩ := hfits.exists_write hkind hmark hedits
        obtain ⟨hending, hfiles⟩ :=
          perform_of_write hrequested hedits hstyles (hfits.shows hstyles hmarkShown) hwrite
        exact ⟨hending, changed, hfiles ▸ hrewrites⟩

end Run

/-- The words that complete the task of a line of `t.md`. -/
def completionOf (line : String) : List Text :=
  ["done".toList, "--line".toList, line.toList, "t.md".toList]

/-- Files on the first day of 2018: a configuration document and `t.md`. -/
def worldOf (config text : String) : World where
  files := ⟨[(⟨['/'], ["home".toList, ".todo-md".toList, "config.yaml".toList]⟩,
    .file config.toList), (⟨[], ["t.md".toList]⟩, .file text.toList)]⟩
  home := ⟨"/home".toList, []⟩
  now := ⟨⟨736695, by decide, by decide⟩, none⟩
  terminal := .strict

/-- Lines that end in two ways, and a last one that does not end. -/
def mixedBreaks : World :=
  worldOf "add_completion_date: false" "a\r\n# b\u2028{due:2018-01-01} c"

theorem run_rewrites_mixedBreaks :
    ∃ profile errand, errand? mixedBreaks (completionOf "3") = some (profile, errand) ∧
      profile.doneMark.kind = .text ∧ profile.settings.doneMark.IsWritable ∧
      mixedBreaks.terminal.ShowsStyles ∧ errand.MarkShown mixedBreaks.terminal profile ∧
      (run mixedBreaks (completionOf "3")).ending = .done ∧
      ∃ changed, errand.Rewrites mixedBreaks.files (run mixedBreaks (completionOf "3")).files
        changed := by
  have hfound : (errand? mixedBreaks (completionOf "3")).any (fun found =>
      decide (found.1.doneMark.kind = .text ∧ found.1.settings.doneMark.IsWritable ∧
        found.1.settings.doneMark.IsShowable)) = true := by
    decide +kernel
  obtain ⟨⟨profile, errand⟩, herrand, hmark⟩ := (Option.any_eq_true _ _).mp hfound
  obtain ⟨hkind, hmark, hshowable⟩ := of_decide_eq_true hmark
  have hstyles : mixedBreaks.terminal.ShowsStyles := Terminal.showsStyles_strict
  have hshown := errand.markShown_of_isShowable hstyles hkind hshowable
  exact ⟨profile, errand, herrand, hkind, hmark, hstyles, hshown,
    ((run_rewrites _ _).2 profile errand herrand).2 hkind hmark hstyles hshown⟩

/-! ## Done marks that do not get into the file -/

/-- A command line that has edits to carry out and a done mark that breaks no line, and
does not rewrite the file so. -/
def Misses (world : World) (words : List Text) : Prop :=
  ∃ profile errand, errand? world words = some (profile, errand) ∧
    profile.doneMark.kind = .text ∧ profile.settings.doneMark.IsLine ∧
    ∀ changed, ¬ errand.Rewrites world.files (run world words).files changed

/-- A done mark that is a half of a surrogate pair and a space. -/
def halfMark : World :=
  worldOf "done_symbol: \"\\ud83d \"\nadd_completion_date: false\n" "a\nb"

/-- A done mark that is a box with a stroke in it, which closes a style where none is
open. -/
def closingMark : World :=
  worldOf "done_symbol: \"- [/] \"\nadd_completion_date: false\n" "a\nb"

/-- The task file of these worlds. -/
def taskFile : Path := ⟨[], ["t.md".toList]⟩

/-- A task file that does not end with a line feed has not been rewritten. -/
theorem misses_of_read {world : World} {text : Text}
    (hfound : (errand? world (completionOf "1")).any (fun found =>
      decide (found.1.doneMark.kind = .text ∧ found.1.settings.doneMark.IsLine ∧
        found.2.path = taskFile)) = true)
    (hread : (run world (completionOf "1")).files.read taskFile = .ok text)
    (hlast : text.getLast? ≠ some '\n') : Misses world (completionOf "1") := by
  obtain ⟨⟨profile, errand⟩, herrand, hmark⟩ := (Option.any_eq_true _ _).mp hfound
  obtain ⟨hkind, hmark, hpath⟩ := of_decide_eq_true hmark
  refine ⟨profile, errand, herrand, hkind, hmark, fun changed h => hlast ?_⟩
  have hwritten := h.written
  rw [hpath, hread] at hwritten
  rw [Except.ok.inj hwritten]
  simp [Text.ofLines]

/-- **A done mark without bytes empties the file, and one that is not shown leaves it as
it was**, though neither breaks a line. -/
theorem run_losesEdits :
    (Misses halfMark (completionOf "1") ∧
      (run halfMark (completionOf "1")).files.read taskFile = .ok []) ∧
    Misses closingMark (completionOf "1") ∧
      (run closingMark (completionOf "1")).files.read taskFile = .ok "a\nb".toList := by
  have hempty : (run halfMark (completionOf "1")).files.read taskFile = .ok [] := by
    decide +kernel
  have hkept : (run closingMark (completionOf "1")).files.read taskFile = .ok "a\nb".toList := by
    decide +kernel
  exact ⟨⟨misses_of_read (by decide +kernel) hempty (by decide), hempty⟩,
    misses_of_read (by decide +kernel) hkept (by decide), hkept⟩

end Command

end TaskList
