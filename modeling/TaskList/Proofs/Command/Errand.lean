/-
TaskList.Proofs.Command.Errand — how the edits of an errand get into a file.

* `Errand.Fits` — the edits change columns of lines of the file, and print the done
  mark at most. `fits_of_resetErrand` and `fits_of_finishErrand` say it of both kinds
  of errands.
* `Errand.Rewrites` — the file is what the edits make of its lines, and is read so again.
  The edits of an errand that fits can be written (`Errand.Fits.exists_write`).
* `Errand.MarkShown` — the terminal shows the edits that put the done mark in. It shows
  the others anyway (`Errand.Fits.shows`), as long as `Terminal.ShowsStyles` is true of it.
-/
import TaskList.Proofs.Action.Printed
import TaskList.Proofs.Command.Steps
import TaskList.Proofs.Document.Edited
import TaskList.Proofs.Files.Written
import TaskList.Proofs.Settings.Names

namespace TaskList

namespace Command

/-! ## What there is to do -/

/-- The edits of an errand change columns of the lines of its file, and print the
done mark at most. -/
structure Errand.Fits (errand : Errand) (world : World) (mark : Text) : Prop where
  read : ∃ text, world.files.read errand.path = .ok text ∧ errand.lines = text.unifyBreaks.lines
  columns : ∀ e ∈ errand.edits, e.isColumnEdit = true
  lines : ∀ e ∈ errand.edits, ∃ i : Nat, e.line = i ∧ i < errand.lines.length
  prints : ∀ e ∈ errand.edits, e.Prints mark

section Errands

variable {world : World} {profile : Profile} {file : Option Text} {errand : Errand}

theorem exists_read {path : Path} {lines : List Text} (h : readLines world path = .ok lines) :
    ∃ text, world.files.read path = .ok text ∧ lines = text.unifyBreaks.lines := by
  unfold readLines at h
  split at h
  · rename_i text hread
    exact ⟨text, hread, (Except.ok.inj h).symm⟩
  · simp at h

theorem exists_reads {lines : List Text} {document : Document}
    (h : readDocument world profile lines = .ok document) :
    ∃ tasks, Document.Reads profile.settings none world.now.day
      (Document.taskLines profile.settings (Document.number lines)) tasks ∧
        document.outline = .ofTasks tasks := by
  unfold readDocument Profile.readDocument at h
  cases hmarks : profile.needMarks (Document.number lines) with
  | error e => simp [hmarks, orCrash, bind, Except.bind] at h
  | ok _ =>
    cases hread : Document.read profile.settings none world.now.day (Document.number lines) with
    | error e => simp [hmarks, hread, orCrash, Profile.orTooLong, bind, Except.bind] at h
    | ok found =>
      obtain ⟨tasks, htasks, rfl⟩ := Document.read_eq_ok_iff.mp hread
      simp only [hmarks, hread, orCrash, Profile.orTooLong, bind, Except.bind] at h
      cases h
      exact ⟨tasks, htasks, rfl⟩

/-- The edits of tasks of the file fit its lines. -/
theorem fits_of_tasks {text mark : Text} (hread : world.files.read errand.path = .ok text)
    (hlines : errand.lines = text.unifyBreaks.lines) {tasks : List Task}
    (htasks : Document.Reads profile.settings none world.now.day
      (Document.taskLines profile.settings (Document.number errand.lines)) tasks)
    (hedits : ∀ e ∈ errand.edits, ∃ task ∈ tasks, e.isColumnEdit = true ∧ e.line = task.line ∧
      e.Prints mark) : errand.Fits world mark where
  read := ⟨text, hread, hlines⟩
  columns e he := by
    obtain ⟨task, -, hcolumn, -⟩ := hedits e he
    exact hcolumn
  lines e he := by
    obtain ⟨task, htask, -, hline, -⟩ := hedits e he
    obtain ⟨i, hi, hget, -⟩ := htasks.exists_number htask
    exact ⟨i, hline.trans hi, (List.getElem?_eq_some_iff.mp hget).1⟩
  prints e he := by
    obtain ⟨task, -, -, -, hprints⟩ := hedits e he
    exact hprints

/-- **A new cycle fits the file.** -/
theorem fits_of_resetErrand {lastVisit : Text}
    (h : resetErrand world profile file lastVisit = .ok errand) :
    errand.Fits world profile.settings.doneMark := by
  obtain ⟨path, -, h⟩ := bind_eq_ok_iff.mp h
  split at h
  · rename_i visit hvisit
    obtain ⟨lines, hlines, h⟩ := bind_eq_ok_iff.mp h
    obtain ⟨document, hdocument, h⟩ := bind_eq_ok_iff.mp h
    obtain rfl := Except.ok.inj h
    obtain ⟨text, hread, htext⟩ := exists_read hlines
    obtain ⟨tasks, htasks, houtline⟩ := exists_reads hdocument
    refine fits_of_tasks hread htext htasks fun e he => ?_
    rw [houtline, Document.task_nodes_ofTasks] at he
    obtain ⟨task, htask, he⟩ := List.mem_flatMap.mp he
    obtain ⟨hcolumn, hline⟩ := Task.reset_columns he
    exact ⟨task, htask, hcolumn, hline, Task.prints_reset he⟩
  · simp at h

/-- **A completion or a count fits the file.** -/
theorem fits_of_finishErrand {line : Int} (h : finishErrand world profile file line = .ok errand) :
    errand.Fits world profile.settings.doneMark := by
  obtain ⟨path, -, h⟩ := bind_eq_ok_iff.mp h
  obtain ⟨lines, hlines, h⟩ := bind_eq_ok_iff.mp h
  obtain ⟨document, hdocument, h⟩ := bind_eq_ok_iff.mp h
  split at h
  · rename_i node hnode
    obtain rfl := Except.ok.inj h
    obtain ⟨text, hread, htext⟩ := exists_read hlines
    obtain ⟨tasks, htasks, houtline⟩ := exists_reads hdocument
    have htask : node.task ∈ tasks := by
      rw [houtline] at hnode
      have hmem := List.mem_reverse.mp (List.mem_of_find?_eq_some hnode)
      have hmap : node.task ∈ (Outline.ofTasks tasks).nodes.map (·.task) :=
        List.mem_map_of_mem hmem
      rwa [Document.task_nodes_ofTasks] at hmap
    obtain ⟨i, -, -, -, hline⟩ := htasks.exists_number htask
    refine fits_of_tasks hread htext htasks fun e he => ?_
    obtain ⟨hcolumn, hnumber⟩ := Task.advance_columns hline he
    exact ⟨node.task, htask, hcolumn, hnumber, Task.prints_advance he⟩
  · simp at h

end Errands

/-! ## Doing an errand -/

/-- The lines of a file are those that the edits of an errand make of the lines that
it had. -/
structure Errand.Rewrites (errand : Errand) (before after : FileTree) (changed : List Text) :
    Prop where
  /-- The errand is about the lines of the file. -/
  read : ∃ text, before.read errand.path = .ok text ∧ errand.lines = text.unifyBreaks.lines
  /-- The lines are those with the edits carried out. -/
  applied : Edit.applyAll errand.lines errand.edits = .ok changed
  /-- They are written, each with a line feed. -/
  written : after.read errand.path = .ok (Text.ofLines changed)
  /-- They are read again. -/
  reread : (Text.ofLines changed).unifyBreaks.lines = changed
  /-- No line comes or goes. -/
  length_eq : changed.length = errand.lines.length
  /-- A line without an edit is what it was. -/
  untouched : ∀ i : Nat, (∀ e ∈ errand.edits, e.line ≠ i) → changed[i]? = errand.lines[i]?

namespace Errand

variable {errand : Errand} {world : World} {profile : Profile}

/-- There are bytes for what is written if there are for the mark. -/
theorem Fits.halves?_eq_none {mark : Text} (h : errand.Fits world mark) (hmark : mark.IsWritable)
    (text : Text) : errand.halves? text = none := by
  rw [halves?, if_neg]
  rw [List.any_eq_true]
  rintro ⟨e, he, hsome⟩
  rw [Text.run?_eq_none_iff.mpr ((h.prints e he).isWritable hmark).hasBytes] at hsome
  simp at hsome

/-- **An errand that fits is done** as long as there are bytes for what is written. -/
theorem Fits.exists_write (h : errand.Fits world profile.settings.doneMark)
    (hkind : profile.doneMark.kind = .text) (hmark : profile.settings.doneMark.IsWritable)
    (hedits : errand.edits ≠ []) :
    ∃ files changed, errand.write world profile = .ok files ∧
      errand.Rewrites world.files files changed := by
  obtain ⟨text, hread, hlines⟩ := h.read
  have happly := Edit.applyAll_columns h.columns h.lines
  have hchanged : ∀ line ∈ errand.lines.mapIdx fun i t => Edit.carried errand.edits i t,
      line.IsLine := by
    intro line hline
    obtain ⟨i, hi, rfl⟩ := List.mem_mapIdx.mp hline
    have hmem : errand.lines[i] ∈ text.unifyBreaks.lines := hlines ▸ List.getElem_mem hi
    exact Edit.isLine_carried hmark h.prints i (Text.isLine_of_mem_lines hmem)
  generalize hdone : (errand.lines.mapIdx fun i t => Edit.carried errand.edits i t) = changed
    at happly hchanged
  have hlength : changed.length = errand.lines.length := by rw [← hdone, List.length_mapIdx]
  have hne : changed ≠ [] := by
    obtain ⟨e, he⟩ := List.exists_mem_of_ne_nil _ hedits
    obtain ⟨i, -, hi⟩ := h.lines e he
    exact List.ne_nil_of_length_pos (by omega)
  have hhalves : errand.halves? (Text.ofLines changed) = none := h.halves?_eq_none hmark _
  obtain ⟨files, hwrite⟩ := FileTree.exists_write hread (Text.ofLines changed)
  have happlies : profile.applyEdits errand.lines errand.edits = .ok changed := by
    rw [Profile.applyEdits, hkind, happly]
    simp
  refine ⟨files, changed, ?_, ⟨text, hread, hlines⟩, happly, FileTree.read_write hwrite, ?_,
    hlength, fun i hnone => ?_⟩
  · simp only [write, happlies, hhalves, Option.isNone_none, if_true, hwrite]
  · rw [Text.unifyBreaks_ofLines hchanged, Text.lines_ofLines hchanged hne]
  · -- no edit is carried out on the line
    have hown : Edit.onLine errand.edits i = [] :=
      List.eq_nil_iff_forall_not_mem.mpr fun e he => hnone e (Edit.mem_onLine.mp he).1
        (Edit.mem_onLine.mp he).2.2
    rw [← hdone, List.getElem?_mapIdx]
    simp [Edit.carried, hown]

/-! ### What is shown of an errand -/

/-- The terminal shows the edits of the errand that put the done mark in. -/
def MarkShown (errand : Errand) (terminal : Terminal) (profile : Profile) : Prop :=
  ∀ e ∈ errand.edits, Profile.insertsMark e = true → terminal.Shows (displayEdit profile e)

section Shown

variable {terminal : Terminal}

theorem isShowable_lineLabel (line : Int) : (lineLabel line).IsShowable := by
  have hminus : Text.IsShowable ['-'] := by decide
  rw [lineLabel]
  cases line + 1 with
  | ofNat n => exact Text.isShowable_ofNat n
  | negSucc n => exact hminus.append (Text.isShowable_ofNat (n + 1))

/-- An edit is shown whose text can be. -/
theorem shows_displayEdit (hstyles : terminal.ShowsStyles) {e : Edit}
    (htext : (profile.shownText e).IsShowable) : terminal.Shows (displayEdit profile e) := by
  have hkind : Text.IsShowable (' ' :: e.kind.name.toList ++ [' ']) := by
    cases e.kind <;> decide
  have hline := hstyles "dim" (by decide) _ _ (isShowable_lineLabel e.line) (hkind.append htext)
  simpa [displayEdit, Display.ofEdit] using hline

/-- **A done mark without brackets is shown**, as long as it has bytes. -/
theorem markShown_of_isShowable (hstyles : terminal.ShowsStyles)
    (hkind : profile.doneMark.kind = .text) (hmark : profile.settings.doneMark.IsShowable) :
    errand.MarkShown terminal profile := by
  intro e _ hinserts
  refine shows_displayEdit hstyles ?_
  obtain ⟨t, hvalue⟩ := Profile.eq_text_of_kind hkind
  rw [Profile.settings, hvalue] at hmark
  rw [Profile.shownText, if_pos hinserts, hvalue]
  exact hmark.quoted

/-- **The edits of an errand are shown** if those that put the done mark in are. -/
theorem Fits.shows {mark : Text} (h : errand.Fits world mark) (hstyles : terminal.ShowsStyles)
    (hmark : errand.MarkShown terminal profile) :
    ∀ display ∈ errand.edits.map (displayEdit profile), terminal.Shows display := by
  intro display hdisplay
  obtain ⟨e, he, rfl⟩ := List.mem_map.mp hdisplay
  by_cases hinserts : Profile.insertsMark e = true
  · exact hmark e he hinserts
  · -- what puts no mark in puts inert characters in
    have hinert := (h.prints e he).resolve_left fun hputs =>
      hinserts (beq_iff_eq.mpr hputs.1)
    refine shows_displayEdit hstyles ?_
    rw [Profile.shownText, if_neg hinserts]
    exact (Text.isShowable_of_isInert hinert).quoted

theorem shows_summary (hstyles : terminal.ShowsStyles) (errand : Errand) (dryRun : Bool) :
    terminal.Shows (errand.summary dryRun) := by
  have hwords : Text.IsShowable (" edits".toList ++ if dryRun then " (dry run)".toList else []) := by
    cases dryRun <;> decide
  have hmark : Text.IsShowable ['✅', ' '] := by decide
  have hline : errand.summary dryRun = .line (styled "green" (['✅', ' '] ++
      (Numeral.ofNat errand.edits.length ++
        (" edits".toList ++ if dryRun then " (dry run)".toList else []))) ++ []) := by
    simp only [summary, List.append_assoc, List.cons_append, List.nil_append, List.append_nil]
  rw [hline]
  exact hstyles "green" (by decide) _ []
    (hmark.append ((Text.isShowable_ofNat _).append hwords)) (by decide)

end Shown

/-! ### Steps of an errand -/

/-- Edits that are not carried out change no files. -/
theorem leavesFiles_perform {dryRun : Bool} (h : dryRun = true ∨ errand.edits = []) :
    LeavesFiles world (errand.perform world profile dryRun) := by
  have hidle : (dryRun || errand.edits.isEmpty) = true := by
    rcases h with rfl | h <;> simp [*]
  have htell : LeavesFiles world (tell world.terminal ([], world.files)
      (errand.edits.map (displayEdit profile))) := leavesFiles_tell rfl _
  refine leavesFiles_bind htell.quiet fun done hdone => ?_
  dsimp only
  rw [if_pos hidle]
  refine ⟨isQuiet_ok _, fun after hafter => ?_⟩
  obtain rfl := Except.ok.inj hafter
  exact htell.ok done hdone

/-- An errand ends where one of its edits is not shown. -/
theorem exists_perform_error (dryRun : Bool)
    (h : ∃ e ∈ errand.edits, ¬ world.terminal.Shows (displayEdit profile e)) :
    ∃ fault shown, errand.perform world profile dryRun =
      .error (.crashed (.display fault) shown (some world.files)) := by
  obtain ⟨e, he, hnot⟩ := h
  obtain ⟨fault, shown, htell⟩ := exists_tell_error ([], world.files)
    ⟨displayEdit profile e, List.mem_map_of_mem he, hnot⟩
  exact ⟨fault, shown, by rw [perform, htell]; rfl⟩

/-- An errand is done once its edits are shown. -/
theorem perform_eq_ok (hedits : errand.edits ≠ [])
    (hshows : ∀ display ∈ errand.edits.map (displayEdit profile), world.terminal.Shows display)
    {files : FileTree} (hwrite : errand.write world profile = .ok files) :
    errand.perform world profile false =
      .ok (errand.edits.map (displayEdit profile), files) := by
  have hsome : errand.edits.isEmpty = false := by simpa using hedits
  rw [perform, tell_of_shows _ hshows]
  simp [bind, Except.bind, pure, Except.pure, hsome, hwrite]

end Errand

end Command

end TaskList
