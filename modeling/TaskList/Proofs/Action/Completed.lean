/-
TaskList.Proofs.Action.Completed — completing a task and reopening it.

* `Line.read_marked` — the line with a done mark behind its indentation is read
  as a task that is marked there and has the same tags.
* `Task.completion?_withField`, `Task.tagSpan_withTag` — a completion tag at the end of
  a line, and the columns that it is taken out with: the space in front of it goes too.
* `Task.toggleDone_restores` — an open task that is completed and reopened has its line
  back. With completion tags a space at the end of the line is lost, since it is taken
  for the one in front of the tag, and so is an `x` that is all of the line.
-/
import TaskList.Proofs.Action.Counting
import TaskList.Proofs.Action.Own
import TaskList.Proofs.Line.Extended
import TaskList.Proofs.Line.OnDay
import TaskList.Proofs.Line.Whole

namespace TaskList

namespace Line

variable {settings : Settings} {unit : Option IndentUnit} {target : Day} {number : Int}
  {raw : Text} {task : Task}

/-! ## With a done mark -/

/-- A task has what a key stands for if the parts of its whole line use the key up. -/
theorem isSome_fieldOf?_whole (parts : List Part) (key : Key) :
    ((taskOf settings unit number raw parts).fieldOf? key).isSome = true ↔
      key ∈ usedBehind [] (wholeOf settings unit raw parts) := by
  rw [Task.isSome_fieldOf?, lasting_taskOf, ← exists_key_iff, wholeOf, usedBehind_append,
    usedBehind_plainParts, mem_usedBehind]
  simp

/-- **A done mark put in** behind the indentation of a line is read as one, and the line
has the tags that it had. -/
theorem read_marked (hmark : settings.doneMark = "x ".toList)
    (h : read settings unit target number raw = .ok task) :
    ∃ done, read settings unit target number
        (raw.takeWhile isIndent ++ ("x ".toList ++ raw.dropWhile isIndent)) = .ok done ∧
      done.marker = some ⟨(raw.takeWhile isIndent).length, (raw.takeWhile isIndent).length + 2⟩ ∧
      ∀ key, (done.fieldOf? key).isSome = (task.fieldOf? key).isSome := by
  obtain ⟨parts, hlaid, rfl⟩ := read_iff_laidOut.mp h
  have hindent : ∀ c ∈ raw.takeWhile isIndent, isIndent c = true :=
    List.all_eq_true.mp List.all_takeWhile
  have hblank : ∀ c ∈ raw.takeWhile isIndent, isBlank c = true := fun c hc =>
    isBlank_of_isIndent (hindent c hc)
  -- the indentation is plain characters, and the mark may stand behind them
  have htext := hlaid.textOf_whole.trans (List.takeWhile_append_dropWhile (p := isIndent)).symm
  obtain ⟨rest, hwhole, hrest⟩ :=
    exists_plainParts htext fun c hc => isPlain_of_isBlank (hblank c hc)
  have hmarked := (laid_mark_iff hblank).mpr (hwhole ▸ hlaid.laid_whole hmark)
  have hline : textOf (plainParts (raw.takeWhile isIndent ++ "x ".toList) ++ rest) =
      raw.takeWhile isIndent ++ ("x ".toList ++ raw.dropWhile isIndent) := by
    rw [textOf_append, textOf_plainParts, hrest, List.append_assoc]
  obtain ⟨parts', hwhole', hlaid'⟩ := hmarked.exists_laidOut hmark unit
  rw [hline] at hwhole' hlaid'
  refine ⟨_, hlaid'.read_eq number, ?_, fun key => ?_⟩
  · have htake := (Text.takeWhile_run ("x ".toList ++ raw.dropWhile isIndent) hindent (by
      intro c hc
      obtain rfl : 'x' = c := Option.some.inj hc
      decide)).1
    simp only [taskOf, head, htake, List.drop_left, hmark]
    rfl
  · rw [Bool.eq_iff_iff, isSome_fieldOf?_whole, isSome_fieldOf?_whole, ← hwhole', hwhole,
      usedBehind_append, usedBehind_append, usedBehind_plainParts, usedBehind_plainParts]

end Line

/-! ## With a completion tag at the end -/

/-- The text without a space at its end. -/
def Text.unspaced (t : Text) : Text := if t.getLast? = some ' ' then t.dropLast else t

/-- One space is in front of a tag at the end of a text that is not empty. -/
theorem Text.withTag_eq {t : Text} (hne : t ≠ []) (tag : Text) :
    t.withTag tag = t.unspaced ++ ' ' :: tag := by
  rw [withTag, unspaced]
  split
  · rename_i hlast
    have hspace := List.dropLast_append_getLast hne
    rw [List.getLast?_eq_some_getLast hne, Option.some.injEq] at hlast
    rw [hlast] at hspace
    rw [List.nil_append, List.append_cons, hspace]
  · rfl

namespace Task

variable {task : Task}

theorem find?_withField {α : Type} {kind : Field → Option α} (tag : Text) (field : Field)
    (hnone : task.find? kind = none) :
    (task.withField tag field).find? kind = (kind field).map
      (⟨⟨(task.raw.withTag tag).length - tag.length, (task.raw.withTag tag).length⟩, ·⟩) := by
  rw [find?] at hnone
  rw [find?, withField, List.findSome?_append, hnone, Option.none_or, List.findSome?_singleton]

/-- The tag at the end of a line is taken out with the space in front of it, which may
have stood there before. -/
theorem tagSpan_withTag {t tag : Text} (hne : t ≠ []) (hraw : task.raw = t.withTag tag)
    (hmarker : task.marker = none) :
    task.tagSpan ⟨task.raw.length - tag.length, task.raw.length⟩ =
      ⟨t.unspaced.length, task.raw.length⟩ := by
  rw [Text.withTag_eq hne] at hraw
  have hstart : task.raw.length - tag.length = t.unspaced.length + 1 := by
    rw [hraw, List.length_append, List.length_cons]
    omega
  have hspace : task.raw[t.unspaced.length]? = some ' ' := by
    rw [hraw, List.getElem?_append_right (Nat.le_refl _), Nat.sub_self]
    rfl
  have hfloor : task.floor = 0 := by
    rw [floor, hmarker]
    rfl
  rw [hstart, tagSpan_of_left ⟨by rw [hfloor]; exact Nat.succ_pos _, hspace⟩]
  rfl

end Task

/-! ## Completed and reopened -/

/-- Completing the task of a line, reading the line again on some day and reopening the
task that is read leaves a text of the line. -/
def Task.ReopensTo (settings : Settings) (unit : Option IndentUnit) (again : Day)
    (lines : List Text) (i : Nat) (task : Task) (now later : Instant) (back : Text) : Prop :=
  ∃ text done, Edit.applyAll lines (task.toggleDone settings now) = .ok (lines.set i text) ∧
    Line.read settings unit again i text = .ok done ∧ done.isDone = true ∧
    Edit.applyAll (lines.set i text) (done.toggleDone settings later) = .ok (lines.set i back)

section Restored

variable {settings : Settings} {unit : Option IndentUnit} {target again : Day}
  {lines : List Text} {i : Nat} {raw : Text} {task : Task} {now later : Instant}

/-- The way there and back, line by line. -/
theorem Task.ReopensTo.of_read {text back : Text} {done : Task} (hline : lines[i]? = some raw)
    (hread : Line.read settings unit target i raw = .ok task)
    (htext : ((task.toggleDone settings now).mergeSort Edit.leftOf).foldr Edit.applyTo raw = text)
    (hagain : Line.read settings unit again i text = .ok done) (hdone : done.isDone = true)
    (hback : ((done.toggleDone settings later).mergeSort Edit.leftOf).foldr Edit.applyTo text =
      back) : task.ReopensTo settings unit again lines i now later back := by
  have hlt := (List.getElem?_eq_some_iff.mp hline).1
  have hset : (lines.set i text)[i]? = some text := List.getElem?_set_self hlt
  have hthere := Deed.applyAll_edits hread hline (.toggleDone now)
  have hhere := Deed.applyAll_edits hagain hset (.toggleDone later)
  rw [List.set_set] at hhere
  exact ⟨text, done, htext ▸ hthere, hagain, hdone, hback ▸ hhere⟩

theorem Task.toggleDone_of_open (hopen : task.isDone = false) (hnone : task.overdue? = none) :
    task.toggleDone settings now = [if settings.stampsCompletion then
      task.stampCompletion settings now
      else .insert task.line task.contentStart settings.doneMark .insertMarker] := by
  rw [toggleDone, removeOverdue, hnone, hopen]
  cases settings.stampsCompletion <;> rfl

theorem Task.toggleDone_of_done (hdone : task.isDone = true) (hnone : task.overdue? = none) :
    task.toggleDone settings now = task.clearMarker ++ task.clearStamp := by
  rw [toggleDone, removeOverdue, hnone, hdone, clearCompletion]
  rfl

/-- A done mark is put in, and the same is taken out. -/
theorem Task.reopensTo_marked (hmark : settings.doneMark = "x ".toList)
    (hline : lines[i]? = some raw) (hread : Line.read settings unit target i raw = .ok task)
    (hopen : task.isDone = false) (hnone : task.overdue? = none)
    (hstamps : settings.stampsCompletion = false) :
    task.ReopensTo settings unit again lines i now later raw := by
  have hsplit : raw = raw.takeWhile Line.isIndent ++ ([] ++ raw.dropWhile Line.isIndent) :=
    List.takeWhile_append_dropWhile.symm
  obtain ⟨done, hagain, hmarker, hsame⟩ := Line.read_marked hmark (Line.read_onDay hread again)
  have hdone : done.isDone = true := by rw [isDone, hmarker]; rfl
  have hcompletion : done.completion? = none := by
    have hfree := hsame .completed
    rw [isDone, Bool.or_eq_false_iff] at hopen
    simpa [fieldOf?, completion?_onDay, hopen.2] using hfree
  have hoverdue : done.overdue? = none := by
    have hfree := hsame .overdue
    simpa [fieldOf?, overdue?_onDay, hnone] using hfree
  have hcontent : task.contentStart = (raw.takeWhile Line.isIndent).length := by
    rw [contentStart, Line.raw_of_read hread]
    rfl
  refine .of_read hline hread ?_ hagain hdone ?_
  · rw [toggleDone_of_open hopen hnone, hstamps, List.mergeSort_singleton]
    conv_lhs => rw [hsplit]
    have hput := @Edit.applyTo_replace task.line ⟨task.contentStart, task.contentStart⟩
      (raw.takeWhile Line.isIndent) [] hcontent hcontent (raw.dropWhile Line.isIndent)
      settings.doneMark .insertMarker .none
    rw [hmark] at hput ⊢
    exact hput
  · rw [toggleDone_of_done hdone hoverdue, clearMarker, clearStamp, hmarker, hcompletion]
    have hgone := @Edit.applyTo_replace done.line ⟨(raw.takeWhile Line.isIndent).length,
      (raw.takeWhile Line.isIndent).length + 2⟩ (raw.takeWhile Line.isIndent) "x ".toList rfl rfl
      (raw.dropWhile Line.isIndent) [] .clearCompletion (.text "done".toList)
    dsimp only
    rw [List.append_nil, List.mergeSort_singleton]
    exact hgone.trans hsplit.symm

/-- A completion tag is put in at the end of the line. -/
theorem Task.foldr_stamped (hne : raw ≠ []) (hraw : task.raw = raw) (hopen : task.isDone = false)
    (hnone : task.overdue? = none) (hstamps : settings.stampsCompletion = true) (now : Instant) :
    ((task.toggleDone settings now).mergeSort Edit.leftOf).foldr Edit.applyTo raw =
      raw.withTag (Line.stampTag settings now).text := by
  subst hraw
  rw [toggleDone_of_open hopen hnone, hstamps, List.mergeSort_singleton]
  exact applyTo_append hne _ _ _

/-- The completion tag of an open task with that tag more. -/
theorem Task.completion?_withField (hcompletion : task.completion? = none) (tag : Text)
    (since : Option Instant) : (task.withField tag (.completed since)).completion? = some
      ⟨⟨(task.raw.withTag tag).length - tag.length, (task.raw.withTag tag).length⟩, since⟩ :=
  find?_withField tag _ hcompletion

theorem Task.overdue?_withField (hnone : task.overdue? = none) (tag : Text)
    (since : Option Instant) : (task.withField tag (.completed since)).overdue? = none :=
  find?_withField tag _ hnone

/-- With the completion tag at its end a line is read as the same task with that tag more,
unless the line has a done mark then that it did not have. -/
theorem Line.read_stamped (hmark : settings.doneMark = "x ".toList)
    (hwritten : raw.allBlank = false) (hread : Line.read settings unit again i raw = .ok task)
    (hcompletion : task.completion? = none) (hyear : 1000 ≤ now.day.civil.year) :
    Line.read settings unit again i (raw.withTag (stampTag settings now).text) =
      .ok (if raw.dropWhile isIndent = ['x'] then
        { task.withField (stampTag settings now).text (stampField settings now) with
          marker := some ⟨raw.length - 1, raw.length + 1⟩
          title := [] }
        else task.withField (stampTag settings now).text (stampField settings now)) := by
  have hshape : (stampTag settings now).IsShaped := isShaped_stampTag
  have hfield : Field.ofTag? again 0 .completed (some (Task.stamp settings now)) =
      .ok (some (stampField settings now)) := by
    rw [Field.ofTag?, Task.stamp, Instant.parse?_written hyear]
    rfl
  split
  · rename_i hbare
    exact read_withTag_bare hmark hbare hread hshape hfield fun _ => rfl
  · rename_i hbare
    have hhead : head settings (indentUnit settings unit)
        (raw.withTag (stampTag settings now).text) =
          head settings (indentUnit settings unit) raw := by
      obtain ⟨body, hbody⟩ := Token.tag_head hshape
      rw [stampTag, hbody]
      refine head_withTag ?_ hwritten (fun hspace => hbare ?_) _ body
      · rw [hmark]
        decide
      · rw [hmark] at hspace
        exact List.append_cancel_right (hspace : _ = ['x'] ++ [' '])
    have hfree : task.fieldOf? .completed = none := by
      rw [Task.fieldOf?, hcompletion]
      rfl
    exact read_withTag hread hhead hfree hshape hfield fun _ => rfl

/-- A completion tag that is at the end of a line, and the only sign that the task is
done, is taken out with the space in front of it. -/
theorem Task.foldr_unstamped {done : Task} {tag : Text} {since : Option Instant}
    (hne : raw ≠ []) (hraw : done.raw = raw.withTag tag) (hmarker : done.marker = none)
    (hstamp : done.completion? = some ⟨⟨done.raw.length - tag.length, done.raw.length⟩, since⟩)
    (hnone : done.overdue? = none) :
    ((done.toggleDone settings later).mergeSort Edit.leftOf).foldr Edit.applyTo
      (raw.withTag tag) = raw.unspaced := by
  have hdone : done.isDone = true := by
    rw [isDone, hstamp, Option.isSome_some, Bool.or_true]
  rw [toggleDone_of_done hdone hnone, clearMarker, hmarker, clearStamp, hstamp]
  dsimp only
  rw [List.nil_append, List.mergeSort_singleton, tagSpan_withTag hne hraw hmarker, ← hraw]
  refine (Edit.applyTo_delete_end _ _ _ _ _).trans ?_
  rw [hraw, Text.withTag_eq hne, List.take_left]

/-- Together with the done mark that it made of an `x`, it leaves the indentation. -/
theorem Task.foldr_unstamped_bare {done : Task} {tag : Text} {since : Option Instant}
    (hbare : raw.dropWhile Line.isIndent = ['x']) (hraw : done.raw = raw.withTag tag)
    (hmarker : done.marker = some ⟨raw.length - 1, raw.length + 1⟩)
    (hstamp : done.completion? = some ⟨⟨done.raw.length - tag.length, done.raw.length⟩, since⟩)
    (hnone : done.overdue? = none) :
    ((done.toggleDone settings later).mergeSort Edit.leftOf).foldr Edit.applyTo
      (raw.withTag tag) = raw.takeWhile Line.isIndent := by
  have hdone : done.isDone = true := by
    rw [isDone, hmarker, Option.isSome_some, Bool.true_or]
  have hcut : raw = raw.takeWhile Line.isIndent ++ ['x'] := by
    rw [← hbare, List.takeWhile_append_dropWhile]
  have hlength : raw.length = (raw.takeWhile Line.isIndent).length + 1 := by
    conv_lhs => rw [hcut]
    rw [List.length_append, List.length_singleton]
  have htext : raw.withTag tag = raw.takeWhile Line.isIndent ++ "x ".toList ++ tag := by
    conv_lhs => rw [hcut]
    rw [Text.withTag, if_neg (by simp)]
    simp
  -- the space in front of the tag belongs to the mark, and there is none behind it
  have hspan : done.tagSpan ⟨done.raw.length - tag.length, done.raw.length⟩ =
      ⟨raw.length + 1, done.raw.length⟩ := by
    have hstart : done.raw.length - tag.length = raw.length + 1 := by
      rw [hraw, htext, List.length_append, Nat.add_sub_cancel, List.length_append, hlength]
      rfl
    rw [hstart, tagSpan, floor_of_marker hmarker, if_neg (fun h => Nat.lt_irrefl _ h.1), if_neg]
    simp
  rw [toggleDone_of_done hdone hnone, clearMarker, hmarker, clearStamp, hstamp]
  dsimp only
  have hleft : raw.length - 1 < raw.length + 1 := by omega
  rw [hspan, List.singleton_append, (Edit.mergeSort_pair (Int.ofNat_lt.mpr hleft)).1,
    List.foldr_cons, List.foldr_cons, List.foldr_nil, ← hraw, Edit.applyTo_delete_end, hraw, htext]
  have hgone := @Edit.applyTo_replace done.line ⟨raw.length - 1, raw.length + 1⟩
    (raw.takeWhile Line.isIndent) "x ".toList (by rw [hlength]; rfl) (by rw [hlength]; rfl)
    [] [] .clearCompletion (.text "done".toList)
  rw [List.append_nil, List.append_nil, List.append_nil] at hgone
  have htake : (raw.takeWhile Line.isIndent ++ "x ".toList ++ tag).take (raw.length + 1) =
      raw.takeWhile Line.isIndent ++ "x ".toList := by
    refine List.take_left' ?_
    rw [List.length_append, hlength]
    rfl
  rw [htake]
  exact hgone

/-- A completion tag is put in, and it is taken out with the space in front of it; of a
line with nothing but an `x` in it only the indentation is left. -/
theorem Task.reopensTo_stamped (hmark : settings.doneMark = "x ".toList)
    (hwritten : raw.allBlank = false) (hline : lines[i]? = some raw)
    (hread : Line.read settings unit target i raw = .ok task) (hopen : task.isDone = false)
    (hnone : task.overdue? = none) (hstamps : settings.stampsCompletion = true)
    (hyear : 1000 ≤ now.day.civil.year) :
    task.ReopensTo settings unit again lines i now later
      (if raw.dropWhile Line.isIndent = ['x'] then raw.takeWhile Line.isIndent
        else raw.unspaced) := by
  have hne : raw ≠ [] := by
    rintro rfl
    exact Bool.noConfusion hwritten
  obtain ⟨hmarker, hcompletion⟩ : task.marker = none ∧ task.completion? = none := by
    rw [isDone, Bool.or_eq_false_iff] at hopen
    simpa using hopen
  have hraw := Line.raw_of_read hread
  have hfree := (completion?_onDay task again).trans hcompletion
  have hagain := Line.read_stamped hmark hwritten (Line.read_onDay hread again) hfree hyear
  have hthere := foldr_stamped hne hraw hopen hnone hstamps now
  have hstamp := completion?_withField hfree (Line.stampTag settings now).text
    (some (now.stamped settings.stampsTime))
  have hoverdue := overdue?_withField ((overdue?_onDay task again).trans hnone)
    (Line.stampTag settings now).text (some (now.stamped settings.stampsTime))
  have hlong : (task.onDay again).raw.withTag (Line.stampTag settings now).text =
      raw.withTag (Line.stampTag settings now).text := congrArg (Text.withTag · _) hraw
  by_cases hbare : raw.dropWhile Line.isIndent = ['x']
  · rw [if_pos hbare] at hagain ⊢
    exact .of_read hline hread hthere hagain rfl
      (foldr_unstamped_bare hbare hlong rfl hstamp hoverdue)
  · rw [if_neg hbare] at hagain ⊢
    refine .of_read hline hread hthere hagain ?_
      (foldr_unstamped hne hlong hmarker hstamp hoverdue)
    rw [isDone]
    exact (Bool.or_eq_true _ _).mpr (.inr (congrArg Option.isSome hstamp))

/-- **Completing and reopening** the open task of a line, which carries no overdue tag,
leaves the line as it was without completion tags. With them one space at its end is
lost, and so is the `x` of a line with nothing else in it. -/
theorem Task.toggleDone_restores (hmark : settings.doneMark = "x ".toList)
    (hwritten : raw.allBlank = false) (hline : lines[i]? = some raw)
    (hread : Line.read settings unit target i raw = .ok task) (hopen : task.isDone = false)
    (hnone : task.overdue? = none)
    (hyear : settings.stampsCompletion = true → 1000 ≤ now.day.civil.year) :
    task.ReopensTo settings unit again lines i now later
      (if settings.stampsCompletion = false then raw
        else if raw.dropWhile Line.isIndent = ['x'] then raw.takeWhile Line.isIndent
        else if raw.getLast? = some ' ' then raw.dropLast else raw) := by
  cases hstamps : settings.stampsCompletion with
  | false => exact reopensTo_marked hmark hline hread hopen hnone hstamps
  | true => exact reopensTo_stamped hmark hwritten hline hread hopen hnone hstamps (hyear hstamps)

/-- A line with two spaces at its end loses one of them. -/
theorem Task.toggleDone_restores_spaced :
    ∃ task, Line.read {} none ⟨736695, by decide, by decide⟩ (0 : Nat)
        "\t(A) a \x7bdue:mon\x7d  ".toList = .ok task ∧
      task.isDone = false ∧ task.overdue? = none ∧
      task.ReopensTo {} none ⟨736696, by decide, by decide⟩
        ["\t(A) a \x7bdue:mon\x7d  ".toList] 0 ⟨⟨736695, by decide, by decide⟩, none⟩
        ⟨⟨736696, by decide, by decide⟩, none⟩ "\t(A) a \x7bdue:mon\x7d ".toList := by
  have heq : (Line.read {} none ⟨736695, by decide, by decide⟩ (0 : Nat)
      "\t(A) a \x7bdue:mon\x7d  ".toList).toOption.map
        (fun task => (task.isDone, task.overdue?)) = some (false, none) := by
    decide +kernel
  generalize hread : Line.read _ _ _ _ _ = result at heq ⊢
  cases result with
  | error e => simp [Except.toOption] at heq
  | ok task =>
    obtain ⟨hopen, hnone⟩ := Prod.mk.inj (Option.some.inj heq)
    exact ⟨task, rfl, hopen, hnone, toggleDone_restores rfl (by decide)
      (List.getElem?_cons_zero : [_][0]? = _) hread hopen hnone fun _ => by decide +kernel⟩

end Restored

end TaskList
