/-
TaskList.Proofs.Action.Conservative — deeds that put one tag in and change
nothing else.

* `Deed.Appends` — the deeds that put a tag in at the end of a line, with the
  tag and the field that it is to be read as: hiding a task, collapsing one,
  saying when one without a due tag is due, and completing one with a completion
  tag.
* `Deed.appends_one_field` — carrying such a deed out and reading the line again
  gives the same task with that field more, and no other field, span or text of
  it is different. A line that has an `x` and nothing else behind its
  indentation is the one exception, since the space in front of the tag makes a
  done mark of it.
-/
import TaskList.Proofs.Action.Counting
import TaskList.Proofs.Document.Reading
import TaskList.Proofs.Line.Extended

namespace TaskList

/-- The deed puts a tag in at the end of the line of a task, and the tag is to
be read as a field. -/
inductive Deed.Appends (settings : Settings) (target : Day) (task : Task) :
    Deed → Token → Field → Prop
  /-- A task that is not hidden is hidden. -/
  | hide (h : task.isHidden = false) :
    Appends settings target task .hide (.tag "h".toList none) .hidden
  /-- A task that is not collapsed is collapsed. -/
  | collapse (h : task.isCollapsed = false) :
    Appends settings target task .toggleCollapse (.tag "c".toList none) .collapsed
  /-- It is said when a task is due that has no due tag. The text is more than
  white space, has no braces, and can be evaluated. -/
  | setDue {value : Text} {alternatives : List Due.Alternative} (h : task.due? = none)
      (hwritten : value.allBlank = false) (hopen : '{' ∉ value) (hclose : '}' ∉ value)
      (hread : Due.Expression.read value = .ok ⟨value, alternatives⟩) :
    Appends settings target task (.setDue value) (.tag "due".toList (some value))
      (.due ⟨⟨value, alternatives⟩, Due.Expression.stateOn ⟨value, alternatives⟩ target⟩)
  /-- An open task without an overdue tag is completed, with a completion tag
  for it. -/
  | complete {now : Instant} (h : task.isDone = false) (hnone : task.overdue? = none)
      (hstamps : settings.stampsCompletion = true) (hyear : 1000 ≤ now.day.civil.year) :
    Appends settings target task (.toggleDone now)
      (.tag "cm".toList (some (Task.stamp settings now)))
      (.completed (some (now.stamped settings.stampsTime)))

namespace Deed.Appends

variable {settings : Settings} {target : Day} {task : Task} {deed : Deed} {token : Token}
  {field : Field}

/-- What is put in is a tag with a key that the task has no field for, and it is
read as the field. -/
theorem exists_key (h : deed.Appends settings target task token field) :
    ∃ (key : Key) (value : Option Text), token = .tag key.text value ∧
      (Token.tag key.text value).IsShaped ∧ task.fieldOf? key = none ∧
      Field.ofTag? target 0 key value = .ok (some field) := by
  cases h with
  | hide hhidden =>
    refine ⟨.hidden, none, rfl, Token.isShaped_tag .hidden (by simp), ?_, rfl⟩
    have hnone : task.hiddenTag? = none := by simpa [Task.isHidden] using hhidden
    rw [Task.fieldOf?, hnone, Option.map_none]
  | collapse hcollapsed =>
    refine ⟨.collapsed, none, rfl, Token.isShaped_tag .collapsed (by simp), ?_, rfl⟩
    have hnone : task.collapsedTag? = none := by simpa [Task.isCollapsed] using hcollapsed
    rw [Task.fieldOf?, hnone, Option.map_none]
  | @setDue value alternatives hnone hwritten hopen hclose hread =>
    refine ⟨.due, some value, rfl, Token.isShaped_tag .due fun v hv c hc => ?_, ?_, ?_⟩
    · obtain rfl := Option.some.inj hv
      have hne : c ≠ '{' ∧ c ≠ '}' := ⟨fun heq => hopen (heq ▸ hc), fun heq => hclose (heq ▸ hc)⟩
      simpa [Token.isValueChar] using hne
    · rw [Task.fieldOf?, hnone, Option.map_none]
    · simp [Field.ofTag?, Field.due?, hwritten, hread]
  | @complete now hopen hnone hstamps hyear =>
    refine ⟨.completed, some (Task.stamp settings now), rfl, Line.isShaped_stampTag, ?_, ?_⟩
    · have hcompletion : task.completion? = none := by
        rw [Task.isDone, Bool.or_eq_false_iff] at hopen
        simpa using hopen.2
      rw [Task.fieldOf?, hcompletion, Option.map_none]
    · rw [Field.ofTag?, Task.stamp, Instant.parse?_written hyear]
      rfl

/-- The field does not know where its tag stands. -/
theorem moved_eq (h : deed.Appends settings target task token field) (column : Nat) :
    field.moved column = field := by
  cases h <;> rfl

/-- The deed is one edit, which puts the tag in at the end. -/
theorem exists_append (h : deed.Appends settings target task token field) :
    ∃ kind payload, deed.edits settings task = [task.append token.text kind payload] ∧
      (kind != .deleteLine) = true := by
  cases h with
  | hide hhidden =>
    exact ⟨.hide, .none, by simp [edits, Task.hide, hhidden], rfl⟩
  | collapse hcollapsed =>
    have hnone : task.collapsedTag? = none := by simpa [Task.isCollapsed] using hcollapsed
    exact ⟨.toggleCollapse, .flag true, by simp [edits, Task.toggleCollapse, hnone], rfl⟩
  | setDue hnone =>
    exact ⟨.setDue, _, by simp only [edits, Task.setDue, hnone]; rfl, rfl⟩
  | @complete now hopen hnone hstamps =>
    refine ⟨.insertCompletion, .text (Task.stamp settings now), ?_, rfl⟩
    simp only [edits, Task.toggleDone, Task.removeOverdue, hnone, hopen, hstamps]
    rfl

end Deed.Appends

/-- **Putting a tag in is conservative.** The line with the tag at its end is
read as the same task, with one field more at the end of the line. Only a line
with nothing but an `x` behind its indentation becomes a done task without a
title. -/
theorem Deed.appends_one_field {settings : Settings} {unit : Option IndentUnit} {target : Day}
    {lines : List Text} {i : Nat} {raw : Text} {task : Task} {deed : Deed} {token : Token}
    {field : Field} (hmark : settings.doneMark = "x ".toList) (hwritten : raw.allBlank = false)
    (hline : lines[i]? = some raw) (hread : Line.read settings unit target i raw = .ok task)
    (happends : deed.Appends settings target task token field) :
    Edit.applyAll lines (deed.edits settings task) = .ok (lines.set i (raw.withTag token.text)) ∧
    (raw.dropWhile Line.isIndent ≠ ['x'] →
      Line.read settings unit target i (raw.withTag token.text) =
        .ok (task.withField token.text field)) ∧
    (raw.dropWhile Line.isIndent = ['x'] →
      Line.read settings unit target i (raw.withTag token.text) =
        .ok { task.withField token.text field with
          marker := some ⟨raw.length - 1, raw.length + 1⟩
          title := [] }) := by
  have hraw := Line.raw_of_read hread
  have hne : raw ≠ [] := by
    rintro rfl
    simp [Text.allBlank] at hwritten
  obtain ⟨kind, payload, hedits, hkind⟩ := happends.exists_append
  obtain ⟨key, value, rfl, hshape, hnone, hfield⟩ := happends.exists_key
  refine ⟨?_, fun hbare => ?_, fun hbare => ?_⟩
  · have hcolumn : ∀ e ∈ deed.edits settings task, e.isColumnEdit = true ∧ e.line = i := by
      intro e he
      rw [hedits, List.mem_singleton] at he
      subst he
      exact ⟨hkind, Line.line_of_read hread⟩
    subst hraw
    rw [Edit.applyAll_line hcolumn hline, hedits, List.mergeSort_singleton, List.foldr_cons,
      List.foldr_nil, Task.applyTo_append hne]
  · have hhead : Line.head settings (Line.indentUnit settings unit)
        (raw.withTag (Token.tag key.text value).text) =
          Line.head settings (Line.indentUnit settings unit) raw := by
      obtain ⟨body, hbody⟩ := Token.tag_head hshape
      rw [hbody]
      refine Line.head_withTag ?_ hwritten (fun hspace => hbare ?_) _ body
      · rw [hmark]
        decide
      · rw [hmark] at hspace
        exact List.append_cancel_right (hspace : _ = ['x'] ++ [' '])
    exact Line.read_withTag hread hhead hnone hshape hfield happends.moved_eq
  · exact Line.read_withTag_bare hmark hbare hread hshape hfield happends.moved_eq

/-- A done task with a priority, a brace that is never closed, a mention with a
brace in it, a due tag without a value and one behind it that is blank, and a
space at the end: it is said when it is due. -/
theorem Deed.appends_one_field_blank :
    ∃ task, Line.read {} none ⟨736695, by decide, by decide⟩ 0
        "\tx (B) a\x7bc #b\x7d \x7bdue\x7d\x7bdue: \x7d ".toList = .ok task ∧
      task.due? = none ∧
      Line.read {} none ⟨736695, by decide, by decide⟩ 0
        "\tx (B) a\x7bc #b\x7d \x7bdue\x7d\x7bdue: \x7d \x7bdue:mon,a\x7d".toList =
          .ok (task.withField "\x7bdue:mon,a\x7d".toList (.due ⟨⟨"mon,a".toList,
            [⟨"mon".toList, some (.weekday .monday)⟩, ⟨"a".toList, none⟩]⟩, .due⟩)) := by
  have heq : (Line.read {} none ⟨736695, by decide, by decide⟩ 0
      "\tx (B) a\x7bc #b\x7d \x7bdue\x7d\x7bdue: \x7d ".toList).toOption.map (·.due?) =
        some none := by
    decide +kernel
  have hvalue : Due.Expression.read "mon,a".toList = .ok ⟨"mon,a".toList,
      [⟨"mon".toList, some (.weekday .monday)⟩, ⟨"a".toList, none⟩]⟩ := by
    have hsome : (Due.Expression.read "mon,a".toList).toOption = some ⟨"mon,a".toList,
        [⟨"mon".toList, some (.weekday .monday)⟩, ⟨"a".toList, none⟩]⟩ := by decide +kernel
    generalize Due.Expression.read _ = result at hsome ⊢
    cases result <;> simp_all [Except.toOption]
  generalize hread : Line.read _ _ _ _ _ = result at heq
  cases result with
  | error e => simp [Except.toOption] at heq
  | ok task =>
    have hdue : task.due? = none := Option.some.inj heq
    have hmade := (Deed.appends_one_field rfl (by decide)
      (List.getElem?_cons_zero : [_][0]? = _) hread
      (.setDue hdue (by decide) (by decide) (by decide) hvalue)).2.1 (by decide)
    exact ⟨task, rfl, hdue, hmade⟩

end TaskList
