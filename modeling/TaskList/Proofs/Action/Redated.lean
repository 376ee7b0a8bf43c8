/-
TaskList.Proofs.Action.Redated — saying when a task is due.

* `Task.foldr_setDue` — the edit that says it makes the line with that due tag.
* `Task.SwapsDue` — a task with another due tag in the place of its own.
  `Task.Redated` — what it has in common with the one before.
* `Task.setDue_redates` — the text is what the task is due at if there is no brace in it,
  and more than white space. If it is, and the task had a due tag, nothing else about the
  task changes but for the columns behind the tag.
-/
import TaskList.Proofs.Action.Counting
import TaskList.Proofs.Document.Renewed
import TaskList.Proofs.Line.Redated

namespace TaskList

namespace Task

/-- The task with another due tag in the place of its own, which is read for a day: the
fields in front of the tag stay where they are, and those behind it as far behind its end. -/
def SwapsDue (target : Day) (before : Task) (x : Located DueTag) (value : Text) (after : Task) :
    Prop :=
  ∃ (front behind : List (Located Field)) (e : Due.Expression),
    Due.Expression.read value = .ok e ∧
    before.fields = front ++ ⟨x.span, .due x.value⟩ :: behind.map (Located.moved x.span.stop) ∧
    after = { before with
      raw := before.withDue value
      fields := front ++
        ⟨⟨x.span.start, x.span.start + (Line.dueTag value).text.length⟩,
          .due ⟨e, e.stateOn target⟩⟩ ::
        behind.map (Located.moved (x.span.start + (Line.dueTag value).text.length)) }

namespace SwapsDue

variable {target : Day} {before after : Task} {x : Located DueTag} {value : Text}

/-- An accessor that looks neither at columns nor at due tags finds what it found. -/
theorem found_eq (h : before.SwapsDue target x value after) {α : Type}
    {kind : Field → Option α}
    (hkind : ∀ columns field, kind (Field.moved columns field) = kind field)
    (hdue : ∀ tag, kind (.due tag) = none) :
    (after.find? kind).map (·.value) = (before.find? kind).map (·.value) := by
  obtain ⟨front, behind, e, -, hbefore, hafter⟩ := h
  rw [hafter, map_find?, map_find?, hbefore]
  simp only [List.map_append, List.map_cons, List.map_map, Function.comp_def, Located.moved,
    List.findSome?_append, List.findSome?_cons, List.findSome?_map, hkind, hdue]

theorem isDone_eq (h : before.SwapsDue target x value after) : after.isDone = before.isDone := by
  have hcompletion : after.completion?.map (·.value) = before.completion?.map (·.value) :=
    h.found_eq (fun columns field => by cases field <;> rfl) fun _ => rfl
  obtain ⟨front, behind, e, -, -, hafter⟩ := h
  exact isDone_congr (by rw [hafter]) hcompletion

theorem names_eq (h : before.SwapsDue target x value after) (group : Group) :
    after.names group = before.names group := by
  obtain ⟨front, behind, e, -, hbefore, hafter⟩ := h
  rw [names, names, value_mentions, value_mentions, lasting, lasting, hafter, hbefore]
  simp only [List.map_append, List.map_cons, List.map_map, Function.comp_def, Located.moved,
    Field.lasting_moved, List.filterMap_append]
  rfl

end SwapsDue

/-- The task of a line before and after another due tag took the place of its own. -/
structure Redated (target : Day) (before : Task) (x : Located DueTag) (value : Text)
    (after : Task) : Prop where
  /-- The due tag is another one, and what is behind it has moved; -/
  swaps : before.SwapsDue target x value after
  /-- so it is the one of the task, -/
  due_eq : ∃ tag, after.due? =
    some ⟨⟨x.span.start, x.span.start + (Line.dueTag value).text.length⟩, tag⟩
  /-- the task is done if it was, -/
  isDone_eq : after.isDone = before.isDone
  /-- it belongs to the groups that it belonged to, -/
  names_eq : ∀ group, after.names group = before.names group
  /-- and each of its other tags says what it said. -/
  found_eq : ∀ (α : Type) (kind : Field → Option α),
    (∀ columns field, kind (Field.moved columns field) = kind field) →
      (∀ tag, kind (.due tag) = none) →
        (after.find? kind).map (·.value) = (before.find? kind).map (·.value)

end Task

section Redate

variable {settings : Settings} {unit : Option IndentUnit} {target : Day} {number : Int}
  {raw value : Text} {task after : Task} {x : Located DueTag}

/-- A task whose line has another due tag, and that is due at what it says, is redated. -/
theorem Line.redated_of_read (hmark : settings.doneMark = "x ".toList)
    (h : read settings unit target number raw = .ok task) (hx : task.due? = some x)
    (hread : read settings unit target number (task.withDue value) = .ok after)
    (hdue : after.dueText? = some value) : task.Redated target x value after := by
  obtain ⟨y, hy, rfl⟩ := Option.map_eq_some_iff.mp hdue
  obtain ⟨hshape, hcarries⟩ := dueTag_of_read hread hdue
  have he := Task.read_expression hread hy
  obtain ⟨front, behind, hbefore, hsame⟩ :=
    read_redated (by rw [hmark]; decide) h hx hshape hcarries he
  have hafter := Except.ok.inj (hread.symm.trans hsame)
  have hswaps : task.SwapsDue target x y.value.expression.raw after :=
    ⟨front, behind, _, he, hbefore, hafter⟩
  constructor
  case swaps => exact hswaps
  case due_eq =>
    have hmem : ⟨⟨x.span.start, x.span.start + (dueTag y.value.expression.raw).text.length⟩,
        .due ⟨y.value.expression, y.value.expression.stateOn target⟩⟩ ∈ after.fields := by
      simp [hafter]
    have hfield := (Task.fieldOf?_eq_some_iff (keys_apart_of_read hread)).mpr ⟨hmem, rfl⟩
    rw [Task.fieldOf?, hy] at hfield
    have hspan := congrArg Located.span (Option.some.inj hfield)
    dsimp only [Located.map] at hspan
    exact ⟨y.value, by rw [hy, ← hspan]⟩
  case isDone_eq => exact hswaps.isDone_eq
  case names_eq => exact hswaps.names_eq
  case found_eq => exact fun α kind hkind hnone => hswaps.found_eq hkind hnone

/-- The edit that says when a task is due makes its line with that due tag. -/
theorem Task.foldr_setDue (task : Task) (value : Text) :
    ((task.setDue value).mergeSort Edit.leftOf).foldr Edit.applyTo task.raw =
      task.withDue value := by
  rw [setDue, withDue]
  cases task.due? with
  | some x =>
    rw [List.mergeSort_singleton]
    exact Edit.applyTo_span task.line x.span task.raw _ _ _
  | none =>
    dsimp only
    rw [List.mergeSort_singleton, List.foldr_cons, List.foldr_nil]
    split
    · rename_i hnil
      rw [append, Edit.applyTo_insert_end, if_pos (.inl hnil), hnil]
      rfl
    · rename_i hne
      exact applyTo_append hne _ _ _

/-- **Saying when a task is due** makes the line with that due tag. If that line can be
read, its task is due at the text exactly if there is no brace in it and more than white
space; and then, where there was a due tag before, nothing else about the task is different,
but for the columns of what is behind the tag. -/
theorem Task.setDue_redates {lines : List Text} {i : Nat} (hmark : settings.doneMark = "x ".toList)
    (hline : lines[i]? = some raw) (hread : Line.read settings unit target i raw = .ok task)
    (value : Text) :
    Edit.applyAll lines (task.setDue value) = .ok (lines.set i (task.withDue value)) ∧
    ∀ after, Line.read settings unit target i (task.withDue value) = .ok after →
      (after.dueText? = some value ↔ value.allBlank = false ∧ '{' ∉ value ∧ '}' ∉ value) ∧
      (after.dueText? = some value → ∀ x, task.due? = some x →
        task.Redated target x value after) := by
  constructor
  · have happly := Deed.applyAll_edits hread hline (.setDue value)
    have hfold := task.foldr_setDue value
    rw [Line.raw_of_read hread] at hfold
    rwa [Deed.edits, hfold] at happly
  · intro after hafter
    exact ⟨Line.due_withDue_iff hmark hread hafter,
      fun hdue x hx => Line.redated_of_read hmark hread hx hafter hdue⟩

end Redate

/-- A task with a blank due tag in front of its own, and behind it another one, a counter
and a brace that is never closed. -/
theorem Task.setDue_redates_repeated :
    ∃ task x after, Line.read {} none ⟨736695, by decide, by decide⟩ (1 : Nat)
        "#a\x7b \x7bdue: \x7d\x7bdue:mon\x7d\x7bdue:tue\x7d\x7bcount:1/3\x7d\x7b".toList =
          .ok task ∧
      task.due? = some x ∧ x.span = ⟨11, 20⟩ ∧
      Edit.applyAll ["# note".toList,
        "#a\x7b \x7bdue: \x7d\x7bdue:mon\x7d\x7bdue:tue\x7d\x7bcount:1/3\x7d\x7b".toList]
        (task.setDue "a,tue".toList) = .ok ["# note".toList,
          "#a\x7b \x7bdue: \x7d\x7bdue:a,tue\x7d\x7bdue:tue\x7d\x7bcount:1/3\x7d\x7b".toList] ∧
      Line.read {} none ⟨736695, by decide, by decide⟩ (1 : Nat)
        "#a\x7b \x7bdue: \x7d\x7bdue:a,tue\x7d\x7bdue:tue\x7d\x7bcount:1/3\x7d\x7b".toList =
          .ok after ∧
      after.dueText? = some "a,tue".toList ∧
      task.Redated ⟨736695, by decide, by decide⟩ x "a,tue".toList after := by
  have hbefore : (Line.read {} none ⟨736695, by decide, by decide⟩ (1 : Nat)
      "#a\x7b \x7bdue: \x7d\x7bdue:mon\x7d\x7bdue:tue\x7d\x7bcount:1/3\x7d\x7b".toList
      ).toOption.map (fun task => (task.due?.map (·.span), task.withDue "a,tue".toList)) =
      some (some ⟨11, 20⟩,
        "#a\x7b \x7bdue: \x7d\x7bdue:a,tue\x7d\x7bdue:tue\x7d\x7bcount:1/3\x7d\x7b".toList) := by
    decide +kernel
  have hsome : (Line.read {} none ⟨736695, by decide, by decide⟩ (1 : Nat)
      "#a\x7b \x7bdue: \x7d\x7bdue:a,tue\x7d\x7bdue:tue\x7d\x7bcount:1/3\x7d\x7b".toList
      ).isOk = true := by
    decide +kernel
  generalize hread : Line.read _ _ _ _ _ = result at hbefore ⊢
  generalize hafter : Line.read _ _ _ _ _ = result' at hsome ⊢
  cases result with
  | error e => simp [Except.toOption] at hbefore
  | ok task =>
    cases result' with
    | error e => exact absurd hsome Bool.false_ne_true
    | ok after =>
      obtain ⟨hspan, htext⟩ := Prod.mk.inj (Option.some.inj hbefore)
      obtain ⟨x, hx, hspan⟩ := Option.map_eq_some_iff.mp hspan
      obtain ⟨happly, hredates⟩ := setDue_redates rfl
        (show ["# note".toList, _][1]? = some _ from rfl) hread "a,tue".toList
      rw [htext] at happly hredates
      obtain ⟨hiff, hredated⟩ := hredates after hafter
      have hdue := hiff.mpr (by decide)
      exact ⟨task, x, after, rfl, hx, hspan, happly, rfl, hdue, hredated hdue x hx⟩

end TaskList
