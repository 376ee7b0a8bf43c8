/-
TaskList.Proofs.Line.OnDay — a line that is read for another day.

* `Field.onDay` and `Task.onDay` — the due state of another day, and all else as
  it was.
* `Line.read_onDay` — that is what reading the line for that day gives.
* `Task.reset_onDay` — a new cycle of a task does not depend on the day that its
  line was read for.
-/
import TaskList.Action.Reset
import TaskList.Proofs.Line.Visited

namespace TaskList

/-- The field as it is read for another day. -/
def Field.onDay (day : Day) : Field → Field
  | .due tag => .due ⟨tag.expression, tag.expression.stateOn day⟩
  | field => field

/-- The task as it is read for another day. -/
def Task.onDay (day : Day) (task : Task) : Task :=
  { task with fields := task.fields.map (Located.map (Field.onDay day)) }

/-! ## Reading -/

section Reading

variable (target day : Day)

theorem Field.due?_onDay (value : Text) :
    due? value day = (due? value target).map (Option.map (onDay day)) := by
  rw [due?, due?]
  split
  · rfl
  · split <;> rfl

theorem Field.ofTag?_onDay (column : Nat) (key : Key) (value : Option Text) :
    ofTag? day column key value =
      (ofTag? target column key value).map (Option.map (onDay day)) := by
  refine Line.ofTag?_map (fun field hdue _ => ?_) (due?_onDay target day) (fun v columns => ?_) key
    value
  · cases field with
    | due tag => exact absurd rfl (hdue tag)
    | _ => rfl
  · -- a counter is the same on every day
    rw [count?]
    split
    · rfl
    · split <;> rfl

namespace Line

theorem field?_onDay (used : List Key) (token : Located Token) :
    field? day used token = (field? target used token).map
      (Option.map fun found => (found.1.onDay day, found.2)) := by
  unfold field?
  split
  · rfl
  · split
    · rfl
    · split
      · rfl
      · rw [Field.ofTag?_onDay target day]
        rcases Field.ofTag? target token.span.start _ _ with e | _ | field <;> rfl

theorem fields_onDay (used : List Key) (tokens : List (Located Token)) :
    fields day used tokens =
      (fields target used tokens).map (List.map (Located.map (Field.onDay day))) := by
  induction tokens generalizing used with
  | nil => rfl
  | cons token rest ih =>
    rw [fields, fields, field?_onDay target day]
    rcases field? target used token with e | _ | ⟨field, keys⟩
    · rfl
    · exact ih used
    · simp only [Except.map, Option.map]
      rw [ih]
      rcases fields target (keys ++ used) rest with e | more <;> rfl

end Line

end Reading

namespace Line

variable {settings : Settings} {unit : Option IndentUnit} {target : Day} {number : Int}
  {raw : Text} {task : Task}

/-- **The day that a line is read for decides the due state**, and nothing
else. -/
theorem read_onDay (h : read settings unit target number raw = .ok task) (day : Day) :
    read settings unit day number raw = .ok (task.onDay day) := by
  obtain ⟨hfields, htask⟩ := read_eq_ok h
  rw [read, fields_onDay target day, hfields, htask]
  simp [Except.map, Task.onDay, title, Located.map, Function.comp_def]

end Line

/-! ## The actions of a visit -/

namespace Task

variable (task : Task) (day : Day)

/-- An accessor that does not see the due state finds what it found. -/
theorem find?_onDay {α : Type} {kind : Field → Option α}
    (hkind : ∀ field : Field, kind (field.onDay day) = kind field) :
    (task.onDay day).find? kind = task.find? kind := by
  rw [find?, find?, onDay, List.findSome?_map]
  refine congrArg (List.findSome? · task.fields) (funext fun field => ?_)
  simp only [Function.comp_apply, Located.map, hkind]

theorem count?_onDay : (task.onDay day).count? = task.count? :=
  find?_onDay task day fun field => by cases field <;> rfl

theorem overdue?_onDay : (task.onDay day).overdue? = task.overdue? :=
  find?_onDay task day fun field => by cases field <;> rfl

theorem completion?_onDay : (task.onDay day).completion? = task.completion? :=
  find?_onDay task day fun field => by cases field <;> rfl

theorem due?_onDay : (task.onDay day).due? = task.due?.map (Located.map fun tag =>
    ⟨tag.expression, tag.expression.stateOn day⟩) := by
  change List.findSome? _ (task.fields.map _) = (List.findSome? _ task.fields).map _
  rw [List.findSome?_map, List.map_findSome?]
  refine congrArg (List.findSome? · task.fields) (funext fun field => ?_)
  obtain ⟨span, value⟩ := field
  cases value <;> rfl

theorem withCount_onDay (done : Nat) : (task.onDay day).withCount done = task.withCount done := by
  rw [withCount, withCount, count?_onDay]
  rfl

theorem visited_onDay (missed : Option Day) :
    (task.onDay day).visited missed = task.visited missed := by
  cases missed with
  | none => exact withCount_onDay task day 0
  | some d => exact congrArg (Text.withTag · _) (withCount_onDay task day 0)

theorem isDone_onDay : (task.onDay day).isDone = task.isDone := by
  rw [isDone, isDone, completion?_onDay]
  rfl

theorem isRecurring_onDay : (task.onDay day).isRecurring = task.isRecurring := by
  rw [isRecurring, isRecurring, due?_onDay]
  cases task.due? <;> rfl

theorem missedSince?_onDay (lastVisit now : Instant) :
    (task.onDay day).missedSince? lastVisit now = task.missedSince? lastVisit now := by
  rw [missedSince?, missedSince?, due?_onDay]
  cases task.due? <;> rfl

theorem clearCompletion_onDay : (task.onDay day).clearCompletion = task.clearCompletion := by
  rw [clearCompletion, clearCompletion, clearStamp, clearStamp, completion?_onDay]
  rfl

theorem resetCount_onDay : (task.onDay day).resetCount = task.resetCount := by
  rw [resetCount, resetCount, count?_onDay]
  rfl

/-- **A new cycle does not depend on the day that the line was read for.** -/
theorem reset_onDay (lastVisit now : Instant) :
    (task.onDay day).reset lastVisit now = task.reset lastVisit now := by
  rw [reset, reset, isRecurring_onDay, resetCount_onDay, resetState, resetState, isDone_onDay,
    clearCompletion_onDay, overdue?_onDay, missedSince?_onDay]
  rfl

end Task

end TaskList
