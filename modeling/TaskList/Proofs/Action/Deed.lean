/-
TaskList.Proofs.Action.Deed — what the edits of one task are.

* `Deed` — what a person does with a task, or a visit.
* `Task.Makes` — the edits that deeds are made of, each once. `Deed.makes` — every
  edit of a deed is one of them, so what holds of these holds of all deeds.
-/
import TaskList.Action.Basic
import TaskList.Action.Reset
import TaskList.Proofs.Line.Recorded

namespace TaskList

/-! ## Deeds -/

/-- What is done with one task. -/
inductive Deed where
  /-- It is completed, or reopened. -/
  | toggleDone (now : Instant)
  /-- Its counter is counted up. -/
  | increment (now : Instant)
  /-- Its counter is counted down. -/
  | decrement
  /-- It is said when it is due. -/
  | setDue (value : Text)
  /-- Its priority is changed. -/
  | changePriority (direction : Direction)
  /-- It is collapsed, or opened again. -/
  | toggleCollapse
  /-- It is hidden. -/
  | hide
  /-- A new cycle of it starts. -/
  | reset (lastVisit now : Instant)

/-- The edits of a deed. -/
def Deed.edits (settings : Settings) (task : Task) : Deed → List Edit
  | toggleDone now => task.toggleDone settings now
  | increment now => task.increment settings now
  | decrement => task.decrement
  | setDue value => task.setDue value
  | changePriority direction => task.changePriority direction
  | toggleCollapse => task.toggleCollapse
  | hide => task.hide
  | reset lastVisit now => task.reset lastVisit now

/-- The edits that deeds are made of. -/
inductive Task.Makes (settings : Settings) (task : Task) : Edit → Prop
  /-- The overdue tag is taken out. -/
  | takeOverdue {x : Located Day} (h : task.overdue? = some x) :
    Makes settings task (.delete task.line (task.tagSpan x.span) .removeOverdue)
  /-- The done mark is taken out. -/
  | takeMarker {m : Span} (h : task.marker = some m) :
    Makes settings task (.delete task.line m .clearCompletion (.text "done".toList))
  /-- The completion tag is taken out. -/
  | takeStamp {x : Located (Option Instant)} (h : task.completion? = some x) :
    Makes settings task
      (.delete task.line (task.tagSpan x.span) .clearCompletion (.text "cm".toList))
  /-- The tag that collapses the task is taken out. -/
  | takeCollapsed {x : Located Unit} (h : task.collapsedTag? = some x) :
    Makes settings task (.delete task.line (task.tagSpan x.span) .toggleCollapse (.flag false))
  /-- A number is put into the counter. -/
  | writeCount {x : Located Count} (h : task.count? = some x) (value : Nat) {kind : EditKind}
      (hkind : kind = .setCount ∨ kind = .clearCount) :
    Makes settings task (task.writeCount x.value value kind)
  /-- Another due tag takes the place of the one that is there. -/
  | writeDue {x : Located DueTag} (h : task.due? = some x) (value : Text) :
    Makes settings task
      (.replace task.line x.span (tagText "due".toList value) .setDue (.text value))
  /-- Another letter takes the place of the priority. -/
  | writeLetter {p : Located Char} (h : task.priority = some p) (letter : Char) :
    Makes settings task
      (.replace task.line p.span ['(', letter, ')'] .setPriority (.text [letter]))
  /-- A priority is put in behind the done mark or the indentation. -/
  | putLetter (letter : Char) :
    Makes settings task (.insert task.line ((task.marker.map (·.stop)).getD task.contentStart)
      ['(', letter, ')', ' '] .setPriority (.text [letter]))
  /-- The done mark is put in behind the indentation. -/
  | putMarker :
    Makes settings task (.insert task.line task.contentStart settings.doneMark .insertMarker)
  /-- A tag is put in at the end. -/
  | putTag (key : Text) (value : Option Text) {kind : EditKind}
      (hkind : (kind != .deleteLine) = true) (payload : Payload) :
    Makes settings task (task.append (Token.tag key value).text kind payload)
  /-- An overdue tag is put in at the end. -/
  | markOverdue (day : Day) : Makes settings task (task.markOverdue day)

/-! ## The fields that edits are about -/

namespace Task

section Members

variable {task : Task} {e : Edit}

theorem mem_removeOverdue : e ∈ task.removeOverdue ↔ ∃ x, task.overdue? = some x ∧
    e = .delete task.line (task.tagSpan x.span) .removeOverdue := by
  unfold removeOverdue
  split <;> simp_all

theorem mem_clearMarker : e ∈ task.clearMarker ↔ ∃ m, task.marker = some m ∧
    e = .delete task.line m .clearCompletion (.text "done".toList) := by
  unfold clearMarker
  split <;> simp_all

theorem mem_clearStamp : e ∈ task.clearStamp ↔ ∃ x, task.completion? = some x ∧
    e = .delete task.line (task.tagSpan x.span) .clearCompletion (.text "cm".toList) := by
  unfold clearStamp
  split <;> simp_all

theorem pairwise_removeOverdue {R : Edit → Edit → Prop} : task.removeOverdue.Pairwise R := by
  unfold removeOverdue
  split <;> simp

theorem pairwise_clearMarker {R : Edit → Edit → Prop} : task.clearMarker.Pairwise R := by
  unfold clearMarker
  split <;> simp

theorem pairwise_clearStamp {R : Edit → Edit → Prop} : task.clearStamp.Pairwise R := by
  unfold clearStamp
  split <;> simp

/-- The field that an accessor found. -/
theorem mem_fields_of_find? {α : Type} {kind : Field → Option α} {f : α → Field}
    (hkind : ∀ field a, kind field = some a → field = f a) {x : Located α}
    (h : task.find? kind = some x) : ⟨x.span, f x.value⟩ ∈ task.fields := by
  obtain ⟨⟨span, field⟩, hmem, hvalue, hspan⟩ := mem_of_find? h
  dsimp only at hvalue hspan
  rwa [← hkind field x.value hvalue, ← hspan]

theorem mem_fields_of_overdue? {x : Located Day} (h : task.overdue? = some x) :
    ⟨x.span, .overdue x.value⟩ ∈ task.fields :=
  mem_fields_of_find? (fun field a hfield => by cases field <;> simp_all) h

theorem mem_fields_of_completion? {x : Located (Option Instant)}
    (h : task.completion? = some x) : ⟨x.span, .completed x.value⟩ ∈ task.fields :=
  mem_fields_of_find? (fun field a hfield => by cases field <;> simp_all) h

theorem mem_fields_of_count? {x : Located Count} (h : task.count? = some x) :
    ⟨x.span, .count x.value⟩ ∈ task.fields :=
  mem_fields_of_find? (fun field a hfield => by cases field <;> simp_all) h

theorem mem_fields_of_due? {x : Located DueTag} (h : task.due? = some x) :
    ⟨x.span, .due x.value⟩ ∈ task.fields :=
  mem_fields_of_find? (fun field a hfield => by cases field <;> simp_all) h

theorem mem_fields_of_collapsedTag? {x : Located Unit} (h : task.collapsedTag? = some x) :
    ⟨x.span, .collapsed⟩ ∈ task.fields :=
  mem_fields_of_find? (f := fun _ => .collapsed)
    (fun field a hfield => by cases field <;> simp_all) h

end Members

end Task

/-! ## The edits of deeds -/

namespace Deed

variable {settings : Settings} {task : Task} {e : Edit}

theorem makes_removeOverdue (he : e ∈ task.removeOverdue) : task.Makes settings e := by
  obtain ⟨x, hx, rfl⟩ := Task.mem_removeOverdue.mp he
  exact .takeOverdue hx

theorem makes_clearStamp (he : e ∈ task.clearStamp) : task.Makes settings e := by
  obtain ⟨x, hx, rfl⟩ := Task.mem_clearStamp.mp he
  exact .takeStamp hx

theorem makes_clearCompletion (he : e ∈ task.clearCompletion) : task.Makes settings e := by
  rcases List.mem_append.mp he with he | he
  · obtain ⟨m, hm, rfl⟩ := Task.mem_clearMarker.mp he
    exact .takeMarker hm
  · exact makes_clearStamp he

theorem makes_toggleDone {now : Instant} (he : e ∈ task.toggleDone settings now) :
    task.Makes settings e := by
  rcases List.mem_append.mp he with he | he
  · exact makes_removeOverdue he
  · split at he
    · exact makes_clearCompletion he
    · split at he <;> obtain rfl := List.mem_singleton.mp he
      · exact .putTag "cm".toList (some _) rfl _
      · exact .putMarker

theorem makes_increment {now : Instant} (he : e ∈ task.increment settings now) :
    task.Makes settings e := by
  unfold Task.increment at he
  split at he
  · simp at he
  · rename_i span count hcount
    split at he
    · rcases List.mem_cons.mp he with rfl | he
      · exact .writeCount hcount 0 (.inl rfl)
      · exact makes_clearStamp he
    · rcases List.mem_append.mp he with he | he
      · split at he
        · rcases List.mem_cons.mp he with rfl | he
          · exact .putTag "cm".toList (some _) rfl _
          · exact makes_removeOverdue he
        · simp at he
      · obtain rfl := List.mem_singleton.mp he
        exact .writeCount hcount _ (.inl rfl)

theorem makes_decrement (he : e ∈ task.decrement) : task.Makes settings e := by
  unfold Task.decrement at he
  split at he
  · simp at he
  · rename_i span count hcount
    split at he
    · simp at he
    · rcases List.mem_append.mp he with he | he
      · split at he
        · exact makes_clearStamp he
        · simp at he
      · obtain rfl := List.mem_singleton.mp he
        exact .writeCount hcount _ (.inl rfl)

theorem makes_reset {lastVisit now : Instant} (he : e ∈ task.reset lastVisit now) :
    task.Makes settings e := by
  unfold Task.reset at he
  split at he
  · rcases List.mem_append.mp he with he | he
    · unfold Task.resetState at he
      split at he
      · exact makes_clearCompletion he
      · split at he
        · split at he
          · obtain rfl := List.mem_singleton.mp he
            exact .markOverdue _
          · simp at he
        · simp at he
    · unfold Task.resetCount at he
      split at he
      · rename_i span count hcount
        obtain rfl := List.mem_singleton.mp he
        exact .writeCount hcount 0 (.inr rfl)
      · simp at he
  · simp at he

/-- **Every edit of a deed is one of those that deeds are made of.** -/
theorem makes {deed : Deed} (he : e ∈ deed.edits settings task) : task.Makes settings e := by
  cases deed with
  | toggleDone now => exact makes_toggleDone he
  | increment now => exact makes_increment he
  | decrement => exact makes_decrement he
  | setDue value =>
    simp only [edits, Task.setDue] at he
    split at he <;> obtain rfl := List.mem_singleton.mp he
    · rename_i tag hdue
      exact .writeDue hdue value
    · exact .putTag "due".toList (some value) rfl _
  | changePriority direction =>
    simp only [edits, Task.changePriority] at he
    split at he
    · simp at he
    · split at he <;> obtain rfl := List.mem_singleton.mp he
      · rename_i span letter hpriority
        exact .writeLetter hpriority _
      · exact .putLetter _
  | toggleCollapse =>
    simp only [edits, Task.toggleCollapse] at he
    split at he <;> obtain rfl := List.mem_singleton.mp he
    · rename_i tag htag
      exact .takeCollapsed htag
    · exact .putTag "c".toList none rfl _
  | hide =>
    simp only [edits, Task.hide] at he
    split at he
    · simp at he
    · obtain rfl := List.mem_singleton.mp he
      exact .putTag "h".toList none rfl _
  | reset lastVisit now => exact makes_reset he

end Deed

end TaskList
