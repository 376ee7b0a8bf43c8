/-
TaskList.Proofs.Action.Printed — what the edits of a deed put into a line.

* `Edit.Prints` — the text of an edit is a mark, or consists of printable characters
  that open no style mark.
* `Task.prints_advance`, `Task.prints_reset` — so are the edits of a completion, of a
  count and of a new cycle, the mark being the done mark. So a line stays one
  (`Edit.isLine_carried`).
-/
import TaskList.Proofs.Action.Own
import TaskList.Proofs.Calendar.Stamp
import TaskList.Proofs.Text.Showable

namespace TaskList

open Text (isInert)

/-! ## Days, instants and tags -/

theorem Calendar.isInert_of_mem_hyphenated {n : Nat} {c : Char} (h : c ∈ hyphenated n) :
    isInert c = true := by
  rcases List.mem_cons.mp h with rfl | h
  · decide
  · exact Text.isInert_of_isDigit (Numeral.isDigit_of_mem_padded h)

theorem Day.isInert_of_mem_written {day : Day} {c : Char} (h : c ∈ day.written) :
    isInert c = true := by
  simp only [written, List.mem_append] at h
  rcases h with (h | h) | h
  · exact Text.isInert_of_isDigit (Numeral.isDigit_of_mem_ofNat h)
  · exact Calendar.isInert_of_mem_hyphenated h
  · exact Calendar.isInert_of_mem_hyphenated h

theorem Instant.isInert_of_mem_written {i : Instant} {withTime : Bool} {c : Char}
    (h : c ∈ i.written withTime) : isInert c = true := by
  obtain ⟨hwritten, -⟩ | ⟨t, hwritten, -⟩ := i.written_cases withTime
  · rw [hwritten] at h
    exact Day.isInert_of_mem_written h
  · rw [hwritten, List.mem_append, List.mem_cons] at h
    rcases h with h | rfl | h
    · exact Day.isInert_of_mem_written h
    · decide
    · rcases Calendar.mem_timeWritten h with hdigit | rfl
      · exact Text.isInert_of_isDigit hdigit
      · decide

/-- A tag is as inert as its key and its value. -/
theorem isInert_of_mem_tagText {key value : Text} (hkey : ∀ c ∈ key, isInert c = true)
    (hvalue : ∀ c ∈ value, isInert c = true) {c : Char} (h : c ∈ tagText key value) :
    isInert c = true := by
  simp only [tagText, Token.text, List.mem_cons, List.mem_append, List.not_mem_nil, or_false] at h
  rcases h with ((rfl | h) | rfl | h) | rfl
  · decide
  · exact hkey c h
  · decide
  · exact hvalue c h
  · decide

/-! ## Edits -/

/-- The edit puts a mark in, or else inert characters. -/
def Edit.Prints (mark : Text) (e : Edit) : Prop :=
  e.kind = .insertMarker ∧ e.text = mark ∨ ∀ c ∈ e.text, isInert c = true

theorem Edit.prints_of_text_eq_nil {mark : Text} {e : Edit} (h : e.text = []) : e.Prints mark :=
  .inr (by simp [h])

/-- What an edit prints can be written if the mark can. -/
theorem Edit.Prints.isWritable {mark : Text} {e : Edit} (h : e.Prints mark)
    (hmark : mark.IsWritable) : e.text.IsWritable := by
  rcases h with ⟨-, htext⟩ | hinert
  · exact htext ▸ hmark
  · exact Text.isWritable_of_isPrintable fun c hc => Text.isPrintable_of_isInert (hinert c hc)

namespace Task

variable {settings : Settings} {task : Task} {e : Edit} {mark : Text}

theorem prints_append {text : Text} (htext : ∀ c ∈ text, isInert c = true) (kind : EditKind)
    (payload : Payload) : (task.append text kind payload).Prints mark := by
  refine .inr fun c hc => ?_
  rcases List.mem_append.mp hc with hc | hc
  · split at hc
    · simp at hc
    · obtain rfl := List.mem_singleton.mp hc
      decide
  · exact htext c hc

theorem prints_stampCompletion (now : Instant) :
    (task.stampCompletion settings now).Prints mark :=
  prints_append (fun _ hc => isInert_of_mem_tagText (List.all_eq_true.mp (by decide))
    (fun _ hc => Instant.isInert_of_mem_written hc) hc) _ _

theorem prints_markOverdue (day : Day) : (task.markOverdue day).Prints mark := by
  refine .inr fun c hc => ?_
  rcases List.mem_append.mp hc with hc | hc
  · split at hc
    · simp at hc
    · obtain rfl := List.mem_singleton.mp hc
      decide
  · exact isInert_of_mem_tagText (List.all_eq_true.mp (by decide))
      (fun _ hc => Day.isInert_of_mem_written hc) hc

theorem prints_writeCount (count : Count) (value : Nat) (kind : EditKind) :
    (task.writeCount count value kind).Prints mark :=
  .inr fun _ hc => Text.isInert_of_isDigit (Numeral.isDigit_of_mem_ofNat hc)

theorem prints_removeOverdue (he : e ∈ task.removeOverdue) : e.Prints mark :=
  Edit.prints_of_text_eq_nil (text_of_mem_removeOverdue he)

theorem prints_clearStamp (he : e ∈ task.clearStamp) : e.Prints mark := by
  obtain ⟨x, -, rfl⟩ := mem_clearStamp.mp he
  exact Edit.prints_of_text_eq_nil rfl

theorem prints_clearCompletion (he : e ∈ task.clearCompletion) : e.Prints mark := by
  rcases List.mem_append.mp he with he | he
  · obtain ⟨m, -, rfl⟩ := mem_clearMarker.mp he
    exact Edit.prints_of_text_eq_nil rfl
  · exact prints_clearStamp he

theorem prints_toggleDone {now : Instant} (he : e ∈ task.toggleDone settings now) :
    e.Prints settings.doneMark := by
  rcases List.mem_append.mp he with he | he
  · exact prints_removeOverdue he
  · split at he
    · exact prints_clearCompletion he
    · split at he <;> obtain rfl := List.mem_singleton.mp he
      · exact prints_stampCompletion now
      · exact .inl ⟨rfl, rfl⟩

theorem prints_increment {now : Instant} (he : e ∈ task.increment settings now) :
    e.Prints mark := by
  unfold increment at he
  split at he
  · simp at he
  · split at he
    · rcases List.mem_cons.mp he with rfl | he
      · exact prints_writeCount _ _ _
      · exact prints_clearStamp he
    · rcases List.mem_append.mp he with he | he
      · split at he
        · rcases List.mem_cons.mp he with rfl | he
          · exact prints_stampCompletion now
          · exact prints_removeOverdue he
        · simp at he
      · obtain rfl := List.mem_singleton.mp he
        exact prints_writeCount _ _ _

/-- **A completion or a count prints no mark but the done mark.** -/
theorem prints_advance {now : Instant} (he : e ∈ task.advance settings now) :
    e.Prints settings.doneMark := by
  unfold advance at he
  split at he
  · exact prints_increment he
  · exact prints_toggleDone he

/-- **A new cycle prints** no mark. -/
theorem prints_reset {lastVisit now : Instant} (he : e ∈ task.reset lastVisit now) :
    e.Prints mark := by
  unfold reset at he
  split at he
  · rcases List.mem_append.mp he with he | he
    · unfold resetState at he
      split at he
      · exact prints_clearCompletion he
      · split at he
        · split at he
          · obtain rfl := List.mem_singleton.mp he
            exact prints_markOverdue _
          · simp at he
        · simp at he
    · unfold resetCount at he
      split at he
      · obtain rfl := List.mem_singleton.mp he
        exact prints_writeCount _ _ _
      · simp at he
  · simp at he

/-- The edits of a completion or a count change columns of the line of the task. -/
theorem advance_columns {unit : Option IndentUnit} {target : Day} {number : Int} {raw : Text}
    (h : Line.read settings unit target number raw = .ok task) {now : Instant}
    (he : e ∈ task.advance settings now) : e.isColumnEdit = true ∧ e.line = task.line := by
  have hmakes : task.Makes settings e := by
    unfold advance at he
    split at he
    · exact Deed.makes_increment he
    · exact Deed.makes_toggleDone he
  exact ⟨(hmakes.owns h).columns, (hmakes.owns h).line_eq⟩

end Task

/-! ## Lines with edits carried out -/

namespace Edit

variable {mark t : Text} {e : Edit} {edits : List Edit}

theorem mem_applyTo {c : Char} (h : c ∈ e.applyTo t) : c ∈ t ∨ c ∈ e.text := by
  simp only [applyTo, List.mem_append] at h
  rcases h with (h | h) | h
  · exact .inl (List.mem_of_mem_take h)
  · exact .inr h
  · exact .inl (List.mem_of_mem_drop h)

/-- What edits put into a line breaks it no more than the mark does. -/
theorem isLine_carried (hmark : mark.IsWritable) (hedits : ∀ e ∈ edits, e.Prints mark) (i : Nat)
    (ht : t.IsLine) : (carried edits i t).IsLine := by
  have hline : ∀ e ∈ onLine edits i, e.Prints mark := fun e he => hedits e (mem_onLine.mp he).1
  unfold carried
  generalize onLine edits i = own at hline
  induction own with
  | nil => exact ht
  | cons e rest ih =>
    have htext := ((hline e List.mem_cons_self).isWritable hmark).isLine
    have hrest := ih fun other hother => hline other (List.mem_cons_of_mem e hother)
    exact fun c hc => (mem_applyTo hc).elim (hrest c) (htext c)

end Edit

end TaskList
