/-
TaskList.Proofs.Action.Counting — counting up and down in a line.

* `Counting` — one count, up or down. `Tally.step` — what it does to a number that
  goes round from what is needed to zero, and does not go below zero.
* `Line.Tallied` — a line that says what a task says, but for a tally: the number in
  its counter, and the completion tag at its end when nothing is left to be done.
* `Line.Tallied.step` — the edits of a count make the line of the next tally.
-/
import TaskList.Proofs.Action.Deed
import TaskList.Proofs.Action.Visit
import TaskList.Proofs.Line.Stamped
import TaskList.Proofs.Line.TagSpan

namespace TaskList

/-! ## Counting -/

/-- One count. -/
inductive Counting where
  /-- Count one up. -/
  | up (now : Instant)
  /-- Count one down. -/
  | down

/-- What is done with the task. -/
def Counting.deed : Counting → Deed
  | up now => .increment now
  | down => .decrement

/-- How much is done, and since when nothing is left to be done. -/
structure Tally where
  /-- How much is done. -/
  done : Nat
  /-- Since when nothing is left to be done. -/
  since : Option Instant
  deriving DecidableEq, Repr

namespace Tally

/-- The next tally, when so much is needed: a full one starts anew, and an empty
one gets no emptier. -/
def step (needed : Nat) (tally : Tally) : Counting → Tally
  | .up now =>
    if tally.done = needed then ⟨0, none⟩
    else ⟨tally.done + 1, if tally.done + 1 = needed then some now else none⟩
  | .down => if tally.done = 0 then tally else ⟨tally.done - 1, none⟩

/-- The tally does not go beyond what is needed, and it is known since when it is
full. -/
structure Fits (tally : Tally) (needed : Nat) : Prop where
  done_le : tally.done ≤ needed
  since_iff : tally.since.isSome = true ↔ tally.done = needed

theorem Fits.since_none {tally : Tally} {needed : Nat} (h : tally.Fits needed)
    (hne : tally.done ≠ needed) : tally.since = none := by
  rw [← Option.not_isSome_iff_eq_none, h.since_iff]
  exact hne

theorem Fits.since_some {tally : Tally} {needed : Nat} (h : tally.Fits needed)
    (heq : tally.done = needed) : ∃ now, tally.since = some now :=
  Option.isSome_iff_exists.mp (h.since_iff.mpr heq)

theorem Fits.step {tally : Tally} {needed : Nat} (h : tally.Fits needed) (hpos : 0 < needed)
    (c : Counting) : (tally.step needed c).Fits needed := by
  have hle := h.done_le
  cases c with
  | up now =>
    unfold Tally.step
    dsimp only
    split
    · exact ⟨Nat.zero_le _, by simpa using hpos.ne⟩
    · refine ⟨by dsimp only; omega, ?_⟩
      by_cases hfull : tally.done + 1 = needed <;> simp [hfull]
  | down =>
    unfold Tally.step
    dsimp only
    split
    · exact h
    · refine ⟨by dsimp only; omega, ?_⟩
      have hne : tally.done - 1 ≠ needed := by omega
      simp [hne]

end Tally

/-- A tag that is put in at the end of a line that is not empty. -/
theorem Task.applyTo_append {task : Task} (hne : task.raw ≠ []) (tag : Text) (kind : EditKind)
    (payload : Payload) :
    (task.append tag kind payload).applyTo task.raw = task.raw.withTag tag := by
  rw [append, Edit.applyTo_insert_end, Text.withTag]
  simp only [hne, false_or]

namespace Line

section Edits

variable {settings : Settings} {unit : Option IndentUnit} {target : Day} {number : Int}
  {text : Text} {parts base : List Part} {x : Located Count} {now : Instant} {done needed : Nat}

/-! ## What the edits of a count make of a line -/

/-- A number is put into the counter. -/
theorem LaidOut.write (h : LaidOut settings unit target text parts)
    (hx : (taskOf settings unit number text parts).count? = some x) (value : Nat)
    (kind : EditKind) :
    ([(taskOf settings unit number text parts).writeCount x.value value kind].mergeSort
        Edit.leftOf).foldr Edit.applyTo text =
      text.take (startOf settings unit text) ++ textOf (parts.map (Part.recount value)) := by
  obtain ⟨hstart, hstop⟩ := Task.digits_inside (h.read_eq number) hx
  have hwrite := Task.applyTo_writeCount hx (by omega) (by omega) value kind []
  rw [List.append_nil, List.append_nil, h.withCount_eq] at hwrite
  rwa [List.mergeSort_singleton]

/-- A number is put into the counter, and a completion tag at the end. -/
theorem LaidOut.write_stamp (h : LaidOut settings unit target text parts)
    (hx : (taskOf settings unit number text parts).count? = some x) (value : Nat)
    (kind : EditKind) :
    ([(taskOf settings unit number text parts).stampCompletion settings now,
        (taskOf settings unit number text parts).writeCount x.value value kind].mergeSort
        Edit.leftOf).foldr Edit.applyTo text =
      Text.withTag (text.take (startOf settings unit text) ++
        textOf (parts.map (Part.recount value))) (stampTag settings now).text := by
  obtain ⟨hstart, hstop⟩ := Task.digits_inside (h.read_eq number) hx
  change x.value.digits.stop < text.length at hstop
  have hne : text ≠ [] := List.ne_nil_of_length_pos (by omega)
  -- the digits of the counter are further left than the end of the line
  rw [(Edit.mergeSort_pair (by
    simp only [Task.stampCompletion, Task.append, Task.writeCount, Edit.insert, Edit.replace]
    exact Int.ofNat_lt.mpr (Nat.lt_trans hstart hstop))).2,
    List.foldr_cons, List.foldr_cons, List.foldr_nil]
  have hstamp : ((taskOf settings unit number text parts).stampCompletion settings now).applyTo
      text = text.withTag (stampTag settings now).text :=
    Task.applyTo_append hne _ _ _
  have hwrite := Task.applyTo_writeCount hx (Nat.le_of_lt (Nat.lt_trans hstart hstop))
    (Nat.le_of_lt hstop) value kind
    ((if text.getLast? = some ' ' then [] else [' ']) ++ (stampTag settings now).text)
  rw [hstamp, Text.withTag, ← @LaidOut.withCount_eq _ _ _ number _ _ h,
    Task.withTag_withCount hx hstop]
  exact hwrite

/-- The completion tag at the end of a line is taken out with the space in front of
it. -/
theorem LaidOut.clearStamp_eq
    (h : LaidOut settings unit target text (base ++ stampParts settings (some now)))
    (hnone : ∀ field ∈ lastingOf base, field.key? ≠ some .completed)
    (hmarker : (head settings (indentUnit settings unit) text).marker = none) :
    (taskOf settings unit number text (base ++ stampParts settings (some now))).clearStamp =
      [.delete number ⟨(text.take (startOf settings unit text) ++ textOf base).length,
        text.length⟩ .clearCompletion (.text "cm".toList)] := by
  have hspace : text[(text.take (startOf settings unit text) ++ textOf base).length]? =
      some ' ' := by
    rw [← congrArg (·[_]?) h.raw_eq_append, List.getElem?_append_right (Nat.le_refl _),
      Nat.sub_self]
    rfl
  have hfloor : (taskOf settings unit number text
      (base ++ stampParts settings (some now))).floor = 0 := by
    change ((head settings (indentUnit settings unit) text).marker.map (·.stop)).getD 0 = 0
    rw [hmarker]
    rfl
  rw [Task.clearStamp, h.completion?_stampParts hnone]
  dsimp only
  rw [Task.tagSpan_of_left ⟨by rw [hfloor]; exact Nat.succ_pos _, hspace⟩]
  rfl

/-- A number is put into the counter, and the completion tag is taken out. -/
theorem LaidOut.write_unstamp
    (h : LaidOut settings unit target text (base ++ stampParts settings (some now)))
    (hmark : '{' ∉ settings.doneMark) (hcounter : HasCounter base done needed)
    (hnone : ∀ field ∈ lastingOf base, field.key? ≠ some .completed)
    (hmarker : (head settings (indentUnit settings unit) text).marker = none)
    {task : Task} (htask : task = taskOf settings unit number text
      (base ++ stampParts settings (some now)))
    (hx : task.count? = some x) (value : Nat) (kind : EditKind) {edits : List Edit}
    (hedits : edits = task.writeCount x.value value kind :: task.clearStamp ∨
      edits = task.clearStamp ++ [task.writeCount x.value value kind]) :
    (edits.mergeSort Edit.leftOf).foldr Edit.applyTo text =
      text.take (startOf settings unit text) ++ textOf (base.map (Part.recount value)) := by
  subst htask
  have hlaid := (laid_append.mp h.laid).1
  have hshort := h.unstamp hmark (hcounter.brace_mem hlaid)
  have hclear : (taskOf settings unit number text (base ++ _)).clearStamp = _ :=
    h.clearStamp_eq hnone hmarker
  generalize hline : text.take (startOf settings unit text) ++ textOf base = short
    at hshort hclear
  have hstart : startOf settings unit short = startOf settings unit text :=
    congrArg Head.start hshort.head_eq
  have htake : text.take short.length = short := by
    rw [← hline, ← congrArg (List.take _) h.raw_eq_append, List.take_left]
  have hx' : (taskOf settings unit number short base).count? = some x :=
    (hcounter.count?_append hlaid hstart.symm _).symm.trans hx
  have hwrite := hshort.laidOut.write hx' value kind
  obtain ⟨hlt, hstop⟩ := Task.digits_inside (hshort.laidOut.read_eq number) hx'
  have hsorted : edits.mergeSort Edit.leftOf =
      [(taskOf settings unit number short base).writeCount x.value value kind,
        .delete number ⟨short.length, text.length⟩ .clearCompletion (.text "cm".toList)] := by
    have hpair := Edit.mergeSort_pair
      (a := (taskOf settings unit number short base).writeCount x.value value kind)
      (b := .delete number ⟨short.length, text.length⟩ .clearCompletion (.text "cm".toList))
      (Int.ofNat_lt.mpr (Nat.lt_trans hlt hstop))
    rcases hedits with rfl | rfl
    · rw [hclear]
      exact hpair.1
    · rw [hclear]
      exact hpair.2
  rw [hsorted, List.foldr_cons, List.foldr_cons, List.foldr_nil, Edit.applyTo_delete_end, htake]
  rw [List.mergeSort_singleton, List.foldr_cons, List.foldr_nil, hstart] at hwrite
  rw [hwrite, ← hline, List.take_left' h.length_start]

end Edits

/-! ## The line of a tally -/

/-- A line that starts as another one, and says what its task says, but for a
tally. -/
structure Tallied (settings : Settings) (unit : Option IndentUnit) (target : Day) (task : Task)
    (needed : Nat) (tally : Tally) (text : Text) (base : List Part) : Prop where
  relaid : Relaid settings unit target task.raw text (base ++ stampParts settings tally.since)
  repeats : Repeats base task tally.done needed

section Tallied

variable {settings : Settings} {unit : Option IndentUnit} {target : Day} {number : Int}
  {raw text : Text} {task : Task} {base : List Part} {tally : Tally} {needed : Nat}

/-- The task of the line of a tally. -/
def tallyTask (settings : Settings) (unit : Option IndentUnit) (number : Int) (text : Text)
    (base : List Part) (tally : Tally) : Task :=
  taskOf settings unit number text (base ++ stampParts settings tally.since)

/-- A line is the line of the tally that its counter and its completion tag
make. -/
theorem tallied_of_read (h : read settings unit target number raw = .ok task) {x : Located Count}
    (hx : task.count? = some x) :
    ∃ base, Tallied settings unit target task x.value.needed ⟨x.value.current, none⟩ raw base := by
  obtain ⟨parts, hlaidOut, rfl⟩ := read_iff_laidOut.mp h
  refine ⟨parts, ?_, lasting_taskOf.symm, rfl, hlaidOut.laid.hasCounter_of_count? hx⟩
  rw [stampParts, List.append_nil]
  exact hlaidOut.relaid

namespace Tallied

variable (h : Tallied settings unit target task needed tally text base)

include h

theorem laid : Laid target (text.take (startOf settings unit text)).getLast? [] base
    (textOf (stampParts settings tally.since) ++ []) := (laid_append.mp h.relaid.laidOut.laid).1

theorem read_eq (number : Int) : read settings unit target number text =
    .ok (tallyTask settings unit number text base tally) := h.relaid.laidOut.read_eq number

theorem exists_count? (number : Int) :
    ∃ x, (tallyTask settings unit number text base tally).count? = some x ∧
      x.value.current = tally.done ∧ x.value.needed = needed :=
  h.relaid.laidOut.laid.count?_of_hasCounter (h.repeats.counter.append _)

theorem lasting_eq : (tallyTask settings unit number text base tally).lasting =
    task.lasting ++ (tally.since.map (stampField settings)).toList := by
  rw [tallyTask, lasting_taskOf, lastingOf_stampParts, h.repeats.lasting_eq]

/-- No part but the completion tag at the end says that the task is done. -/
theorem no_completed (hopen : task.isDone = false) :
    ∀ field ∈ lastingOf base, field.key? ≠ some .completed := by
  intro field hfield hkey
  rw [h.repeats.lasting_eq] at hfield
  have hsome : task.completion?.isSome = true := by
    have hfound := (task.isSome_fieldOf? .completed).mpr ⟨field, hfield, hkey⟩
    rwa [Task.fieldOf?, Option.isSome_map] at hfound
  simp [Task.isDone, hsome] at hopen

/-- A completion tag does not say when the task was missed. -/
theorem overdue?_eq_none (hnone : task.overdue? = none) :
    (tallyTask settings unit number text base tally).overdue? = none := by
  rw [← Option.not_isSome_iff_eq_none, Task.isSome_overdue?, h.lasting_eq]
  rintro ⟨field, hfield, hkey⟩
  rcases List.mem_append.mp hfield with hfield | hfield
  · have hsome := (Task.isSome_overdue? task).mpr ⟨field, hfield, hkey⟩
    simp [hnone] at hsome
  · obtain ⟨now, -, rfl⟩ := Option.map_eq_some_iff.mp (Option.mem_toList.mp hfield)
    simp [stampField, Field.key?] at hkey

/-- **Another number in the counter**, and no completion tag. -/
theorem written (hmark : '{' ∉ settings.doneMark) {value : Nat} (hle : value ≤ needed) :
    Tallied settings unit target task needed ⟨value, none⟩
      (text.take (startOf settings unit text) ++ textOf (base.map (Part.recount value)))
      (base.map (Part.recount value)) := by
  have hlaidOut := h.relaid.laidOut
  have hshort := hlaidOut.unstamp hmark (h.repeats.counter.brace_mem h.laid)
  have hstart : startOf settings unit (text.take (startOf settings unit text) ++ textOf base) =
      startOf settings unit text := congrArg Head.start hshort.head_eq
  have hrecount := hshort.laidOut.recount hmark (h.repeats.counter.value_ofNat h.laid hle)
  rw [hstart, List.take_left' hlaidOut.length_start] at hrecount
  refine ⟨?_, h.repeats.recount value⟩
  rw [stampParts, List.append_nil]
  exact h.relaid.trans (hshort.trans hrecount)

end Tallied

/-- **A completion tag at the end** of a line without one. -/
theorem Tallied.stamped {done : Nat}
    (h : Tallied settings unit target task needed ⟨done, none⟩ text base)
    (hmark : '{' ∉ settings.doneMark) (hopen : task.isDone = false) {now : Instant}
    (hyear : 1000 ≤ now.day.civil.year) :
    ∃ base', Tallied settings unit target task needed ⟨done, some now⟩
      (text.withTag (stampTag settings now).text) base' := by
  have hlaidOut := h.relaid.laidOut
  rw [stampParts, List.append_nil] at hlaidOut
  obtain ⟨base', hbase, hstamped⟩ := hlaidOut.stamp hmark hyear
    (h.repeats.counter.brace_mem hlaidOut.laid) (h.no_completed hopen)
  exact ⟨base', h.relaid.trans hstamped, h.repeats.of_isBase hbase⟩

/-- The line after a count. -/
def afterCount (settings : Settings) (unit : Option IndentUnit) (number : Int) (text : Text)
    (base : List Part) (tally : Tally) (c : Counting) : Text :=
  ((c.deed.edits settings (tallyTask settings unit number text base tally)).mergeSort
    Edit.leftOf).foldr Edit.applyTo text

/-- A count on a full line takes its completion tag out. -/
theorem Tallied.step_full {now : Instant}
    (h : Tallied settings unit target task needed ⟨needed, some now⟩ text base)
    (hread : read settings unit target number raw = .ok task)
    (hmark : '{' ∉ settings.doneMark) (hopen : task.isDone = false) (hpos : 0 < needed)
    (c : Counting) :
    ∃ base', Tallied settings unit target task needed (Tally.step needed ⟨needed, some now⟩ c)
      (afterCount settings unit number text base ⟨needed, some now⟩ c) base' := by
  have hmarker : (head settings (indentUnit settings unit) text).marker = none := by
    have hsame : task.marker = (head settings (indentUnit settings unit) raw).marker :=
      congrArg Task.marker (read_eq_ok hread).2
    rw [h.relaid.head_eq, raw_of_read hread, ← hsame]
    rw [Task.isDone, Bool.or_eq_false_iff] at hopen
    simpa using hopen.1
  obtain ⟨⟨span, count⟩, hx, hcurrent, hneeded⟩ := h.exists_count? number
  dsimp only at hcurrent hneeded
  have hcomplete : count.isComplete = true := by simp [Count.isComplete, hcurrent, hneeded]
  have htask : tallyTask settings unit number text base ⟨needed, some now⟩ =
      taskOf settings unit number text (base ++ stampParts settings (some now)) := rfl
  have hwrite := h.relaid.laidOut.write_unstamp hmark h.repeats.counter (h.no_completed hopen)
    hmarker htask hx
  dsimp only at hwrite
  rw [afterCount]
  cases c with
  | up now' =>
    have hnext : Tally.step needed ⟨needed, some now⟩ (.up now') = ⟨0, none⟩ := if_pos rfl
    rw [hnext, Counting.deed, Deed.edits, Task.increment, hx]
    dsimp only
    rw [if_pos hcomplete, hwrite 0 .setCount (.inl rfl)]
    exact ⟨_, h.written hmark (Nat.zero_le _)⟩
  | down =>
    have hnext : Tally.step needed ⟨needed, some now⟩ .down = ⟨needed - 1, none⟩ :=
      if_neg hpos.ne'
    rw [hnext, Counting.deed, Deed.edits, Task.decrement, hx]
    dsimp only
    rw [if_neg (by omega), if_pos hcomplete, hcurrent, hwrite (needed - 1) .setCount (.inr rfl)]
    exact ⟨_, h.written hmark (by omega)⟩

/-- A count on a line that is not full puts a completion tag in if it fills the
counter. -/
theorem Tallied.step_open {done : Nat}
    (h : Tallied settings unit target task needed ⟨done, none⟩ text base)
    (hmark : '{' ∉ settings.doneMark) (hopen : task.isDone = false)
    (hnone : task.overdue? = none) (hlt : done < needed) (c : Counting)
    (hyear : ∀ now, c = .up now → 1000 ≤ now.day.civil.year) :
    ∃ base', Tallied settings unit target task needed (Tally.step needed ⟨done, none⟩ c)
      (afterCount settings unit number text base ⟨done, none⟩ c) base' := by
  have hoverdue : (tallyTask settings unit number text base _).overdue? = none :=
    h.overdue?_eq_none hnone
  obtain ⟨⟨span, count⟩, hx, hcurrent, hneeded⟩ := h.exists_count? number
  dsimp only at hcurrent hneeded
  have hcomplete : ¬ count.isComplete = true := by
    simp only [Count.isComplete, hcurrent, hneeded, decide_eq_true_eq]
    omega
  have hlaidOut := h.relaid.laidOut
  rw [stampParts, List.append_nil] at hlaidOut
  have htask : tallyTask settings unit number text base ⟨done, none⟩ =
      taskOf settings unit number text base := by
    rw [tallyTask, stampParts, List.append_nil]
  rw [afterCount]
  rw [htask] at hx hoverdue ⊢
  cases c with
  | up now =>
    have hnext : Tally.step needed ⟨done, none⟩ (.up now) =
        ⟨done + 1, if done + 1 = needed then some now else none⟩ := if_neg hlt.ne
    rw [hnext, Counting.deed, Deed.edits, Task.increment, hx]
    dsimp only
    rw [if_neg hcomplete, hcurrent, hneeded]
    split
    · rw [Task.removeOverdue, hoverdue, List.cons_append, List.nil_append,
        hlaidOut.write_stamp hx]
      exact (h.written hmark (by omega)).stamped hmark hopen (hyear now rfl)
    · rw [List.nil_append, hlaidOut.write hx]
      exact ⟨_, h.written hmark (by omega)⟩
  | down =>
    by_cases hzero : done = 0
    · have hnext : Tally.step needed ⟨done, none⟩ .down = ⟨done, none⟩ := if_pos hzero
      rw [hnext, Counting.deed, Deed.edits, Task.decrement, hx]
      dsimp only
      rw [if_pos (hcurrent.trans hzero), List.mergeSort_nil, List.foldr_nil]
      exact ⟨base, h⟩
    · have hnext : Tally.step needed ⟨done, none⟩ .down = ⟨done - 1, none⟩ := if_neg hzero
      rw [hnext, Counting.deed, Deed.edits, Task.decrement, hx]
      dsimp only
      rw [if_neg (by omega), if_neg hcomplete, List.nil_append, hlaidOut.write hx, hcurrent]
      exact ⟨_, h.written hmark (by omega)⟩

/-- **The edits of a count make the line of the next tally.** -/
theorem Tallied.step (h : Tallied settings unit target task needed tally text base)
    (hread : read settings unit target number raw = .ok task)
    (hmark : '{' ∉ settings.doneMark) (hopen : task.isDone = false)
    (hnone : task.overdue? = none) (hpos : 0 < needed) (hfits : tally.Fits needed) (c : Counting)
    (hyear : ∀ now, c = .up now → 1000 ≤ now.day.civil.year) :
    ∃ base', Tallied settings unit target task needed (tally.step needed c)
      (afterCount settings unit number text base tally c) base' := by
  obtain ⟨done, since⟩ := tally
  by_cases hfull : done = needed
  · obtain ⟨now, rfl⟩ := hfits.since_some hfull
    subst hfull
    exact h.step_full hread hmark hopen hpos c
  · obtain rfl := hfits.since_none hfull
    exact h.step_open hmark hopen hnone (Nat.lt_of_le_of_ne hfits.done_le hfull) c hyear

end Tallied

end Line

end TaskList
