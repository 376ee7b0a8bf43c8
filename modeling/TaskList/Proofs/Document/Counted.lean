/-
TaskList.Proofs.Document.Counted — a task of a document that is counted up and down.

* `Document.count` — the line of a task is read, and the edits of a count are carried
  out in the document. `Document.counts` — the same again and again.
* `Document.counts_tallied` — what that makes of the line, by induction on the
  counts: each of them makes the line of the next tally.
* `Task.IsTallied` — what the task of such a line has in common with the one before.
* `Document.counts_refine` — counting in a document is counting with numbers.
-/
import TaskList.Document
import TaskList.Proofs.Action.Counting
import TaskList.Proofs.Action.Own

namespace TaskList

/-! ## Counting does not depend on the day -/

namespace Task

variable (task : Task) (day : Day)

theorem removeOverdue_onDay : (task.onDay day).removeOverdue = task.removeOverdue := by
  rw [removeOverdue, removeOverdue, overdue?_onDay]
  rfl

theorem clearStamp_onDay : (task.onDay day).clearStamp = task.clearStamp := by
  rw [clearStamp, clearStamp, completion?_onDay]
  rfl

end Task

/-- What a count does to a line does not depend on the day that the line was read
for. -/
theorem Counting.edits_onDay (c : Counting) (settings : Settings) (task : Task) (day : Day) :
    c.deed.edits settings (task.onDay day) = c.deed.edits settings task := by
  cases c with
  | up now =>
    rw [deed, Deed.edits, Deed.edits, Task.increment, Task.increment, Task.count?_onDay,
      Task.removeOverdue_onDay, Task.clearStamp_onDay]
    rfl
  | down =>
    rw [deed, Deed.edits, Deed.edits, Task.decrement, Task.decrement, Task.count?_onDay,
      Task.clearStamp_onDay]
    rfl

/-! ## What counting leaves as it was -/

/-- The task of a line before and after it was counted up and down. -/
structure Task.IsTallied (settings : Settings) (needed : Nat) (tally : Tally)
    (before after : Task) : Prop where
  /-- The counter is at the tally, and as much is needed as was. -/
  count_eq : after.count?.map (fun x => (x.value.current, x.value.needed)) =
    some (tally.done, needed)
  /-- The task is done when the counter is full, -/
  isDone_iff : after.isDone = true ↔ tally.done = needed
  /-- and a completion tag says since when. -/
  completion_eq : after.completion?.map (·.value) =
    tally.since.map fun now => some (now.stamped settings.stampsTime)
  fits : tally.Fits needed
  /-- A counter at zero is not counted down. -/
  decrement_eq : tally.done = 0 → after.decrement = []
  /-- It is due when it was. -/
  due_eq : after.due?.map (·.value) = before.due?.map (·.value)
  /-- It belongs to the groups that it belonged to. -/
  names_eq : ∀ group, after.names group = before.names group
  /-- It is hidden or collapsed if it was. -/
  hidden_eq : after.isHidden = before.isHidden
  collapsed_eq : after.isCollapsed = before.isCollapsed
  /-- Title, number, indentation, done mark and priority are what they were. -/
  same : after = { before with raw := after.raw, fields := after.fields }
  /-- There is no other field, and none is gone or changed, but for the columns
  and for what a counter says is done. -/
  lasting_eq : after.lasting = before.lasting ++ (tally.since.map (Line.stampField settings)).toList

namespace Line

section Tallied

variable {settings : Settings} {unit : Option IndentUnit} {target : Day} {number : Int}
  {raw text : Text} {task : Task} {base : List Part} {tally : Tally} {needed : Nat}

theorem Tallied.completion?_eq (h : Tallied settings unit target task needed tally text base)
    (hopen : task.isDone = false) :
    (tallyTask settings unit number text base tally).completion?.map (·.value) =
      tally.since.map fun now => some (now.stamped settings.stampsTime) := by
  have hnone : task.completion? = none := by
    rw [Task.isDone, Bool.or_eq_false_iff] at hopen
    simpa using hopen.2
  refine (Task.value_find?_append h.lasting_eq fun field => by cases field <;> rfl).trans ?_
  change (task.completion?.map (·.value)).or _ = _
  rw [hnone]
  cases tally.since <;> rfl

theorem Tallied.due?_eq (h : Tallied settings unit target task needed tally text base) :
    (tallyTask settings unit number text base tally).due?.map (·.value) =
      task.due?.map (·.value) := by
  refine (Task.value_find?_append h.lasting_eq fun field => by cases field <;> rfl).trans ?_
  cases tally.since <;> exact Option.or_none

theorem Tallied.isHidden_eq (h : Tallied settings unit target task needed tally text base) :
    (tallyTask settings unit number text base tally).isHidden = task.isHidden := by
  have hvalue : (tallyTask settings unit number text base tally).hiddenTag?.map (·.value) =
      task.hiddenTag?.map (·.value) := by
    refine (Task.value_find?_append h.lasting_eq fun field => by cases field <;> rfl).trans ?_
    cases tally.since <;> exact Option.or_none
  have hsome := congrArg Option.isSome hvalue
  rwa [Option.isSome_map, Option.isSome_map] at hsome

theorem Tallied.isCollapsed_eq (h : Tallied settings unit target task needed tally text base) :
    (tallyTask settings unit number text base tally).isCollapsed = task.isCollapsed := by
  have hvalue : (tallyTask settings unit number text base tally).collapsedTag?.map (·.value) =
      task.collapsedTag?.map (·.value) := by
    refine (Task.value_find?_append h.lasting_eq fun field => by cases field <;> rfl).trans ?_
    cases tally.since <;> exact Option.or_none
  have hsome := congrArg Option.isSome hvalue
  rwa [Option.isSome_map, Option.isSome_map] at hsome

theorem Tallied.names_eq (h : Tallied settings unit target task needed tally text base)
    (group : Group) :
    (tallyTask settings unit number text base tally).names group = task.names group := by
  refine Task.names_append h.lasting_eq (fun field hfield _ _ => ?_) group
  obtain ⟨now, -, rfl⟩ := Option.map_eq_some_iff.mp hfield
  exact nofun

/-- **The task of the line of a tally.** -/
theorem Tallied.isTallied (h : Tallied settings unit target task needed tally text base)
    (hread : read settings unit target number raw = .ok task) (hopen : task.isDone = false)
    (hfits : tally.Fits needed) :
    task.IsTallied settings needed tally (tallyTask settings unit number text base tally) := by
  obtain ⟨⟨span, count⟩, hx, hcurrent, hneeded⟩ := h.exists_count? number
  dsimp only at hcurrent hneeded
  have hcompletion : (tallyTask settings unit number text base tally).completion?.map _ = _ :=
    h.completion?_eq hopen
  have hsame : tallyTask settings unit number text base tally =
      { task with
        raw := (tallyTask settings unit number text base tally).raw
        fields := (tallyTask settings unit number text base tally).fields } := by
    obtain ⟨parts, hlaidOut, rfl⟩ := read_iff_laidOut.mp hread
    refine h.relaid.taskOf_eq ?_
    rw [squeeze_stampParts, h.repeats.title_eq]
    rfl
  constructor
  case count_eq => rw [hx, Option.map_some, hcurrent, hneeded]
  case isDone_iff =>
    have hmarker : (tallyTask settings unit number text base tally).marker = task.marker := by
      rw [hsame]
    rw [Task.isDone, Bool.or_eq_false_iff] at hopen
    rw [Task.isDone, hmarker, hopen.1, Bool.false_or, ← Option.isSome_map, hcompletion,
      Option.isSome_map, hfits.since_iff]
  case completion_eq => exact hcompletion
  case fits => exact hfits
  case decrement_eq =>
    intro hzero
    rw [Task.decrement, hx]
    exact if_pos (hcurrent.trans hzero)
  case due_eq => exact h.due?_eq
  case names_eq => exact h.names_eq
  case hidden_eq => exact h.isHidden_eq
  case collapsed_eq => exact h.isCollapsed_eq
  case same => exact hsame
  case lasting_eq => exact h.lasting_eq

end Tallied

end Line

namespace Document

/-- The lines of a document after a count of the task of one line, which is read for a
day; none if there is no such line, or it cannot be read. -/
def count (settings : Settings) (unit : Option IndentUnit) (i : Nat) (lines : List Text)
    (day : Day) (c : Counting) : Option (List Text) :=
  match lines[i]? with
  | none => none
  | some raw =>
    match Line.read settings unit day i raw with
    | .error _ => none
    | .ok task => (Edit.applyAll lines (c.deed.edits settings task)).toOption

/-- The lines of a document after counts, each with the day that it is read for. -/
def counts (settings : Settings) (unit : Option IndentUnit) (i : Nat) :
    List (Day × Counting) → List Text → Option (List Text)
  | [], lines => some lines
  | (day, c) :: rest, lines =>
    (count settings unit i lines day c).bind (counts settings unit i rest)

section Counts

variable {settings : Settings} {unit : Option IndentUnit} {target : Day} {lines : List Text}
  {i : Nat} {raw text : Text} {task : Task} {base : List Line.Part} {tally : Tally} {needed : Nat}

/-- A count changes the line of the task, whatever day that is read for. -/
theorem count_tallied (h : Line.Tallied settings unit target task needed tally text base)
    (hline : lines[i]? = some text) (day : Day) (c : Counting) :
    count settings unit i lines day c =
      some (lines.set i (Line.afterCount settings unit i text base tally c)) := by
  have hread := h.read_eq i
  have hedits : ∀ e ∈ c.deed.edits settings (Line.tallyTask settings unit i text base tally),
      e.isColumnEdit = true ∧ e.line = i := fun e he => by
    have howns := (Deed.makes he).owns hread
    exact ⟨howns.columns, howns.line_eq⟩
  rw [count, hline]
  dsimp only
  rw [Line.read_onDay hread day]
  dsimp only
  rw [c.edits_onDay, Edit.applyAll_line hedits hline]
  rfl

/-- **What counting makes of a line** is the line of what counting makes of its
tally. -/
theorem counts_tallied (h : Line.Tallied settings unit target task needed tally text base)
    (hread : Line.read settings unit target i raw = .ok task) (hmark : '{' ∉ settings.doneMark)
    (hopen : task.isDone = false) (hnone : task.overdue? = none) (hpos : 0 < needed)
    (hfits : tally.Fits needed) (hline : lines[i]? = some text)
    {cs : List (Day × Counting)}
    (hyear : ∀ day now, (day, .up now) ∈ cs → 1000 ≤ now.day.civil.year) :
    ∃ final base', counts settings unit i cs lines = some (lines.set i final) ∧
      Line.Tallied settings unit target task needed ((cs.map (·.2)).foldl (Tally.step needed) tally)
        final base' ∧
      ((cs.map (·.2)).foldl (Tally.step needed) tally).Fits needed := by
  -- line and tally change together: what stays is that one is the line of the other
  induction cs generalizing lines text base tally with
  | nil =>
    obtain ⟨hlt, htext⟩ := List.getElem?_eq_some_iff.mp hline
    refine ⟨text, base, ?_, h, hfits⟩
    rw [counts, ← htext, List.set_getElem_self hlt]
  | cons first rest ih =>
    obtain ⟨day, c⟩ := first
    obtain ⟨base', hstep⟩ := h.step hread hmark hopen hnone hpos hfits c fun now hc =>
      hyear day now (hc ▸ List.mem_cons_self)
    have hlt := (List.getElem?_eq_some_iff.mp hline).1
    obtain ⟨final, base'', hrest, htallied⟩ := ih hstep (hfits.step hpos c)
      (List.getElem?_set_self hlt) fun day' now hmem =>
        hyear day' now (List.mem_cons_of_mem _ hmem)
    refine ⟨final, base'', ?_, htallied⟩
    rw [counts, count_tallied h hline, Option.bind_some, hrest, List.set_set]

/-- **Counting in a document is counting with numbers.** Whatever else is in the
document, a task that is open and was not missed is counted up and down in its line
any number of times, and no other line changes. Afterwards the line is read, for
any day, as a task with the number that counting makes of the one at the start: it
is done when the counter is full, since the instant of the count that filled it, and
all else about it is as it was. -/
theorem counts_refine (hmark : '{' ∉ settings.doneMark) (hcomment : '{' ∉ settings.commentMark)
    (hread : Line.read settings unit target i raw = .ok task) (hline : lines[i]? = some raw)
    (hopen : task.isDone = false) (hnone : task.overdue? = none) {x : Located Count}
    (hx : task.count? = some x) (hlt : x.value.current < x.value.needed)
    (cs : List (Day × Counting))
    (hyear : ∀ day now, (day, .up now) ∈ cs → 1000 ≤ now.day.civil.year) :
    ∃ text, counts settings unit i cs lines = some (lines.set i text) ∧
      isComment settings ⟨i, text⟩ = isComment settings ⟨i, raw⟩ ∧
      ∀ day, ∃ before after, Line.read settings unit day i raw = .ok before ∧
        Line.read settings unit day i text = .ok after ∧
        before.IsTallied settings x.value.needed
          ((cs.map (·.2)).foldl (Tally.step x.value.needed) ⟨x.value.current, none⟩) after := by
  have hpos : 0 < x.value.needed := Nat.zero_lt_of_lt hlt
  have hfits : Tally.Fits ⟨x.value.current, none⟩ x.value.needed :=
    ⟨hlt.le, by simpa using hlt.ne⟩
  obtain ⟨base, htallied⟩ := Line.tallied_of_read hread hx
  obtain ⟨text, base', hcounts, hfinal, -⟩ := counts_tallied htallied hread hmark hopen hnone hpos
    hfits hline hyear
  refine ⟨text, hcounts, ?_, fun day => ?_⟩
  · rw [isComment, isComment, hfinal.relaid.mark_eq _ hcomment, Line.raw_of_read hread]
  · -- for another day the line is counted in the same way
    have hread' := Line.read_onDay hread day
    have hopen' := (Task.isDone_onDay task day).trans hopen
    obtain ⟨base, htallied⟩ := Line.tallied_of_read hread' ((Task.count?_onDay task day).trans hx)
    obtain ⟨text', base', hcounts', hfinal, hfits⟩ := counts_tallied htallied hread' hmark hopen'
      ((Task.overdue?_onDay task day).trans hnone) hpos hfits hline hyear
    obtain rfl : text = text' := by
      have hset := Option.some.inj (hcounts.symm.trans hcounts')
      have hbound := (List.getElem?_eq_some_iff.mp hline).1
      have hget := congrArg (·[i]?) hset
      simpa [hbound] using hget
    exact ⟨_, _, hread', hfinal.read_eq i, hfinal.isTallied hread' hopen' hfits⟩

end Counts

/-- A task with one of two things done: the second one fills its counter, a third one
starts it anew, at zero it is not counted down, and two more fill it again. -/
theorem counts_refine_round :
    ∃ task x text, Line.read {} none ⟨736695, by decide, by decide⟩ (1 : Nat)
        "(A) Read \x7bcount:01/2\x7d +books ".toList = .ok task ∧
      task.count? = some x ∧
      counts {} none 1
        [(⟨736695, by decide, by decide⟩, .up ⟨⟨736695, by decide, by decide⟩, none⟩),
          (⟨736695, by decide, by decide⟩, .up ⟨⟨736695, by decide, by decide⟩, none⟩),
          (⟨736696, by decide, by decide⟩, .down),
          (⟨736696, by decide, by decide⟩, .up ⟨⟨736696, by decide, by decide⟩, none⟩),
          (⟨736697, by decide, by decide⟩,
            .up ⟨⟨736697, by decide, by decide⟩, some ⟨10, 30, 15⟩⟩)]
        ["# note".toList, "(A) Read \x7bcount:01/2\x7d +books ".toList] =
          some ["# note".toList, text] ∧
      isComment {} ⟨1, text⟩ = false ∧
      ∀ day, ∃ before after,
        Line.read {} none day (1 : Nat) "(A) Read \x7bcount:01/2\x7d +books ".toList = .ok before ∧
        Line.read {} none day (1 : Nat) text = .ok after ∧
        before.IsTallied {} 2
          ⟨2, some ⟨⟨736697, by decide, by decide⟩, some ⟨10, 30, 15⟩⟩⟩ after := by
  have hfacts : (Line.read {} none ⟨736695, by decide, by decide⟩ (1 : Nat)
      "(A) Read \x7bcount:01/2\x7d +books ".toList).toOption.map
        (fun task => (task.isDone, task.overdue?, task.count?.map (·.value))) =
      some (false, none, some ⟨1, 2, ⟨16, 18⟩⟩) := by
    decide +kernel
  generalize hread : Line.read _ _ _ _ _ = result at hfacts ⊢
  cases result with
  | error e => simp [Except.toOption] at hfacts
  | ok task =>
    obtain ⟨hopen, hnone, hcount⟩ : task.isDone = false ∧ task.overdue? = none ∧
        task.count?.map (·.value) = some ⟨1, 2, ⟨16, 18⟩⟩ := by
      simpa [Except.toOption] using hfacts
    obtain ⟨⟨span, count⟩, hx, rfl⟩ := Option.map_eq_some_iff.mp hcount
    obtain ⟨text, hcounts, hcomment, htasks⟩ := counts_refine (by decide) (by decide) hread
      (show ["# note".toList, "(A) Read \x7bcount:01/2\x7d +books ".toList][1]? = some _ from rfl)
      hopen hnone hx (show 1 < 2 by decide)
      [(⟨736695, by decide, by decide⟩, .up ⟨⟨736695, by decide, by decide⟩, none⟩),
        (⟨736695, by decide, by decide⟩, .up ⟨⟨736695, by decide, by decide⟩, none⟩),
        (⟨736696, by decide, by decide⟩, .down),
        (⟨736696, by decide, by decide⟩, .up ⟨⟨736696, by decide, by decide⟩, none⟩),
        (⟨736697, by decide, by decide⟩,
          .up ⟨⟨736697, by decide, by decide⟩, some ⟨10, 30, 15⟩⟩)]
      (fun day now hmem => by
        simp only [List.mem_cons, Prod.mk.injEq, Counting.up.injEq, reduceCtorEq, and_false,
          List.not_mem_nil, or_false, false_or] at hmem
        rcases hmem with ⟨-, rfl⟩ | ⟨-, rfl⟩ | ⟨-, rfl⟩ | ⟨-, rfl⟩ <;> decide)
    exact ⟨task, _, text, rfl, hx, hcounts, hcomment, htasks⟩

end Document

end TaskList
