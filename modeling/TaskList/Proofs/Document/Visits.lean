/-
TaskList.Proofs.Document.Visits — a document that is visited again and again.

* `Document.visit` — the document is read, and the edits of a new cycle are
  carried out. `Document.visit_line` — what that makes of the line of an open
  recurring task.
* `Document.visits` — the same for a sequence of visits, each with the one
  before it. `IsPending.visits_line` — what that makes of the line, by induction
  on the visits: what one of them puts in is settled for those that follow.
* `Document.visits_markOnce` — a task is marked once, on the latest day of the
  first interval that has one, and is else the task that it was.
-/
import TaskList.Proofs.Action.Visit
import TaskList.Proofs.Document.Edited
import TaskList.Proofs.Due.Missed

namespace TaskList

namespace Document

/-- The lines of a document after a visit; none if it cannot be read. -/
def visit (settings : Settings) (unit : Option IndentUnit) (lastVisit now : Instant)
    (lines : List Text) : Option (List Text) :=
  match read settings unit now.day (number lines) with
  | .error _ => none
  | .ok doc =>
    (Edit.applyAll lines (resetEdits (doc.outline.nodes.map (·.task)) lastVisit now)).toOption

/-- The lines of a document after visits, each with the one before it. -/
def visits (settings : Settings) (unit : Option IndentUnit) :
    Instant → List Instant → List Text → Option (List Text)
  | _, [], lines => some lines
  | lastVisit, now :: rest, lines =>
    (visit settings unit lastVisit now lines).bind (visits settings unit now rest)

/-! ## One visit -/

section Visit

variable {settings : Settings} {unit : Option IndentUnit} {target : Day} {lines mid : List Text}
  {lastVisit now : Instant} {i : Nat} {raw : Text} {task : Task}

/-- A document that can be read can be visited, and the line of each task gets the
edits of that task. -/
theorem visit_of_reads {tasks : List Task}
    (h : Reads settings unit now.day (taskLines settings (number lines)) tasks) :
    ∃ lines', visit settings unit lastVisit now lines = some lines' ∧
      lines'.length = lines.length ∧ ∀ task ∈ tasks, ∀ i : Nat, task.line = i → lines'[i]? =
        some (((task.reset lastVisit now).mergeSort Edit.leftOf).foldr Edit.applyTo task.raw) := by
  have hedits : ∀ task ∈ tasks, ∀ e ∈ task.reset lastVisit now,
      e.isColumnEdit = true ∧ e.line = task.line := fun task _ e he => Task.reset_columns he
  obtain ⟨lines', happly, hlength, hchanged, -⟩ := h.exists_edited hedits
  refine ⟨lines', ?_, hlength, hchanged⟩
  rw [visit, read_eq_ok_iff.mpr ⟨tasks, h, rfl⟩]
  dsimp only
  rw [task_nodes_ofTasks, resetEdits, happly]
  rfl

/-- A document is visited only if it can be read. -/
theorem exists_reads (h : visit settings unit lastVisit now lines = some mid) :
    ∃ tasks, Reads settings unit now.day (taskLines settings (number lines)) tasks := by
  unfold visit at h
  split at h
  · simp at h
  · rename_i doc hdoc
    obtain ⟨tasks, htasks, -⟩ := read_eq_ok_iff.mp hdoc
    exact ⟨tasks, htasks⟩

/-- The line of a task with a due date is a task of the document. -/
theorem mem_taskLines (hread : Line.read settings unit target i raw = .ok task)
    (hdue : task.due?.isSome = true) (hcomment : isComment settings ⟨i, raw⟩ = false)
    (hline : lines[i]? = some raw) : ⟨i, raw⟩ ∈ taskLines settings (number lines) := by
  have hwritten : isWritten ⟨i, raw⟩ = true := by
    have hbrace := Line.brace_mem_of_due hread hdue
    simp only [isWritten, Text.allBlank, Bool.not_eq_true', List.all_eq_false]
    exact ⟨'{', hbrace, by decide⟩
  refine List.mem_filter.mpr ⟨List.mem_filter.mpr ⟨?_, hwritten⟩, by simp [hcomment]⟩
  exact mem_number_iff.mpr ⟨i, hline, rfl⟩

/-- **What a visit makes of the line of an open recurring task.** -/
theorem visit_line (hread : Line.read settings unit target i raw = .ok task)
    (hopen : task.isDone = false) (hrecurring : task.isRecurring = true)
    (hcomment : isComment settings ⟨i, raw⟩ = false) (hline : lines[i]? = some raw)
    (h : visit settings unit lastVisit now lines = some mid) :
    mid[i]? = some (task.visited (task.newlyMissed? lastVisit now)) := by
  obtain ⟨tasks, htasks⟩ := exists_reads h
  -- a line with a due tag is not blank, so it is among those that are read
  have hdue : task.due?.isSome = true := Option.isSome_of_any hrecurring
  obtain ⟨other, hother, hread'⟩ := htasks.exists_task (mem_taskLines hread hdue hcomment hline)
  -- the document is read for the day of the visit
  obtain rfl : other = task.onDay now.day :=
    Except.ok.inj (hread'.symm.trans (Line.read_onDay hread now.day))
  obtain ⟨lines', hvisit, -, hchanged⟩ := visit_of_reads htasks
  obtain rfl : mid = lines' := Option.some.inj (h.symm.trans hvisit)
  rw [hchanged _ hother i (Line.line_of_read hread'), Task.reset_onDay,
    ← Task.carried_reset hread hopen hrecurring]
  rfl

/-- A document of one task can be visited. -/
theorem exists_visit_single (hread : Line.read settings unit target (0 : Nat) raw = .ok task)
    (hdue : task.due?.isSome = true) (hcomment : isComment settings ⟨(0 : Nat), raw⟩ = false)
    (lastVisit now : Instant) :
    ∃ text, visit settings unit lastVisit now [raw] = some [text] := by
  have hlines : taskLines settings (number [raw]) = [⟨(0 : Nat), raw⟩] := by
    have hmem := mem_taskLines hread hdue hcomment (show [raw][0]? = some raw from rfl)
    have hsublist : (taskLines settings (number [raw])).Sublist [⟨(0 : Nat), raw⟩] :=
      List.filter_sublist.trans List.filter_sublist
    exact hsublist.eq_of_length_le (List.length_pos_of_mem hmem)
  have hreads : Reads settings unit now.day (taskLines settings (number [raw]))
      [task.onDay now.day] := by
    rw [hlines]
    exact .cons (Line.read_onDay hread now.day) .nil
  obtain ⟨lines', hvisit, hlength, -⟩ := visit_of_reads hreads
  obtain ⟨text, rfl⟩ := List.length_eq_one_iff.mp hlength
  exact ⟨text, hvisit⟩

end Visit

/-! ## A sequence of visits -/

section Visits

variable {settings : Settings} {unit : Option IndentUnit} {target : Day} {lines final : List Text}
  {first now : Instant} {rest : List Instant} {i : Nat} {task after : Task} {due : DueTag}

/-- The line of a task after a sequence of visits. -/
def lineAfter (task : Task) (e : Due.Expression) (first : Instant) : List Instant → Text
  | [] => task.raw
  | now :: rest => task.visited
    (if task.overdue?.isNone then e.firstMissed first.day (now.day :: rest.map (·.day)) else none)

/-- The task of a line that is no comment: open, recurring, with a due tag, and
read from its line. -/
structure IsPending (settings : Settings) (unit : Option IndentUnit) (target : Day) (i : Nat)
    (task : Task) (due : DueTag) : Prop where
  read_eq : Line.read settings unit target i task.raw = .ok task
  not_comment : isComment settings ⟨i, task.raw⟩ = false
  opened : task.isDone = false
  recurring : task.isRecurring = true
  due_eq : task.due?.map (·.value) = some due

theorem IsPending.isSome_due? (h : IsPending settings unit target i task due) :
    task.due?.isSome = true := Option.isSome_of_any h.recurring

theorem IsPending.newlyMissed?_eq (h : IsPending settings unit target i task due)
    (first now : Instant) :
    task.newlyMissed? first now =
      if task.overdue?.isNone then due.expression.lastMissed first.day now.day else none := by
  obtain ⟨tag, htag, rfl⟩ := Option.map_eq_some_iff.mp h.due_eq
  rw [Task.newlyMissed?, Task.missedSince?, htag]
  rfl

/-- A line that starts like one that is no comment is none either. -/
theorem isComment_of_mark_eq (hcomment : '{' ∉ settings.commentMark) {raw text : Text}
    (hsame : ∀ mark : Text, '{' ∉ mark → mark.isPrefixOf text = mark.isPrefixOf raw)
    (h : isComment settings ⟨i, raw⟩ = false) : isComment settings ⟨i, text⟩ = false := by
  unfold isComment at h ⊢
  dsimp only at h ⊢
  rwa [hsame settings.commentMark hcomment]

/-- A pending task is pending after a visit. -/
theorem IsPending.visit (h : IsPending settings unit target i task due)
    (hmark : '{' ∉ settings.doneMark) (hcomment : '{' ∉ settings.commentMark)
    (hyear : 1000 ≤ first.day.civil.year) (now : Instant) :
    ∃ after, Line.Visit settings unit target task (task.newlyMissed? first now) after ∧
      IsPending settings unit target i after due := by
  have hmissed : ∀ day ∈ task.newlyMissed? first now,
      task.overdue? = none ∧ 1000 ≤ day.civil.year := by
    intro day hday
    rw [h.newlyMissed?_eq] at hday
    split at hday
    · rename_i hnone
      have hle := (Due.Expression.lastMissed_eq_some_iff.mp hday).since_le
      exact ⟨Option.isNone_iff_eq_none.mp hnone, Nat.le_trans hyear (Day.year_mono hle)⟩
    · simp at hday
  obtain ⟨after, hvisit⟩ := Line.exists_visit h.read_eq hmark h.isSome_due? hmissed
  have hline := Line.line_of_read h.read_eq
  refine ⟨after, hvisit, ?_, ?_, hvisit.isDone_eq.trans h.opened,
    hvisit.isRecurring_eq.trans h.recurring, hvisit.due?_eq.trans h.due_eq⟩
  · rw [hvisit.raw_eq, ← hline]
    exact hvisit.read_eq
  · rw [hvisit.raw_eq]
    exact isComment_of_mark_eq hcomment hvisit.mark_eq h.not_comment

/-- The visits after one visit make of its line what they make of it together. -/
theorem IsPending.lineAfter_cons (h : IsPending settings unit target i task due)
    (hvisit : Line.Visit settings unit target task (task.newlyMissed? first now) after) :
    lineAfter after due.expression now rest =
      lineAfter task due.expression first (now :: rest) := by
  have hmissed := h.newlyMissed?_eq first now
  have hoverdue : after.overdue?.isNone =
      (task.overdue?.isNone && (task.newlyMissed? first now).isNone) := by
    have hvalue := congrArg Option.isNone hvisit.overdue?_eq
    rwa [Option.isNone_or, Option.isNone_map, Option.isNone_map] at hvalue
  cases rest with
  | nil =>
    rw [lineAfter, lineAfter, hvisit.raw_eq, hmissed]
    simp [Due.Expression.firstMissed]
  | cons next rest =>
    rw [lineAfter, lineAfter, hoverdue, Due.Expression.firstMissed_cons first.day, List.map_cons]
    generalize due.expression.firstMissed now.day (next.day :: rest.map (·.day)) = later
    -- what was missed at this visit, and what is missed later if nothing was
    cases hnone : task.overdue?.isNone with
    | false =>
      rw [hnone] at hmissed
      exact hvisit.visited_eq (.inr rfl) |>.trans (by rw [hmissed]; rfl)
    | true =>
      rw [hnone, if_pos rfl] at hmissed
      rw [if_pos rfl, ← hmissed, Bool.true_and]
      cases hday : task.newlyMissed? first now with
      | none =>
        rw [hday] at hvisit
        exact hvisit.visited_eq (.inl rfl)
      | some day =>
        rw [hday] at hvisit
        exact hvisit.visited_eq (.inr rfl)

/-- **What visits make of the line of a pending task.** -/
theorem IsPending.visits_line (h : IsPending settings unit target i task due)
    (hmark : '{' ∉ settings.doneMark) (hcomment : '{' ∉ settings.commentMark)
    (hyear : ∀ v ∈ first :: rest, 1000 ≤ v.day.civil.year) (hline : lines[i]? = some task.raw)
    (hvisits : visits settings unit first rest lines = some final) :
    final[i]? = some (lineAfter task due.expression first rest) := by
  -- the task changes with its line: what stays is that it is pending
  induction rest generalizing first task lines with
  | nil =>
    obtain rfl := Option.some.inj hvisits
    exact hline
  | cons now rest ih =>
    obtain ⟨hfirst, hrest⟩ := List.forall_mem_cons.mp hyear
    obtain ⟨mid, hmid, hbehind⟩ := Option.bind_eq_some_iff.mp hvisits
    obtain ⟨after, hvisit, hafter⟩ := h.visit hmark hcomment hfirst now
    have hstep := visit_line h.read_eq h.opened h.recurring h.not_comment hline hmid
    rw [← hvisit.raw_eq] at hstep
    -- what the later visits make of the new line, they make of the old one with this visit
    rw [← h.lineAfter_cons hvisit]
    exact ih hafter hrest hstep hbehind

/-- A document of one pending task can be visited any number of times. -/
theorem IsPending.exists_visits (h : IsPending settings unit target 0 task due)
    (hmark : '{' ∉ settings.doneMark) (hcomment : '{' ∉ settings.commentMark)
    (hyear : ∀ v ∈ first :: rest, 1000 ≤ v.day.civil.year) :
    ∃ final, visits settings unit first rest [task.raw] = some final := by
  induction rest generalizing first task with
  | nil => exact ⟨_, rfl⟩
  | cons now rest ih =>
    obtain ⟨hfirst, hrest⟩ := List.forall_mem_cons.mp hyear
    obtain ⟨text, htext⟩ := exists_visit_single h.read_eq h.isSome_due? h.not_comment
      first now
    obtain ⟨after, hvisit, hafter⟩ := h.visit hmark hcomment hfirst now
    have hstep := visit_line h.read_eq h.opened h.recurring h.not_comment rfl htext
    obtain rfl : text = after.raw := by
      rw [hvisit.raw_eq]
      exact Option.some.inj hstep
    obtain ⟨final, hfinal⟩ := ih hafter hrest
    exact ⟨final, Option.bind_eq_some_iff.mpr ⟨_, htext, hfinal⟩⟩

end Visits

end Document

/-! ## What visits leave as it was -/

/-- The task of a line before and after visits that found when it was first
missed. -/
structure Task.IsMarked (before : Task) (missed : Option Day) (after : Task) : Prop where
  /-- The task is open. -/
  isOpen : after.isDone = false
  /-- An overdue tag says when the task was missed, if it was. -/
  overdue_eq : after.overdue?.map (·.value) = missed
  /-- It is due when it was. -/
  due_eq : after.due?.map (·.value) = before.due?.map (·.value)
  /-- It belongs to the groups that it belonged to. -/
  names_eq : ∀ group, after.names group = before.names group
  /-- Title, number, indentation, done mark and priority are what they were. -/
  same : after = { before with raw := after.raw, fields := after.fields }
  /-- There is no other field, and none is gone or changed, but for the columns
  and for what a counter says is done. -/
  lasting_eq : after.lasting = before.lasting ++ (missed.map .overdue).toList

namespace Document

/-- What visits make of the line of a task: how it is written afterwards, and on
which day the task was missed, if it was. -/
structure MarkedOnce (settings : Settings) (unit : Option IndentUnit) (i : Nat) (task : Task)
    (e : Due.Expression) (first : Instant) (rest : List Instant) (missed : Option Day)
    (text : Text) : Prop where
  /-- The counter is at zero, and an overdue tag stands at the end if the task
  was missed. -/
  written : text = if rest = [] then task.raw else task.visited missed
  /-- The task was missed if something was due or overdue since the first visit
  and before the day of the last one. -/
  missed_iff : missed.isSome = true ↔ ∃ d, first.day ≤ d ∧
    d < ((first :: rest).getLast (List.cons_ne_nil _ _)).day ∧ e.ActiveOn d
  /-- The first interval with such a day has it as the latest one. -/
  missed_on : ∀ d ∈ missed, e.MarkedOn ((first :: rest).map (·.day)) d
  /-- The line is no comment. -/
  not_comment : isComment settings ⟨i, text⟩ = false
  /-- Whatever day both are read for, the line is the task that it was. -/
  read_eq : ∀ day, ∃ before after, Line.read settings unit day i task.raw = .ok before ∧
    Line.read settings unit day i text = .ok after ∧ before.IsMarked missed after

section MarkOnce

variable {settings : Settings} {unit : Option IndentUnit} {target : Day} {i : Nat} {raw : Text}
  {task : Task} {due : Located DueTag} {first : Instant} {rest : List Instant}

theorem lineAfter_of_not_overdue (hnone : task.overdue? = none) (e : Due.Expression)
    (first : Instant) (rest : List Instant) :
    lineAfter task e first rest = if rest = [] then task.raw
      else task.visited (e.firstMissed first.day (rest.map (·.day))) := by
  cases rest with
  | nil => rfl
  | cons now rest =>
    rw [lineAfter, hnone, if_neg (List.cons_ne_nil _ _)]
    rfl

/-- Later visits do not change the line of a task that is marked. -/
theorem lineAfter_append (hnone : task.overdue? = none) {e : Due.Expression} {early : List Instant}
    {d : Day} (h : e.firstMissed first.day (early.map (·.day)) = some d) (late : List Instant) :
    lineAfter task e first (early ++ late) = lineAfter task e first early := by
  have hne : early ≠ [] := by
    rintro rfl
    simp [Due.Expression.firstMissed] at h
  rw [lineAfter_of_not_overdue hnone, lineAfter_of_not_overdue hnone, if_neg hne,
    if_neg (List.append_ne_nil_of_left_ne_nil hne late), List.map_append,
    Due.Expression.firstMissed_append h, h]

theorem year_of_markedOn {e : Due.Expression} {d : Day}
    (hyear : ∀ v ∈ first :: rest, 1000 ≤ v.day.civil.year)
    (h : e.MarkedOn ((first :: rest).map (·.day)) d) : 1000 ≤ d.civil.year := by
  obtain ⟨j, since, today, hsince, -, hlatest, -⟩ := h
  obtain ⟨v, hv, rfl⟩ := List.mem_map.mp (List.mem_of_getElem? hsince)
  exact Nat.le_trans (hyear v hv) (Day.year_mono hlatest.since_le)

/-- A line that is not visited is the task that it is. -/
theorem isMarked_self (hopen : task.isDone = false) (hnone : task.overdue? = none) :
    task.IsMarked none task where
  isOpen := hopen
  overdue_eq := by rw [hnone]; rfl
  due_eq := rfl
  names_eq _ := rfl
  same := rfl
  lasting_eq := (List.append_nil _).symm

theorem isMarked_of_visit {after : Task} {missed : Option Day} (hopen : task.isDone = false)
    (hnone : task.overdue? = none) (h : Line.Visit settings unit target task missed after) :
    task.IsMarked missed after where
  isOpen := h.isDone_eq.trans hopen
  overdue_eq := by rw [h.overdue?_eq, hnone]; rfl
  due_eq := h.due?_eq
  names_eq := h.names_eq
  same := by rw [h.raw_eq]; exact h.same
  lasting_eq := h.lasting_eq

/-- Whatever day the line is read for after visits, it is the marked task. -/
theorem IsPending.exists_isMarked (h : IsPending settings unit target i task due.value)
    (hmark : '{' ∉ settings.doneMark) (hnone : task.overdue? = none) {missed : Option Day}
    (hyear : ∀ d ∈ missed, 1000 ≤ d.civil.year) (day : Day) :
    ∃ after, Line.read settings unit day i (task.visited missed) = .ok after ∧
      (task.onDay day).IsMarked missed after := by
  have hread := Line.read_onDay h.read_eq day
  have hdue : (task.onDay day).due?.isSome = true := by
    rw [Task.due?_onDay, Option.isSome_map, h.isSome_due?]
  have hnone' : (task.onDay day).overdue? = none := (Task.overdue?_onDay task day).trans hnone
  obtain ⟨after, hvisit⟩ := Line.exists_visit hread hmark hdue
    fun d hd => ⟨hnone', hyear d hd⟩
  have hvisited := hvisit.read_eq
  rw [Task.visited_onDay, Line.line_of_read hread] at hvisited
  exact ⟨after, hvisited,
    isMarked_of_visit ((Task.isDone_onDay task day).trans h.opened) hnone' hvisit⟩

/-- What visits make of the line of a pending task without an overdue tag. -/
theorem IsPending.markedOnce (h : IsPending settings unit target i task due.value)
    (hmark : '{' ∉ settings.doneMark) (hcomment : '{' ∉ settings.commentMark)
    (hnone : task.overdue? = none) (hyear : ∀ v ∈ first :: rest, 1000 ≤ v.day.civil.year)
    (hdays : (first :: rest).Pairwise fun v w => v.day ≤ w.day) :
    MarkedOnce settings unit i task due.value.expression first rest
      (due.value.expression.firstMissed first.day (rest.map (·.day)))
      (lineAfter task due.value.expression first rest) := by
  have hwritten := lineAfter_of_not_overdue hnone due.value.expression first rest
  have hmissed : ∀ d ∈ due.value.expression.firstMissed first.day (rest.map (·.day)),
      due.value.expression.MarkedOn ((first :: rest).map (·.day)) d :=
    fun d hd => Due.Expression.markedOn_of_firstMissed hd
  have hmissedYear : ∀ d ∈ due.value.expression.firstMissed first.day (rest.map (·.day)),
      1000 ≤ d.civil.year := fun d hd => year_of_markedOn hyear (hmissed d hd)
  constructor
  case written => exact hwritten
  case missed_iff =>
    have hmap : (first.day :: rest.map (·.day)).Pairwise (· ≤ ·) := List.pairwise_map.mpr hdays
    have hne : (first :: rest).map (·.day) ≠ [] := List.cons_ne_nil _ _
    have hlast : (first.day :: rest.map (·.day)).getLast (List.cons_ne_nil _ _) =
        ((first :: rest).getLast (List.cons_ne_nil _ _)).day := List.getLast_map hne
    rw [Due.Expression.isSome_firstMissed_iff hmap, hlast]
  case missed_on => exact hmissed
  case not_comment =>
    rw [hwritten]
    split
    · exact h.not_comment
    · obtain ⟨after, hvisit⟩ := Line.exists_visit h.read_eq hmark h.isSome_due?
        fun d hd => ⟨hnone, hmissedYear d hd⟩
      exact isComment_of_mark_eq hcomment hvisit.mark_eq h.not_comment
  case read_eq =>
    intro day
    refine ⟨task.onDay day, ?_⟩
    rw [hwritten]
    split
    · rename_i hrest
      subst hrest
      have hnone' := (Task.overdue?_onDay task day).trans hnone
      exact ⟨_, Line.read_onDay h.read_eq day, Line.read_onDay h.read_eq day,
        isMarked_self ((Task.isDone_onDay task day).trans h.opened) hnone'⟩
    · obtain ⟨after, hread, hmarked⟩ := h.exists_isMarked hmark hnone hmissedYear day
      exact ⟨after, Line.read_onDay h.read_eq day, hread, hmarked⟩

/-- **A recurring task is marked once.** Whatever else is in the document, the
visits mark an open recurring task on the latest day of the first interval in
which it was due or overdue, and on no other day; all else about it is as it
was, and a line that is marked is never changed again. -/
theorem visits_markOnce (hmark : '{' ∉ settings.doneMark) (hcomment : '{' ∉ settings.commentMark)
    (hread : Line.read settings unit target i raw = .ok task)
    (hline : isComment settings ⟨i, raw⟩ = false) (hopen : task.isDone = false)
    (hrecurring : task.isRecurring = true) (hdue : task.due? = some due)
    (hnone : task.overdue? = none) (hyear : ∀ v ∈ first :: rest, 1000 ≤ v.day.civil.year)
    (hdays : (first :: rest).Pairwise fun v w => v.day ≤ w.day) :
    (∃ final, visits settings unit first rest [raw] = some final) ∧
    ∀ lines final, lines[i]? = some raw → visits settings unit first rest lines = some final →
      ∃ missed text, final[i]? = some text ∧
        MarkedOnce settings unit i task due.value.expression first rest missed text ∧
        ∀ early late mid earlier, rest = early ++ late →
          visits settings unit first early lines = some mid → mid[i]? = some earlier →
          (∃ day marked, Line.read settings unit day i earlier = .ok marked ∧
            marked.overdue?.isSome = true) → text = earlier := by
  obtain rfl := Line.raw_of_read hread
  have hpending : IsPending settings unit target i task due.value :=
    ⟨hread, hline, hopen, hrecurring, by rw [hdue]; rfl⟩
  refine ⟨?_, fun lines final hlines hfinal => ?_⟩
  · -- the line says the same in the first place of a document
    have hfirst : IsPending settings unit target 0 (task.renumber fun _ => 0) due.value :=
      ⟨Line.read_renumber hread fun _ => 0, hline, hopen, hrecurring, hpending.due_eq⟩
    exact hfirst.exists_visits hmark hcomment hyear
  · refine ⟨_, _, hpending.visits_line hmark hcomment hyear hlines hfinal,
      hpending.markedOnce hmark hcomment hnone hyear hdays, ?_⟩
    rintro early late mid earlier rfl hmid hearlier ⟨day, marked, hmarked, hsome⟩
    have hyear' : ∀ v ∈ first :: early, 1000 ≤ v.day.civil.year :=
      fun v hv => hyear v (List.mem_append_left late hv)
    have hdays' : (first :: early).Pairwise fun v w => v.day ≤ w.day :=
      hdays.sublist (List.sublist_append_left (first :: early) late)
    obtain rfl : lineAfter task due.value.expression first early = earlier :=
      Option.some.inj
        ((hpending.visits_line hmark hcomment hyear' hlines hmid).symm.trans hearlier)
    obtain ⟨_, after, -, hread', hafter⟩ :=
      (hpending.markedOnce hmark hcomment hnone hyear' hdays').read_eq day
    obtain rfl : marked = after := Except.ok.inj (hmarked.symm.trans hread')
    rw [← Option.isSome_map, hafter.overdue_eq] at hsome
    -- the tag of the marked line says on which day, and the later visits find no other
    obtain ⟨d, hd⟩ := Option.isSome_iff_exists.mp hsome
    exact lineAfter_append hnone hd late

end MarkOnce

/-- A task that comes round every second day: nothing was missed at the first of
three more visits, two days at the second, of which the later one counts, and
other days at the third, which count no more. -/
theorem visits_markOnce_interval :
    ∃ task due missed final, Line.read {} none ⟨736704, by decide, by decide⟩ (0 : Nat)
        "(A) Water \x7bcount:02/5\x7d \x7bdue:2018-01-01|e2d\x7d +home ".toList = .ok task ∧
      task.due? = some due ∧
      visits {} none ⟨⟨736700, by decide, by decide⟩, none⟩
        [⟨⟨736701, by decide, by decide⟩, none⟩, ⟨⟨736704, by decide, by decide⟩, none⟩,
          ⟨⟨736714, by decide, by decide⟩, none⟩]
        ["(A) Water \x7bcount:02/5\x7d \x7bdue:2018-01-01|e2d\x7d +home ".toList] = some final ∧
      final[0]? = some ("(A) Water \x7bcount:0/5\x7d \x7bdue:2018-01-01|e2d\x7d +home " ++
        "\x7boverdue:2018-01-09\x7d").toList ∧
      MarkedOnce {} none 0 task due.value.expression ⟨⟨736700, by decide, by decide⟩, none⟩
        [⟨⟨736701, by decide, by decide⟩, none⟩, ⟨⟨736704, by decide, by decide⟩, none⟩,
          ⟨⟨736714, by decide, by decide⟩, none⟩] missed
        ("(A) Water \x7bcount:0/5\x7d \x7bdue:2018-01-01|e2d\x7d +home " ++
          "\x7boverdue:2018-01-09\x7d").toList := by
  have hfacts : (Line.read {} none ⟨736704, by decide, by decide⟩ (0 : Nat)
      "(A) Water \x7bcount:02/5\x7d \x7bdue:2018-01-01|e2d\x7d +home ".toList).toOption.map
        (fun task => (task.isDone, task.isRecurring, task.overdue?)) = some (false, true, none) := by
    decide +kernel
  have hafter : (Line.read {} none ⟨736704, by decide, by decide⟩ (0 : Nat)
      "(A) Water \x7bcount:02/5\x7d \x7bdue:2018-01-01|e2d\x7d +home ".toList).toOption.bind
        (fun task => task.due?.map fun due => lineAfter task due.value.expression
          ⟨⟨736700, by decide, by decide⟩, none⟩
          [⟨⟨736701, by decide, by decide⟩, none⟩, ⟨⟨736704, by decide, by decide⟩, none⟩,
            ⟨⟨736714, by decide, by decide⟩, none⟩]) =
      some ("(A) Water \x7bcount:0/5\x7d \x7bdue:2018-01-01|e2d\x7d +home " ++
        "\x7boverdue:2018-01-09\x7d").toList := by
    decide +kernel
  generalize hread : Line.read _ _ _ _ _ = result at hfacts hafter ⊢
  cases result with
  | error e => simp [Except.toOption] at hfacts
  | ok task =>
    obtain ⟨hopen, hrecurring, hnone⟩ : task.isDone = false ∧ task.isRecurring = true ∧
        task.overdue? = none := by simpa [Except.toOption] using hfacts
    obtain ⟨due, hdue⟩ := Option.isSome_iff_exists.mp (Option.isSome_of_any hrecurring)
    have hyear : ∀ v ∈ [(⟨⟨736700, by decide, by decide⟩, none⟩ : Instant),
        ⟨⟨736701, by decide, by decide⟩, none⟩, ⟨⟨736704, by decide, by decide⟩, none⟩,
        ⟨⟨736714, by decide, by decide⟩, none⟩], 1000 ≤ v.day.civil.year := by decide
    obtain ⟨⟨final, hfinal⟩, hmarked⟩ := visits_markOnce (by decide) (by decide) hread (by decide)
      hopen hrecurring hdue hnone hyear (by decide)
    obtain ⟨missed, text, htext, hmarked, -⟩ := hmarked _ final rfl hfinal
    -- how the line is written is found out by evaluating the visits of it alone
    have hpending : IsPending {} none _ 0 task due.value :=
      ⟨Line.raw_of_read hread ▸ hread, Line.raw_of_read hread ▸ rfl, hopen, hrecurring,
        by rw [hdue]; rfl⟩
    have hline := hpending.visits_line (by decide) (by decide) hyear
      (Line.raw_of_read hread ▸ rfl) hfinal
    simp only [Except.toOption, Option.bind_some, hdue, Option.map_some, Option.some.injEq]
      at hafter
    rw [hafter] at hline
    obtain rfl := Option.some.inj (htext.symm.trans hline)
    exact ⟨task, due, missed, final, rfl, hdue, hfinal, htext, hmarked⟩

end Document

end TaskList
