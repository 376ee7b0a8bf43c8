/-
TaskList.Proofs.Document.Renewed — what a new cycle makes of a document.

* `Task.FoundMissed` — the day that an open task is marked with, in terms of its
  due expression.
* `Task.Renewed` — the line of a recurring task in a new cycle: which columns are
  taken out, what is put in their place, and what comes at the end.
* `Document.resetEdits_renew` — the edits of a new cycle can be carried out; each
  recurring task gets such a line, and every other line is what it was.
-/
import TaskList.Proofs.Action.Own
import TaskList.Proofs.Document.Edited

namespace TaskList

/-! ## One task -/

namespace Task

/-- The task carries no overdue tag, and the day is the one on which it was last
due between two visits that are on different days. -/
def FoundMissed (task : Task) (lastVisit now : Instant) (day : Day) : Prop :=
  task.overdue? = none ∧ lastVisit.day ≠ now.day ∧ ∃ tag, task.due? = some tag ∧
    Due.missed? tag.value.expression.raw lastVisit.day now.day = .ok (some day)

/-- A zero in place of the digits of what is done. -/
def zeroed (task : Task) : List (Located Text) :=
  (task.count?.map fun count => ⟨count.value.digits, ['0']⟩).toList

/-- A new cycle makes the text of the line of the task. -/
structure Renewed (task : Task) (lastVisit now : Instant) (text : Text) : Prop where
  /-- A done task loses its done mark, and its completion tag with one space at
  most that is not the one of the mark. -/
  reopened : task.isDone = true → ∃ gaps : List Span,
    List.Forall₂ (fun tag gap => task.WithSpace tag.span gap) task.completion?.toList gaps ∧
    text = Text.rewritten ((task.marker.toList ++ gaps).map (⟨·, []⟩) ++ task.zeroed) task.raw ∧
    (Span.outside (task.marker.toList ++ gaps ++ task.zeroed.map (·.span)) task.raw).Sublist text
  /-- An open task gets an overdue tag if it is found missed. -/
  marked : task.isDone = false → ∃ note : Text,
    text = Text.rewritten task.zeroed task.raw ++ note ∧
    (∀ day, task.FoundMissed lastVisit now day →
      note = (if task.raw.getLast? = some ' ' then [] else [' ']) ++
        tagText "overdue".toList day.written) ∧
    ((∀ day, ¬ task.FoundMissed lastVisit now day) → note = []) ∧
    (Span.outside (task.zeroed.map (·.span)) task.raw).Sublist text

section Renewed

variable {settings : Settings} {unit : Option IndentUnit} {target : Day} {number : Int}
  {raw : Text} {task : Task} {lastVisit now : Instant}

/-- The expression of a due tag is what its text says. -/
theorem read_expression (h : Line.read settings unit target number raw = .ok task)
    {tag : Located DueTag} (htag : task.due? = some tag) :
    Due.Expression.read tag.value.expression.raw = .ok tag.value.expression := by
  obtain ⟨-, token, -, -, hfrom⟩ := Line.field_stands h (mem_fields_of_due? htag)
  cases token with
  | mention group name => simp [Field.ReadFrom] at hfrom
  | tag letters value =>
    obtain ⟨key, -, htells, -⟩ := hfrom
    cases key <;> cases value <;> try exact htells.elim
    obtain ⟨hread, -⟩ := htells
    rwa [Line.raw_of_readExpression hread]

theorem newlyMissed?_eq_some_iff (h : Line.read settings unit target number raw = .ok task)
    {day : Day} :
    task.newlyMissed? lastVisit now = some day ↔ task.FoundMissed lastVisit now day := by
  rw [newlyMissed?, FoundMissed]
  by_cases hnone : task.overdue? = none
  · by_cases hday : lastVisit.day = now.day
    · simp [missedSince?_sameDay hday, hday]
    · cases hdue : task.due? with
      | none => simp [missedSince?, hdue]
      | some tag =>
        have hmissed : Due.missed? tag.value.expression.raw lastVisit.day now.day =
            .ok (tag.value.expression.lastMissed lastVisit.day now.day) := by
          rw [Due.missed?, read_expression h hdue]
          split
          · rfl
          · rename_i hnot
            have hdays : (lastVisit.day.daysUntil now.day).toNat = 0 :=
              Int.toNat_of_nonpos (by
                have hle : now.day.number ≤ lastVisit.day.number := Nat.le_of_not_lt hnot
                rw [Day.daysUntil]
                omega)
            rw [Due.Expression.lastMissed, hdays]
            rfl
        simp [missedSince?, hdue, hnone, hday, hmissed]
  · simp [hnone]

/-! ### The edits of a new cycle as changes -/

theorem map_clearMarker (task : Task) :
    task.clearMarker.map Edit.change = task.marker.toList.map (⟨·, []⟩) := by
  unfold clearMarker
  cases task.marker <;> rfl

theorem map_clearStamp (task : Task) : task.clearStamp.map Edit.change =
    (task.completion?.toList.map fun tag => task.tagSpan tag.span).map (⟨·, []⟩) := by
  unfold clearStamp
  cases task.completion? <;> rfl

theorem map_resetCount (task : Task) : task.resetCount.map Edit.change = task.zeroed := by
  unfold resetCount zeroed
  cases task.count? <;> rfl

/-- **The line of a recurring task in a new cycle.** -/
theorem renewed_of_recurring (h : Line.read settings unit target number raw = .ok task)
    (hrecurring : task.isRecurring = true) (lastVisit now : Instant) :
    task.Renewed lastVisit now
      (((task.reset lastVisit now).mergeSort Edit.leftOf).foldr Edit.applyTo task.raw) := by
  have hrewritten : ((task.reset lastVisit now).mergeSort Edit.leftOf).foldr Edit.applyTo task.raw =
      Text.rewritten ((task.reset lastVisit now).map Edit.change) task.raw := by
    rw [Line.raw_of_read h]
    have hnot : ¬ (Deed.reset lastVisit now).Collides settings task := id
    exact Deed.foldr_edits h hnot
  have hsurvives := Text.outside_sublist ((task.reset lastVisit now).map Edit.change) task.raw
  rw [← hrewritten] at hsurvives
  generalize ((task.reset lastVisit now).mergeSort Edit.leftOf).foldr Edit.applyTo task.raw = text
    at hrewritten hsurvives ⊢
  constructor
  case reopened =>
    intro hdone
    have hchanges : (task.reset lastVisit now).map Edit.change = (task.marker.toList ++
        task.completion?.toList.map fun tag => task.tagSpan tag.span).map (⟨·, []⟩) ++
          task.zeroed := by
      rw [reset, if_pos hrecurring, resetState, if_pos hdone, clearCompletion, List.map_append,
        List.map_append, map_clearMarker, map_clearStamp, map_resetCount, ← List.map_append]
    rw [hchanges] at hrewritten hsurvives
    refine ⟨_, ?_, hrewritten, ?_⟩
    · rw [List.forall₂_map_right_iff, List.forall₂_same]
      exact fun tag _ => task.tagSpan_withSpace tag.span
    · have hspans : ∀ spans : List Span,
          (spans.map fun s => (⟨s, []⟩ : Located Text)).map (·.span) = spans := fun spans => by
        rw [List.map_map]
        exact List.map_id spans
      rwa [List.map_append, hspans] at hsurvives
  case marked =>
    intro hopen
    have hchanges : (task.reset lastVisit now).map Edit.change =
        ((task.newlyMissed? lastVisit now).map task.markOverdue).toList.map Edit.change ++
          task.zeroed := by
      rw [reset_of_open hopen hrecurring, List.map_append, map_resetCount]
    rw [hchanges] at hrewritten hsurvives
    cases hmissed : task.newlyMissed? lastVisit now with
    | none =>
      rw [hmissed] at hrewritten hsurvives
      refine ⟨[], by rw [List.append_nil]; exact hrewritten, fun day hday => ?_, fun _ => rfl,
        hsurvives⟩
      rw [(newlyMissed?_eq_some_iff h).mpr hday] at hmissed
      simp at hmissed
    | some missed =>
      have hput : ((task.reset lastVisit now).map Edit.change).Pairwise Text.PutApart :=
        List.pairwise_map.mpr ((Deed.reset_pairwise h lastVisit now).imp And.right)
      rw [hchanges] at hput
      rw [hmissed] at hrewritten hsurvives hput
      -- the tag comes behind the line, so it may be put in last
      have hlast : text =
          Text.rewritten task.zeroed task.raw ++ (task.markOverdue missed).text := by
        rw [hrewritten, Text.rewritten_perm List.perm_append_comm hput]
        exact Text.rewrite_end (Nat.zero_add _).symm (Nat.zero_add _).symm
      have hfound := (newlyMissed?_eq_some_iff h).mp hmissed
      refine ⟨_, hlast, fun day hday => ?_, fun hnone => absurd hfound (hnone missed), ?_⟩
      · obtain rfl : missed = day := by
          rw [(newlyMissed?_eq_some_iff h).mpr hday, Option.some.injEq] at hmissed
          exact hmissed.symm
        rfl
      · rw [hlast]
        exact (Text.outside_sublist task.zeroed task.raw).trans (List.sublist_append_left _ _)

end Renewed

end Task

/-! ## The whole document -/

namespace Document

variable {settings : Settings} {unit : Option IndentUnit} {target : Day} {lines : List Text}
  {doc : Document}

/-- **A new cycle changes the lines of the recurring tasks** of a document, as
`Task.Renewed` says, wherever they are nested, and nothing else. -/
theorem resetEdits_renew (h : read settings unit target (number lines) = .ok doc)
    (lastVisit now : Instant) :
    ∃ lines', Edit.applyAll lines (resetEdits (doc.outline.nodes.map (·.task)) lastVisit now) =
        .ok lines' ∧
      lines'.length = lines.length ∧
      (∀ node ∈ doc.outline.nodes, node.task.isRecurring = true → ∃ (i : Nat) (text : Text),
        node.task.line = i ∧ lines[i]? = some node.task.raw ∧ lines'[i]? = some text ∧
          node.task.Renewed lastVisit now text) ∧
      ∀ i : Nat, (∀ node ∈ doc.outline.nodes, node.task.line = i →
        node.task.isRecurring = false) → lines'[i]? = lines[i]? := by
  obtain ⟨tasks, htasks, rfl⟩ := read_eq_ok_iff.mp h
  have hnodes := task_nodes_ofTasks tasks
  have hmem : ∀ {node : Node}, node ∈ (Outline.ofTasks tasks).nodes →
      node.task ∈ tasks := fun {node} hnode => hnodes ▸ List.mem_map_of_mem hnode
  have hedits : ∀ task ∈ tasks, ∀ e ∈ task.reset lastVisit now,
      e.isColumnEdit = true ∧ e.line = task.line := fun task _ e he => Task.reset_columns he
  obtain ⟨lines', happly, hlength, hchanged, hsame⟩ := htasks.exists_edited hedits
  refine ⟨lines', ?_, hlength, fun node hnode hrecurring => ?_, fun i hnone => hsame i ?_⟩
  · rw [hnodes]
    exact happly
  · obtain ⟨i, hline, hi, -, hread⟩ := htasks.exists_number (hmem hnode)
    exact ⟨i, _, hline, hi, hchanged _ (hmem hnode) i hline,
      Task.renewed_of_recurring hread hrecurring lastVisit now⟩
  · intro task htask hline
    rw [← hnodes] at htask
    obtain ⟨node, hnode, rfl⟩ := List.mem_map.mp htask
    rw [Task.reset, if_neg (by simp [hnone node hnode hline])]

/-- A done task with a counter, an open task that is nested under it, and lines that
come round no more: a comment and a task that is due on no day. -/
theorem resetEdits_renew_nested :
    ∃ doc lines', read {} none ⟨736704, by decide, by decide⟩ (number ["# note".toList,
        "x a \x7bcm:2018-01-02\x7d \x7bcount:03/3\x7d \x7bdue:2018-01-01|e1d\x7d".toList,
        "\tb \x7bdue:2018-01-01|e2d\x7d".toList, "c".toList]) = .ok doc ∧
      doc.outline.nodes.map (fun node => (node.task.isRecurring, node.level)) =
        [(true, 0), (true, 1), (false, 0)] ∧
      Edit.applyAll ["# note".toList,
        "x a \x7bcm:2018-01-02\x7d \x7bcount:03/3\x7d \x7bdue:2018-01-01|e1d\x7d".toList,
        "\tb \x7bdue:2018-01-01|e2d\x7d".toList, "c".toList]
        (resetEdits (doc.outline.nodes.map (·.task)) ⟨⟨736700, by decide, by decide⟩, none⟩
          ⟨⟨736704, by decide, by decide⟩, none⟩) = .ok lines' ∧
      lines' = ["# note".toList, "a \x7bcount:0/3\x7d \x7bdue:2018-01-01|e1d\x7d".toList,
        "\tb \x7bdue:2018-01-01|e2d\x7d \x7boverdue:2018-01-09\x7d".toList, "c".toList] ∧
      ∀ node ∈ doc.outline.nodes, node.task.isRecurring = true → ∃ (i : Nat) (text : Text),
        node.task.line = i ∧ lines'[i]? = some text ∧
          node.task.Renewed ⟨⟨736700, by decide, by decide⟩, none⟩
            ⟨⟨736704, by decide, by decide⟩, none⟩ text := by
  have heq : (read {} none ⟨736704, by decide, by decide⟩ (number ["# note".toList,
      "x a \x7bcm:2018-01-02\x7d \x7bcount:03/3\x7d \x7bdue:2018-01-01|e1d\x7d".toList,
      "\tb \x7bdue:2018-01-01|e2d\x7d".toList, "c".toList])).toOption.map
        (fun doc => (doc.outline.nodes.map (fun node => (node.task.isRecurring, node.level)),
          resetEdits (doc.outline.nodes.map (·.task)) ⟨⟨736700, by decide, by decide⟩, none⟩
            ⟨⟨736704, by decide, by decide⟩, none⟩)) =
      some ([(true, 0), (true, 1), (false, 0)],
        [.delete 1 ⟨0, 2⟩ .clearCompletion (.text "done".toList),
          .delete 1 ⟨3, 19⟩ .clearCompletion (.text "cm".toList),
          .replace 1 ⟨27, 29⟩ ['0'] .clearCount (.number 3),
          .insert 2 23 " \x7boverdue:2018-01-09\x7d".toList .insertOverdue
            (.day ⟨736703, by decide, by decide⟩)]) := by
    decide +kernel
  generalize hread : read _ _ _ _ = result at heq ⊢
  cases result with
  | error e => simp [Except.toOption] at heq
  | ok doc =>
    obtain ⟨hnodes, hedits⟩ := Prod.mk.inj (Option.some.inj heq)
    obtain ⟨lines', happly, -, hrenewed, -⟩ := resetEdits_renew hread
      ⟨⟨736700, by decide, by decide⟩, none⟩ ⟨⟨736704, by decide, by decide⟩, none⟩
    refine ⟨doc, lines', rfl, hnodes, happly, ?_, fun node hnode hrecurring => ?_⟩
    · rw [hedits, Edit.applyAll, Edit.schedule, List.mergeSort_of_pairwise (by decide)] at happly
      exact (Except.ok.inj happly).symm
    · obtain ⟨i, text, hline, -, htext, htask⟩ := hrenewed node hnode hrecurring
      exact ⟨i, text, hline, htext, htask⟩

end Document

end TaskList
