/-
TaskList.Proofs.Document.Reopened — done tasks that are reopened.

* `Line.exists_renewed` — the line of a task in a new cycle can be read, where a done one
  closes up.
* `Document.Reads.exists_renewed` — so a document can be read again after a new cycle.
* `Document.reopens_iff_cleared` — a done task is open after it is toggled, and a done
  recurring one in a new cycle, exactly if nothing that is left of its line says that it is
  done.

A second completion tag does, and so does a second mark. The edits are about the tag that
the task was read from and about one mark, as `Document.reopened_staysDone` shows.
-/
import TaskList.Proofs.Action.Reopened
import TaskList.Proofs.Document.Visits

namespace TaskList

/-! ## One line in a new cycle -/

section Renewed

variable {settings : Settings} {unit : Option IndentUnit} {target : Day} {number : Int}
  {raw : Text} {task : Task} {lastVisit now : Instant}

/-- **In a new cycle the line of a task can be read**, where it closes up at the tag that
goes if it is done. -/
theorem Line.exists_renewed (hmark : settings.doneMark = "x ".toList)
    (hread : Line.read settings unit target number raw = .ok task)
    (hcloses : task.isRecurring = true → task.isDone = true →
      ∀ x ∈ (Deed.reset lastVisit now).taken task,
        (Deed.reset lastVisit now).ClosesUp settings task x) (day : Day) :
    ∃ after, Line.read settings unit day number
      (((task.reset lastVisit now).mergeSort Edit.leftOf).foldr Edit.applyTo raw) = .ok after := by
  have hraw := Line.raw_of_read hread
  by_cases hrecurring : task.isRecurring = true
  · cases hdone : task.isDone with
    | true =>
      have hdeed : (Deed.reset lastVisit now).Reopens task := ⟨hrecurring, hdone⟩
      obtain ⟨after, hafter, -⟩ := Deed.exists_reopened hmark hread hdeed id
        (hcloses hrecurring hdone) rfl day number
      exact ⟨after, hafter⟩
    | false =>
      have hdue : task.due?.isSome = true := Option.isSome_of_any hrecurring
      obtain ⟨settled, hsettled⟩ : ∃ settled, Line.Visit settings unit target task none settled :=
        Line.exists_visit hread (by rw [hmark]; decide) hdue fun day hday => by simp at hday
      have hcarried : ((task.reset lastVisit now).mergeSort Edit.leftOf).foldr Edit.applyTo
          task.raw = task.visited (task.newlyMissed? lastVisit now) :=
        Task.carried_reset hread hdone hrecurring
      rw [hraw] at hcarried
      rw [hcarried, ← Line.line_of_read hread]
      -- the counter is at zero, and an overdue tag may come behind it
      cases task.newlyMissed? lastVisit now with
      | none => exact ⟨_, Line.read_onDay hsettled.read_eq day⟩
      | some missed =>
        exact Line.exists_read_withTag hsettled.read_eq hmark (by decide)
          (by decide) (Line.isShaped_overdueTag missed) day
  · rw [Task.reset, if_neg hrecurring, List.mergeSort_nil]
    exact ⟨_, Line.read_onDay hread day⟩

end Renewed

/-! ## A document -/

namespace Document

section Reads

variable {settings : Settings} {unit : Option IndentUnit} {target : Day} {lines lines' : List Text}
  {tasks : List Task} {lastVisit now : Instant}

/-- **After a new cycle a document can be read again**, where the lines of done tasks close
up. A line that can be read and is no comment is a task of it. -/
theorem Reads.exists_renewed (hmark : settings.doneMark = "x ".toList)
    (h : Reads settings unit target (taskLines settings (number lines)) tasks)
    (hcloses : ∀ task ∈ tasks, task.isRecurring = true → task.isDone = true →
      ∀ x ∈ (Deed.reset lastVisit now).taken task,
        (Deed.reset lastVisit now).ClosesUp settings task x)
    (hchanged : ∀ task ∈ tasks, ∀ i : Nat, task.line = i → lines'[i]? =
      some (((task.reset lastVisit now).mergeSort Edit.leftOf).foldr Edit.applyTo task.raw))
    (hsame : ∀ i : Nat, (∀ task ∈ tasks, task.line = i → task.reset lastVisit now = []) →
      lines'[i]? = lines[i]?) (again : Day) :
    ∃ tasks', Reads settings unit again (taskLines settings (number lines')) tasks' := by
  refine exists_forall₂ fun line hline => ?_
  obtain ⟨hwritten, hcomment⟩ := List.mem_filter.mp hline
  obtain ⟨hmem, hwritten⟩ := List.mem_filter.mp hwritten
  obtain ⟨i, hi, hnumber⟩ := mem_number_iff.mp hmem
  obtain ⟨number, text⟩ := line
  obtain rfl : number = i := hnumber
  by_cases htask : ∃ task ∈ tasks, task.line = i
  · obtain ⟨task, htask, hline⟩ := htask
    obtain ⟨j, hline', -, -, hread⟩ := h.exists_number htask
    obtain rfl : i = j := by omega
    obtain rfl := Option.some.inj (hi.symm.trans (hchanged task htask i hline))
    exact Line.exists_renewed hmark hread (hcloses task htask) again
  · -- a line of no task would be one, since it is what it was
    have hi' := (hsame i fun task htask' hline => absurd ⟨task, htask', hline⟩ htask).symm.trans hi
    have hline' : (⟨i, text⟩ : NumberedLine) ∈ taskLines settings (Document.number lines) :=
      List.mem_filter.mpr
        ⟨List.mem_filter.mpr ⟨mem_number_iff.mpr ⟨i, hi', rfl⟩, hwritten⟩, hcomment⟩
    obtain ⟨task, htask', hread⟩ := h.exists_task hline'
    exact absurd ⟨task, htask', Line.line_of_read hread⟩ htask

end Reads

/-- A document of one line that is a task. -/
theorem exists_read_line {settings : Settings} {unit : Option IndentUnit} {target : Day}
    {raw : Text} {task : Task} (hline : taskLines settings (number [raw]) = [⟨0, raw⟩])
    (h : Line.read settings unit target (0 : Nat) raw = .ok task) :
    ∃ doc, read settings unit target (number [raw]) = .ok doc ∧
      doc.outline.nodes.map (·.task) = [task] :=
  ⟨_, read_eq_ok_iff.mpr ⟨[task], hline ▸ .cons h .nil, rfl⟩, task_nodes_ofTasks [task]⟩

/-- **A done task is reopened**, where its line closes up at every tag that goes, by being
toggled if the edits do not collide, and by a new cycle if it is recurring: it is open then
exactly if its line does not start with another mark and had no other completion tag. In a
new cycle the line may be a comment instead. -/
theorem reopens_iff_cleared {settings : Settings} (hmark : settings.doneMark = "x ".toList)
    (unit : Option IndentUnit) (target again : Day) (lines : List Text) :
    (∀ (i : Nat) (raw : Text) (task : Task) (now : Instant), lines[i]? = some raw →
      Line.read settings unit target i raw = .ok task → task.isDone = true →
      ¬ (Deed.toggleDone now).Collides settings task →
      (∀ x ∈ (Deed.toggleDone now).taken task, (Deed.toggleDone now).ClosesUp settings task x) →
      ∃ text after, Edit.applyAll lines (task.toggleDone settings now) = .ok (lines.set i text) ∧
        Line.read settings unit again i text = .ok after ∧
        (after.isDone = false ↔ task.IsClearedIn settings unit text)) ∧
    ∀ (doc : Document) (lastVisit now : Instant),
      read settings unit target (number lines) = .ok doc →
      (∀ node ∈ doc.outline.nodes, node.task.isRecurring = true → node.task.isDone = true →
        ∀ x ∈ (Deed.reset lastVisit now).taken node.task,
          (Deed.reset lastVisit now).ClosesUp settings node.task x) →
      ∃ lines' doc',
        Edit.applyAll lines (resetEdits (doc.outline.nodes.map (·.task)) lastVisit now) =
          .ok lines' ∧
        read settings unit again (number lines') = .ok doc' ∧
        ∀ node ∈ doc.outline.nodes, node.task.isRecurring = true → node.task.isDone = true →
          ∃ (i : Nat) (text : Text), node.task.line = i ∧ lines'[i]? = some text ∧
            (isComment settings ⟨i, text⟩ = false → ∃ node' ∈ doc'.outline.nodes,
              node'.task.line = i ∧
              (node'.task.isDone = false ↔ node.task.IsClearedIn settings unit text)) := by
  constructor
  · intro i raw task now hline hread hdone hnot hcloses
    have hdeed : (Deed.toggleDone now).Reopens task := hdone
    obtain ⟨after, hafter, hopen, -⟩ :=
      Deed.exists_reopened hmark hread hdeed hnot hcloses rfl again i
    exact ⟨_, after, Deed.applyAll_edits hread hline (.toggleDone now), hafter, hopen⟩
  · intro doc lastVisit now h hcloses
    obtain ⟨tasks, htasks, rfl⟩ := read_eq_ok_iff.mp h
    have hnodes := task_nodes_ofTasks tasks
    have hnode : ∀ task ∈ tasks, ∃ node ∈ (Outline.ofTasks tasks).nodes, node.task = task :=
      fun task htask => List.mem_map.mp (hnodes.symm ▸ htask)
    have hcloses' : ∀ task ∈ tasks, task.isRecurring = true → task.isDone = true →
        ∀ x ∈ (Deed.reset lastVisit now).taken task,
          (Deed.reset lastVisit now).ClosesUp settings task x := by
      intro task htask
      obtain ⟨node, hmem, rfl⟩ := hnode task htask
      exact hcloses node hmem
    have hedits : ∀ task ∈ tasks, ∀ e ∈ task.reset lastVisit now,
        e.isColumnEdit = true ∧ e.line = task.line := fun task _ e he => Task.reset_columns he
    obtain ⟨lines', happly, -, hchanged, hsame⟩ := htasks.exists_edited hedits
    obtain ⟨tasks', htasks'⟩ := htasks.exists_renewed hmark hcloses' hchanged hsame again
    refine ⟨lines', ⟨.ofTasks tasks', commentLines settings (number lines')⟩, ?_,
      read_eq_ok_iff.mpr ⟨tasks', htasks', rfl⟩, fun node hmem hrecurring hdone => ?_⟩
    · rw [hnodes]
      exact happly
    · have htask : node.task ∈ tasks := hnodes ▸ List.mem_map_of_mem hmem
      obtain ⟨i, hline, -, -, hread⟩ := htasks.exists_number htask
      have htext := hchanged _ htask i hline
      refine ⟨i, _, hline, htext, fun hcomment => ?_⟩
      have hdeed : (Deed.reset lastVisit now).Reopens node.task := ⟨hrecurring, hdone⟩
      obtain ⟨after, hafter, hopen, hdue⟩ := Deed.exists_reopened hmark hread hdeed id
        (hcloses node hmem hrecurring hdone) rfl again i
      obtain ⟨found, hfound, hread'⟩ := htasks'.exists_task (mem_taskLines hafter
        (hdue (Option.isSome_of_any hrecurring)) hcomment htext)
      obtain rfl := Except.ok.inj (hafter.symm.trans hread')
      obtain ⟨node', hmem', rfl⟩ : ∃ node ∈ (Outline.ofTasks tasks').nodes, node.task = after :=
        List.mem_map.mp ((task_nodes_ofTasks tasks').symm ▸ hfound)
      exact ⟨node', hmem', Line.line_of_read hafter, hopen⟩

/-- A done task that is due every day, with a word behind its completion tag. -/
theorem reopens_iff_cleared_everyDay :
    ∃ task doc after doc',
      Line.read {} none ⟨736704, by decide, by decide⟩ (0 : Nat)
        "x a \x7bdue:ed\x7d \x7bcm:2018-01-02\x7d b".toList = .ok task ∧
      read {} none ⟨736704, by decide, by decide⟩
        (number ["x a \x7bdue:ed\x7d \x7bcm:2018-01-02\x7d b".toList]) = .ok doc ∧
      Edit.applyAll ["x a \x7bdue:ed\x7d \x7bcm:2018-01-02\x7d b".toList]
        (task.toggleDone {} ⟨⟨736704, by decide, by decide⟩, none⟩) =
          .ok ["a \x7bdue:ed\x7d b".toList] ∧
      Edit.applyAll ["x a \x7bdue:ed\x7d \x7bcm:2018-01-02\x7d b".toList]
        (resetEdits (doc.outline.nodes.map (·.task)) ⟨⟨736703, by decide, by decide⟩, none⟩
          ⟨⟨736704, by decide, by decide⟩, none⟩) = .ok ["a \x7bdue:ed\x7d b".toList] ∧
      Line.read {} none ⟨736704, by decide, by decide⟩ (0 : Nat)
        "a \x7bdue:ed\x7d b".toList = .ok after ∧ after.isDone = false ∧
      read {} none ⟨736704, by decide, by decide⟩ (number ["a \x7bdue:ed\x7d b".toList]) =
        .ok doc' ∧ ∃ node ∈ doc'.outline.nodes, node.task.line = 0 ∧ node.task.isDone = false := by
  have hday : (Line.read {} none ⟨736704, by decide, by decide⟩ (0 : Nat)
      "x a \x7bdue:ed\x7d \x7bcm:2018-01-02\x7d b".toList).toOption =
        some ⟨0, "x a \x7bdue:ed\x7d \x7bcm:2018-01-02\x7d b".toList, .level 0, some ⟨0, 2⟩, none,
          [⟨⟨4, 12⟩, .due ⟨⟨"ed".toList, [⟨"ed".toList, some .everyDay⟩]⟩, .due⟩⟩,
            ⟨⟨13, 28⟩, .completed (some ⟨⟨736696, by decide, by decide⟩, some ⟨0, 0, 0⟩⟩)⟩],
          "a b".toList⟩ := by
    decide +kernel
  have htokens : Line.tokens "x a \x7bdue:ed\x7d \x7bcm:2018-01-02\x7d b".toList
      (Line.startOf {} none "x a \x7bdue:ed\x7d \x7bcm:2018-01-02\x7d b".toList) =
        [⟨⟨4, 12⟩, .tag "due".toList (some "ed".toList)⟩,
          ⟨⟨13, 28⟩, .tag "cm".toList (some "2018-01-02".toList)⟩] := by
    decide +kernel
  generalize hread : Line.read _ _ _ _ _ = result at hday ⊢
  cases result with
  | error e => simp [Except.toOption] at hday
  | ok task =>
    have htask : task = _ := Option.some.inj hday
    obtain ⟨doc, hreads, htasks⟩ := exists_read_line (by decide) hread
    have hclosed (deed : Deed) (htaken : deed.taken task =
          [⟨⟨13, 28⟩, .completed (some ⟨⟨736696, by decide, by decide⟩, some ⟨0, 0, 0⟩⟩)⟩])
        (hbehind : deed.leftBehind {} task (task.tagSpan ⟨13, 28⟩).stop = " b".toList) :
        ∀ x ∈ deed.taken task, deed.ClosesUp {} task x := by
      intro x hx
      rw [htaken, List.mem_singleton] at hx
      rw [hx, Deed.ClosesUp, hbehind]
      refine Line.closesUp_of_startsBlank _ (.inr (by decide)) fun c hc => ?_
      obtain rfl : ' ' = c := Option.some.inj hc
      decide
    have hcleared : task.IsClearedIn {} none "a \x7bdue:ed\x7d b".toList := by
      refine ⟨by decide, fun x hx key hkey t ht hcarries => ?_⟩
      rw [htask] at hx ht
      obtain rfl := Option.some.inj hx
      obtain rfl := Option.some.inj hkey
      rw [htokens] at ht
      rcases List.mem_cons.mp ht with rfl | ht
      · exact absurd hcarries (by decide)
      · rw [List.mem_singleton.mp ht]
        rfl
    have hnot : ¬ (Deed.toggleDone ⟨⟨736704, by decide, by decide⟩, none⟩).Collides {} task := by
      rintro ⟨x, hoverdue, -⟩
      rw [htask] at hoverdue
      exact Option.some_ne_none x hoverdue.symm
    have hreset : resetEdits (doc.outline.nodes.map (·.task))
        ⟨⟨736703, by decide, by decide⟩, none⟩ ⟨⟨736704, by decide, by decide⟩, none⟩ =
          task.toggleDone {} ⟨⟨736704, by decide, by decide⟩, none⟩ := by
      rw [htasks, htask]
      decide +kernel
    have hedits : task.toggleDone {} ⟨⟨736704, by decide, by decide⟩, none⟩ =
        [.delete 0 ⟨0, 2⟩ .clearCompletion (.text "done".toList),
          .delete 0 ⟨12, 28⟩ .clearCompletion (.text "cm".toList)] := by
      rw [htask]
      decide +kernel
    have happly : Edit.applyAll ["x a \x7bdue:ed\x7d \x7bcm:2018-01-02\x7d b".toList]
        (task.toggleDone {} ⟨⟨736704, by decide, by decide⟩, none⟩) =
          .ok ["a \x7bdue:ed\x7d b".toList] := by
      rw [hedits, Edit.applyAll, Edit.schedule, List.mergeSort_of_pairwise (by decide)]
      rfl
    obtain ⟨htoggled, hrenewed⟩ := @reopens_iff_cleared {} rfl none ⟨736704, by decide, by decide⟩
      ⟨736704, by decide, by decide⟩ ["x a \x7bdue:ed\x7d \x7bcm:2018-01-02\x7d b".toList]
    obtain ⟨text, after, happlied, hafter, hopen⟩ := htoggled 0 _ task
      ⟨⟨736704, by decide, by decide⟩, none⟩ rfl hread (by rw [htask]; rfl) hnot
      (hclosed _ (by rw [htask]; decide +kernel) (by rw [htask]; decide +kernel))
    obtain rfl : "a \x7bdue:ed\x7d b".toList = text :=
      (List.cons.inj (Except.ok.inj (happly.symm.trans happlied))).1
    have hnode : ∀ node ∈ doc.outline.nodes, node.task = task := fun node hnode =>
      List.mem_singleton.mp (htasks ▸ List.mem_map_of_mem hnode)
    obtain ⟨lines', doc', happlied', hdoc', hnodes⟩ := hrenewed doc
      ⟨⟨736703, by decide, by decide⟩, none⟩ ⟨⟨736704, by decide, by decide⟩, none⟩ hreads
      fun node hmem _ _ => by
        rw [hnode node hmem]
        exact hclosed _ (by rw [htask]; decide +kernel) (by rw [htask]; decide +kernel)
    rw [hreset] at happlied'
    obtain rfl : ["a \x7bdue:ed\x7d b".toList] = lines' :=
      Except.ok.inj (happly.symm.trans happlied')
    obtain ⟨node, hmem, -⟩ := List.mem_map.mp (htasks.symm ▸ List.mem_singleton_self task)
    obtain ⟨i, text, hline, htext, hfound⟩ := hnodes node hmem
      (by rw [hnode node hmem, htask]; rfl) (by rw [hnode node hmem, htask]; rfl)
    rw [hnode node hmem, htask] at hline
    obtain rfl : i = 0 := (Int.natCast_eq_zero.mp hline.symm)
    obtain rfl := Option.some.inj htext
    obtain ⟨node', hmem', hline', hopen'⟩ := hfound (by decide)
    refine ⟨task, doc, after, doc', rfl, hreads, happly, hreset ▸ happly, hafter,
      hopen.mpr hcleared, hdoc', node', hmem', hline', hopen'.mpr ?_⟩
    rw [hnode node hmem]
    exact hcleared

/-- **A task stays done** that has a second completion tag, toggled or in a new cycle. -/
theorem reopened_staysDone :
    ∃ task doc after doc',
      Line.read {} none ⟨736704, by decide, by decide⟩ (0 : Nat)
        "a \x7bdue:ed\x7d \x7bcm\x7d \x7bcm\x7d".toList = .ok task ∧ task.isDone = true ∧
      read {} none ⟨736704, by decide, by decide⟩
        (number ["a \x7bdue:ed\x7d \x7bcm\x7d \x7bcm\x7d".toList]) = .ok doc ∧
      doc.outline.nodes.map (·.task) = [task] ∧ task.isRecurring = true ∧
      Edit.applyAll ["a \x7bdue:ed\x7d \x7bcm\x7d \x7bcm\x7d".toList]
        (task.toggleDone {} ⟨⟨736704, by decide, by decide⟩, none⟩) =
          .ok ["a \x7bdue:ed\x7d \x7bcm\x7d".toList] ∧
      Edit.applyAll ["a \x7bdue:ed\x7d \x7bcm\x7d \x7bcm\x7d".toList]
        (resetEdits (doc.outline.nodes.map (·.task)) ⟨⟨736703, by decide, by decide⟩, none⟩
          ⟨⟨736704, by decide, by decide⟩, none⟩) = .ok ["a \x7bdue:ed\x7d \x7bcm\x7d".toList] ∧
      Line.read {} none ⟨736704, by decide, by decide⟩ (0 : Nat)
        "a \x7bdue:ed\x7d \x7bcm\x7d".toList = .ok after ∧ after.isDone = true ∧
      read {} none ⟨736704, by decide, by decide⟩
        (number ["a \x7bdue:ed\x7d \x7bcm\x7d".toList]) = .ok doc' ∧
      doc'.outline.nodes.map (·.task) = [after] := by
  have hday : (Line.read {} none ⟨736704, by decide, by decide⟩ (0 : Nat)
      "a \x7bdue:ed\x7d \x7bcm\x7d \x7bcm\x7d".toList).toOption =
        some ⟨0, "a \x7bdue:ed\x7d \x7bcm\x7d \x7bcm\x7d".toList, .level 0, none, none,
          [⟨⟨2, 10⟩, .due ⟨⟨"ed".toList, [⟨"ed".toList, some .everyDay⟩]⟩, .due⟩⟩,
            ⟨⟨11, 15⟩, .completed none⟩], "a \x7bcm\x7d".toList⟩ := by
    decide +kernel
  have hdone : (Line.read {} none ⟨736704, by decide, by decide⟩ (0 : Nat)
      "a \x7bdue:ed\x7d \x7bcm\x7d".toList).toOption.map (·.isDone) = some true := by
    decide +kernel
  generalize hread : Line.read _ _ _ _ "a \x7bdue:ed\x7d \x7bcm\x7d \x7bcm\x7d".toList = result
    at hday ⊢
  generalize hread' : Line.read _ _ _ _ "a \x7bdue:ed\x7d \x7bcm\x7d".toList = result'
    at hdone ⊢
  cases result with
  | error e => simp [Except.toOption] at hday
  | ok task =>
  cases result' with
  | error e => simp [Except.toOption] at hdone
  | ok after =>
    have htask : task = _ := Option.some.inj hday
    obtain ⟨doc, hreads, htasks⟩ := exists_read_line (by decide) hread
    obtain ⟨doc', hreads', htasks'⟩ := exists_read_line (by decide) hread'
    have hedits : task.toggleDone {} ⟨⟨736704, by decide, by decide⟩, none⟩ =
        [.delete 0 ⟨10, 15⟩ .clearCompletion (.text "cm".toList)] := by
      rw [htask]
      decide +kernel
    have hreset : resetEdits (doc.outline.nodes.map (·.task))
        ⟨⟨736703, by decide, by decide⟩, none⟩ ⟨⟨736704, by decide, by decide⟩, none⟩ =
          [.delete 0 ⟨10, 15⟩ .clearCompletion (.text "cm".toList)] := by
      rw [htasks, htask]
      decide +kernel
    have happly : Edit.applyAll ["a \x7bdue:ed\x7d \x7bcm\x7d \x7bcm\x7d".toList]
        [.delete 0 ⟨10, 15⟩ .clearCompletion (.text "cm".toList)] =
          .ok ["a \x7bdue:ed\x7d \x7bcm\x7d".toList] := by
      rw [Edit.applyAll, Edit.schedule, List.mergeSort_of_pairwise (by decide)]
      rfl
    exact ⟨task, doc, after, doc', rfl, by rw [htask]; rfl, hreads, htasks, by rw [htask]; rfl,
      hedits ▸ happly, hreset ▸ happly, rfl, Option.some.inj hdone, hreads', htasks'⟩

end Document

end TaskList
