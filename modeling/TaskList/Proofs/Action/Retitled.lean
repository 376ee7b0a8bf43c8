/-
TaskList.Proofs.Action.Retitled — deeds that take tags out, and the title of what is
left.

* `Deed.taken` — the tags that a deed takes out. `Deed.leavesMark` — whether it leaves
  a done mark, and `Deed.stampedAt?` — the instant of the completion tag that it puts
  in. `Deed.exists_clears` — its edits are those for these, and another number in the
  counter.
* `Deed.ClosesUp` — where a tag goes, the line closes up with what the deed leaves
  behind it.
* `Task.Clears.exists_chain` — such edits from left to right. `Task.closesUp_behind` —
  where a tag goes when they are carried out, the line closes up.
  `LaidOut.exists_cleared` — the parts and the words that they leave of it.
* `Deed.title_kept_iff` — if the line closes up at every tag that goes, and no other
  tag is there to take its place, then the title is kept exactly if the line starts with
  the mark that the deed leaves and the priority that it had.
-/
import TaskList.Proofs.Action.Removal
import TaskList.Proofs.Document.Reading

namespace TaskList

/-! ## What a deed takes out -/

namespace Deed

/-- The keys of the tags that a deed takes out. -/
def takenKeys (task : Task) : Deed → List Key
  | toggleDone _ => .overdue :: if task.isDone then [.completed] else []
  | increment _ =>
    match task.count? with
    | none => []
    | some ⟨_, count⟩ =>
      if count.isComplete then [.completed]
      else if count.current + 1 = count.needed then [.overdue] else []
  | decrement =>
    match task.count? with
    | none => []
    | some ⟨_, count⟩ =>
      if count.current = 0 then [] else if count.isComplete then [.completed] else []
  | toggleCollapse => [.collapsed]
  | reset _ _ => if task.isRecurring ∧ task.isDone then [.completed] else []
  | setDue _ | changePriority _ | hide => []

/-- The tags that a deed takes out of the line of a task. -/
def taken (task : Task) (deed : Deed) : List (Located Field) :=
  (deed.takenKeys task).filterMap task.fieldOf?

/-- The instant of the completion tag that a deed puts in. -/
def stampedAt? (settings : Settings) (task : Task) : Deed → Option Instant
  | toggleDone now =>
    if task.isDone then none else if settings.stampsCompletion then some now else none
  | increment now =>
    match task.count? with
    | none => none
    | some ⟨_, count⟩ =>
      if count.isComplete then none
      else if count.current + 1 = count.needed then some now else none
  | _ => none

/-- Does the line of a task start with a done mark after a deed? -/
def leavesMark (settings : Settings) (task : Task) : Deed → Bool
  | toggleDone _ => !task.isDone && !settings.stampsCompletion
  | reset _ _ => !(task.isRecurring && task.isDone) && task.marker.isSome
  | _ => task.marker.isSome

/-- What a deed leaves of the line of a task from a column on. -/
def leftBehind (settings : Settings) (task : Task) (deed : Deed) (column : Nat) : Text :=
  Text.rewrite ((deed.edits settings task).map Edit.change) column (task.raw.drop column)

/-- Where a tag is taken out, the line closes up with what the deed leaves behind
it. -/
def ClosesUp (settings : Settings) (task : Task) (deed : Deed) (x : Located Field) : Prop :=
  Text.ClosesUp (task.raw.take (task.tagSpan x.span).start)
    ((task.tagSpan x.span).textIn task.raw)
    (deed.leftBehind settings task (task.tagSpan x.span).stop)

end Deed

/-! ## The edits of such a deed -/

/-- Edits for a done mark, for tags and for a counter, and for a completion tag at the
end of the line. -/
def Task.Clears (settings : Settings) (task : Task) (marked : Bool) (taken : List (Located Field))
    (since : Option Instant) (edits : List Edit) : Prop :=
  ∃ (mark : List Edit) (items : List (Located Edit)), edits.Perm
      (mark ++ (items.map (·.value) ++ since.toList.map (task.stampCompletion settings))) ∧
    task.Marks settings marked mark ∧ ∀ item ∈ items, task.Trims taken item

namespace Deed

variable {task : Task}

theorem removeOverdue_eq (task : Task) : task.removeOverdue =
    ((task.fieldOf? .overdue).toList.map (task.takeOut .removeOverdue .none)).map (·.value) := by
  unfold Task.removeOverdue Task.fieldOf?
  cases task.overdue? <;> rfl

theorem clearStamp_eq (task : Task) : task.clearStamp =
    ((task.fieldOf? .completed).toList.map
      (task.takeOut .clearCompletion (.text "cm".toList))).map (·.value) := by
  unfold Task.clearStamp Task.fieldOf?
  cases task.completion? <;> rfl

theorem marks_clearMarker (settings : Settings) (task : Task) :
    task.Marks settings false task.clearMarker := by
  unfold Task.clearMarker
  cases hm : task.marker with
  | none =>
    have hkeep : task.Marks settings task.marker.isSome [] := .keep
    rwa [hm] at hkeep
  | some m => exact .take hm

/-- The tag of a key that is taken out. -/
theorem trims_takeOut (task : Task) (deed : Deed) (key : Key) (hkey : key ∈ deed.takenKeys task)
    (kind : EditKind) (payload : Payload) :
    ∀ item ∈ (task.fieldOf? key).toList.map (task.takeOut kind payload),
      task.Trims (deed.taken task) item := by
  intro item hitem
  obtain ⟨x, hx, rfl⟩ := List.mem_map.mp hitem
  exact .take (List.mem_filterMap.mpr ⟨key, hkey, Option.mem_toList.mp hx⟩) kind payload

/-- A number that is written into the counter. -/
theorem trims_writeCount (taken : List (Located Field)) {x : Located Count}
    (hx : task.count? = some x) {done : Nat}
    (hdone : done ≤ x.value.current ∨ done ≤ x.value.needed) (kind : EditKind) :
    ∀ item ∈ [(⟨x.span, task.writeCount x.value done kind⟩ : Located Edit)],
      task.Trims taken item := by
  intro item hitem
  obtain rfl := List.mem_singleton.mp hitem
  exact .recount hx hdone kind

theorem clears_toggleDone (settings : Settings) (task : Task) (now : Instant) :
    task.Clears settings (leavesMark settings task (toggleDone now))
      ((toggleDone now).taken task) (stampedAt? settings task (toggleDone now))
      (task.toggleDone settings now) := by
  have hoverdue := trims_takeOut task (toggleDone now) .overdue
    List.mem_cons_self .removeOverdue .none
  rw [Task.toggleDone, removeOverdue_eq, leavesMark, stampedAt?]
  cases hdone : task.isDone with
  | true =>
    have hstamp := trims_takeOut task (toggleDone now) .completed
      (by simp [takenKeys, hdone]) .clearCompletion (.text "cm".toList)
    refine ⟨task.clearMarker, _, ?_, marks_clearMarker settings task,
      List.forall_mem_append.mpr ⟨hoverdue, hstamp⟩⟩
    rw [if_pos rfl, if_pos rfl, Task.clearCompletion, clearStamp_eq, List.map_append]
    simpa using List.perm_append_comm_assoc _ _ _
  | false =>
    have hnone : task.marker = none := by
      rw [Task.isDone, Bool.or_eq_false_iff] at hdone
      simpa using hdone.1
    rw [if_neg Bool.false_ne_true, if_neg Bool.false_ne_true]
    cases settings.stampsCompletion with
    | true =>
      have hkeep : task.Marks settings task.marker.isSome [] := .keep
      rw [hnone] at hkeep
      exact ⟨[], _, .refl _, hkeep, hoverdue⟩
    | false =>
      refine ⟨_, _, ?_, .put hnone, hoverdue⟩
      simp

theorem clears_increment (settings : Settings) (task : Task) (now : Instant) :
    task.Clears settings task.marker.isSome ((increment now).taken task)
      (stampedAt? settings task (increment now)) (task.increment settings now) := by
  rw [Task.increment, stampedAt?]
  cases hcount : task.count? with
  | none => exact ⟨[], [], .refl _, .keep, by simp⟩
  | some x =>
    obtain ⟨span, count⟩ := x
    dsimp only
    cases hcomplete : count.isComplete with
    | true =>
      have hstamp := trims_takeOut task (increment now) .completed
        (by simp [takenKeys, hcount, hcomplete]) .clearCompletion (.text "cm".toList)
      refine ⟨[], _, ?_, .keep, List.forall_mem_append.mpr
        ⟨trims_writeCount _ hcount (.inl (Nat.zero_le _)) .setCount, hstamp⟩⟩
      rw [if_pos rfl, if_pos rfl, clearStamp_eq, List.map_append]
      simp
    | false =>
      rw [if_neg Bool.false_ne_true, if_neg Bool.false_ne_true]
      have hlt : count.current + 1 ≤ count.needed := by
        simpa [Count.isComplete, Nat.succ_le_iff] using hcomplete
      have hwrite := trims_writeCount ((increment now).taken task) hcount (.inr hlt)
        .setCount
      by_cases hfull : count.current + 1 = count.needed
      · have hoverdue := trims_takeOut task (increment now) .overdue
          (by simp [takenKeys, hcount, hcomplete, hfull]) .removeOverdue .none
        refine ⟨[], _, ?_, .keep, List.forall_mem_append.mpr ⟨hoverdue, hwrite⟩⟩
        rw [if_pos hfull, if_pos hfull, removeOverdue_eq, List.map_append]
        exact (List.perm_append_singleton _ _).symm
      · rw [if_neg hfull, if_neg hfull]
        exact ⟨[], _, .refl _, .keep, hwrite⟩

theorem clears_decrement (settings : Settings) (task : Task) :
    task.Clears settings task.marker.isSome (decrement.taken task) none task.decrement := by
  rw [Task.decrement]
  cases hcount : task.count? with
  | none => exact ⟨[], [], .refl _, .keep, by simp⟩
  | some x =>
    obtain ⟨span, count⟩ := x
    dsimp only
    by_cases hzero : count.current = 0
    · rw [if_pos hzero]
      exact ⟨[], [], .refl _, .keep, by simp⟩
    · rw [if_neg hzero]
      have hwrite := trims_writeCount (decrement.taken task) hcount
        (.inl (Nat.sub_le _ 1)) .setCount
      cases hcomplete : count.isComplete with
      | true =>
        have hstamp := trims_takeOut task decrement .completed
          (by simp [takenKeys, hcount, hzero, hcomplete]) .clearCompletion (.text "cm".toList)
        refine ⟨[], _, ?_, .keep, List.forall_mem_append.mpr ⟨hstamp, hwrite⟩⟩
        rw [if_pos rfl, clearStamp_eq, List.map_append]
        simp
      | false =>
        rw [if_neg Bool.false_ne_true]
        exact ⟨[], _, .refl _, .keep, hwrite⟩

theorem clears_toggleCollapse (settings : Settings) (task : Task)
    (htaken : toggleCollapse.taken task ≠ []) :
    task.Clears settings task.marker.isSome (toggleCollapse.taken task) none
      task.toggleCollapse := by
  have hcollapsed := trims_takeOut task toggleCollapse .collapsed
    List.mem_cons_self .toggleCollapse (.flag false)
  refine ⟨[], _, ?_, .keep, hcollapsed⟩
  unfold Task.toggleCollapse
  cases htag : task.collapsedTag? with
  | none => exact absurd (by simp [taken, takenKeys, Task.fieldOf?, htag]) htaken
  | some x => simp [Task.fieldOf?, htag, Task.takeOut, Located.map]

theorem clears_reset (settings : Settings) (task : Task) (lastVisit now : Instant)
    (hdone : task.isRecurring = true ∧ task.isDone = true) :
    task.Clears settings (leavesMark settings task (reset lastVisit now))
      ((reset lastVisit now).taken task) none (task.reset lastVisit now) := by
  have hstamp := trims_takeOut task (reset lastVisit now) .completed
    (by simp [takenKeys, hdone]) .clearCompletion (.text "cm".toList)
  rw [leavesMark, hdone.1, hdone.2, Task.reset, if_pos hdone.1, Task.resetState, if_pos hdone.2,
    Task.clearCompletion, clearStamp_eq, Task.resetCount]
  cases hcount : task.count? with
  | none => exact ⟨_, _, by simp, marks_clearMarker settings task, hstamp⟩
  | some x =>
    refine ⟨_, _, ?_, marks_clearMarker settings task, List.forall_mem_append.mpr
      ⟨hstamp, trims_writeCount _ hcount (.inl (Nat.zero_le _)) .clearCount⟩⟩
    rw [List.map_append]
    simp

/-- **A deed that takes a tag out** changes its line by edits for the done mark, the
tags and the counter, and the completion tag. -/
theorem exists_clears (settings : Settings) {task : Task} {deed : Deed}
    (htaken : deed.taken task ≠ []) :
    task.Clears settings (deed.leavesMark settings task) (deed.taken task)
      (deed.stampedAt? settings task) (deed.edits settings task) := by
  cases deed with
  | toggleDone now => exact clears_toggleDone settings task now
  | increment now => exact clears_increment settings task now
  | decrement => exact clears_decrement settings task
  | toggleCollapse => exact clears_toggleCollapse settings task htaken
  | reset lastVisit now =>
    refine clears_reset settings task lastVisit now (Decidable.byContradiction fun hnot => htaken ?_)
    simp [taken, takenKeys, hnot]
  | setDue value => exact absurd rfl htaken
  | changePriority direction => exact absurd rfl htaken
  | hide => exact absurd rfl htaken

theorem count_notMem_takenKeys (deed : Deed) (task : Task) : Key.count ∉ deed.takenKeys task := by
  cases deed <;> simp only [takenKeys] <;> (repeat' split) <;> simp

/-- What is taken out is tags, and not the counter. -/
theorem areTags_taken (deed : Deed) (task : Task) : task.AreTags (deed.taken task) := by
  intro x hx
  obtain ⟨key, hkey, hfield⟩ := List.mem_filterMap.mp hx
  obtain ⟨y, hy, hvalue, hsome⟩ | ⟨-, hnone⟩ := task.fieldOf?_cases key
  · obtain rfl := Option.some.inj (hfield.symm.trans hsome)
    refine ⟨hy, by rw [hvalue]; rfl, fun hcount => ?_⟩
    obtain rfl := Option.some.inj (hvalue.symm.trans hcount)
    exact count_notMem_takenKeys deed task hkey
  · rw [hnone] at hfield
    exact absurd hfield (Option.some_ne_none x).symm

end Deed

/-! ## From right to left -/

section Clears

variable {settings : Settings} {unit : Option IndentUnit} {target : Day} {number : Int}
  {raw : Text} {task : Task} {marked : Bool} {taken : List (Located Field)}
  {since : Option Instant} {edits : List Edit}

/-- Edits that are apart stand one behind the other: for the done mark, inside of the
line, and at its end. -/
theorem Task.Clears.exists_chain (hclears : task.Clears settings marked taken since edits)
    (h : Line.read settings unit target number raw = .ok task) (htaken : task.AreTags taken)
    (hinside : ∀ e ∈ edits, e.Inside task.raw) (happart : edits.Pairwise Edit.Apart) :
    ∃ (mark : List Edit) (items : List (Located Edit)) (column : Nat),
      edits.Perm (mark ++ (items.map (·.value) ++
        since.toList.map (task.stampCompletion settings))) ∧
      task.Marks settings marked mark ∧ (∀ item ∈ items, task.Trims taken item) ∧
      (mark ++ (items.map (·.value) ++
        since.toList.map (task.stampCompletion settings))).Pairwise
          (fun a b => a.stop ≤ b.start) ∧
      items.Pairwise (fun a b => a.span.stop ≤ b.span.start) ∧
      (∀ e ∈ mark, e.stop ≤ column) ∧ ∀ item ∈ items, column ≤ item.span.start := by
  obtain ⟨mark, items, hperm, hmarks, hitems⟩ := hclears
  have happart' := (hperm.pairwise_iff Edit.Apart.symm).mp happart
  have hinside' : ∀ e ∈ mark ++ (items.map (·.value) ++
      since.toList.map (task.stampCompletion settings)), e.Inside task.raw :=
    fun e he => hinside e (hperm.mem_iff.mpr he)
  obtain ⟨-, hrest, hmark⟩ := List.pairwise_append.mp happart'
  have hdisjoint : items.Pairwise fun a b => a.span.Disjoint b.span :=
    (List.pairwise_map.mp (List.pairwise_append.mp hrest).1).imp_of_mem fun ha hb hab =>
      (hitems _ ha).disjoint (hitems _ hb) htaken h hab.1
  have hne : ∀ item ∈ items, item.span.start < item.span.stop := fun item hitem => by
    have := (hitems item hitem).within htaken h
    omega
  obtain ⟨sorted, hsorted, hchain⟩ := Span.exists_chain hne hdisjoint
  have hitems' : ∀ item ∈ sorted, task.Trims taken item := fun item hitem =>
    hitems item (hsorted.mem_iff.mp hitem)
  have hbefore : ∀ e ∈ mark, ∀ item ∈ sorted, e.stop ≤ item.span.start := by
    intro e he item hitem
    have hmem : item.value ∈ items.map (·.value) :=
      List.mem_map_of_mem (hsorted.mem_iff.mp hitem)
    exact (hitems' item hitem).behind htaken h (hinside' e (List.mem_append_left _ he))
      (hmarks.stop_le h he) (hmark e he _ (List.mem_append_left _ hmem)).1
  obtain ⟨column, hlow, hhigh⟩ := hmarks.exists_column hbefore
  have hend : ∀ e ∈ mark ++ sorted.map (·.value),
      ∀ stamp ∈ since.toList.map (task.stampCompletion settings), e.stop ≤ stamp.start := by
    intro e he stamp hstamp
    obtain ⟨now, -, rfl⟩ := List.mem_map.mp hstamp
    refine (hinside' e ?_).stop_le
    rcases List.mem_append.mp he with he | he
    · exact List.mem_append_left _ he
    · exact List.mem_append_right _ (List.mem_append_left _ ((hsorted.map _).mem_iff.mp he))
  refine ⟨mark, sorted, column,
    hperm.trans (((hsorted.symm.map _).append_right _).append_left mark), hmarks, hitems', ?_,
    hchain, hlow, hhigh⟩
  rw [← List.append_assoc]
  refine List.pairwise_append.mpr ⟨List.pairwise_append.mpr ⟨hmarks.pairwise,
    Task.Trims.pairwise hitems' htaken h hchain, fun e he x hx => ?_⟩, ?_, hend⟩
  · obtain ⟨item, hitem, rfl⟩ := List.mem_map.mp hx
    exact Int.le_trans (hbefore e he item hitem) ((hitems' item hitem).within htaken h).1
  · cases since <;> simp

/-- When a tag goes, what is behind it is what all edits leave there. -/
theorem Edit.drop_behind {mark stamps : List Edit} {front behind : List (Located Edit)}
    {item : Located Edit}
    (hperm : edits.Perm (mark ++ ((front ++ item :: behind).map (·.value) ++ stamps)))
    (hinside : ∀ e ∈ edits, e.Inside raw) (happart : edits.Pairwise Edit.Apart)
    (hchain : (mark ++ ((front ++ item :: behind).map (·.value) ++ stamps)).Pairwise
      fun a b => a.stop ≤ b.start)
    (hlt : item.value.start < item.value.stop) :
    ((behind.map (·.value)).foldr Edit.applyTo (stamps.foldr Edit.applyTo raw)).drop
        item.value.stop.toNat =
      Text.rewrite (edits.map Edit.change) item.value.stop.toNat
        (raw.drop item.value.stop.toNat) := by
  have hsplit : mark ++ ((front ++ item :: behind).map (·.value) ++ stamps) =
      (mark ++ front.map (·.value)) ++ item.value :: (behind.map (·.value) ++ stamps) := by simp
  have hput : (edits.map Edit.change).Pairwise Text.PutApart :=
    List.pairwise_map.mpr (happart.imp And.right)
  rw [Text.rewrite_perm (hperm.map _) hput]
  rw [hsplit] at hperm hchain ⊢
  rw [← List.foldr_append]
  exact Edit.drop_foldr (fun e he => hinside e (hperm.mem_iff.mpr he)) hchain hlt

/-- Carried out from right to left, the edits rewrite the line. -/
theorem Edit.foldr_chain {mark stamps : List Edit} {items : List (Located Edit)}
    (hperm : edits.Perm (mark ++ (items.map (·.value) ++ stamps)))
    (hinside : ∀ e ∈ edits, e.Inside raw) (happart : edits.Pairwise Edit.Apart)
    (hchain : (mark ++ (items.map (·.value) ++ stamps)).Pairwise fun a b => a.stop ≤ b.start) :
    mark.foldr Edit.applyTo
        ((items.map (·.value)).foldr Edit.applyTo (stamps.foldr Edit.applyTo raw)) =
      Text.rewritten (edits.map Edit.change) raw := by
  have hinside' : ∀ e ∈ mark ++ (items.map (·.value) ++ stamps), e.Inside raw :=
    fun e he => hinside e (hperm.mem_iff.mpr he)
  have hput : (edits.map Edit.change).Pairwise Text.PutApart :=
    List.pairwise_map.mpr (happart.imp And.right)
  rw [← List.foldr_append, ← List.foldr_append, List.append_assoc,
    Edit.foldr_eq_rewritten hinside' hchain]
  exact (Text.rewritten_perm (hperm.map _) hput raw).symm

/-- Where a tag goes, the edits further right have been carried out, so the line closes up
with what they leave if it does with what all of them leave. -/
theorem Task.closesUp_behind {mark stamps : List Edit} {items : List (Located Edit)}
    (h : Line.read settings unit target number raw = .ok task) (htaken : task.AreTags taken)
    (hperm : edits.Perm (mark ++ (items.map (·.value) ++ stamps)))
    (hinside : ∀ e ∈ edits, e.Inside raw) (happart : edits.Pairwise Edit.Apart)
    (hchain : (mark ++ (items.map (·.value) ++ stamps)).Pairwise fun a b => a.stop ≤ b.start)
    (hcloses : ∀ x ∈ taken, Text.ClosesUp (raw.take (task.tagSpan x.span).start)
      ((task.tagSpan x.span).textIn raw)
      (Text.rewrite (edits.map Edit.change) (task.tagSpan x.span).stop
        (raw.drop (task.tagSpan x.span).stop)))
    (front : List (Located Edit)) (item : Located Edit) (behind : List (Located Edit))
    (hitems : items = front ++ item :: behind) (x : Located Field) (hx : x ∈ taken)
    (kind : EditKind) (payload : Payload) (hitem : item = task.takeOut kind payload x) :
    Text.ClosesUp (raw.take item.span.start) (item.span.textIn raw)
      (((behind.map (·.value)).foldr Edit.applyTo (stamps.foldr Edit.applyTo raw)).drop
        item.span.stop) := by
  subst hitems hitem
  have hwithin := (Task.Trims.take hx kind payload).within htaken h
  have hbehind := Edit.drop_behind hperm hinside happart hchain hwithin.2.1
  exact hbehind ▸ hcloses x hx

/-- **What such edits leave of a line**, where it closes up at every tag that goes: its
words are the mark, the priority and those of the title. -/
theorem Line.LaidOut.exists_cleared {base : List Line.Part}
    (hlaid : Line.LaidOut settings unit target raw base)
    (hmark : settings.doneMark = "x ".toList)
    (htask : task = Line.taskOf settings unit number raw base)
    (hne : raw ≠ []) (hclears : task.Clears settings marked taken since edits)
    (htaken : task.AreTags taken) (hinside : ∀ e ∈ edits, e.Inside raw)
    (happart : edits.Pairwise Edit.Apart)
    (hsole : ∀ x ∈ taken, Line.IsSole settings unit raw x)
    (hcloses : ∀ x ∈ taken, Text.ClosesUp (raw.take (task.tagSpan x.span).start)
      ((task.tagSpan x.span).textIn raw)
      (Text.rewrite (edits.map Edit.change) (task.tagSpan x.span).stop
        (raw.drop (task.tagSpan x.span).stop)))
    (hsince : ∀ now ∈ since, task.completion? = none ∧ 1000 ≤ now.day.civil.year) :
    ∃ parts, Line.Laid target none [] parts [] ∧
      Line.textOf parts = Text.rewritten (edits.map Edit.change) raw ∧
      Text.words (Line.leftoverOf parts) =
        Line.startWords marked task.letter? ++ Text.words task.title := by
  have hread : Line.read settings unit target number raw = .ok task :=
    htask ▸ hlaid.read_eq number
  have hraw := Line.raw_of_read hread
  obtain ⟨mark, items, column, hperm, hmarks, hitems, hchain, hspans, hlow, hhigh⟩ :=
    hclears.exists_chain hread htaken (by rwa [hraw]) happart
  obtain ⟨rest, hrest, hstamped, hwords, hkept⟩ :=
    hlaid.exists_stamped hmark htask hne hsince
  have hclosed := Task.closesUp_behind hread htaken hperm hinside happart hchain hcloses
  rw [← hstamped] at hclosed
  obtain ⟨parts, htrimmed, htext⟩ := hlaid.exists_trimmed hmark hkept htask htaken hsole hrest
    hitems hspans hclosed hhigh
  obtain ⟨parts', hlaid', htext', hwords'⟩ :=
    hlaid.exists_marked hmark htask hmarks hlow htrimmed hwords
  refine ⟨parts', hlaid', ?_, hwords'⟩
  rw [htext', htext, hstamped]
  exact Edit.foldr_chain hperm hinside happart hchain

end Clears

/-- **The title is kept** by a deed that takes tags out, if the line closes up at every
tag that goes and no other tag is there to take its place, exactly if the line then
starts with the mark that the deed leaves and with the priority that it had. -/
theorem Deed.title_kept_iff {settings : Settings} {unit : Option IndentUnit} {target : Day}
    {lines : List Text} {i : Nat} {raw : Text} {task : Task} {deed : Deed}
    (hmark : settings.doneMark = "x ".toList) (hline : lines[i]? = some raw)
    (hread : Line.read settings unit target i raw = .ok task)
    (htaken : deed.taken task ≠ []) (hnot : ¬ deed.Collides settings task)
    (hsole : ∀ x ∈ deed.taken task, Line.IsSole settings unit raw x)
    (hcloses : ∀ x ∈ deed.taken task, deed.ClosesUp settings task x)
    (hstamp : ∀ now ∈ deed.stampedAt? settings task,
      task.completion? = none ∧ 1000 ≤ now.day.civil.year) :
    ∃ text after, Edit.applyAll lines (deed.edits settings task) = .ok (lines.set i text) ∧
      Line.read settings unit target i text = .ok after ∧
      (after.title = task.title ↔ after.marker.isSome = deed.leavesMark settings task ∧
        after.letter? = task.letter?) := by
  obtain ⟨base, hlaid, htask⟩ := Line.read_iff_laidOut.mp hread
  have hraw := Line.raw_of_read hread
  have hinside : ∀ e ∈ deed.edits settings task, e.Inside raw := fun e he => by
    rw [← hraw]
    exact ((makes he).owns hread).inside
  have hne : raw ≠ [] := by
    obtain ⟨x, hx⟩ := List.exists_mem_of_ne_nil _ htaken
    have hedges := Line.field_edges hread (areTags_taken deed task x hx).1
    rw [hraw] at hedges
    exact List.ne_nil_of_length_pos (by omega)
  unfold ClosesUp leftBehind at hcloses
  rw [hraw] at hcloses
  obtain ⟨parts, hparts, htext, hwords⟩ := hlaid.exists_cleared hmark htask hne
    (exists_clears settings htaken) (areTags_taken deed task) hinside
    (pairwise_apart hread hnot) hsole hcloses hstamp
  obtain ⟨behind, hwhole, hlaid'⟩ := hparts.exists_laidOut hmark unit
  rw [hwhole, hlaid'.words_whole hmark i] at hwords
  have hedits : ∀ e ∈ deed.edits settings task, e.isColumnEdit = true ∧ e.line = i := fun e he =>
    ⟨((makes he).owns hread).columns,
      ((makes he).owns hread).line_eq.trans (Line.line_of_read hread)⟩
  have happly := Edit.applyAll_line hedits hline
  rw [foldr_edits hread hnot, ← htext] at happly
  refine ⟨_, _, happly, hlaid'.read_eq i, ?_⟩
  -- titles are equal if their words are
  have htitle : task.title = Text.squeeze (Line.leftoverOf base) := congrArg Task.title htask
  generalize hafter : Line.taskOf settings unit i (Line.textOf parts) behind = after at hwords
  have htitle' : after.title = Text.squeeze (Line.leftoverOf behind) :=
    congrArg Task.title hafter.symm
  rw [htitle, htitle', Text.words_squeeze, Text.words_squeeze] at hwords
  rw [htitle, htitle', Text.squeeze_eq_iff, ← Line.startWords_inj]
  exact ⟨fun h => List.append_cancel_right (h ▸ hwords),
    fun h => List.append_cancel_left (h ▸ hwords)⟩

/-- An overdue task is completed: one tag goes, and another one comes at the end. -/
theorem Deed.title_kept_completed :
    ∃ task after, Line.read {} none ⟨736695, by decide, by decide⟩ (0 : Nat)
        "(B) a #b \x7boverdue:2018-01-01\x7d c".toList = .ok task ∧
      Edit.applyAll ["(B) a #b \x7boverdue:2018-01-01\x7d c".toList]
        (task.toggleDone {} ⟨⟨736695, by decide, by decide⟩, none⟩) =
          .ok ["(B) a #b c \x7bcm:2018-01-01\x7d".toList] ∧
      Line.read {} none ⟨736695, by decide, by decide⟩ (0 : Nat)
        "(B) a #b c \x7bcm:2018-01-01\x7d".toList = .ok after ∧
      after.title = task.title := by
  have hday : (Line.read {} none ⟨736695, by decide, by decide⟩ (0 : Nat)
      "(B) a #b \x7boverdue:2018-01-01\x7d c".toList).toOption =
        some ⟨0, "(B) a #b \x7boverdue:2018-01-01\x7d c".toList, .level 0, none,
          some ⟨⟨0, 3⟩, 'B'⟩, [⟨⟨6, 8⟩, .mention .tag "b".toList⟩,
            ⟨⟨9, 29⟩, .overdue ⟨736695, by decide, by decide⟩⟩], "a c".toList⟩ := by
    decide +kernel
  have htokens : Line.tokens "(B) a #b \x7boverdue:2018-01-01\x7d c".toList
      (Line.startOf {} none "(B) a #b \x7boverdue:2018-01-01\x7d c".toList) =
        [⟨⟨6, 8⟩, .mention .tag "b".toList⟩,
          ⟨⟨9, 29⟩, .tag "overdue".toList (some "2018-01-01".toList)⟩] := by
    decide +kernel
  have hstart : (Line.read {} none ⟨736695, by decide, by decide⟩ (0 : Nat)
      "(B) a #b c \x7bcm:2018-01-01\x7d".toList).toOption.map
        (fun after => (after.marker.isSome, after.letter?)) = some (false, some 'B') := by
    decide +kernel
  generalize hread : Line.read _ _ _ _ _ = result at hday ⊢
  cases result with
  | error e => simp [Except.toOption] at hday
  | ok task =>
    have htask : task = _ := Option.some.inj hday
    have hedits : task.toggleDone {} ⟨⟨736695, by decide, by decide⟩, none⟩ =
        [.delete 0 ⟨8, 29⟩ .removeOverdue, .insert 0 31 " \x7bcm:2018-01-01\x7d".toList
          .insertCompletion (.text "2018-01-01".toList)] := by
      rw [htask]
      decide +kernel
    have htaken : (toggleDone ⟨⟨736695, by decide, by decide⟩, none⟩).taken task =
        [⟨⟨9, 29⟩, .overdue ⟨736695, by decide, by decide⟩⟩] := by
      rw [htask]
      decide +kernel
    have hbehind : (toggleDone ⟨⟨736695, by decide, by decide⟩, none⟩).leftBehind {} task
        (task.tagSpan ⟨9, 29⟩).stop = " c \x7bcm:2018-01-01\x7d".toList := by
      rw [htask]
      decide +kernel
    have hnot : ¬ (toggleDone ⟨⟨736695, by decide, by decide⟩, none⟩).Collides {} task := by
      rintro ⟨x, -, hcollides⟩
      rw [if_neg (by rw [htask]; decide)] at hcollides
      exact Bool.noConfusion hcollides.1
    have hsole : ∀ x ∈ (toggleDone ⟨⟨736695, by decide, by decide⟩, none⟩).taken task,
        Line.IsSole {} none "(B) a #b \x7boverdue:2018-01-01\x7d c".toList x := by
      intro x hx key hkey t ht hcarries
      rw [htaken, List.mem_singleton] at hx
      rw [htokens] at ht
      rcases List.mem_cons.mp ht with rfl | ht
      · obtain ⟨value, heq, -⟩ := hcarries
        exact absurd heq (by simp)
      · rw [hx, List.mem_singleton.mp ht]
    have hcloses : ∀ x ∈ (toggleDone ⟨⟨736695, by decide, by decide⟩, none⟩).taken task,
        (toggleDone ⟨⟨736695, by decide, by decide⟩, none⟩).ClosesUp {} task x := by
      intro x hx
      rw [htaken, List.mem_singleton] at hx
      rw [hx, ClosesUp, hbehind]
      refine Line.closesUp_of_startsBlank _ (.inl ?_) fun c hc => ?_
      · rw [htask]
        decide
      · obtain rfl : ' ' = c := Option.some.inj hc
        decide
    have hstamp : ∀ now ∈ (toggleDone ⟨⟨736695, by decide, by decide⟩, none⟩).stampedAt? {} task,
        task.completion? = none ∧ 1000 ≤ now.day.civil.year := by
      rw [htask]
      intro now hnow
      obtain rfl := Option.some.inj hnow
      exact ⟨rfl, by decide +kernel⟩
    obtain ⟨text, after, happly, hafter, hiff⟩ := title_kept_iff rfl
      (List.getElem?_cons_zero : [_][0]? = _) hread (by rw [htaken]; decide) hnot hsole hcloses
      hstamp
    have hline : ∀ e ∈ task.toggleDone {} ⟨⟨736695, by decide, by decide⟩, none⟩,
        e.isColumnEdit = true ∧ e.line = (0 : Nat) := by
      rw [hedits]
      simp [Edit.isColumnEdit, Edit.delete, Edit.insert]
    have hfold : ((task.toggleDone {} ⟨⟨736695, by decide, by decide⟩, none⟩).mergeSort
        Edit.leftOf).foldr Edit.applyTo "(B) a #b \x7boverdue:2018-01-01\x7d c".toList =
          "(B) a #b c \x7bcm:2018-01-01\x7d".toList := by
      rw [hedits, (Edit.mergeSort_pair (by decide)).1]
      rfl
    have happlied := Edit.applyAll_line hline
      (List.getElem?_cons_zero : ["(B) a #b \x7boverdue:2018-01-01\x7d c".toList][0]? = _)
    rw [hfold] at happlied
    obtain rfl : "(B) a #b c \x7bcm:2018-01-01\x7d".toList = text :=
      (List.cons.inj (Except.ok.inj (happlied.symm.trans happly))).1
    refine ⟨task, after, rfl, happly, hafter, hiff.mpr ?_⟩
    rw [hafter] at hstart
    obtain ⟨hmarker, hletter⟩ := Prod.mk.inj (Option.some.inj hstart)
    rw [hmarker, hletter, htask]
    exact ⟨rfl, rfl⟩

/-- Nothing but the tag is between two words, and the space in front of it goes too. -/
theorem Deed.toggleCollapse_joinsWords :
    ∃ task after, Line.read {} none ⟨736695, by decide, by decide⟩ (0 : Nat)
        "foo \x7bc\x7dbar".toList = .ok task ∧ task.title = "foo bar".toList ∧
      Edit.applyAll ["foo \x7bc\x7dbar".toList] task.toggleCollapse = .ok ["foobar".toList] ∧
      Line.read {} none ⟨736695, by decide, by decide⟩ (0 : Nat) "foobar".toList = .ok after ∧
      after.title = "foobar".toList := by
  have hday : (Line.read {} none ⟨736695, by decide, by decide⟩ (0 : Nat)
      "foo \x7bc\x7dbar".toList).toOption =
        some ⟨0, "foo \x7bc\x7dbar".toList, .level 0, none, none, [⟨⟨4, 7⟩, .collapsed⟩],
          "foo bar".toList⟩ := by
    decide +kernel
  have hafter : (Line.read {} none ⟨736695, by decide, by decide⟩ (0 : Nat)
      "foobar".toList).toOption.map (·.title) = some "foobar".toList := by
    decide +kernel
  generalize hread : Line.read _ _ _ _ "foo \x7bc\x7dbar".toList = result at hday ⊢
  generalize hread' : Line.read _ _ _ _ "foobar".toList = result' at hafter ⊢
  cases result with
  | error e => simp [Except.toOption] at hday
  | ok task =>
    cases result' with
    | error e => simp [Except.toOption] at hafter
    | ok after =>
      have htask : task = _ := Option.some.inj hday
      have hedits : task.toggleCollapse = [.delete 0 ⟨3, 7⟩ .toggleCollapse (.flag false)] := by
        rw [htask]
        decide +kernel
      refine ⟨task, after, rfl, congrArg Task.title htask, ?_, rfl, Option.some.inj hafter⟩
      refine (Edit.applyAll_line (i := 0) ?_ rfl).trans ?_
      · rw [hedits]
        simp [Edit.isColumnEdit, Edit.delete]
      · rw [hedits, List.mergeSort_singleton]
        rfl

end TaskList
