/-
TaskList.Proofs.Action.Own — a deed takes out of a line what it is about.

* `Task.Owns` — an edit of the line of the task, its columns in the line and what
  the edit is about. `Task.Makes.owns` — every edit that deeds are made of is such.
* `Deed.Collides` — two edits of the deed have a column in common.
  `Deed.disjoint_iff` — that is so in two cases of completing and reopening, and
  in no other.
* `Deed.edits_takeOwn` — where it is not so, the line is rewritten by the edits, and
  what they are not about survives.
-/
import TaskList.Proofs.Action.Deed
import TaskList.Proofs.Action.Visit
import TaskList.Proofs.Edit.Rewritten
import TaskList.Proofs.Line.TagSpan

namespace TaskList

/-! ## What edits are about -/

namespace Task

/-- The edit takes a tag out, and perhaps one space next to it. -/
def TakesTag (task : Task) (tag : Span) (e : Edit) : Prop :=
  e.text = [] ∧ task.WithSpace tag e.span

/-- The columns of the edit are what an edit of its kind is about. -/
def IsAbout (task : Task) (e : Edit) : Prop :=
  e.start = e.stop ∨
  match e.kind with
  | .removeOverdue => ∃ x, task.overdue? = some x ∧ task.TakesTag x.span e
  | .clearCompletion => e.text = [] ∧ task.marker = some e.span ∨
    ∃ x, task.completion? = some x ∧ task.TakesTag x.span e
  | .toggleCollapse => ∃ x, task.collapsedTag? = some x ∧ task.TakesTag x.span e
  | .setCount | .clearCount => ∃ x, task.count? = some x ∧ e.span = x.value.digits
  | .setDue => ∃ x, task.due? = some x ∧ e.span = x.span
  | .setPriority => ∃ p, task.priority = some p ∧ e.span = p.span
  | _ => False

/-- An edit of the line of the task. -/
structure Owns (task : Task) (e : Edit) : Prop where
  /-- It changes columns, and does not drop the line. -/
  columns : e.isColumnEdit = true
  line_eq : e.line = task.line
  /-- Its columns are in the line, -/
  inside : e.Inside task.raw
  /-- and are what it is about. -/
  about : task.IsAbout e

end Task

/-- Two edits of the deed have a column in common: an overdue tag and a completion
tag share the one space between them, or a done mark is put in where an overdue
tag is taken out together with the last space in front of it. -/
def Deed.Collides (settings : Settings) (task : Task) : Deed → Prop
  | toggleDone _ => ∃ x, task.overdue? = some x ∧
      if task.isDone then ∃ y, task.completion? = some y ∧
        (task.SharesSpace x.span y.span ∨ task.SharesSpace y.span x.span)
      else settings.stampsCompletion = false ∧ x.span.start = task.contentStart ∧
        0 < x.span.start ∧ task.raw[x.span.start - 1]? = some ' '
  | _ => False

/-! ## The edits are those of the line -/

/-- Indentation is in front of everything that is read. -/
theorem Line.contentStart_front {settings : Settings} {unit : Option IndentUnit}
    {target : Day} {number : Int} {raw : Text} {task : Task}
    (h : read settings unit target number raw = .ok task) :
    task.contentStart ≤ startOf settings unit raw ∧
      (∀ m ∈ task.marker, task.contentStart ≤ m.stop) ∧
      ∀ p ∈ task.priority, task.contentStart ≤ p.span.start := by
  have hcontent : task.contentStart = (raw.takeWhile isIndent).length := by
    rw [Task.contentStart, raw_of_read h]
    rfl
  obtain ⟨marker, -, -, hpast, hmarker⟩ := marker?_cases settings.doneMark
    (raw.drop (raw.takeWhile isIndent).length) (raw.takeWhile isIndent).length
  obtain ⟨letter, -, -, hpast', hletter⟩ := priority?_cases
    ((raw.takeWhile isIndent).length + marker.length)
    (raw.drop ((raw.takeWhile isIndent).length + marker.length))
  have hmarker' : task.marker = _ := congrArg Task.marker (read_eq_ok h).2
  have hpriority' : task.priority = _ := congrArg Task.priority (read_eq_ok h).2
  simp only [head] at hmarker'
  simp only [head, hpast] at hpriority'
  rw [hcontent]
  refine ⟨?_, fun m hm => ?_, fun p hp => ?_⟩
  · have hstart : startOf settings unit raw =
        (raw.takeWhile isIndent).length + marker.length + letter.length := by
      simp only [startOf, head, hpast, hpast']
    omega
  · rw [hmarker'] at hm
    obtain ⟨hnone, -⟩ | ⟨hsome, -⟩ := hmarker
    · rw [hnone] at hm
      simp at hm
    · rw [hsome] at hm
      obtain rfl := Option.some.inj hm
      exact Nat.le_add_right _ _
  · rw [hpriority'] at hp
    obtain ⟨hnone, -⟩ | ⟨c, -, -, -, hsome⟩ := hletter
    · rw [hnone] at hp
      simp at hp
    · rw [hsome] at hp
      obtain rfl := Option.some.inj hp
      exact Nat.le_add_right _ _

namespace Task

section Owned

variable {settings : Settings} {unit : Option IndentUnit} {target : Day} {number : Int}
  {raw : Text} {task : Task} {e : Edit}

theorem owns_insert {column : Nat} (hcolumn : column ≤ task.raw.length) (text : Text)
    {kind : EditKind} (hkind : (kind != .deleteLine) = true) (payload : Payload) :
    task.Owns (.insert task.line column text kind payload) where
  columns := hkind
  line_eq := rfl
  inside := ⟨Int.natCast_nonneg _, Int.le_refl _, Int.ofNat_le.mpr hcolumn⟩
  about := .inl rfl

/-- The columns of a span that is in the line. -/
theorem inside_span {s : Span} {e : Edit} (hstart : e.start = s.start) (hstop : e.stop = s.stop)
    (hs : s.start ≤ s.stop) (hle : s.stop ≤ task.raw.length) : e.Inside task.raw :=
  ⟨by omega, by omega, by omega⟩

/-- A tag that is taken out. -/
theorem inside_tagSpan (h : Line.read settings unit target number raw = .ok task)
    {x : Located Field} (hx : x ∈ task.fields) (kind : EditKind) (payload : Payload) :
    (Edit.delete task.line (task.tagSpan x.span) kind payload).Inside task.raw := by
  obtain ⟨hlt, -, -, -⟩ := Line.field_edges h hx
  have hbounds := Line.tagSpan_bounds h hx
  exact inside_span rfl rfl (by omega) hbounds.2.2.2.1

theorem contentStart_le (task : Task) : task.contentStart ≤ task.raw.length :=
  (List.takeWhile_sublist _).length_le

/-- **The edits that deeds are made of are edits of the line of the task**, in the
line, and about what they are for. -/
theorem Makes.owns (h : Line.read settings unit target number raw = .ok task)
    (he : task.Makes settings e) : task.Owns e := by
  have hle := Line.startOf_le h
  rw [← Line.raw_of_read h] at hle
  cases he with
  | @takeOverdue x hx =>
    exact ⟨rfl, rfl, inside_tagSpan h (mem_fields_of_overdue? hx) _ _,
      .inr ⟨x, hx, rfl, task.tagSpan_withSpace x.span⟩⟩
  | @takeMarker m hm =>
    obtain ⟨hlt, hstop, -⟩ := Line.marker_before h hm
    rw [← Line.raw_of_read h] at hstop
    exact ⟨rfl, rfl, inside_span rfl rfl hlt.le (Nat.le_trans hstop hle), .inr (.inl ⟨rfl, hm⟩)⟩
  | @takeStamp x hx =>
    exact ⟨rfl, rfl, inside_tagSpan h (mem_fields_of_completion? hx) _ _,
      .inr (.inr ⟨x, hx, rfl, task.tagSpan_withSpace x.span⟩)⟩
  | @takeCollapsed x hx =>
    exact ⟨rfl, rfl, inside_tagSpan h (mem_fields_of_collapsedTag? hx) _ _,
      .inr ⟨x, hx, rfl, task.tagSpan_withSpace x.span⟩⟩
  | @writeCount x hx value kind hkind =>
    obtain ⟨hlt, hstop⟩ := digits_inside h hx
    have hinside : (task.writeCount x.value value kind).Inside task.raw :=
      inside_span rfl rfl hlt.le hstop.le
    rcases hkind with rfl | rfl <;> exact ⟨rfl, rfl, hinside, .inr ⟨x, hx, rfl⟩⟩
  | @writeDue x hx value =>
    obtain ⟨hlt, hstop, -, -⟩ := Line.field_edges h (mem_fields_of_due? hx)
    exact ⟨rfl, rfl, inside_span rfl rfl hlt.le hstop, .inr ⟨x, hx, rfl⟩⟩
  | @writeLetter p hp letter =>
    obtain ⟨hlt, hstop⟩ := Line.priority_before h (congrArg (Option.map (·.span)) hp)
    rw [← Line.raw_of_read h] at hstop
    exact ⟨rfl, rfl, inside_span rfl rfl hlt.le (Nat.le_trans hstop hle), .inr ⟨p, hp, rfl⟩⟩
  | putLetter letter =>
    refine owns_insert ?_ _ rfl _
    cases hm : task.marker with
    | none => exact task.contentStart_le
    | some m =>
      have hstop := (Line.marker_before h hm).2.1
      rw [← Line.raw_of_read h] at hstop
      exact Nat.le_trans hstop hle
  | putMarker => exact owns_insert task.contentStart_le _ rfl _
  | putTag key value hkind payload => exact owns_insert (Nat.le_refl _) _ hkind payload
  | markOverdue day => exact owns_insert (Nat.le_refl _) _ rfl _

end Owned

end Task

/-! ## The edits of a deed do not meet -/

namespace Task

section Apart

variable {settings : Settings} {unit : Option IndentUnit} {target : Day} {number : Int}
  {raw : Text} {task : Task} {e e' : Edit}

/-- What is put in at the end of the line is apart from what is in front of it. -/
theorem apart_end (he : e.Inside task.raw)
    (hfront : e.text = [] ∨ e.start < task.raw.length) (text : Text) (kind : EditKind)
    (payload : Payload) :
    (Edit.insert task.line task.raw.length text kind payload).Apart e := by
  have hle := he.stop_le
  refine ⟨.inr ?_, ?_⟩
  · change e.stop.toNat ≤ (task.raw.length : Int).toNat
    omega
  · rcases hfront with hnil | hlt
    · exact .inr (.inl hnil)
    · refine .inr (.inr fun hstart => ?_)
      change (task.raw.length : Int).toNat = e.start.toNat at hstart
      have := he.start_nonneg
      omega

/-- Two spans that are taken out apart. -/
theorem apart_delete {s s' : Span} (h : s.Disjoint s') (kind kind' : EditKind)
    (payload payload' : Payload) :
    (Edit.delete task.line s kind payload).Apart (.delete task.line s' kind' payload') :=
  ⟨h, .inl rfl⟩

theorem marker_disjoint_tagSpan (h : Line.read settings unit target number raw = .ok task)
    {m : Span} (hm : task.marker = some m) {x : Located Field} (hx : x ∈ task.fields) :
    m.Disjoint (task.tagSpan x.span) := by
  have hbounds := Line.tagSpan_bounds h hx
  rw [floor_of_marker hm] at hbounds
  exact .inl hbounds.1

/-- The digits of a counter are inside of its tag. -/
theorem digits_within (h : Line.read settings unit target number raw = .ok task)
    {x : Located Count} (hx : task.count? = some x) :
    x.span.start < x.value.digits.start ∧ x.value.digits.stop < x.span.stop := by
  obtain ⟨-, -, -, -, -, -, -, -, -, -, hstart, hstop⟩ :=
    Line.field_writtenAt h (mem_fields_of_count? hx)
  exact ⟨hstart, hstop⟩

/-- What reaches into the tag of a counter is apart from its digits. -/
theorem apart_writeCount (h : Line.read settings unit target number raw = .ok task)
    {x : Located Count} (hx : task.count? = some x) {s : Span} (hs : s.Disjoint x.span)
    (value : Nat) (kind kind' : EditKind) (payload : Payload) :
    (Edit.delete task.line s kind payload).Apart (task.writeCount x.value value kind') := by
  obtain ⟨hstart, hstop⟩ := digits_within h hx
  refine ⟨?_, .inl rfl⟩
  change s.Disjoint x.value.digits
  obtain hle | hle := hs
  · exact .inl (by omega)
  · exact .inr (by omega)

theorem removeOverdue_apart_count (h : Line.read settings unit target number raw = .ok task)
    {x : Located Count} (hx : task.count? = some x) (value : Nat) (kind : EditKind)
    (he : e ∈ task.removeOverdue) : e.Apart (task.writeCount x.value value kind) := by
  obtain ⟨y, hy, rfl⟩ := mem_removeOverdue.mp he
  exact apart_writeCount h hx (Line.tagSpan_disjoint_field h (mem_fields_of_overdue? hy)
    (mem_fields_of_count? hx) (by simp)) value _ kind _

theorem clearStamp_apart_count (h : Line.read settings unit target number raw = .ok task)
    {x : Located Count} (hx : task.count? = some x) (value : Nat) (kind : EditKind)
    (he : e ∈ task.clearStamp) : e.Apart (task.writeCount x.value value kind) := by
  obtain ⟨y, hy, rfl⟩ := mem_clearStamp.mp he
  exact apart_writeCount h hx (Line.tagSpan_disjoint_field h (mem_fields_of_completion? hy)
    (mem_fields_of_count? hx) (by simp)) value _ kind _

theorem clearMarker_apart_count (h : Line.read settings unit target number raw = .ok task)
    {x : Located Count} (hx : task.count? = some x) (value : Nat) (kind : EditKind)
    (he : e ∈ task.clearMarker) : e.Apart (task.writeCount x.value value kind) := by
  obtain ⟨m, hm, rfl⟩ := mem_clearMarker.mp he
  have hstart := (Line.field_stands h (mem_fields_of_count? hx)).1
  exact apart_writeCount h hx (.inl (Nat.le_trans (Line.marker_before h hm).2.1 hstart)) value _
    kind _

theorem clearMarker_apart_clearStamp (h : Line.read settings unit target number raw = .ok task)
    (he : e ∈ task.clearMarker) (he' : e' ∈ task.clearStamp) : e.Apart e' := by
  obtain ⟨m, hm, rfl⟩ := mem_clearMarker.mp he
  obtain ⟨x, hx, rfl⟩ := mem_clearStamp.mp he'
  exact apart_delete (marker_disjoint_tagSpan h hm (mem_fields_of_completion? hx)) _ _ _ _

theorem clearMarker_apart_removeOverdue
    (h : Line.read settings unit target number raw = .ok task)
    (he : e ∈ task.clearMarker) (he' : e' ∈ task.removeOverdue) : e.Apart e' := by
  obtain ⟨m, hm, rfl⟩ := mem_clearMarker.mp he
  obtain ⟨x, hx, rfl⟩ := mem_removeOverdue.mp he'
  exact apart_delete (marker_disjoint_tagSpan h hm (mem_fields_of_overdue? hx)) _ _ _ _

theorem clearCompletion_pairwise (h : Line.read settings unit target number raw = .ok task) :
    task.clearCompletion.Pairwise Edit.Apart :=
  List.pairwise_append.mpr ⟨pairwise_clearMarker, pairwise_clearStamp,
    fun _ he _ he' => clearMarker_apart_clearStamp h he he'⟩

/-- A number is put into the counter in front of the end of the line. -/
theorem writeCount_front (h : Line.read settings unit target number raw = .ok task)
    {x : Located Count} (hx : task.count? = some x) (value : Nat) (kind : EditKind) :
    (task.writeCount x.value value kind).start < task.raw.length := by
  obtain ⟨hlt, hstop⟩ := digits_inside h hx
  change (x.value.digits.start : Int) < task.raw.length
  omega

theorem text_of_mem_removeOverdue (he : e ∈ task.removeOverdue) : e.text = [] := by
  obtain ⟨x, -, rfl⟩ := mem_removeOverdue.mp he
  rfl

end Apart

end Task

namespace Deed

section Apart

variable {settings : Settings} {unit : Option IndentUnit} {target : Day} {number : Int}
  {raw : Text} {task : Task} {e : Edit}

theorem increment_pairwise (h : Line.read settings unit target number raw = .ok task)
    (now : Instant) : (task.increment settings now).Pairwise Edit.Apart := by
  unfold Task.increment
  split
  · exact .nil
  · rename_i span count hcount
    have hwrite := (Task.Makes.writeCount hcount (count.current + 1) (.inl rfl)).owns h
    have hfront := Task.writeCount_front h hcount (count.current + 1) .setCount
    split
    · exact List.pairwise_cons.mpr ⟨fun e he =>
        (Task.clearStamp_apart_count h hcount 0 _ he).symm, Task.pairwise_clearStamp⟩
    · refine List.pairwise_append.mpr ⟨?_, List.pairwise_singleton _ _, fun e he e' he' => ?_⟩
      · split
        · refine List.pairwise_cons.mpr ⟨fun e he => ?_, Task.pairwise_removeOverdue⟩
          exact Task.apart_end ((makes_removeOverdue he).owns h).inside
            (.inl (Task.text_of_mem_removeOverdue he)) _ _ _
        · exact .nil
      · obtain rfl := List.mem_singleton.mp he'
        split at he
        · rcases List.mem_cons.mp he with rfl | he
          · exact Task.apart_end hwrite.inside (.inr hfront) _ _ _
          · exact Task.removeOverdue_apart_count h hcount _ _ he
        · simp at he

theorem decrement_pairwise (h : Line.read settings unit target number raw = .ok task) :
    task.decrement.Pairwise Edit.Apart := by
  unfold Task.decrement
  split
  · exact .nil
  · rename_i span count hcount
    split
    · exact .nil
    · refine List.pairwise_append.mpr ⟨?_, List.pairwise_singleton _ _, fun e he e' he' => ?_⟩
      · split
        · exact Task.pairwise_clearStamp
        · exact .nil
      · obtain rfl := List.mem_singleton.mp he'
        split at he
        · exact Task.clearStamp_apart_count h hcount _ _ he
        · simp at he

theorem reset_pairwise (h : Line.read settings unit target number raw = .ok task)
    (lastVisit now : Instant) : (task.reset lastVisit now).Pairwise Edit.Apart := by
  by_cases hrecurring : task.isRecurring = true
  · have hsingle : task.resetCount.Pairwise Edit.Apart := by
      unfold Task.resetCount
      split <;> simp
    cases hdone : task.isDone with
    | true =>
      rw [Task.reset, if_pos hrecurring, Task.resetState, if_pos hdone]
      refine List.pairwise_append.mpr ⟨Task.clearCompletion_pairwise h, hsingle,
        fun e he e' he' => ?_⟩
      unfold Task.resetCount at he'
      split at he'
      · rename_i span count hcount
        obtain rfl := List.mem_singleton.mp he'
        rcases List.mem_append.mp he with he | he
        · exact Task.clearMarker_apart_count h hcount _ _ he
        · exact Task.clearStamp_apart_count h hcount _ _ he
      · simp at he'
    | false =>
      rw [Task.reset_of_open hdone hrecurring]
      refine List.pairwise_append.mpr ⟨?_, hsingle, fun e he e' he' => ?_⟩
      · cases (task.newlyMissed? lastVisit now).map task.markOverdue <;> simp
      · obtain ⟨day, -, rfl⟩ := Option.map_eq_some_iff.mp (Option.mem_toList.mp he)
        unfold Task.resetCount at he'
        split at he'
        · rename_i span count hcount
          obtain rfl := List.mem_singleton.mp he'
          exact Task.apart_end ((Task.Makes.writeCount hcount 0 (.inr rfl)).owns h).inside
            (.inr (Task.writeCount_front h hcount 0 _)) _ _ _
        · simp at he'
  · rw [Task.reset, if_neg hrecurring]
    exact .nil

/-- The done mark is put in apart from an overdue tag, unless the tag is taken out
with the last space in front of it. -/
theorem insertMarker_disjoint_iff (h : Line.read settings unit target number raw = .ok task)
    (hopen : task.isDone = false) {x : Located Day} (hx : task.overdue? = some x) :
    (task.tagSpan x.span).Disjoint ⟨task.contentStart, task.contentStart⟩ ↔
      ¬ (x.span.start = task.contentStart ∧ 0 < x.span.start ∧
        task.raw[x.span.start - 1]? = some ' ') := by
  have hfield := Task.mem_fields_of_overdue? hx
  obtain ⟨hlt, -, -, -⟩ := Line.field_edges h hfield
  have hbounds := Line.tagSpan_bounds h hfield
  have hcontent := Nat.le_trans (Line.contentStart_front h).1 (Line.field_stands h hfield).1
  have hfloor : task.floor = 0 := by
    have hmarker : task.marker = none := by
      rw [Task.isDone, Bool.or_eq_false_iff] at hopen
      simpa using hopen.1
    rw [Task.floor, hmarker]
    rfl
  have hstart := Task.tagSpan_start task x.span
  rw [hfloor] at hstart
  dsimp only at hlt hbounds hcontent
  rw [Span.Disjoint]
  dsimp only
  split at hstart
  · rename_i hleft
    constructor
    · rintro hdisjoint ⟨heq, -, -⟩
      omega
    · intro hnot
      have hne : x.span.start ≠ task.contentStart := fun heq => hnot ⟨heq, hleft⟩
      exact .inr (by omega)
  · rename_i hleft
    exact ⟨fun _ hcollides => hleft hcollides.2, fun _ => .inr (by omega)⟩

theorem toggleDone_pairwise (h : Line.read settings unit target number raw = .ok task)
    {now : Instant} (hnot : ¬ (toggleDone now).Collides settings task) :
    (task.toggleDone settings now).Pairwise Edit.Apart := by
  rw [Collides, not_exists] at hnot
  refine List.pairwise_append.mpr ⟨Task.pairwise_removeOverdue, ?_, fun e he e' he' => ?_⟩
  · split
    · exact Task.clearCompletion_pairwise h
    · split <;> exact List.pairwise_singleton _ _
  · obtain ⟨x, hx, rfl⟩ := Task.mem_removeOverdue.mp he
    have hnot := fun hcollides => hnot x ⟨hx, hcollides⟩
    split at he'
    · rename_i hdone
      rw [if_pos hdone] at hnot
      rcases List.mem_append.mp he' with he' | he'
      · exact (Task.clearMarker_apart_removeOverdue h he' he).symm
      · obtain ⟨y, hy, rfl⟩ := Task.mem_clearStamp.mp he'
        refine Task.apart_delete ?_ _ _ _ _
        exact (Line.tagSpan_disjoint_iff h (Task.mem_fields_of_overdue? hx)
          (Task.mem_fields_of_completion? hy) (by simp)).mpr fun hshares => hnot ⟨y, hy, hshares⟩
    · rename_i hopen
      rw [if_neg hopen] at hnot
      split at he' <;> obtain rfl := List.mem_singleton.mp he'
      · exact (Task.apart_end ((makes_removeOverdue he).owns h).inside (.inl rfl) _ _ _).symm
      · rename_i hstamps
        refine ⟨?_, .inl rfl⟩
        exact (insertMarker_disjoint_iff h (by simpa using hopen) hx).mpr
          fun hcollides => hnot ⟨by simpa using hstamps, hcollides⟩

theorem not_disjoint_of_collides (h : Line.read settings unit target number raw = .ok task)
    {now : Instant} (hcollides : (toggleDone now).Collides settings task) :
    ¬ (task.toggleDone settings now).Pairwise fun a b => a.span.Disjoint b.span := by
  obtain ⟨x, hx, hcollides⟩ := hcollides
  intro hpairwise
  obtain ⟨-, -, hdisjoint⟩ := List.pairwise_append.mp hpairwise
  have hdisjoint := hdisjoint _ (Task.mem_removeOverdue.mpr ⟨x, hx, rfl⟩)
  split at hcollides
  · rename_i hdone
    obtain ⟨y, hy, hshares⟩ := hcollides
    rw [if_pos hdone] at hdisjoint
    exact (Line.tagSpan_disjoint_iff h (Task.mem_fields_of_overdue? hx)
      (Task.mem_fields_of_completion? hy) (by simp)).mp
        (hdisjoint _ (List.mem_append_right _ (Task.mem_clearStamp.mpr ⟨y, hy, rfl⟩))) hshares
  · rename_i hopen
    obtain ⟨hstamps, hcollides⟩ := hcollides
    rw [if_neg hopen, if_neg (by simp [hstamps])] at hdisjoint
    exact (insertMarker_disjoint_iff h (by simpa using hopen) hx).mp
      (hdisjoint _ List.mem_cons_self) hcollides

/-- The edits of a deed do not meet, unless they collide. -/
theorem pairwise_apart (h : Line.read settings unit target number raw = .ok task) {deed : Deed}
    (hnot : ¬ deed.Collides settings task) : (deed.edits settings task).Pairwise Edit.Apart := by
  cases deed with
  | toggleDone now => exact toggleDone_pairwise h hnot
  | increment now => exact increment_pairwise h now
  | decrement => exact decrement_pairwise h
  | reset lastVisit now => exact reset_pairwise h lastVisit now
  -- all others make one edit, or none
  | setDue value =>
    simp only [edits, Task.setDue]
    split <;> exact List.pairwise_singleton _ _
  | changePriority direction =>
    simp only [edits, Task.changePriority]
    split
    · exact .nil
    · split <;> exact List.pairwise_singleton _ _
  | toggleCollapse =>
    simp only [edits, Task.toggleCollapse]
    split <;> exact List.pairwise_singleton _ _
  | hide =>
    simp only [edits, Task.hide]
    split
    · exact .nil
    · exact List.pairwise_singleton _ _

/-- **Two edits of a deed have a column in common** in the cases of
`Deed.Collides`, and in no others. -/
theorem disjoint_iff (h : Line.read settings unit target number raw = .ok task) (deed : Deed) :
    (deed.edits settings task).Pairwise (fun a b => a.span.Disjoint b.span) ↔
      ¬ deed.Collides settings task := by
  refine ⟨fun hpairwise hcollides => ?_, fun hnot => (pairwise_apart h hnot).imp And.left⟩
  cases deed with
  | toggleDone now => exact not_disjoint_of_collides h hcollides hpairwise
  | _ => exact hcollides

end Apart

/-! ## What is left of the line -/

section Rewritten

variable {settings : Settings} {unit : Option IndentUnit} {target : Day} {number : Int}
  {raw : Text} {task : Task} {deed : Deed}

/-- Edits that do not collide rewrite the line. -/
theorem foldr_edits (h : Line.read settings unit target number raw = .ok task)
    (hnot : ¬ deed.Collides settings task) :
    ((deed.edits settings task).mergeSort Edit.leftOf).foldr Edit.applyTo raw =
      Text.rewritten ((deed.edits settings task).map Edit.change) raw := by
  refine Edit.foldr_mergeSort_eq (fun e he => ?_) (pairwise_apart h hnot)
  rw [← Line.raw_of_read h]
  exact ((makes he).owns h).inside

/-- The edits of a deed change the line of the task and no other. -/
theorem applyAll_edits {i : Nat} {lines : List Text}
    (h : Line.read settings unit target i raw = .ok task) (hline : lines[i]? = some raw)
    (deed : Deed) : Edit.applyAll lines (deed.edits settings task) = .ok (lines.set i
      (((deed.edits settings task).mergeSort Edit.leftOf).foldr Edit.applyTo raw)) :=
  Edit.applyAll_line (fun _ he => ⟨((makes he).owns h).columns,
    ((makes he).owns h).line_eq.trans (congrArg Task.line (Line.read_eq_ok h).2)⟩) hline

/-- **A deed takes out what it is about.** Its edits are in the line, and no two
of them have a column in common but in the cases of `Deed.Collides`. In all
others the line is rewritten by them, so that every character at any other
column survives in its order, and no other line is changed. -/
theorem edits_takeOwn {i : Nat} (h : Line.read settings unit target i raw = .ok task)
    (deed : Deed) :
    (∀ e ∈ deed.edits settings task, task.Owns e) ∧
    ((deed.edits settings task).Pairwise (fun a b => a.span.Disjoint b.span) ↔
      ¬ deed.Collides settings task) ∧
    (¬ deed.Collides settings task → ∀ lines, lines[i]? = some raw →
      ∃ text, Edit.applyAll lines (deed.edits settings task) = .ok (lines.set i text) ∧
        text = Text.rewritten ((deed.edits settings task).map Edit.change) raw ∧
        (Span.outside ((deed.edits settings task).map Edit.span) raw).Sublist text) := by
  refine ⟨fun e he => (makes he).owns h, disjoint_iff h deed, fun hnot lines hline => ?_⟩
  have hedits : ∀ e ∈ deed.edits settings task, e.isColumnEdit = true ∧ e.line = i :=
    fun e he => ⟨((makes he).owns h).columns,
      ((makes he).owns h).line_eq.trans (congrArg Task.line (Line.read_eq_ok h).2)⟩
  have happly := Edit.applyAll_line hedits hline
  rw [foldr_edits h hnot] at happly
  refine ⟨_, happly, rfl, ?_⟩
  have hsurvives := Text.outside_sublist ((deed.edits settings task).map Edit.change) raw
  rwa [List.map_map] at hsurvives

/-- A task is reopened: the tags stand side by side, but the left one is taken out
with the space in front of it. -/
theorem edits_takeOwn_reopened :
    ∃ task, Line.read {} none ⟨736695, by decide, by decide⟩ (0 : Nat)
        "x a \x7boverdue:2018-01-01\x7d \x7bcm\x7d b".toList = .ok task ∧
      ¬ (toggleDone ⟨⟨736695, by decide, by decide⟩, none⟩).Collides {} task ∧
      Edit.applyAll ["x a \x7boverdue:2018-01-01\x7d \x7bcm\x7d b".toList]
        (task.toggleDone {} ⟨⟨736695, by decide, by decide⟩, none⟩) = .ok ["a b".toList] := by
  have heq : (Line.read {} none ⟨736695, by decide, by decide⟩ (0 : Nat)
      "x a \x7boverdue:2018-01-01\x7d \x7bcm\x7d b".toList).toOption.map
        (fun task => task.toggleDone {} ⟨⟨736695, by decide, by decide⟩, none⟩) =
      some [.delete 0 ⟨3, 24⟩ .removeOverdue,
        .delete 0 ⟨0, 2⟩ .clearCompletion (.text "done".toList),
        .delete 0 ⟨24, 29⟩ .clearCompletion (.text "cm".toList)] := by
    decide +kernel
  generalize hread : Line.read _ _ _ _ _ = result at heq ⊢
  cases result with
  | error e => simp [Except.toOption] at heq
  | ok task =>
    have hedits : task.toggleDone {} ⟨⟨736695, by decide, by decide⟩, none⟩ = _ :=
      Option.some.inj heq
    obtain ⟨-, hiff, hrewrites⟩ := edits_takeOwn hread
      (toggleDone ⟨⟨736695, by decide, by decide⟩, none⟩)
    rw [edits, hedits] at hiff hrewrites
    have hnot := hiff.mp (by simp [Span.Disjoint, Edit.span, Edit.delete])
    obtain ⟨text, happly, rfl, -⟩ := hrewrites hnot [_] rfl
    exact ⟨task, rfl, hnot, (congrArg (Edit.applyAll _) hedits).trans (happly.trans rfl)⟩

/-- Two tags behind the start of a line share the space between them: a letter
of the line is lost. -/
theorem toggleDone_sharesSpace :
    ∃ task, Line.read {} none ⟨736695, by decide, by decide⟩ (0 : Nat)
        "\x7boverdue:2018-01-01\x7d \x7bcm\x7dabc".toList = .ok task ∧
      ¬ (task.toggleDone {} ⟨⟨736695, by decide, by decide⟩, none⟩).Pairwise
        (fun a b => a.span.Disjoint b.span) ∧
      Edit.applyAll ["\x7boverdue:2018-01-01\x7d \x7bcm\x7dabc".toList]
        (task.toggleDone {} ⟨⟨736695, by decide, by decide⟩, none⟩) = .ok ["bc".toList] := by
  have heq : (Line.read {} none ⟨736695, by decide, by decide⟩ (0 : Nat)
      "\x7boverdue:2018-01-01\x7d \x7bcm\x7dabc".toList).toOption.map
        (fun task => task.toggleDone {} ⟨⟨736695, by decide, by decide⟩, none⟩) =
      some [.delete 0 ⟨0, 21⟩ .removeOverdue,
        .delete 0 ⟨20, 25⟩ .clearCompletion (.text "cm".toList)] := by
    decide +kernel
  generalize hread : Line.read _ _ _ _ _ = result at heq ⊢
  cases result with
  | error e => simp [Except.toOption] at heq
  | ok task =>
    have hedits : task.toggleDone {} ⟨⟨736695, by decide, by decide⟩, none⟩ = _ :=
      Option.some.inj heq
    refine ⟨task, rfl, ?_, ?_⟩
    · rw [hedits]
      simp [Span.Disjoint, Edit.span, Edit.delete]
    · have hline : ∀ e ∈ task.toggleDone {} ⟨⟨736695, by decide, by decide⟩, none⟩,
          e.isColumnEdit = true ∧ e.line = (0 : Nat) := by
        rw [hedits]
        simp [Edit.isColumnEdit, Edit.delete]
      have hsorted : (task.toggleDone {} ⟨⟨736695, by decide, by decide⟩, none⟩).mergeSort
          Edit.leftOf = task.toggleDone {} ⟨⟨736695, by decide, by decide⟩, none⟩ :=
        List.mergeSort_of_pairwise (by rw [hedits]; decide)
      refine (Edit.applyAll_line hline rfl).trans ?_
      rw [hsorted, hedits]
      rfl

end Rewritten

end Deed

end TaskList
