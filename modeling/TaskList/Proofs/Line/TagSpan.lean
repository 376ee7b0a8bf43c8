/-
TaskList.Proofs.Line.TagSpan — a tag with one space next to it.

* `Task.WithSpace` — columns of a tag, and perhaps one space in front of it or
  behind it. `Task.tagSpan_withSpace` — the columns that a tag is taken out with
  are such, and stand behind the done mark.
* `Task.IsFreeSpace` — a space that belongs to nothing that the task records.
  `Line.recorded_edges` — of what is recorded only the done mark starts or ends
  with a space. So the space that goes with a tag is free (`Line.tagSpan_free`), and
  no other field has it (`Line.tagSpan_disjoint_field`).
* `Task.SharesSpace` — two tags with one space between them that both are taken
  out with. `Line.tagSpan_disjoint_iff` — nothing else brings the columns of two
  tags together.
* `Task.TakesFreeSpace` — a tag, and one free space next to it if there is one.
  `Line.read_takesFreeSpace` — that is what every tag of a line is taken out with.
-/
import TaskList.Action.Tags
import TaskList.Proofs.Line.Changed

namespace TaskList

/-! ## The columns of a tag -/

namespace Span

/-- The column in front of a span, or the one behind it. -/
def Beside (s : Span) (column : Nat) : Prop := column + 1 = s.start ∨ column = s.stop

/-- What reaches from outside up to a span is at its edge there. -/
theorem Disjoint.edge_of_beside {r s : Span} (h : r.Disjoint s) (hs : s.start < s.stop)
    {column : Nat} (hbeside : s.Beside column) (hr : r.covers column = true) :
    column = r.start ∨ column = r.stop - 1 := by
  rw [covers_iff] at hr
  obtain hstart | hstop := hbeside
  · obtain hle | hle := h <;> omega
  · obtain hle | hle := h <;> omega

/-- Spans without a common column are disjoint. -/
theorem disjoint_of_covers {a b : Span} (ha : a.start < a.stop) (hb : b.start < b.stop)
    (h : ∀ column, a.covers column = true → b.covers column = false) : a.Disjoint b := by
  by_contra hmeet
  rw [Disjoint] at hmeet
  have hcolumn := h (max a.start b.start) (covers_iff.mpr (by omega))
  rw [Bool.eq_false_iff, Ne, covers_iff] at hcolumn
  omega

end Span

namespace Task

/-- The columns of a tag, and perhaps one space next to it that is not in front of
the floor. -/
def WithSpace (task : Task) (s gap : Span) : Prop :=
  gap = s ∨
  (task.floor < s.start ∧ task.raw[s.start - 1]? = some ' ' ∧ gap = ⟨s.start - 1, s.stop⟩) ∨
  (task.raw[s.stop]? = some ' ' ∧ gap = ⟨s.start, s.stop + 1⟩)

/-- A space that belongs to nothing that the task records. -/
def IsFreeSpace (task : Task) (column : Nat) : Prop :=
  task.raw[column]? = some ' ' ∧ ∀ r ∈ task.recorded, r.covers column = false

/-- The columns that a tag is taken out with: the tag, and one free space next to
it if there is one. -/
structure TakesFreeSpace (task : Task) (tag gap : Span) : Prop where
  /-- They are in the line, -/
  inside : gap.start < gap.stop ∧ gap.stop ≤ task.raw.length
  /-- around the tag, -/
  around : gap.start ≤ tag.start ∧ tag.stop ≤ gap.stop
  /-- and not in front of the end of the done mark. -/
  behind : ∀ m, task.marker = some m → m.stop ≤ gap.start
  /-- At most one column is not a column of the tag, -/
  oneMore : gap.stop - gap.start ≤ tag.stop - tag.start + 1
  /-- and a free space stands there: -/
  free : ∀ column, gap.covers column = true → tag.covers column = false →
    task.IsFreeSpace column
  /-- the one in front of the tag, where there is one, -/
  front : ∀ column, column + 1 = tag.start → task.IsFreeSpace column → gap.start = column
  /-- and there is none only where none stands next to the tag. -/
  taken : gap = tag → ∀ column, tag.Beside column → ¬ task.IsFreeSpace column

/-- One space stands between two tags, and the left one has no other space in
front of it to be taken out with. -/
def SharesSpace (task : Task) (left right : Span) : Prop :=
  right.start = left.stop + 1 ∧ task.raw[left.stop]? = some ' ' ∧
    ¬ (task.floor < left.start ∧ task.raw[left.start - 1]? = some ' ')

variable {task : Task} {s left right gap : Span}

theorem tagSpan_of_left (h : task.floor < s.start ∧ task.raw[s.start - 1]? = some ' ') :
    task.tagSpan s = ⟨s.start - 1, s.stop⟩ := if_pos h

theorem tagSpan_withSpace (task : Task) (s : Span) : task.WithSpace s (task.tagSpan s) := by
  unfold tagSpan
  split
  · rename_i hleft
    exact .inr (.inl ⟨hleft.1, hleft.2, rfl⟩)
  · split
    · rename_i hright
      exact .inr (.inr ⟨hright, rfl⟩)
    · exact .inl rfl

/-- The columns with the space are those of the tag and at most one more. -/
theorem WithSpace.bounds (h : task.WithSpace s gap) (hs : s.start < s.stop)
    (hstop : s.stop ≤ task.raw.length) (hfloor : task.floor ≤ s.start) :
    task.floor ≤ gap.start ∧ gap.start ≤ s.start ∧ s.stop ≤ gap.stop ∧
      gap.stop ≤ task.raw.length ∧ gap.stop - gap.start ≤ s.stop - s.start + 1 := by
  obtain rfl | ⟨hlt, -, rfl⟩ | ⟨hspace, rfl⟩ := h
  · omega
  · dsimp only
    omega
  · have hlt := (List.getElem?_eq_some_iff.mp hspace).1
    dsimp only
    omega

/-- The column that is not the tag's is a space next to it. -/
theorem WithSpace.beside (h : task.WithSpace s gap) (hs : s.start < s.stop)
    (hfloor : task.floor ≤ s.start) {column : Nat} (hgap : gap.covers column = true)
    (hcolumn : s.covers column = false) :
    s.Beside column ∧ task.floor ≤ column ∧ task.raw[column]? = some ' ' := by
  rw [Bool.eq_false_iff, Ne, Span.covers_iff] at hcolumn
  rw [Span.covers_iff] at hgap
  obtain rfl | ⟨hlt, hspace, rfl⟩ | ⟨hspace, rfl⟩ := h
  · exact absurd hgap hcolumn
  · dsimp only at hgap
    obtain rfl : column = s.start - 1 := by omega
    exact ⟨.inl (by omega), by omega, hspace⟩
  · dsimp only at hgap
    obtain rfl : column = s.stop := by omega
    exact ⟨.inr rfl, by omega, hspace⟩

theorem tagSpan_eq_self_iff : task.tagSpan s = s ↔
    ¬ (task.floor < s.start ∧ task.raw[s.start - 1]? = some ' ') ∧
      task.raw[s.stop]? ≠ some ' ' := by
  unfold tagSpan
  split
  · rename_i hleft
    refine ⟨fun heq => ?_, fun h => absurd hleft h.1⟩
    have hstart := congrArg Span.start heq
    dsimp only at hstart
    omega
  · rename_i hleft
    split
    · rename_i hright
      refine ⟨fun heq => ?_, fun h => absurd hright h.2⟩
      have hstop := congrArg Span.stop heq
      dsimp only at hstop
      omega
    · rename_i hright
      exact ⟨fun _ => ⟨hleft, hright⟩, fun _ => rfl⟩

theorem floor_of_marker {m : Span} (h : task.marker = some m) : task.floor = m.stop := by
  rw [floor, h]
  rfl

theorem tagSpan_start (task : Task) (s : Span) : (task.tagSpan s).start =
    if task.floor < s.start ∧ task.raw[s.start - 1]? = some ' ' then s.start - 1 else s.start := by
  unfold tagSpan
  split
  · rfl
  · split <;> rfl

theorem tagSpan_stop (task : Task) (s : Span) : (task.tagSpan s).stop =
    if ¬ (task.floor < s.start ∧ task.raw[s.start - 1]? = some ' ') ∧
      task.raw[s.stop]? = some ' ' then s.stop + 1 else s.stop := by
  unfold tagSpan
  split
  · rename_i hleft
    rw [if_neg fun h => h.1 hleft]
  · rename_i hleft
    split
    · rename_i hright
      rw [if_pos ⟨hleft, hright⟩]
    · rename_i hright
      rw [if_neg fun h => hright h.2]

/-- Tags one behind the other come together with the space that they share, and
with no other. -/
theorem tagSpan_stop_le_iff (hle : left.stop ≤ right.start) (hleft : left.start < left.stop)
    (hfloor : task.floor ≤ left.start)
    (hspaceless : task.raw[left.stop - 1]? ≠ some ' ' ∧ task.raw[right.start]? ≠ some ' ') :
    (task.tagSpan left).stop ≤ (task.tagSpan right).start ↔ ¬ task.SharesSpace left right := by
  rw [tagSpan_start, tagSpan_stop, SharesSpace]
  constructor
  · rintro h ⟨hstart, hspace, hnone⟩
    have hright : task.floor < right.start ∧ task.raw[right.start - 1]? = some ' ' := by
      rw [hstart, Nat.add_sub_cancel]
      exact ⟨by omega, hspace⟩
    rw [if_pos ⟨hnone, hspace⟩, if_pos hright] at h
    omega
  · intro hnot
    split
    · rename_i h
      -- the space behind the left tag is not the start of the right one
      have hne : left.stop ≠ right.start := fun heq => hspaceless.2 (heq ▸ h.2)
      split
      · have hne' : right.start ≠ left.stop + 1 := fun heq => hnot ⟨heq, h.2, h.1⟩
        omega
      · omega
    · split
      · rename_i h
        have hne : left.stop ≠ right.start := fun heq => hspaceless.1 (heq ▸ h.2)
        omega
      · exact hle

end Task

/-! ## The tags of a line -/

namespace Line

section Read

variable {settings : Settings} {unit : Option IndentUnit} {target : Day} {number : Int}
  {raw : Text} {task : Task}

/-- No token starts with a space. -/
theorem head?_ne_space (token : Token) : token.text.head? ≠ some ' ' := by
  cases token with
  | tag key value => cases value <;> simp [Token.text]
  | mention group name => cases group <;> simp [Token.text, Group.mark]

/-- A field stands in its line, and no space is at its edges. -/
theorem field_edges (h : read settings unit target number raw = .ok task) {x : Located Field}
    (hx : x ∈ task.fields) :
    x.span.start < x.span.stop ∧ x.span.stop ≤ task.raw.length ∧
      task.raw[x.span.start]? ≠ some ' ' ∧ task.raw[x.span.stop - 1]? ≠ some ' ' := by
  obtain ⟨-, token, hstands, hstop, -⟩ := field_stands h hx
  have hbound := hstands.bound
  have hpos := token.text_length_pos
  obtain ⟨before, after, hraw, hbefore, hshape, -⟩ := hstands
  rw [raw_of_read h]
  refine ⟨by omega, by omega, ?_, ?_⟩
  · rw [hraw, ← hbefore, List.getElem?_append_right (Nat.le_refl _), Nat.sub_self,
      List.getElem?_append_left hpos, ← List.head?_eq_getElem?]
    exact head?_ne_space token
  · have hlast : x.span.stop - 1 - before.length = token.text.length - 1 := by omega
    rw [hraw, List.getElem?_append_right (by omega), hlast,
      List.getElem?_append_left (by omega), ← List.getLast?_eq_getElem?]
    exact Token.getLast?_ne_space hshape

theorem floor_le_field (h : read settings unit target number raw = .ok task)
    {x : Located Field} (hx : x ∈ task.fields) : task.floor ≤ x.span.start := by
  have hle := (field_stands h hx).1
  cases hm : task.marker with
  | none => simp [Task.floor, hm]
  | some m =>
    rw [Task.floor_of_marker hm]
    exact Nat.le_trans (marker_before h hm).2.1 hle

theorem tagSpan_bounds (h : read settings unit target number raw = .ok task)
    {x : Located Field} (hx : x ∈ task.fields) :
    task.floor ≤ (task.tagSpan x.span).start ∧ (task.tagSpan x.span).start ≤ x.span.start ∧
      x.span.stop ≤ (task.tagSpan x.span).stop ∧
      (task.tagSpan x.span).stop ≤ task.raw.length ∧
      (task.tagSpan x.span).stop - (task.tagSpan x.span).start ≤
        x.span.stop - x.span.start + 1 := by
  obtain ⟨hlt, hstop, -, -⟩ := field_edges h hx
  exact (task.tagSpan_withSpace x.span).bounds hlt hstop (floor_le_field h hx)

/-- Of two fields one stands behind the other. -/
theorem field_cases (h : read settings unit target number raw = .ok task)
    {x y : Located Field} (hx : x ∈ task.fields) (hy : y ∈ task.fields) (hne : x ≠ y) :
    x.span.stop ≤ y.span.start ∨ y.span.stop ≤ x.span.start := by
  have hsymm : Std.Symm fun a b : Located Field => a.span.Disjoint b.span :=
    ⟨fun _ _ hab => Or.symm hab⟩
  exact (fields_disjoint h).forall hx hy hne

/-- The brackets of a priority are at its edges. -/
theorem priority_edges (h : read settings unit target number raw = .ok task) {p : Span}
    (hp : task.priority.map (·.span) = some p) :
    task.raw[p.start]? ≠ some ' ' ∧ task.raw[p.stop - 1]? ≠ some ' ' := by
  obtain ⟨q, hq, rfl⟩ := Option.map_eq_some_iff.mp hp
  obtain ⟨blanks, marker, letter, rest, hcut⟩ := cut_of_read h
  obtain ⟨hspan, hletter, -⟩ := hcut.of_priority hq
  have hraw : task.raw = (blanks ++ marker) ++ '(' :: q.value :: ')' :: rest := by
    rw [raw_of_read h, hcut.raw_eq, hletter, List.append_assoc]
    rfl
  rw [hraw, hspan, ← List.length_append]
  dsimp only
  constructor
  · rw [List.getElem?_append_right (Nat.le_refl _), Nat.sub_self]
    simp
  · rw [List.getElem?_append_right (by omega), Nat.add_sub_assoc (by decide),
      Nat.add_sub_cancel_left]
    simp

/-- Nothing that is recorded starts or ends with a space, but for the done mark. -/
theorem recorded_edges (h : read settings unit target number raw = .ok task) {r : Span}
    (hr : r ∈ task.recorded) (hmark : task.marker ≠ some r) :
    task.raw[r.start]? ≠ some ' ' ∧ task.raw[r.stop - 1]? ≠ some ' ' := by
  obtain hm | hp | ⟨x, hx, rfl⟩ := (mem_recorded h).mp hr
  · exact absurd hm hmark
  · exact priority_edges h hp
  · exact (field_edges h hx).2.2

/-- Next to a field the free spaces are those behind the floor. -/
theorem isFreeSpace_iff (h : read settings unit target number raw = .ok task)
    {x : Located Field} (hx : x ∈ task.fields) {column : Nat} (hbeside : x.span.Beside column) :
    task.IsFreeSpace column ↔ task.floor ≤ column ∧ task.raw[column]? = some ' ' := by
  have hlt := (field_edges h hx).1
  have hfront := floor_le_field h hx
  constructor
  · rintro ⟨hspace, hfree⟩
    refine ⟨?_, hspace⟩
    cases hm : task.marker with
    | none => simp [Task.floor, hm]
    | some m =>
      -- a mark that ends behind the column would cover it, as no mark is empty
      have hmark := (marker_before h hm).1
      have hcovers := hfree m ((mem_recorded h).mpr (.inl hm))
      rw [Bool.eq_false_iff, Ne, Span.covers_iff] at hcovers
      rw [Task.floor_of_marker hm] at hfront ⊢
      obtain hstart | hstop := hbeside <;> omega
  · rintro ⟨hfloor, hspace⟩
    refine ⟨hspace, fun r hr => Bool.eq_false_iff.mpr fun hcovers => ?_⟩
    -- what covers the column has its edge there, and only the done mark has a space at one
    have hbounds := Span.covers_iff.mp hcovers
    have hne : r ≠ x.span := by
      rintro rfl
      obtain hstart | hstop := hbeside <;> omega
    have hapart : r.Disjoint x.span :=
      (recorded_apart h).forall hr ((mem_recorded h).mpr (.inr (.inr ⟨x, hx, rfl⟩))) hne
    by_cases hmark : task.marker = some r
    · rw [Task.floor_of_marker hmark] at hfloor
      omega
    · have hedges := recorded_edges h hr hmark
      obtain rfl | rfl := hapart.edge_of_beside hlt hbeside hcovers
      · exact hedges.1 hspace
      · exact hedges.2 hspace

/-- A column that goes with a tag and is not the tag's is a free space. -/
theorem tagSpan_free (h : read settings unit target number raw = .ok task)
    {x : Located Field} (hx : x ∈ task.fields) {column : Nat}
    (hgap : (task.tagSpan x.span).covers column = true) (hcolumn : x.span.covers column = false) :
    task.IsFreeSpace column := by
  obtain ⟨hbeside, hspace⟩ := (task.tagSpan_withSpace x.span).beside (field_edges h hx).1
    (floor_le_field h hx) hgap hcolumn
  exact (isFreeSpace_iff h hx hbeside).mpr hspace

/-- **The space next to a tag belongs to no other field.** -/
theorem tagSpan_disjoint_field (h : read settings unit target number raw = .ok task)
    {x y : Located Field} (hx : x ∈ task.fields) (hy : y ∈ task.fields) (hne : x ≠ y) :
    (task.tagSpan x.span).Disjoint y.span := by
  have hlt := (field_edges h hx).1
  have hbounds := tagSpan_bounds h hx
  have hapart : x.span.Disjoint y.span := field_cases h hx hy hne
  refine Span.disjoint_of_covers (by omega) (field_edges h hy).1 fun column hgap => ?_
  by_cases hcolumn : x.span.covers column = true
  · exact hapart.not_covers hcolumn
  · exact (tagSpan_free h hx hgap (Bool.eq_false_iff.mpr hcolumn)).2 _
      ((mem_recorded h).mpr (.inr (.inr ⟨y, hy, rfl⟩)))

/-- **Two tags are taken out apart**, unless they share one space. -/
theorem tagSpan_disjoint_iff (h : read settings unit target number raw = .ok task)
    {x y : Located Field} (hx : x ∈ task.fields) (hy : y ∈ task.fields) (hne : x ≠ y) :
    (task.tagSpan x.span).Disjoint (task.tagSpan y.span) ↔
      ¬ (task.SharesSpace x.span y.span ∨ task.SharesSpace y.span x.span) := by
  obtain ⟨hlt, -, hfirst, hlast⟩ := field_edges h hx
  obtain ⟨hlt', -, hfirst', hlast'⟩ := field_edges h hy
  have hbounds := tagSpan_bounds h hx
  have hbounds' := tagSpan_bounds h hy
  rw [not_or]
  obtain hle | hle := field_cases h hx hy hne
  · have hiff := Task.tagSpan_stop_le_iff hle hlt (floor_le_field h hx) ⟨hlast, hfirst'⟩
    have hnot : ¬ task.SharesSpace y.span x.span := fun hshares => by
      have := hshares.1
      omega
    rw [← hiff, and_iff_left hnot, Span.Disjoint]
    omega
  · have hiff := Task.tagSpan_stop_le_iff hle hlt' (floor_le_field h hy) ⟨hlast', hfirst⟩
    have hnot : ¬ task.SharesSpace x.span y.span := fun hshares => by
      have := hshares.1
      omega
    rw [← hiff, and_iff_right hnot, Span.Disjoint]
    omega

/-- **A tag is taken out with one free space next to it**, or with none if there is
none. -/
theorem read_takesFreeSpace (h : read settings unit target number raw = .ok task) {key : Key}
    {tag : Span} (htag : task.spanOf? key = some tag) :
    task.raw = raw ∧ task.TakesFreeSpace tag (task.tagSpan tag) := by
  obtain ⟨x, hx, -, rfl⟩ := (Task.spanOf?_eq_some_iff (keys_apart_of_read h)).mp htag
  have hlt := (field_edges h hx).1
  obtain ⟨hfloor, hstart, hstop, hinside, hlength⟩ := tagSpan_bounds h hx
  refine ⟨raw_of_read h, ?_⟩
  constructor
  case inside => exact ⟨by omega, hinside⟩
  case around => exact ⟨hstart, hstop⟩
  case behind => exact fun m hm => Task.floor_of_marker hm ▸ hfloor
  case oneMore => exact hlength
  case free => exact fun column hgap hcolumn => tagSpan_free h hx hgap hcolumn
  case front =>
    intro column hcolumn hfree
    obtain ⟨hle, hspace⟩ := (isFreeSpace_iff h hx (.inl hcolumn)).mp hfree
    rw [Task.tagSpan_start, ← hcolumn, Nat.add_sub_cancel, if_pos ⟨by omega, hspace⟩]
  case taken =>
    intro hgap column hbeside hfree
    obtain ⟨hle, hspace⟩ := (isFreeSpace_iff h hx hbeside).mp hfree
    obtain ⟨hleft, hright⟩ := Task.tagSpan_eq_self_iff.mp hgap
    obtain hcolumn | rfl := hbeside
    · refine hleft ⟨by omega, ?_⟩
      rwa [← hcolumn, Nat.add_sub_cancel]
    · exact hright hspace

end Read

/-- Between a done mark that ends with a space and another tag. -/
theorem read_takesFreeSpace_behindMark :
    ∃ task, read { doneMark := "- [x] ".toList } none ⟨736695, by decide, by decide⟩ 7
        "\t- [x] \x7bcm:2018-01-02\x7d \x7bdue:ed\x7d a".toList = .ok task ∧
      task.spanOf? .completed = some ⟨7, 22⟩ ∧ task.tagSpan ⟨7, 22⟩ = ⟨7, 23⟩ ∧
      task.TakesFreeSpace ⟨7, 22⟩ ⟨7, 23⟩ := by
  have heq : (read { doneMark := "- [x] ".toList } none ⟨736695, by decide, by decide⟩ 7
      "\t- [x] \x7bcm:2018-01-02\x7d \x7bdue:ed\x7d a".toList).toOption.map
        (fun task => (task.spanOf? .completed, task.tagSpan ⟨7, 22⟩)) =
          some (some ⟨7, 22⟩, ⟨7, 23⟩) := by
    decide +kernel
  generalize hread : read _ _ _ _ _ = result at heq ⊢
  cases result with
  | error e => simp [Except.toOption] at heq
  | ok task =>
    obtain ⟨htag, hgap⟩ := Prod.mk.injEq .. ▸ Option.some.inj heq
    exact ⟨task, rfl, htag, hgap, hgap ▸ (read_takesFreeSpace hread htag).2⟩

end Line

end TaskList
