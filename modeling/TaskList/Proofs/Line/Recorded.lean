/-
TaskList.Proofs.Line.Recorded — the columns that a task records.

* `Line.head_cut` — how a line starts, as a cut of its text: indentation,
  done mark, priority, and the rest.
* `Line.read_eq_ok` — what a task is made of, once and for all.
* `Task.recorded` — the columns of the done mark, of the priority, of the
  tag of every key and of every mention, as the accessors give them.
  `Task.mem_recorded_iff` says that these are the done mark, the priority
  and the columns of the fields, so no field is left out of the accessors.
-/
import Mathlib.Data.List.Induction
import Mathlib.Data.List.Pairwise
import TaskList.Proofs.Line.Fields
import TaskList.Proofs.Line.Tokens

namespace TaskList

/-! ## The start of a line -/

namespace Line

/-- How a line starts, as a cut of its text into indentation, done mark,
priority and rest. -/
structure Cut (mark raw : Text) (span : Option Span) (priority : Option (Located Char))
    (start : Nat) (blanks marker letter rest : Text) : Prop where
  raw_eq : raw = blanks ++ (marker ++ (letter ++ rest))
  blank : ∀ c ∈ blanks, isBlank c = true
  marker_eq : span = none ∧ marker = [] ∨
    span = some ⟨blanks.length, blanks.length + marker.length⟩ ∧ marker = mark ∧ marker ≠ []
  priority_eq : priority = none ∧ letter = [] ∨
    ∃ c, 'A' ≤ c ∧ c ≤ 'Z' ∧ letter = ['(', c, ')'] ∧
      priority = some ⟨⟨blanks.length + marker.length, blanks.length + marker.length + 3⟩, c⟩
  start_eq : start = blanks.length + marker.length + letter.length

section Cut

variable {mark raw : Text} {span : Option Span} {priority : Option (Located Char)} {start : Nat}
  {blanks marker letter rest : Text}

theorem Cut.drop_start (h : Cut mark raw span priority start blanks marker letter rest) :
    raw.drop start = rest := by
  rw [h.start_eq, h.raw_eq, ← List.append_assoc, ← List.append_assoc]
  exact List.drop_left' (by simp [Nat.add_assoc])

/-- The done mark of a line that has one. -/
theorem Cut.of_marker (h : Cut mark raw span priority start blanks marker letter rest) {m : Span}
    (hm : span = some m) :
    m = ⟨blanks.length, blanks.length + marker.length⟩ ∧ marker = mark ∧ marker ≠ [] := by
  obtain ⟨hnone, -⟩ | ⟨hsome, hmark, hne⟩ := h.marker_eq
  · simp [hm] at hnone
  · rw [hm, Option.some.injEq] at hsome
    exact ⟨hsome, hmark, hne⟩

/-- The priority of a line that has one. -/
theorem Cut.of_priority (h : Cut mark raw span priority start blanks marker letter rest)
    {p : Located Char} (hp : priority = some p) :
    p.span = ⟨blanks.length + marker.length, blanks.length + marker.length + 3⟩ ∧
      letter = ['(', p.value, ')'] ∧ 'A' ≤ p.value ∧ p.value ≤ 'Z' := by
  obtain ⟨hnone, -⟩ | ⟨c, hA, hZ, hletter, hsome⟩ := h.priority_eq
  · simp [hp] at hnone
  · rw [hp, Option.some.injEq] at hsome
    subst hsome
    exact ⟨rfl, hletter, hA, hZ⟩

end Cut

theorem isBlank_of_isIndent {c : Char} (h : isIndent c = true) : isBlank c = true := by
  simp only [isIndent, Bool.or_eq_true, beq_iff_eq] at h
  rcases h with rfl | rfl <;> decide

theorem marker?_cases (mark t : Text) (column : Nat) :
    ∃ marker rest, t = marker ++ rest ∧
      past (marker? mark column t) column = column + marker.length ∧
      (marker? mark column t = none ∧ marker = [] ∨
        marker? mark column t = some ⟨column, column + marker.length⟩ ∧ marker = mark ∧
          marker ≠ []) := by
  unfold marker?
  split
  · rename_i h
    obtain ⟨rest, rfl⟩ := List.isPrefixOf_iff_prefix.mp h.2
    exact ⟨mark, rest, rfl, rfl, .inr ⟨rfl, rfl, h.1⟩⟩
  · exact ⟨[], t, rfl, rfl, .inl ⟨rfl, rfl⟩⟩

theorem priority?_cases (column : Nat) (t : Text) :
    ∃ letter rest, t = letter ++ rest ∧
      past ((priority? column t).map (·.span)) column = column + letter.length ∧
      (priority? column t = none ∧ letter = [] ∨
        ∃ c, 'A' ≤ c ∧ c ≤ 'Z' ∧ letter = ['(', c, ')'] ∧
          priority? column t = some ⟨⟨column, column + 3⟩, c⟩) := by
  unfold priority?
  split
  · rename_i c rest
    split
    · rename_i h
      exact ⟨['(', c, ')'], rest, rfl, rfl, .inr ⟨c, h.1, h.2.1, rfl, rfl⟩⟩
    · exact ⟨[], _, rfl, rfl, .inl ⟨rfl, rfl⟩⟩
  · exact ⟨[], t, rfl, rfl, .inl ⟨rfl, rfl⟩⟩

theorem head_cut (settings : Settings) (unit : IndentUnit) (raw : Text) :
    ∃ blanks marker letter rest,
      Cut settings.doneMark raw (head settings unit raw).marker (head settings unit raw).priority
        (head settings unit raw).start blanks marker letter rest := by
  have hraw : raw.takeWhile isIndent ++ raw.dropWhile isIndent = raw :=
    List.takeWhile_append_dropWhile
  have hdrop := congrArg (List.drop (raw.takeWhile isIndent).length) hraw
  rw [List.drop_left] at hdrop
  obtain ⟨marker, behind, hbehind, hpast, hmarker⟩ := marker?_cases settings.doneMark
    (raw.drop (raw.takeWhile isIndent).length) (raw.takeWhile isIndent).length
  have hdrop' : raw.drop ((raw.takeWhile isIndent).length + marker.length) = behind := by
    rw [← List.drop_drop, hbehind, List.drop_left]
  obtain ⟨letter, rest, hrest, hpast', hpriority⟩ := priority?_cases
    ((raw.takeWhile isIndent).length + marker.length) behind
  refine ⟨raw.takeWhile isIndent, marker, letter, rest, ⟨?_, ?_, hmarker, ?_, ?_⟩⟩
  · rw [← hrest, ← hbehind, ← hdrop, hraw]
  · exact fun c hc => isBlank_of_isIndent (List.all_eq_true.mp List.all_takeWhile c hc)
  · simp only [head, hpast, hdrop']
    exact hpriority
  · simp only [head, hpast, hdrop']
    exact hpast'

/-! ## The task of a line -/

/-- What the task of a line is made of. -/
theorem read_eq_ok {settings : Settings} {unit : Option IndentUnit} {target : Day} {number : Int}
    {raw : Text} {task : Task} (h : read settings unit target number raw = .ok task) :
    fields target [] (tokens raw (head settings (indentUnit settings unit) raw).start)
        = .ok task.fields ∧
      task = { line := number
               raw := raw
               indent := (head settings (indentUnit settings unit) raw).indent
               marker := (head settings (indentUnit settings unit) raw).marker
               priority := (head settings (indentUnit settings unit) raw).priority
               fields := task.fields
               title := title raw (head settings (indentUnit settings unit) raw).start
                 task.fields } := by
  unfold read at h
  dsimp only at h
  split at h
  · simp at h
  · rename_i found hfound
    cases h
    exact ⟨hfound, rfl⟩

end Line

/-! ## What the accessors give -/

namespace Task

/-- What the accessor of a key gives, as a field. -/
def fieldOf? (task : Task) : Key → Option (Located Field)
  | .due => task.due?.map (·.map .due)
  | .completed => task.completion?.map (·.map .completed)
  | .created => task.creation?.map (·.map .created)
  | .count => task.count?.map (·.map .count)
  | .overdue => task.overdue?.map (·.map .overdue)
  | .hidden => task.hiddenTag?.map (·.map fun _ => .hidden)
  | .collapsed => task.collapsedTag?.map (·.map fun _ => .collapsed)

/-- The columns of the tag of a key. -/
def spanOf? (task : Task) (key : Key) : Option Span := (task.fieldOf? key).map (·.span)

/-- The columns of the tags. -/
def tagSpans (task : Task) : List Span := Key.all.filterMap task.spanOf?

/-- The columns of the mentions of groups. -/
def mentionSpans (task : Task) : List Span :=
  Group.all.flatMap fun group => (task.mentions group).map (·.span)

/-- All columns that a task records: those of the done mark, of the
priority, of the tags, and of every mention of a group. -/
def recorded (task : Task) : List Span :=
  task.marker.toList ++
    ((task.priority.map (·.span)).toList ++ (task.tagSpans ++ task.mentionSpans))

variable {task : Task}

/-- A field that an accessor gives is a field of the task. -/
theorem mem_of_find? {α : Type} {kind : Field → Option α} {x : Located α}
    (h : task.find? kind = some x) :
    ∃ field ∈ task.fields, kind field.value = some x.value ∧ field.span = x.span := by
  obtain ⟨field, hfield, hx⟩ := List.exists_of_findSome?_eq_some h
  obtain ⟨a, ha, rfl⟩ := Option.map_eq_some_iff.mp hx
  exact ⟨field, hfield, ha, rfl⟩

theorem find?_eq_none_iff {α : Type} {kind : Field → Option α} :
    task.find? kind = none ↔ ∀ field ∈ task.fields, kind field.value = none := by
  simp [find?]

/-- The accessor of a key gives a field with the key, if there is one. -/
theorem fieldOf?_cases (task : Task) (key : Key) :
    (∃ x ∈ task.fields, x.value.key? = some key ∧ task.fieldOf? key = some x) ∨
    ((∀ x ∈ task.fields, x.value.key? ≠ some key) ∧ task.fieldOf? key = none) := by
  have hkind : ∀ {α : Type} (kind : Field → Option α) (build : α → Field),
      (∀ field a, kind field = some a ↔ field = build a) →
      (∀ field, field.key? = some key ↔ ∃ a, field = build a) →
      task.fieldOf? key = (task.find? kind).map (·.map build) →
      (∃ x ∈ task.fields, x.value.key? = some key ∧ task.fieldOf? key = some x) ∨
      ((∀ x ∈ task.fields, x.value.key? ≠ some key) ∧ task.fieldOf? key = none) := by
    intro α kind build hkind hkey hfield
    cases hfind : task.find? kind with
    | none =>
      refine .inr ⟨fun x hx hx' => ?_, by simp [hfield, hfind]⟩
      obtain ⟨a, ha⟩ := (hkey x.value).mp hx'
      have hnone := find?_eq_none_iff.mp hfind x hx
      simp [(hkind x.value a).mpr ha] at hnone
    | some y =>
      obtain ⟨⟨span, value⟩, hx, hvalue, hy⟩ := mem_of_find? hfind
      rw [hkind] at hvalue
      subst hvalue hy
      exact .inl ⟨_, hx, (hkey _).mpr ⟨_, rfl⟩, by rw [hfield, hfind]; rfl⟩
  -- `fieldOf?` is the accessor of each key, so the key tells its kind of field
  cases key
  all_goals refine hkind _ _ (fun field a => ?_) (fun field => ?_) rfl
  all_goals cases field <;> simp [Field.key?]

theorem mem_mentions {group : Group} {x : Located Text} :
    x ∈ task.mentions group ↔ ⟨x.span, .mention group x.value⟩ ∈ task.fields := by
  unfold mentions
  rw [List.mem_filterMap]
  constructor
  · rintro ⟨⟨span, value⟩, hfield, hx⟩
    dsimp only at hx
    split at hx
    · rename_i g name
      split at hx
      · rename_i hgroup
        cases hx
        rwa [← hgroup]
      · simp at hx
    · simp at hx
  · intro h
    exact ⟨_, h, by simp⟩

/-- Repetitions are erased so that the first of each stays where it is. -/
theorem pairwise_idxOf_eraseDups (l : List Text) :
    l.eraseDups.Pairwise fun a b => l.idxOf a < l.idxOf b := by
  induction l using List.reverseRecOn with
  | nil => simp
  | append_singleton l x ih =>
    have hkeep : l.eraseDups.Pairwise fun a b => (l ++ [x]).idxOf a < (l ++ [x]).idxOf b := by
      refine ih.imp_of_mem fun {a b} ha hb hab => ?_
      rw [List.mem_eraseDups] at ha hb
      rwa [List.idxOf_append, List.idxOf_append, if_pos ha, if_pos hb]
    rw [List.eraseDups_append]
    by_cases hx : x ∈ l
    · simpa [List.removeAll, hx] using hkeep
    · rw [List.pairwise_append]
      refine ⟨hkeep, by simp [List.removeAll, hx, List.eraseDups_cons], fun a ha b hb => ?_⟩
      have hb : b = x := by simpa [List.removeAll, hx, List.eraseDups_cons] using hb
      rw [List.mem_eraseDups] at ha
      rw [hb, List.idxOf_append, List.idxOf_append, if_pos ha, if_neg hx]
      have := List.idxOf_lt_length_of_mem ha
      omega

/-- The accessors give the fields that have a key. -/
theorem fieldOf?_eq_some_iff (hkeys : task.fields.Pairwise Line.KeysApart) {key : Key}
    {x : Located Field} :
    task.fieldOf? key = some x ↔ x ∈ task.fields ∧ x.value.key? = some key := by
  constructor
  · intro h
    rcases task.fieldOf?_cases key with ⟨y, hy, hkey, hfield⟩ | ⟨-, hnone⟩
    · rw [h] at hfield
      cases hfield
      exact ⟨hy, hkey⟩
    · simp [hnone] at h
  · rintro ⟨hx, hkey⟩
    rcases task.fieldOf?_cases key with ⟨y, hy, hkey', hfield⟩ | ⟨hnone, -⟩
    · have hxy : x = y := by
        by_contra hne
        exact hkeys.forall hx hy hne key hkey hkey'
      rw [hfield, hxy]
    · exact absurd hkey (hnone x hx)

theorem spanOf?_eq_some_iff (hkeys : task.fields.Pairwise Line.KeysApart) {key : Key} {s : Span} :
    task.spanOf? key = some s ↔ ∃ x ∈ task.fields, x.value.key? = some key ∧ x.span = s := by
  simp only [spanOf?, Option.map_eq_some_iff, fieldOf?_eq_some_iff hkeys, and_assoc]

theorem mem_allKeys (key : Key) : key ∈ Key.all := by
  cases key <;> decide

theorem mem_allGroups (group : Group) : group ∈ Group.all := by
  cases group <;> decide

theorem mem_tagSpans_iff (hkeys : task.fields.Pairwise Line.KeysApart) {s : Span} :
    s ∈ task.tagSpans ↔ ∃ x ∈ task.fields, (∃ key, x.value.key? = some key) ∧ x.span = s := by
  simp only [tagSpans, List.mem_filterMap, mem_allKeys, true_and, spanOf?_eq_some_iff hkeys]
  constructor
  · rintro ⟨key, x, hx, hkey, hspan⟩
    exact ⟨x, hx, ⟨key, hkey⟩, hspan⟩
  · rintro ⟨x, hx, ⟨key, hkey⟩, hspan⟩
    exact ⟨key, x, hx, hkey, hspan⟩

/-- Mentions stand to each other as the fields do. -/
theorem mentions_pairwise {R : Span → Span → Prop}
    (h : task.fields.Pairwise fun a b => R a.span b.span) (group : Group) :
    (task.mentions group).Pairwise fun a b => R a.span b.span := by
  unfold mentions
  rw [List.pairwise_filterMap]
  refine h.imp fun {x y} hxy a ha b hb => ?_
  have hspan : a.span = x.span ∧ b.span = y.span := by
    split at ha <;> split at hb <;> grind
  rwa [hspan.1, hspan.2]

theorem mem_mentionSpans_iff {s : Span} :
    s ∈ task.mentionSpans ↔ ∃ x ∈ task.fields, x.value.key? = none ∧ x.span = s := by
  simp only [mentionSpans, List.mem_flatMap, mem_allGroups, true_and, List.mem_map, mem_mentions]
  constructor
  · rintro ⟨group, x, hx, hspan⟩
    exact ⟨_, hx, rfl, hspan⟩
  · rintro ⟨⟨span, value⟩, hx, hkey, hspan⟩
    cases value <;> simp only [Field.key?, reduceCtorEq] at hkey
    rename_i group name
    exact ⟨group, ⟨span, name⟩, hx, hspan⟩

/-- Every field has a key or is a mention, so the accessors leave none
out. -/
theorem mem_fieldSpans_iff (hkeys : task.fields.Pairwise Line.KeysApart) {s : Span} :
    s ∈ task.tagSpans ∨ s ∈ task.mentionSpans ↔ ∃ x ∈ task.fields, x.span = s := by
  rw [mem_tagSpans_iff hkeys, mem_mentionSpans_iff]
  constructor
  · rintro (⟨x, hx, -, hspan⟩ | ⟨x, hx, -, hspan⟩) <;> exact ⟨x, hx, hspan⟩
  · rintro ⟨x, hx, hspan⟩
    cases hkey : x.value.key? with
    | none => exact .inr ⟨x, hx, hkey, hspan⟩
    | some key => exact .inl ⟨x, hx, ⟨key, hkey⟩, hspan⟩

/-- What a task records is its done mark, its priority, and the columns of
its fields. -/
theorem mem_recorded_iff (hkeys : task.fields.Pairwise Line.KeysApart) {s : Span} :
    s ∈ task.recorded ↔ task.marker = some s ∨ task.priority.map (·.span) = some s ∨
      ∃ x ∈ task.fields, x.span = s := by
  rw [← mem_fieldSpans_iff hkeys]
  simp [recorded]

/-- The tags and mentions are disjoint in pairs if the fields are. -/
theorem fieldSpans_disjoint (hkeys : task.fields.Pairwise Line.KeysApart)
    (hfields : task.fields.Pairwise fun a b => a.span.Disjoint b.span) :
    (task.tagSpans ++ task.mentionSpans).Pairwise Span.Disjoint := by
  have hsymm : Std.Symm fun a b : Located Field => a.span.Disjoint b.span :=
    ⟨fun _ _ h => Or.symm h⟩
  have hdistinct : ∀ x ∈ task.fields, ∀ y ∈ task.fields, x ≠ y → x.span.Disjoint y.span :=
    fun x hx y hy hne => hfields.forall hx hy hne
  rw [List.pairwise_append]
  refine ⟨?_, ?_, ?_⟩
  · unfold tagSpans
    rw [List.pairwise_filterMap]
    have hall : Key.all.Pairwise (· ≠ ·) := by decide
    refine hall.imp fun {key other} hne s hs t ht => ?_
    obtain ⟨x, hx, hkey, rfl⟩ := (spanOf?_eq_some_iff hkeys).mp hs
    obtain ⟨y, hy, hkey', rfl⟩ := (spanOf?_eq_some_iff hkeys).mp ht
    refine hdistinct x hx y hy fun hxy => hne ?_
    rw [hxy, hkey'] at hkey
    exact (Option.some.inj hkey).symm
  · unfold mentionSpans
    rw [List.pairwise_flatMap]
    refine ⟨fun group _ => ?_, ?_⟩
    · rw [List.pairwise_map]
      exact mentions_pairwise hfields group
    · have hall : Group.all.Pairwise (· ≠ ·) := by decide
      refine hall.imp fun {group other} hne s hs t ht => ?_
      simp only [List.mem_map, mem_mentions] at hs ht
      obtain ⟨x, hx, rfl⟩ := hs
      obtain ⟨y, hy, rfl⟩ := ht
      refine hdistinct _ hx _ hy fun hxy => hne ?_
      simp only [Located.mk.injEq, Field.mention.injEq] at hxy
      exact hxy.2.1
  · intro s hs t ht
    obtain ⟨x, hx, ⟨key, hkey⟩, rfl⟩ := (mem_tagSpans_iff hkeys).mp hs
    obtain ⟨y, hy, hkey', rfl⟩ := mem_mentionSpans_iff.mp ht
    refine hdistinct x hx y hy fun hxy => ?_
    rw [hxy, hkey'] at hkey
    simp at hkey

/-- What a task records is disjoint in pairs if its fields are, and the
done mark and the priority stand in front of them. -/
theorem recorded_disjoint (hkeys : task.fields.Pairwise Line.KeysApart)
    (hfields : task.fields.Pairwise fun a b => a.span.Disjoint b.span)
    (hmarker : ∀ m, task.marker = some m → ∀ s,
      (task.priority.map (·.span) = some s ∨ ∃ x ∈ task.fields, x.span = s) → m.Disjoint s)
    (hpriority : ∀ p, task.priority.map (·.span) = some p →
      ∀ x ∈ task.fields, p.Disjoint x.span) :
    task.recorded.Pairwise Span.Disjoint := by
  have hsingle : ∀ o : Option Span, o.toList.Pairwise Span.Disjoint := by
    intro o
    cases o <;> simp
  unfold recorded
  rw [List.pairwise_append, List.pairwise_append]
  refine ⟨hsingle _, ⟨hsingle _, fieldSpans_disjoint hkeys hfields, ?_⟩, ?_⟩
  · intro p hp s hs
    obtain ⟨x, hx, rfl⟩ := (mem_fieldSpans_iff hkeys).mp (List.mem_append.mp hs)
    exact hpriority p (Option.mem_toList.mp hp) x hx
  · intro m hm s hs
    refine hmarker m (Option.mem_toList.mp hm) s ?_
    rcases List.mem_append.mp hs with hs | hs
    · exact .inl (Option.mem_toList.mp hs)
    · exact .inr ((mem_fieldSpans_iff hkeys).mp (List.mem_append.mp hs))

end Task

end TaskList
