/-
TaskList.Proofs.Line.Partition — no text of a line is lost or doubled.

* `Line.field_stands` — a field was read from a token that stands at its
  columns.
* `Task.Partition` — how the columns that a task records and its title share
  the line out, each recorded text being the token that was read there.
* `Line.read_partition` — every task that is read from a line is like that.
-/
import TaskList.Proofs.Line.Recorded

namespace TaskList

/-! ## How fields are written -/

/-- A tag between braces, with a value or without one. -/
def Key.written (key : Key) (value : Option Text) : Text := (Token.tag key.text value).text

/-- Is a field written like this at its columns of a line? -/
def Field.WrittenAt (raw : Text) (s : Span) : Field → Prop
  | .due tag => s.textIn raw = Key.due.written (some tag.expression.raw)
  | .completed none => s.textIn raw = Key.completed.written none
  | .completed (some i) =>
    ∃ v, s.textIn raw = Key.completed.written (some v) ∧ Instant.parse? v = some i
  | .created i => ∃ v, s.textIn raw = Key.created.written (some v) ∧ Instant.parse? v = some i
  | .count c => ∃ current needed tail,
      s.textIn raw = Key.count.written (some (current ++ '/' :: (needed ++ tail))) ∧
      (tail = [] ∨ tail = ['\n']) ∧
      Numeral.value current = .ok c.current ∧ Numeral.value needed = .ok c.needed ∧
      current ≠ [] ∧ (∀ d ∈ current, Numeral.isDigit d = true) ∧
      c.digits.textIn raw = current ∧ s.start < c.digits.start ∧ c.digits.stop < s.stop
  | .overdue d => ∃ v, s.textIn raw = Key.overdue.written (some v) ∧ Day.parse? v = some d
  | .hidden => s.textIn raw = Key.hidden.written none
  | .collapsed => s.textIn raw = Key.collapsed.written none
  | .mention group name => s.textIn raw = group.mark :: name

/-! ## The fields in their line -/

namespace Line

/-- The column behind indentation, done mark and priority. -/
def startOf (settings : Settings) (unit : Option IndentUnit) (raw : Text) : Nat :=
  (head settings (indentUnit settings unit) raw).start

section Read

variable {settings : Settings} {unit : Option IndentUnit} {target : Day} {number : Int}
  {raw : Text} {task : Task}

theorem reading_of_read (h : read settings unit target number raw = .ok task) :
    Reading target [] (tokens raw (startOf settings unit raw)) task.fields :=
  reading_of_fields (read_eq_ok h).1

theorem raw_of_read (h : read settings unit target number raw = .ok task) : task.raw = raw :=
  congrArg Task.raw (read_eq_ok h).2

/-- A field was read from a token that stands at its columns. -/
theorem field_stands (h : read settings unit target number raw = .ok task) {x : Located Field}
    (hx : x ∈ task.fields) :
    startOf settings unit raw ≤ x.span.start ∧ ∃ token : Token,
      token.StandsAt raw x.span.start ∧ x.span.stop = x.span.start + token.text.length ∧
      x.value.ReadFrom target x.span.start token := by
  obtain ⟨token, htoken, hspan, hfrom⟩ := (reading_of_read h).from_token hx
  obtain ⟨hle, hstands, hstop⟩ := (tokens_isLeftmost _ _).stands token htoken
  rw [hspan] at hle hstands hstop
  exact ⟨hle, token.value, hstands, hstop, hfrom⟩

theorem keys_apart_of_read (h : read settings unit target number raw = .ok task) :
    task.fields.Pairwise KeysApart :=
  (reading_of_read h).keys_apart

/-- What the task of a line records. -/
theorem mem_recorded (h : read settings unit target number raw = .ok task) {s : Span} :
    s ∈ task.recorded ↔ task.marker = some s ∨ task.priority.map (·.span) = some s ∨
      ∃ x ∈ task.fields, x.span = s :=
  Task.mem_recorded_iff (keys_apart_of_read h)

theorem fields_ordered (h : read settings unit target number raw = .ok task) :
    task.fields.Pairwise fun a b => a.span.stop ≤ b.span.start := by
  have hspans := (tokens_isLeftmost raw (startOf settings unit raw)).ordered
  rw [← List.pairwise_map (f := Located.span) (R := fun a b => a.stop ≤ b.start)] at hspans ⊢
  exact hspans.sublist (reading_of_read h).spans_sublist

theorem fields_disjoint (h : read settings unit target number raw = .ok task) :
    task.fields.Pairwise fun a b => a.span.Disjoint b.span :=
  (fields_ordered h).imp fun hab => .inl hab

/-- How the line of a task starts. -/
theorem cut_of_read (h : read settings unit target number raw = .ok task) :
    ∃ blanks marker letter rest,
      Cut settings.doneMark raw task.marker task.priority (startOf settings unit raw)
        blanks marker letter rest := by
  have htask := (read_eq_ok h).2
  rw [htask]
  exact head_cut settings (indentUnit settings unit) raw

/-- The text at the columns of a token. -/
theorem textIn_of_stands {token : Token} {s : Span} (hstands : token.StandsAt raw s.start)
    (hstop : s.stop = s.start + token.text.length) : s.textIn raw = token.text := by
  unfold Span.textIn
  rw [hstop, hstands.slice_eq]

/-! ## Columns -/

/-- The done mark stands in front of everything else. -/
theorem marker_before (h : read settings unit target number raw = .ok task) {m : Span}
    (hm : task.marker = some m) :
    m.start < m.stop ∧ m.stop ≤ startOf settings unit raw ∧
      ∀ p, task.priority.map (·.span) = some p → m.stop ≤ p.start := by
  obtain ⟨blanks, marker, letter, rest, hcut⟩ := cut_of_read h
  obtain ⟨rfl, -, hne⟩ := hcut.of_marker hm
  have hlen := List.length_pos_iff.mpr hne
  have hstart := hcut.start_eq
  dsimp only
  refine ⟨by omega, by omega, fun p hp => ?_⟩
  obtain ⟨q, hq, rfl⟩ := Option.map_eq_some_iff.mp hp
  exact Nat.le_of_eq (congrArg Span.start (hcut.of_priority hq).1).symm

/-- The priority stands in front of the fields. -/
theorem priority_before (h : read settings unit target number raw = .ok task) {p : Span}
    (hp : task.priority.map (·.span) = some p) :
    p.start < p.stop ∧ p.stop ≤ startOf settings unit raw := by
  obtain ⟨blanks, marker, letter, rest, hcut⟩ := cut_of_read h
  obtain ⟨q, hq, rfl⟩ := Option.map_eq_some_iff.mp hp
  obtain ⟨hspan, hletter, -⟩ := hcut.of_priority hq
  have hstart := hcut.start_eq
  rw [hletter] at hstart
  rw [hspan]
  simp only [List.length_cons, List.length_nil] at hstart ⊢
  omega

theorem startOf_le (h : read settings unit target number raw = .ok task) :
    startOf settings unit raw ≤ raw.length := by
  obtain ⟨blanks, marker, letter, rest, hcut⟩ := cut_of_read h
  have hstart := hcut.start_eq
  have hraw := congrArg List.length hcut.raw_eq
  simp only [List.length_append] at hraw
  omega

theorem recorded_inside (h : read settings unit target number raw = .ok task) :
    ∀ s ∈ task.recorded, s.start < s.stop ∧ s.stop ≤ raw.length := by
  intro s hs
  have hle := startOf_le h
  obtain hm | hp | ⟨x, hx, rfl⟩ := (mem_recorded h).mp hs
  · obtain ⟨hlt, hstop, -⟩ := marker_before h hm
    exact ⟨hlt, by omega⟩
  · obtain ⟨hlt, hstop⟩ := priority_before h hp
    exact ⟨hlt, by omega⟩
  · obtain ⟨-, token, hstands, hstop, -⟩ := field_stands h hx
    have hbound := hstands.bound
    have hpos := token.text_length_pos
    omega

theorem recorded_apart (h : read settings unit target number raw = .ok task) :
    task.recorded.Pairwise Span.Disjoint := by
  refine Task.recorded_disjoint (keys_apart_of_read h) (fields_disjoint h) ?_ ?_
  · rintro m hm s (hp | ⟨x, hx, rfl⟩)
    · exact .inl ((marker_before h hm).2.2 s hp)
    · exact .inl (Nat.le_trans (marker_before h hm).2.1 (field_stands h hx).1)
  · intro p hp x hx
    exact .inl (Nat.le_trans (priority_before h hp).2 (field_stands h hx).1)

/-! ## The title -/

/-- A column behind the start of a line is covered by a field or not at
all. -/
theorem anyCovers_recorded (h : read settings unit target number raw = .ok task) {i : Nat}
    (hi : startOf settings unit raw ≤ i) :
    Span.anyCovers task.recorded i = Span.anyCovers (task.fields.map (·.span)) i := by
  rw [Bool.eq_iff_iff]
  simp only [Span.anyCovers, List.any_eq_true, mem_recorded h, List.mem_map]
  constructor
  · rintro ⟨s, hm | hp | hx, hcovers⟩
    · have := marker_before h hm
      have := Span.covers_iff.mp hcovers
      omega
    · have := priority_before h hp
      have := Span.covers_iff.mp hcovers
      omega
    · exact ⟨s, hx, hcovers⟩
  · rintro ⟨s, hx, hcovers⟩
    exact ⟨s, .inr (.inr hx), hcovers⟩

/-- What is left of a line is its indentation and what its fields leave. -/
theorem outside_recorded (h : read settings unit target number raw = .ok task) :
    ∃ blanks, (∀ c ∈ blanks, isBlank c = true) ∧ Span.outside task.recorded raw =
      blanks ++ Span.erase (task.fields.map (·.span)) (startOf settings unit raw)
        (raw.drop (startOf settings unit raw)) := by
  obtain ⟨blanks, marker, letter, rest, hcut⟩ := cut_of_read h
  have hstart := hcut.start_eq
  -- the four pieces of the line in turn: nothing is recorded in front of the mark, the
  -- mark and the priority are recorded whole, and behind them only the fields count
  have hblanks : Span.erase task.recorded 0 blanks = blanks := by
    refine Span.erase_of_uncovered fun i _ hi => List.any_eq_false.mpr fun s hs hcovers => ?_
    have hi' := Span.covers_iff.mp hcovers
    obtain hm | hp | ⟨x, hx, rfl⟩ := (mem_recorded h).mp hs
    · rw [(hcut.of_marker hm).1] at hi'
      dsimp only at hi'
      omega
    · obtain ⟨q, hq, rfl⟩ := Option.map_eq_some_iff.mp hp
      rw [(hcut.of_priority hq).1] at hi'
      dsimp only at hi'
      omega
    · have := (field_stands h hx).1
      omega
  have hmarker : Span.erase task.recorded blanks.length marker = [] := by
    refine Span.erase_of_covered fun i hle hlt => ?_
    obtain ⟨-, rfl⟩ | ⟨hsome, -, -⟩ := hcut.marker_eq
    · simp only [List.length_nil] at hlt
      omega
    · exact List.any_eq_true.mpr ⟨_, (mem_recorded h).mpr (.inl hsome),
        Span.covers_iff.mpr ⟨hle, hlt⟩⟩
  have hletter : Span.erase task.recorded (blanks.length + marker.length) letter = [] := by
    refine Span.erase_of_covered fun i hle hlt => ?_
    obtain ⟨-, rfl⟩ | ⟨c, -, -, rfl, hsome⟩ := hcut.priority_eq
    · simp only [List.length_nil] at hlt
      omega
    · exact List.any_eq_true.mpr ⟨_, (mem_recorded h).mpr (.inr (.inl (by rw [hsome]; rfl))),
        Span.covers_iff.mpr ⟨hle, hlt⟩⟩
  refine ⟨blanks, hcut.blank, ?_⟩
  rw [hcut.drop_start, ← Span.erase_congr fun i hle _ => anyCovers_recorded h hle,
    ← Span.erase_zero]
  conv_lhs => rw [hcut.raw_eq]
  rw [Span.erase_append, Span.erase_append, Span.erase_append, Nat.zero_add, hblanks, hmarker,
    hletter, List.nil_append, List.nil_append, ← hstart]

/-! ## Texts -/

theorem raw_of_readExpression {v : Text} {e : Due.Expression} (h : Due.Expression.read v = .ok e) :
    e.raw = v := by
  unfold Due.Expression.read at h
  split at h
  · simp at h
  · cases h
    rfl

/-- The first number of a counter stands behind seven characters of its
tag. -/
theorem digits_textIn {column : Nat} {current behind : Text}
    (h : (Token.tag Key.count.text (some (current ++ behind))).StandsAt raw column) :
    (Span.mk (column + 7) (column + 7 + current.length)).textIn raw = current := by
  obtain ⟨before, after, rfl, rfl, -, -⟩ := h
  have hcut : before ++ ((Token.tag Key.count.text (some (current ++ behind))).text ++ after) =
      (before ++ '{' :: (Key.count.text ++ [':'])) ++ (current ++ (behind ++ '}' :: after)) := by
    simp [Token.text]
  have hlen : before.length + 7 = (before ++ '{' :: (Key.count.text ++ [':'])).length := by
    rw [List.length_append]
    rfl
  rw [hcut, hlen, Span.textIn]
  exact Text.slice_append _ _ _

/-- The text of every field is the token that it was read from. -/
theorem field_writtenAt (h : read settings unit target number raw = .ok task) {x : Located Field}
    (hx : x ∈ task.fields) : x.value.WrittenAt raw x.span := by
  obtain ⟨-, token, hstands, hstop, hfrom⟩ := field_stands h hx
  obtain ⟨span, field⟩ := x
  dsimp only at hstands hstop hfrom ⊢
  have htext := textIn_of_stands hstands hstop
  cases token with
  | mention group name =>
    rw [Field.ReadFrom] at hfrom
    subst hfrom
    exact htext
  | tag letters value =>
    obtain ⟨key, rfl, htells, -⟩ := hfrom
    cases field with
    | due tag =>
      cases key <;> cases value <;> try exact htells.elim
      obtain ⟨hread, -⟩ := htells
      rw [Field.WrittenAt, raw_of_readExpression hread]
      exact htext
    | completed since =>
      cases since <;> cases key <;> cases value <;> try exact htells.elim
      · exact htext
      · exact ⟨_, htext, htells⟩
    | created since =>
      cases key <;> cases value <;> try exact htells.elim
      exact ⟨_, htext, htells⟩
    | count c =>
      cases key <;> cases value <;> try exact htells.elim
      obtain ⟨current, needed, tail, rfl, htail, hne, hdigits, hcurrent, hneeded, hspan⟩ := htells
      refine ⟨current, needed, tail, htext, htail, hcurrent, hneeded, hne, hdigits, ?_, ?_, ?_⟩
      · rw [hspan]
        exact digits_textIn hstands
      · rw [hspan]
        dsimp only
        omega
      · rw [hspan, hstop]
        have hkey : Key.count.text.length = 5 := rfl
        simp only [Token.text, List.length_append, List.length_cons, hkey]
        omega
    | overdue since =>
      cases key <;> cases value <;> try exact htells.elim
      exact ⟨_, htext, htells⟩
    | hidden =>
      cases key <;> cases value <;> try exact htells.elim
      exact htext
    | collapsed =>
      cases key <;> cases value <;> try exact htells.elim
      exact htext
    | mention group name => exact htells.elim

end Read

end Line

/-! ## The whole line -/

/-- What a task records of its line and its title share the line out. -/
structure Task.Partition (mark : Text) (task : Task) : Prop where
  /-- Recorded columns are in the line, and there are some. -/
  inside : ∀ s ∈ task.recorded, s.start < s.stop ∧ s.stop ≤ task.raw.length
  /-- No column is recorded twice. -/
  apart : task.recorded.Pairwise Span.Disjoint
  marker : ∀ s, task.marker = some s → s.textIn task.raw = mark
  priority : ∀ p, task.priority = some p → 'A' ≤ p.value ∧ p.value ≤ 'Z' ∧
    p.span.textIn task.raw = ['(', p.value, ')']
  due : ∀ x, task.due? = some x → (Field.due x.value).WrittenAt task.raw x.span
  completion : ∀ x, task.completion? = some x → (Field.completed x.value).WrittenAt task.raw x.span
  creation : ∀ x, task.creation? = some x → (Field.created x.value).WrittenAt task.raw x.span
  count : ∀ x, task.count? = some x → (Field.count x.value).WrittenAt task.raw x.span
  overdue : ∀ x, task.overdue? = some x → (Field.overdue x.value).WrittenAt task.raw x.span
  hidden : ∀ x, task.hiddenTag? = some x → Field.hidden.WrittenAt task.raw x.span
  collapsed : ∀ x, task.collapsedTag? = some x → Field.collapsed.WrittenAt task.raw x.span
  mention : ∀ group, ∀ x ∈ task.mentions group,
    (Field.mention group x.value).WrittenAt task.raw x.span
  /-- Mentions are recorded from left to right. -/
  mentions_ordered : ∀ group, (task.mentions group).Pairwise fun a b => a.span.stop ≤ b.span.start
  /-- The names of a group are those of its mentions, -/
  names : ∀ group name, name ∈ task.names group ↔ ∃ x ∈ task.mentions group, x.value = name
  /-- each once, the one that is mentioned first in front. -/
  names_firstSeen : ∀ group, (task.names group).Pairwise fun a b =>
    ((task.mentions group).map (·.value)).idxOf a < ((task.mentions group).map (·.value)).idxOf b
  title : task.title = (Span.outside task.recorded task.raw).squeeze
  /-- A column is recorded once or not at all, -/
  once : ∀ column, (task.recorded.filter (·.covers column)).length ≤ 1
  /-- and what is not recorded is in the title, but for white space. -/
  kept : task.title.filter (!isBlank ·) =
    (Span.outside task.recorded task.raw).filter (!isBlank ·)

namespace Line

section Whole

variable {settings : Settings} {unit : Option IndentUnit} {target : Day} {number : Int}
  {raw : Text} {task : Task}

theorem marker_textIn (h : read settings unit target number raw = .ok task) {m : Span}
    (hm : task.marker = some m) : m.textIn raw = settings.doneMark := by
  obtain ⟨blanks, marker, letter, rest, hcut⟩ := cut_of_read h
  obtain ⟨hspan, hmark, -⟩ := hcut.of_marker hm
  rw [hspan, ← hmark, hcut.raw_eq, Span.textIn]
  exact Text.slice_append _ _ _

theorem priority_textIn (h : read settings unit target number raw = .ok task)
    {p : Located Char} (hp : task.priority = some p) :
    'A' ≤ p.value ∧ p.value ≤ 'Z' ∧ p.span.textIn raw = ['(', p.value, ')'] := by
  obtain ⟨blanks, marker, letter, rest, hcut⟩ := cut_of_read h
  obtain ⟨hspan, hletter, hA, hZ⟩ := hcut.of_priority hp
  refine ⟨hA, hZ, ?_⟩
  have hraw : raw = (blanks ++ marker) ++ (letter ++ rest) := by
    rw [hcut.raw_eq, List.append_assoc]
  rw [hraw, hletter, hspan, Span.textIn, ← List.length_append]
  exact Text.slice_append _ ['(', p.value, ')'] _

theorem title_of_read (h : read settings unit target number raw = .ok task) :
    task.title = (Span.outside task.recorded raw).squeeze := by
  obtain ⟨blanks, hblanks, houtside⟩ := outside_recorded h
  have htitle := congrArg Task.title (read_eq_ok h).2
  rw [houtside, Text.squeeze_blank_append hblanks, htitle]
  rfl

/-- **No text of a line is lost or doubled** when its task is read. -/
theorem read_partition (h : read settings unit target number raw = .ok task) :
    task.raw = raw ∧ task.Partition settings.doneMark := by
  have hraw := raw_of_read h
  -- what an accessor finds is a field, and every field is written where it was read
  have hfound : ∀ {α : Type} {kind : Field → Option α} {x : Located α} {field : Field},
      (∀ f, kind f = some x.value → f = field) → task.find? kind = some x →
      field.WrittenAt task.raw x.span := by
    intro α kind x field hfield hx
    obtain ⟨y, hy, hvalue, hspan⟩ := Task.mem_of_find? hx
    have := field_writtenAt h hy
    rwa [hfield _ hvalue, hspan, ← hraw] at this
  refine ⟨hraw, ?_⟩
  constructor
  case inside => exact hraw ▸ recorded_inside h
  case apart => exact recorded_apart h
  case marker => exact fun m hm => hraw ▸ marker_textIn h hm
  case priority => exact fun p hp => hraw ▸ priority_textIn h hp
  case mention => exact fun group x hx => hraw ▸ field_writtenAt h (Task.mem_mentions.mp hx)
  case mentions_ordered =>
    exact Task.mentions_pairwise (R := fun a b => a.stop ≤ b.start) (fields_ordered h)
  case names =>
    intro group name
    rw [Task.names, List.mem_eraseDups, List.mem_map]
  case names_firstSeen => exact fun group => Task.pairwise_idxOf_eraseDups _
  case title => exact hraw ▸ title_of_read h
  case once => exact Span.covering_le_one (recorded_apart h)
  case kept => rw [title_of_read h, Text.filter_squeeze, hraw]
  all_goals
    rintro ⟨span, value⟩
    refine hfound fun f hf => ?_
    cases f <;> cases hf
    rfl

end Whole

/-- A line with a value that opens a brace too many, a name with a mark in
it, a mention behind a tag, a second due tag and a tag inside of a name. -/
theorem read_partition_glued :
    ∃ task, read {} none ⟨736695, by decide, by decide⟩ 7 ("\t x (B) a\x7bb #c#d " ++
        "\x7bcount:03/5\x7d \x7bdue:mon,Tue\x7d+e \x7bcm:2018-01-02\x7d \x7bdue:wed\x7d " ++
        "+e @f +e\x7bh\x7d").toList = .ok task ∧
      (task.title, task.recorded.length) = ("a\x7bb +e \x7bdue:wed\x7d".toList, 9) ∧
      task.Partition "x ".toList := by
  have heq : (read {} none ⟨736695, by decide, by decide⟩ 7 ("\t x (B) a\x7bb #c#d " ++
      "\x7bcount:03/5\x7d \x7bdue:mon,Tue\x7d+e \x7bcm:2018-01-02\x7d \x7bdue:wed\x7d " ++
      "+e @f +e\x7bh\x7d").toList).toOption.map (fun task => (task.title, task.recorded.length)) =
        some ("a\x7bb +e \x7bdue:wed\x7d".toList, 9) := by
    decide +kernel
  generalize hread : read _ _ _ _ _ = result at heq ⊢
  cases result with
  | error e => simp [Except.toOption] at heq
  | ok task => exact ⟨task, rfl, Option.some.inj heq, (read_partition hread).2⟩

end Line

end TaskList
