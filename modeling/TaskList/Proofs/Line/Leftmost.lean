/-
TaskList.Proofs.Line.Leftmost — which tags of a line become fields.

* `Task.TakesTags` — what the tags of a line mean to its task: a key has a
  field exactly if some tag carries it, the field is read from the leftmost
  such tag, and every other tag stays in the title as it is written.
* `Line.tokens_leftmost` — the scan finds the leftmost tokens, these and no
  others, and a task takes its tags from them.

That a key has no field further left than its leftmost tag is
`Reading.field_of_carries`, where the induction is.
-/
import TaskList.Proofs.Line.Partition

namespace TaskList

/-- How a task takes its fields from the tags of its line. -/
structure Task.TakesTags (target : Day) (found : List (Located Token)) (task : Task) : Prop where
  /-- A key has a field exactly if some tag carries it. -/
  set_iff : ∀ key, (task.fieldOf? key).isSome ↔ ∃ t ∈ found, key.Carries t.value
  /-- The field is what the leftmost such tag says. -/
  leftmost : ∀ key x, task.fieldOf? key = some x → ∃ t ∈ found, t.span = x.span ∧
    key.Carries t.value ∧ x.value.ReadFrom target x.span.start t.value ∧
      ∀ other ∈ found, key.Carries other.value → t.span.start ≤ other.span.start
  /-- Any other tag is cut by nothing and stands in the title. -/
  kept : ∀ t ∈ found, (∃ letters value, t.value = .tag letters value) →
    (∀ key, task.spanOf? key ≠ some t.span) →
      (∀ s ∈ task.recorded, s.Disjoint t.span) ∧
      task.title = (Span.erase task.recorded 0 (task.raw.take t.span.start) ++ (t.value.text ++
        Span.erase task.recorded t.span.stop (task.raw.drop t.span.stop))).squeeze

/-- A field of a key that is read from a token: the token carries the key. -/
theorem Field.ReadFrom.carries {target : Day} {column : Nat} {field : Field} {token : Token}
    {key : Key} (h : field.ReadFrom target column token) (hkey : field.key? = some key) :
    key.Carries token := by
  cases token with
  | mention group name =>
    rw [Field.ReadFrom] at h
    subst h
    simp [Field.key?] at hkey
  | tag letters value =>
    obtain ⟨other, rfl, htells, htakes⟩ := h
    rw [htells.key?_eq] at hkey
    cases hkey
    exact ⟨value, rfl, htakes⟩

namespace Line

section Read

variable {settings : Settings} {unit : Option IndentUnit} {target : Day} {number : Int}
  {raw : Text} {task : Task}

theorem tokens_disjoint (raw : Text) (start : Nat) :
    (tokens raw start).Pairwise fun a b => a.span.Disjoint b.span :=
  (tokens_isLeftmost raw start).ordered.imp fun hab => .inl hab

/-- The tokens of a line start one behind the other. -/
theorem tokens_starts (raw : Text) (start : Nat) :
    (tokens raw start).Pairwise fun a b => a.span.start ≤ b.span.start := by
  have hleft := tokens_isLeftmost raw start
  refine hleft.ordered.imp_of_mem fun {a b} ha _ hab => ?_
  have hstop := (hleft.stands a ha).2.2
  omega

/-- Of the tags that carry a key, the one that its field is read from is
the leftmost. -/
theorem field_leftmost (h : read settings unit target number raw = .ok task) {key : Key}
    {x : Located Field} (hx : task.fieldOf? key = some x) {t : Located Token}
    (ht : t ∈ tokens raw (startOf settings unit raw)) (hcarries : key.Carries t.value) :
    x.span.start ≤ t.span.start := by
  obtain ⟨y, hy, hkey, hle⟩ := (reading_of_read h).field_of_carries (tokens_starts _ _)
    List.not_mem_nil ht hcarries
  have hy' := (Task.fieldOf?_eq_some_iff (keys_apart_of_read h)).mpr ⟨hy, hkey⟩
  rw [hx] at hy'
  cases hy'
  exact hle

/-- What a task records does not reach into a tag that no key is read
from. -/
theorem recorded_disjoint_of_kept (h : read settings unit target number raw = .ok task)
    {t : Located Token} (ht : t ∈ tokens raw (startOf settings unit raw))
    (htag : ∃ letters value, t.value = .tag letters value)
    (hkept : ∀ key, task.spanOf? key ≠ some t.span) {s : Span} (hs : s ∈ task.recorded) :
    s.Disjoint t.span := by
  have hstart := ((tokens_isLeftmost _ _).stands t ht).1
  obtain hm | hp | ⟨x, hx, rfl⟩ := (mem_recorded h).mp hs
  · exact .inl (Nat.le_trans (marker_before h hm).2.1 hstart)
  · exact .inl (Nat.le_trans (priority_before h hp).2 hstart)
  · obtain ⟨y, hy, hspan, hfrom⟩ := (reading_of_read h).from_token hx
    by_cases hyt : y = t
    · obtain ⟨letters, value, hvalue⟩ := htag
      rw [hyt, hvalue] at hfrom
      obtain ⟨key, -, htells, -⟩ := hfrom
      refine absurd ?_ (hkept key)
      rw [Task.spanOf?_eq_some_iff (keys_apart_of_read h)]
      exact ⟨x, hx, htells.key?_eq, by rw [← hspan, hyt]⟩
    · have hsymm : Std.Symm fun a b : Located Token => a.span.Disjoint b.span :=
        ⟨fun _ _ hab => Or.symm hab⟩
      rw [← hspan]
      exact (tokens_disjoint _ _).forall hy ht hyt

/-- A tag that no recorded column reaches into is in the title whole. -/
theorem title_of_kept (h : read settings unit target number raw = .ok task) {t : Located Token}
    (hstands : t.value.StandsAt raw t.span.start)
    (hstop : t.span.stop = t.span.start + t.value.text.length)
    (hapart : ∀ s ∈ task.recorded, s.Disjoint t.span) :
    task.title = (Span.erase task.recorded 0 (raw.take t.span.start) ++ (t.value.text ++
      Span.erase task.recorded t.span.stop (raw.drop t.span.stop))).squeeze := by
  have htext : Span.erase task.recorded t.span.start t.value.text = t.value.text := by
    refine Span.erase_of_uncovered fun i hle hlt => List.any_eq_false.mpr fun s hs hcovers => ?_
    have hi : t.span.covers i = true := Span.covers_iff.mpr ⟨hle, by omega⟩
    rw [(hapart s hs).not_covers hcovers] at hi
    exact absurd hi (by decide)
  obtain ⟨before, after, hraw, hbefore, -, -⟩ := hstands
  have htake : raw.take t.span.start = before := by
    rw [hraw, ← hbefore, List.take_left]
  have hdrop : raw.drop t.span.stop = after := by
    rw [hraw, hstop, ← hbefore, ← List.length_append, ← List.append_assoc, List.drop_left]
  rw [title_of_read h, ← Span.erase_zero, htake, hdrop]
  conv_lhs => rw [hraw]
  rw [Span.erase_append, Span.erase_append, Nat.zero_add, hbefore, htext, hstop]

theorem takesTags_of_read (h : read settings unit target number raw = .ok task) :
    task.TakesTags target (tokens raw (startOf settings unit raw)) := by
  have hsome : ∀ key x, task.fieldOf? key = some x → ∃ t ∈ tokens raw (startOf settings unit raw),
      t.span = x.span ∧ key.Carries t.value ∧ x.value.ReadFrom target x.span.start t.value := by
    intro key x hx
    obtain ⟨hmem, hkey⟩ := (Task.fieldOf?_eq_some_iff (keys_apart_of_read h)).mp hx
    obtain ⟨t, ht, hspan, hfrom⟩ := (reading_of_read h).from_token hmem
    exact ⟨t, ht, hspan, hfrom.carries hkey, hfrom⟩
  constructor
  case set_iff =>
    intro key
    rw [Option.isSome_iff_exists]
    constructor
    · rintro ⟨x, hx⟩
      obtain ⟨t, ht, -, hcarries, -⟩ := hsome key x hx
      exact ⟨t, ht, hcarries⟩
    · rintro ⟨t, ht, hcarries⟩
      obtain ⟨x, hx, hkey, -⟩ := (reading_of_read h).field_of_carries (tokens_starts _ _)
        List.not_mem_nil ht hcarries
      exact ⟨x, (Task.fieldOf?_eq_some_iff (keys_apart_of_read h)).mpr ⟨hx, hkey⟩⟩
  case leftmost =>
    intro key x hx
    obtain ⟨t, ht, hspan, hcarries, hfrom⟩ := hsome key x hx
    refine ⟨t, ht, hspan, hcarries, hfrom, fun other hother hcarries' => ?_⟩
    rw [hspan]
    exact field_leftmost h hx hother hcarries'
  case kept =>
    intro t ht htag hkept
    have hapart := fun s hs => recorded_disjoint_of_kept h ht htag hkept (s := s) hs
    obtain ⟨-, hstands, hstop⟩ := (tokens_isLeftmost _ _).stands t ht
    rw [raw_of_read h]
    exact ⟨hapart, title_of_kept h hstands hstop hapart⟩

end Read

/-- **The scan finds the leftmost tokens** of a line, from any column on
and no others, and a task takes its tags from those behind the start of its
line. -/
theorem tokens_leftmost (raw : Text) (start : Nat) :
    IsLeftmost raw start (tokens raw start) ∧
    (∀ found, IsLeftmost raw start found → found = tokens raw start) ∧
    ∀ settings unit target number task, startOf settings unit raw = start →
      read settings unit target number raw = .ok task →
        task.TakesTags target (tokens raw start) := by
  refine ⟨tokens_isLeftmost raw start, fun found h => h.unique (tokens_isLeftmost raw start), ?_⟩
  rintro settings unit target number task rfl h
  exact takesTags_of_read h

/-- A due tag with a value of white space only, two with days, and a tag
with a value that its key does not take. -/
theorem tokens_leftmost_repeated :
    ∃ task, read {} none ⟨736695, by decide, by decide⟩ 0
        "a#b \x7bdue: \x7d\x7bdue:mon\x7d \x7bdue:tue\x7d+c \x7bh:1\x7d".toList = .ok task ∧
      (task.spanOf? .due, task.spanOf? .hidden) = (some ⟨11, 20⟩, none) ∧
      task.TakesTags ⟨736695, by decide, by decide⟩
        (tokens "a#b \x7bdue: \x7d\x7bdue:mon\x7d \x7bdue:tue\x7d+c \x7bh:1\x7d".toList 0) := by
  have heq : (read {} none ⟨736695, by decide, by decide⟩ 0
      "a#b \x7bdue: \x7d\x7bdue:mon\x7d \x7bdue:tue\x7d+c \x7bh:1\x7d".toList).toOption.map
        (fun task => (task.spanOf? .due, task.spanOf? .hidden)) = some (some ⟨11, 20⟩, none) := by
    decide +kernel
  have hstart : startOf {} none
      "a#b \x7bdue: \x7d\x7bdue:mon\x7d \x7bdue:tue\x7d+c \x7bh:1\x7d".toList = 0 := by
    decide +kernel
  generalize hread : read _ _ _ _ _ = result at heq ⊢
  cases result with
  | error e => simp [Except.toOption] at heq
  | ok task =>
    exact ⟨task, rfl, Option.some.inj heq, (tokens_leftmost _ _).2.2 _ _ _ _ _ hstart hread⟩

end Line

end TaskList
