/-
TaskList.Proofs.Line.Stamped — a line with a counter, and with a completion tag
at its end.

* `Line.HasCounter` — parts with a counter, how much is done and how much has to
  be done. `Laid.count?_of_hasCounter` — the task of such parts has that counter.
* `Line.Repeats` — parts that say what a task says, but for how much is done.
* `Line.stampParts` — the space and the completion tag behind the parts of a line.
  `LaidOut.stamp` — the line with such a tag put in; `LaidOut.unstamp` — the line
  without what stands behind some of its parts.
-/
import TaskList.Action.Tags
import TaskList.Proofs.Calendar.Stamp
import TaskList.Proofs.Line.Visited

namespace TaskList

namespace Line

/-! ## Parts with a counter -/

/-- Among the parts is a counter. -/
def HasCounter (parts : List Part) (done needed : Nat) : Prop :=
  ∃ token c, Part.taken token (.count c) ∈ parts ∧ c.current = done ∧ c.needed = needed

section HasCounter

variable {settings : Settings} {unit : Option IndentUnit} {target : Day} {number : Int}
  {raw : Text} {before : Option Char} {used : List Key} {parts base rest : List Part}
  {after : Text} {done needed : Nat}

theorem HasCounter.recount (h : HasCounter parts done needed) (value : Nat) :
    HasCounter (parts.map (Part.recount value)) value needed := by
  obtain ⟨token, c, hmem, -, hneeded⟩ := h
  exact ⟨_, _, List.mem_map_of_mem hmem, rfl, hneeded⟩

theorem HasCounter.append (h : HasCounter parts done needed) (rest : List Part) :
    HasCounter (parts ++ rest) done needed := by
  obtain ⟨token, c, hmem, hc⟩ := h
  exact ⟨token, c, List.mem_append_left rest hmem, hc⟩

theorem HasCounter.of_isBase (h : HasCounter parts done needed) (hbase : IsBase base parts) :
    HasCounter base done needed := by
  obtain ⟨token, c, hmem, hc⟩ := h
  rcases hbase with rfl | rfl
  · exact ⟨token, c, hmem, hc⟩
  · rcases List.mem_append.mp hmem with hmem | hmem
    · exact ⟨token, c, hmem, hc⟩
    · simp at hmem

theorem HasCounter.exists_key (h : HasCounter parts done needed) :
    ∃ part ∈ parts, Key.count ∈ part.keys := by
  obtain ⟨token, c, hmem, -⟩ := h
  exact ⟨_, hmem, List.mem_singleton_self Key.count⟩

theorem HasCounter.brace_mem (h : HasCounter parts done needed)
    (hlaid : Laid target before used parts after) : '{' ∈ textOf parts := by
  obtain ⟨part, hpart, hkey⟩ := h.exists_key
  exact hlaid.brace_mem hpart hkey

/-- What is needed can be read, so no number up to it is too long. -/
theorem HasCounter.value_ofNat (h : HasCounter parts done needed)
    (hlaid : Laid target before used parts after) {value : Nat} (hle : value ≤ needed) :
    Numeral.value (Numeral.ofNat value) = .ok value := by
  obtain ⟨token, c, hmem, -, rfl⟩ := h
  obtain ⟨front, back, rfl⟩ := List.append_of_mem hmem
  obtain ⟨-, ⟨-, -, hfield⟩, -⟩ := laid_append.mp hlaid
  exact value_ofNat_of_field? hfield (.inr hle)

/-- The task of parts with a counter has that counter. -/
theorem Laid.count?_of_hasCounter (hlaid : Laid target before used parts after)
    (h : HasCounter parts done needed) :
    ∃ x, (taskOf settings unit number raw parts).count? = some x ∧ x.value.current = done ∧
      x.value.needed = needed := by
  obtain hnone | ⟨front, token, c, back, rfl, hfront, hback⟩ := hlaid.counter_cases
  · obtain ⟨part, hpart, hkey⟩ := h.exists_key
    exact absurd hkey (hnone part hpart)
  · obtain ⟨x, hx, hvalue⟩ := Option.map_eq_some_iff.mp
      (counter?_eq_some hfront (startOf settings unit raw) token c back)
    refine ⟨x, hx, ?_⟩
    obtain ⟨token', c', hmem, rfl, rfl⟩ := h
    -- there is one counter only
    obtain rfl : c' = c := by
      have hkey : Key.count ∈ (Part.taken token' (.count c')).keys :=
        List.mem_singleton_self Key.count
      rcases List.mem_append.mp hmem with hmem | hmem
      · exact absurd hkey (hfront _ hmem)
      · rcases List.mem_cons.mp hmem with heq | hmem
        · cases heq
          rfl
        · exact absurd hkey (hback _ hmem)
    rw [hvalue]
    exact ⟨rfl, rfl⟩

/-- A task that has a counter is the task of such parts. -/
theorem Laid.hasCounter_of_count? (hlaid : Laid target before used parts after)
    {x : Located Count} (hx : (taskOf settings unit number raw parts).count? = some x) :
    HasCounter parts x.value.current x.value.needed := by
  have hcount : (taskOf settings unit number raw parts).count? =
      counter? (fieldsAt (startOf settings unit raw) parts) := rfl
  obtain hnone | ⟨front, token, c, back, rfl, hfront, -⟩ := hlaid.counter_cases
  · rw [hcount, counter?_eq_none hnone] at hx
    simp at hx
  · have hvalue := counter?_eq_some hfront (startOf settings unit raw) token c back
    rw [← hcount, hx, Option.map_some, Option.some.injEq] at hvalue
    exact ⟨token, c, List.mem_append_right _ List.mem_cons_self, by rw [hvalue], by rw [hvalue]⟩

/-- What stands behind parts with a counter does not matter to it. -/
theorem HasCounter.count?_append (h : HasCounter base done needed)
    (hlaid : Laid target before used base after) {raw' : Text}
    (hstart : startOf settings unit raw' = startOf settings unit raw) (rest : List Part) :
    (taskOf settings unit number raw' (base ++ rest)).count? =
      (taskOf settings unit number raw base).count? := by
  have hcount : ∀ (t : Text) (parts : List Part), (taskOf settings unit number t parts).count? =
      counter? (fieldsAt (startOf settings unit t) parts) := fun _ _ => rfl
  obtain ⟨x, hx, -⟩ : ∃ x, (taskOf settings unit number raw base).count? = some x ∧ _ :=
    hlaid.count?_of_hasCounter h
  rw [hcount] at hx ⊢
  rw [hcount, hstart, fieldsAt_append, hx]
  unfold counter? at hx ⊢
  rw [List.findSome?_append, hx, Option.some_or]

end HasCounter

/-! ## Parts that say the same -/

/-- The parts say what the task does, with a number of its own for what is done. -/
structure Repeats (parts : List Part) (task : Task) (done needed : Nat) : Prop where
  lasting_eq : lastingOf parts = task.lasting
  title_eq : Text.squeeze (leftoverOf parts) = task.title
  counter : HasCounter parts done needed

section Repeats

variable {task : Task} {parts base : List Part} {done needed : Nat}

theorem Repeats.recount (h : Repeats parts task done needed) (value : Nat) :
    Repeats (parts.map (Part.recount value)) task value needed where
  lasting_eq := (lastingOf_recount parts value).trans h.lasting_eq
  title_eq := by rw [leftoverOf_recount, h.title_eq]
  counter := h.counter.recount value

/-- A space at the end says nothing. -/
theorem Repeats.of_isBase (h : Repeats parts task done needed) (hbase : IsBase base parts) :
    Repeats base task done needed where
  lasting_eq := by
    rw [← h.lasting_eq]
    rcases hbase with rfl | rfl
    · rfl
    · simp [lastingOf, Part.field?]
  title_eq := by
    rw [← h.title_eq]
    rcases hbase with rfl | rfl
    · rfl
    · rw [leftoverOf_append]
      exact (Text.squeeze_append_blank (by decide) _).symm
  counter := h.counter.of_isBase hbase

end Repeats

/-! ## The completion tag -/

/-- The completion tag of an instant. -/
def stampTag (settings : Settings) (now : Instant) : Token :=
  .tag Key.completed.text (some (Task.stamp settings now))

/-- The field that the completion tag of an instant is read as. -/
def stampField (settings : Settings) (now : Instant) : Field :=
  .completed (some (now.stamped settings.stampsTime))

/-- A space and the completion tag, if a task is done since an instant. -/
def stampParts (settings : Settings) : Option Instant → List Part
  | none => []
  | some now => [.plain ' ', .taken (stampTag settings now) (stampField settings now)]

section Stamp

variable {settings : Settings} {unit : Option IndentUnit} {target : Day} {number : Int}
  {raw : Text} {parts base rest : List Part} {now : Instant} {since : Option Instant}

theorem isShaped_stampTag : (stampTag settings now).IsShaped := by
  refine Token.isShaped_tag .completed fun v hv c hc => ?_
  obtain rfl := Option.some.inj hv
  rcases Instant.mem_written hc with hdigit | rfl | rfl | rfl
  · exact Token.isValueChar_of_isDigit hdigit
  · decide
  · decide
  · decide

theorem field?_stampTag {used : List Key} (h : 1000 ≤ now.day.civil.year)
    (hused : Key.completed ∉ used) :
    field? target used ⟨⟨0, 0⟩, stampTag settings now⟩ =
      .ok (some (stampField settings now, (stampField settings now).key?.toList)) := by
  refine field?_tag_iff.mpr ⟨.completed, rfl, hused, ?_, rfl⟩
  rw [Field.ofTag?, Task.stamp, Instant.parse?_written h]
  rfl

theorem lastingOf_stampParts (parts : List Part) (since : Option Instant) :
    lastingOf (parts ++ stampParts settings since) =
      lastingOf parts ++ (since.map (stampField settings)).toList := by
  cases since with
  | none => simp [stampParts]
  | some now => simp [stampParts, lastingOf, Part.field?, stampField, Field.lasting]

theorem squeeze_stampParts (parts : List Part) (since : Option Instant) :
    Text.squeeze (leftoverOf (parts ++ stampParts settings since)) =
      Text.squeeze (leftoverOf parts) := by
  cases since with
  | none => rw [stampParts, List.append_nil]
  | some now => exact IsBase.leftover (.inl rfl) _ _

/-- **A completion tag is put in** behind the parts of a line with a counter. -/
theorem LaidOut.stamp (h : LaidOut settings unit target raw parts)
    (hmark : '{' ∉ settings.doneMark) (hyear : 1000 ≤ now.day.civil.year)
    (hbrace : '{' ∈ textOf parts)
    (hnone : ∀ field ∈ lastingOf parts, field.key? ≠ some .completed) :
    ∃ base, IsBase base parts ∧
      Relaid settings unit target raw (raw.withTag (stampTag settings now).text)
        (base ++ stampParts settings (some now)) := by
  have hused : Key.completed ∉ usedBehind [] parts := by
    rw [mem_usedBehind, exists_key_iff]
    rintro (hnil | ⟨field, hfield, hkey⟩)
    · simp at hnil
    · exact hnone field hfield hkey
  exact h.append hmark hbrace isShaped_stampTag (field?_stampTag hyear hused)

/-- A line is cut where some of its parts end. -/
theorem LaidOut.raw_eq_append (h : LaidOut settings unit target raw (base ++ rest)) :
    (raw.take (startOf settings unit raw) ++ textOf base) ++ textOf rest = raw := by
  rw [List.append_assoc, ← textOf_append, h.raw_eq]

/-- **What stands behind parts is taken out** of a line, if there is a brace in
these parts. -/
theorem LaidOut.unstamp (h : LaidOut settings unit target raw (base ++ rest))
    (hmark : '{' ∉ settings.doneMark) (hbrace : '{' ∈ textOf base) :
    Relaid settings unit target raw (raw.take (startOf settings unit raw) ++ textOf base) base := by
  have hsame : Text.SameToBrace (textOf (base ++ rest)) (textOf base) := by
    obtain ⟨u, v, huv⟩ := List.append_of_mem hbrace
    exact ⟨u, v ++ textOf rest, v, by rw [textOf_append, huv]; simp, huv⟩
  refine h.changed hmark hsame ?_
  -- the end of the line is like a tag to what stands in front of it
  exact (laid_append.mp h.laid).1.follow (.inl rfl) fun _ c hc => by simp at hc

/-- The completion tag is the last thing in its line. -/
theorem LaidOut.completion?_stampParts
    (h : LaidOut settings unit target raw (base ++ stampParts settings (some now)))
    (hnone : ∀ field ∈ lastingOf base, field.key? ≠ some .completed) :
    (taskOf settings unit number raw (base ++ stampParts settings (some now))).completion? =
      some ⟨⟨(raw.take (startOf settings unit raw) ++ textOf base).length + 1, raw.length⟩,
        some (now.stamped settings.stampsTime)⟩ := by
  have hbase : (taskOf settings unit number raw base).completion? = none := by
    refine List.findSome?_eq_none_iff.mpr fun x hx => ?_
    obtain ⟨part, hpart, field, hfield, columns, hvalue⟩ := mem_fieldsAt hx
    have hnot := hnone field.lasting (List.mem_filterMap.mpr ⟨part, hpart, by rw [hfield]; rfl⟩)
    rw [hvalue]
    cases field with
    | completed since => exact absurd rfl hnot
    | _ => rfl
  have hlength := congrArg List.length h.raw_eq
  rw [textOf_append, List.length_append, List.length_append, h.length_start] at hlength
  have htail : (textOf (stampParts settings (some now))).length =
      1 + (stampTag settings now).text.length := by
    simp [stampParts, Part.text, Nat.add_comm]
  have hfields : (taskOf settings unit number raw
      (base ++ stampParts settings (some now))).fields =
        (taskOf settings unit number raw base).fields ++
          [⟨⟨startOf settings unit raw + (textOf base).length + 1, raw.length⟩,
            stampField settings now⟩] := by
    have hstop : startOf settings unit raw + (textOf base).length + 1 +
        (stampTag settings now).text.length = raw.length := by omega
    refine (fieldsAt_append _ _ _).trans (congrArg (fieldsAt _ base ++ ·) ?_)
    simp only [stampParts, fieldsAt, Part.field?, Part.text, Option.map_none, Option.toList_none,
      List.nil_append, List.length_singleton, Option.map_some, Option.toList_some,
      List.append_nil, hstop]
    rfl
  rw [Task.completion?, Task.find?, hfields, List.findSome?_append]
  rw [Task.completion?, Task.find?] at hbase
  rw [hbase, List.length_append, h.length_start]
  rfl

end Stamp

end Line

end TaskList
