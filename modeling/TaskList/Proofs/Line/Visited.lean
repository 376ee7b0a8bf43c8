/-
TaskList.Proofs.Line.Visited — the line of a task after a visit.

* `Field.lasting` — a field without its columns, and a counter without what is
  done: all that a visit leaves as it is. `Task.lasting` — the fields of a task
  like that.
* `Task.visited` — the line with its counter at zero, and with an overdue tag at
  its end if the task was missed.
* `Line.Visit` — what the task of that line has in common with the one before:
  its fields last, and the overdue tag is one more. `Line.exists_visit` — the
  line is read again as such a task.
* `Line.Visit.visited_eq` — what a visit puts in is settled for those that
  follow.
-/
import TaskList.Proofs.Calendar.Spelling
import TaskList.Proofs.Line.Appended
import TaskList.Proofs.Line.Counter

namespace TaskList

/-! ## What lasts -/

/-- The field without its columns, and without what a counter says is done. -/
def Field.lasting : Field → Field
  | .count c => .count ⟨0, c.needed, ⟨0, 0⟩⟩
  | field => field

namespace Field

@[simp] theorem lasting_moved (columns : Nat) (field : Field) :
    (field.moved columns).lasting = field.lasting := by cases field <;> rfl

@[simp] theorem key?_lasting (field : Field) : field.lasting.key? = field.key? := by
  cases field <;> rfl

end Field

namespace Task

/-- The fields of the task, as far as they last. -/
def lasting (task : Task) : List Field := task.fields.map (·.value.lasting)

/-- An accessor that does not see what is done finds what lasts. -/
theorem value_find? {α : Type} {kind : Field → Option α}
    (hkind : ∀ field : Field, kind field.lasting = kind field) (task : Task) :
    (task.find? kind).map (·.value) = task.lasting.findSome? kind := by
  rw [find?, lasting, List.map_findSome?, List.findSome?_map]
  refine congrArg (List.findSome? · task.fields) (funext fun field => ?_)
  simp only [Function.comp_apply, hkind]
  cases kind field.value <;> rfl

/-- The names of the groups that the task is in are among what lasts. -/
theorem value_mentions (task : Task) (group : Group) :
    (task.mentions group).map (·.value) = task.lasting.filterMap fun
      | .mention g name => if g = group then some name else none
      | _ => none := by
  rw [mentions, lasting, List.map_filterMap, List.filterMap_map]
  refine congrArg (List.filterMap · task.fields) (funext fun field => ?_)
  obtain ⟨span, value⟩ := field
  cases value with
  | mention g name =>
    by_cases hgroup : g = group <;> simp [Field.lasting, hgroup]
  | _ => rfl

/-- A task has what a key stands for if it has a field with the key. -/
theorem isSome_fieldOf? (task : Task) (key : Key) :
    (task.fieldOf? key).isSome = true ↔ ∃ field ∈ task.lasting, field.key? = some key := by
  simp only [lasting, List.mem_map, exists_exists_and_eq_and, Field.key?_lasting]
  rcases task.fieldOf?_cases key with ⟨x, hx, hkey, hsome⟩ | ⟨hnot, hnone⟩
  · simp only [hsome, Option.isSome_some, true_iff]
    exact ⟨x, hx, hkey⟩
  · simp only [hnone, Option.isSome_none, Bool.false_eq_true, false_iff, not_exists, not_and]
    exact hnot

theorem isSome_due? (task : Task) :
    task.due?.isSome = true ↔ ∃ field ∈ task.lasting, field.key? = some .due := by
  rw [← isSome_fieldOf?, fieldOf?, Option.isSome_map]

theorem isSome_overdue? (task : Task) :
    task.overdue?.isSome = true ↔ ∃ field ∈ task.lasting, field.key? = some .overdue := by
  rw [← isSome_fieldOf?, fieldOf?, Option.isSome_map]

/-! ### One field more -/

section More

variable {before after : Task} {more : Option Field}

/-- With one field more an accessor finds what it found, or else that field. -/
theorem value_find?_append {α : Type} {kind : Field → Option α}
    (h : after.lasting = before.lasting ++ more.toList)
    (hkind : ∀ field : Field, kind field.lasting = kind field) :
    (after.find? kind).map (·.value) = ((before.find? kind).map (·.value)).or (more.bind kind) := by
  rw [value_find? hkind, value_find? hkind, h, List.findSome?_append]
  cases more <;> simp

/-- A field that is no mention puts the task into no group. -/
theorem names_append (h : after.lasting = before.lasting ++ more.toList)
    (hmore : ∀ field ∈ more, ∀ group name, field ≠ .mention group name) (group : Group) :
    after.names group = before.names group := by
  rw [names, names, value_mentions, value_mentions, h, List.filterMap_append]
  cases more with
  | none => exact congrArg List.eraseDups (List.append_nil _)
  | some field =>
    cases field with
    | mention g name => exact absurd rfl (hmore _ rfl g name)
    | _ => exact congrArg List.eraseDups (List.append_nil _)

end More

end Task

namespace Line

/-- The fields of parts, as far as they last. -/
def lastingOf (parts : List Part) : List Field :=
  parts.filterMap fun part => part.field?.map Field.lasting

theorem lasting_fieldsAt (column : Nat) (parts : List Part) :
    (fieldsAt column parts).map (·.value.lasting) = lastingOf parts := by
  induction parts generalizing column with
  | nil => rfl
  | cons part parts ih =>
    rw [fieldsAt, List.map_append, ih, lastingOf, lastingOf, List.filterMap_cons]
    cases part.field? <;> simp

theorem lastingOf_recount (parts : List Part) (done : Nat) :
    lastingOf (parts.map (Part.recount done)) = lastingOf parts := by
  rw [lastingOf, lastingOf, List.filterMap_map]
  refine congrArg (List.filterMap · parts) (funext fun part => ?_)
  cases part with
  | plain c => rfl
  | kept token => rfl
  | taken token field => cases field <;> rfl

theorem IsBase.lasting {base parts : List Part} (h : IsBase base parts) (token : Token)
    (field : Field) : lastingOf (base ++ [.plain ' ', .taken token field]) =
      lastingOf parts ++ [field.lasting] := by
  rcases h with rfl | rfl <;> simp [lastingOf, Part.field?]

section TaskOf

variable {settings : Settings} {unit : Option IndentUnit} {target : Day} {number : Int}
  {raw raw' : Text} {parts parts' : List Part}

theorem lasting_taskOf : (taskOf settings unit number raw parts).lasting = lastingOf parts :=
  lasting_fieldsAt _ parts

/-- The tasks of two lines with the same start and the same title. -/
theorem Relaid.taskOf_eq (h : Relaid settings unit target raw raw' parts')
    (htitle : Text.squeeze (leftoverOf parts') = Text.squeeze (leftoverOf parts)) :
    taskOf settings unit number raw' parts' =
      { taskOf settings unit number raw parts with
        raw := raw'
        fields := (taskOf settings unit number raw' parts').fields } := by
  simp only [taskOf, h.head_eq, htitle]

end TaskOf

/-! ## After a visit -/

/-- The tag of a day on which a task was missed. -/
def overdueTag (day : Day) : Token := .tag Key.overdue.text (some day.written)

end Line

/-- The line of the task after a visit that found when it was missed. -/
def Task.visited (task : Task) : Option Day → Text
  | none => task.withCount 0
  | some day => (task.withCount 0).withTag (Line.overdueTag day).text

namespace Line

theorem isShaped_overdueTag (day : Day) : (overdueTag day).IsShaped := by
  refine Token.isShaped_tag .overdue fun v hv c hc => ?_
  obtain rfl := Option.some.inj hv
  rcases Day.mem_written hc with hdigit | rfl
  · exact Token.isValueChar_of_isDigit hdigit
  · decide

theorem field?_overdueTag {target day : Day} {used : List Key} (h : 1000 ≤ day.civil.year)
    (hused : Key.overdue ∉ used) :
    field? target used ⟨⟨0, 0⟩, overdueTag day⟩ =
      .ok (some (.overdue day, (Field.overdue day).key?.toList)) := by
  refine field?_tag_iff.mpr ⟨.overdue, rfl, hused, ?_, rfl⟩
  rw [Field.ofTag?, Day.parse?_written h]
  rfl

/-- The keys of parts are those of what lasts of them. -/
theorem exists_key_iff {parts : List Part} {key : Key} :
    (∃ part ∈ parts, key ∈ part.keys) ↔ ∃ field ∈ lastingOf parts, field.key? = some key := by
  simp only [lastingOf, List.mem_filterMap, Option.map_eq_some_iff, Part.keys, Option.mem_toList,
    Option.bind_eq_some_iff]
  constructor
  · rintro ⟨part, hpart, field, hfield, hkey⟩
    exact ⟨field.lasting, ⟨part, hpart, field, hfield, rfl⟩, by rwa [Field.key?_lasting]⟩
  · rintro ⟨_, ⟨part, hpart, field, hfield, rfl⟩, hkey⟩
    exact ⟨part, hpart, field, hfield, by rwa [Field.key?_lasting] at hkey⟩

/-- A part with a key is a tag. -/
theorem Laid.brace_mem {target : Day} {before : Option Char} {used : List Key}
    {parts : List Part} {after : Text} (h : Laid target before used parts after) {part : Part}
    (hpart : part ∈ parts) {key : Key} (hkey : key ∈ part.keys) : '{' ∈ textOf parts := by
  obtain ⟨front, back, rfl⟩ := List.append_of_mem hpart
  obtain ⟨-, hstands, -⟩ := laid_append.mp h
  cases part with
  | plain c => simp [Part.keys, Part.field?] at hkey
  | kept token => simp [Part.keys, Part.field?] at hkey
  | taken token field =>
    obtain ⟨hshape, -, hfield⟩ := hstands
    cases token with
    | mention group name =>
      obtain ⟨_, _, -, rfl, -⟩ | ⟨_, _, hvalue, -⟩ := field?_eq_some hfield
      · simp [Part.keys, Part.field?, Field.key?] at hkey
      · simp at hvalue
    | tag letters value =>
      obtain ⟨rest, hrest⟩ := Token.tag_head hshape
      simp [Part.text, hrest]

/-- The task of a line, before and after a visit that found when it was
missed. -/
structure Visit (settings : Settings) (unit : Option IndentUnit) (target : Day) (task : Task)
    (missed : Option Day) (after : Task) : Prop where
  /-- The line after the visit is read. -/
  read_eq : read settings unit target task.line (task.visited missed) = .ok after
  /-- Nothing but the fields and the line has changed. -/
  same : after = { task with raw := task.visited missed, fields := after.fields }
  /-- The fields last, and the day on which the task was missed is one more. -/
  lasting_eq : after.lasting = task.lasting ++ (missed.map .overdue).toList
  /-- The counter is at zero. -/
  settled : after.withCount 0 = task.visited missed
  /-- Both lines start with a mark, or none. -/
  mark_eq : ∀ mark : Text, '{' ∉ mark → mark.isPrefixOf (task.visited missed) =
    mark.isPrefixOf task.raw

section Visit

variable {settings : Settings} {unit : Option IndentUnit} {target : Day} {number : Int}
  {raw : Text} {task after : Task} {parts : List Part} {missed : Option Day}

theorem value_zero : Numeral.value (Numeral.ofNat 0) = .ok 0 :=
  Numeral.value_ofNat (by decide)

/-- A line with a counter at zero stays as it is when the counter is set to
zero. -/
theorem LaidOut.settled (h : LaidOut settings unit target raw parts)
    (hparts : parts.map (Part.recount 0) = parts) :
    (taskOf settings unit number raw parts).withCount 0 = raw := by
  rw [h.withCount_eq, hparts, h.raw_eq]

/-- A visit to a task that was not missed, or carries an overdue tag. -/
theorem LaidOut.visit_none (h : LaidOut settings unit target raw parts)
    (hmark : '{' ∉ settings.doneMark) :
    ∃ after, Visit settings unit target (taskOf settings unit number raw parts) none after := by
  have hvisited : (taskOf settings unit number raw parts).visited none =
      raw.take (startOf settings unit raw) ++ textOf (parts.map (Part.recount 0)) :=
    h.withCount_eq 0
  have hrelaid := h.recount hmark value_zero
  rw [← hvisited] at hrelaid
  refine ⟨_, hrelaid.laidOut.read_eq number, hrelaid.taskOf_eq ?_, ?_, ?_, hrelaid.mark_eq⟩
  · rw [leftoverOf_recount]
  · rw [lasting_taskOf, lasting_taskOf, lastingOf_recount]
    exact (List.append_nil _).symm
  · exact hrelaid.laidOut.settled (recount_recount parts 0 0)

theorem IsBase.map_recount {base : List Part} (h : IsBase base parts)
    (hparts : parts.map (Part.recount 0) = parts) : base.map (Part.recount 0) = base := by
  rcases h with rfl | rfl
  · exact hparts
  · rw [List.map_append] at hparts
    exact List.append_cancel_right hparts

/-- A visit to a task that was missed. -/
theorem LaidOut.visit_some (h : LaidOut settings unit target raw parts)
    (hmark : '{' ∉ settings.doneMark) {day : Day} (hyear : 1000 ≤ day.civil.year)
    (hdue : (taskOf settings unit number raw parts).due?.isSome = true)
    (hnone : (taskOf settings unit number raw parts).overdue? = none) :
    ∃ after, Visit settings unit target (taskOf settings unit number raw parts) (some day)
      after := by
  have hrelaid := h.recount hmark value_zero
  have hkey : ∀ key : Key, (∃ part ∈ parts.map (Part.recount 0), key ∈ part.keys) ↔
      ∃ field ∈ (taskOf settings unit number raw parts).lasting, field.key? = some key :=
    fun key => by rw [exists_key_iff, lastingOf_recount, lasting_taskOf]
  obtain ⟨part, hpart, hpart'⟩ := (hkey .due).mpr ((Task.isSome_due? _).mp hdue)
  -- a second overdue tag would stay text
  have hused : Key.overdue ∉ usedBehind [] (parts.map (Part.recount 0)) := by
    rw [mem_usedBehind, hkey, ← Task.isSome_overdue?, hnone]
    simp
  obtain ⟨base, hbase, happend⟩ := hrelaid.laidOut.append hmark
    (hrelaid.laidOut.laid.brace_mem hpart hpart') (isShaped_overdueTag day)
    (field?_overdueTag hyear hused)
  have hvisited : (taskOf settings unit number raw parts).visited (some day) =
      Text.withTag (raw.take (startOf settings unit raw) ++ textOf (parts.map (Part.recount 0)))
        (overdueTag day).text := congrArg (Text.withTag · _) (h.withCount_eq 0)
  -- first the counter, then the tag behind it
  have hrelaid := hrelaid.trans happend
  change Relaid settings unit target raw (Text.withTag _ (overdueTag day).text) _ at hrelaid
  rw [← hvisited] at hrelaid
  refine ⟨_, hrelaid.laidOut.read_eq number, hrelaid.taskOf_eq ?_, ?_, ?_, hrelaid.mark_eq⟩
  · rw [hbase.leftover, leftoverOf_recount]
  · rw [lasting_taskOf, lasting_taskOf, hbase.lasting, lastingOf_recount]
    rfl
  · refine hrelaid.laidOut.settled ?_
    rw [List.map_append, hbase.map_recount (recount_recount parts 0 0)]
    rfl

/-- There is a brace in a line with a due tag. -/
theorem brace_mem_of_due (h : read settings unit target number raw = .ok task)
    (hdue : task.due?.isSome = true) : '{' ∈ raw := by
  obtain ⟨parts, hlaidOut, rfl⟩ := read_iff_laidOut.mp h
  rw [Task.isSome_due?, lasting_taskOf, ← exists_key_iff] at hdue
  obtain ⟨part, hpart, hkey⟩ := hdue
  rw [← hlaidOut.raw_eq]
  exact List.mem_append_right _ (hlaidOut.laid.brace_mem hpart hkey)

/-- **After a visit a line is read as the same task**, with the day on which it
was missed as one more field. -/
theorem exists_visit (h : read settings unit target number raw = .ok task)
    (hmark : '{' ∉ settings.doneMark) (hdue : task.due?.isSome = true)
    (hmissed : ∀ day ∈ missed, task.overdue? = none ∧ 1000 ≤ day.civil.year) :
    ∃ after, Visit settings unit target task missed after := by
  obtain ⟨parts, hlaidOut, rfl⟩ := read_iff_laidOut.mp h
  cases missed with
  | none => exact hlaidOut.visit_none hmark
  | some day =>
    obtain ⟨hnone, hyear⟩ := hmissed day rfl
    exact hlaidOut.visit_some hmark hyear hdue hnone

namespace Visit

variable (h : Visit settings unit target task missed after)

include h

theorem raw_eq : after.raw = task.visited missed := by rw [h.same]

theorem marker_eq : after.marker = task.marker := by rw [h.same]

/-- An accessor finds what it found, or else the day on which the task was
missed. -/
theorem value_find? {α : Type} {kind : Field → Option α}
    (hkind : ∀ field : Field, kind field.lasting = kind field) :
    (after.find? kind).map (·.value) =
      ((task.find? kind).map (·.value)).or ((missed.map Field.overdue).bind kind) :=
  Task.value_find?_append h.lasting_eq hkind

theorem due?_eq : after.due?.map (·.value) = task.due?.map (·.value) := by
  refine (h.value_find? fun field => by cases field <;> rfl).trans ?_
  cases missed <;> exact Option.or_none

theorem overdue?_eq : after.overdue?.map (·.value) = (task.overdue?.map (·.value)).or missed := by
  refine (h.value_find? fun field => by cases field <;> rfl).trans ?_
  cases missed <;> rfl

theorem isDone_eq : after.isDone = task.isDone := by
  have hstamp : after.completion?.map (·.value) = task.completion?.map (·.value) := by
    refine (h.value_find? fun field => by cases field <;> rfl).trans ?_
    cases missed <;> exact Option.or_none
  have hsome := congrArg Option.isSome hstamp
  rw [Option.isSome_map, Option.isSome_map] at hsome
  rw [Task.isDone, Task.isDone, h.marker_eq, hsome]

theorem isRecurring_eq : after.isRecurring = task.isRecurring := by
  have hdue := congrArg (Option.any (·.expression.isRecurring)) h.due?_eq
  rwa [Option.any_map, Option.any_map] at hdue

theorem names_eq (group : Group) : after.names group = task.names group := by
  refine Task.names_append h.lasting_eq (fun field hfield _ _ => ?_) group
  obtain ⟨day, -, rfl⟩ := Option.map_eq_some_iff.mp hfield
  exact nofun

/-- What a visit puts in is settled for those that follow. -/
theorem visited_eq {more : Option Day} (hmore : missed = none ∨ more = none) :
    after.visited more = task.visited (missed.or more) := by
  cases more with
  | none =>
    rw [Option.or_none]
    exact h.settled
  | some day =>
    obtain rfl : missed = none := hmore.resolve_right (Option.some_ne_none day)
    exact congrArg (Text.withTag · _) h.settled

end Visit

end Visit

end Line

end TaskList
