/-
TaskList.Proofs.Line.Redated — a line with another due tag.

* `Line.exists_first` — the field of a key is read from the first tag that carries it.
  `Line.due_eq_iff` — so a task is due when the first due tag of its line says it is.
* `Line.dueTag_iff` — a text is the value of such a tag if there is no brace in it, and
  more than white space.
* `Task.withDue` — the line of a task with a due tag in the place of its own, or at its
  end. `Line.due_withDue_iff` — the text is what it is due at then, if it is such a value.
* `Line.read_redated` — a line with another due tag in the place of that of its task is
  read as the task with that tag.

Behind the new tag there may be other due tags, which are text and stay text, and in
front of it some that no task could be due at. So which tag is the first one matters, and
it does not matter where the start of the line ends.
-/
import TaskList.Proofs.Action.Deed
import TaskList.Proofs.Line.Prioritized
import TaskList.Proofs.Line.Thinned
import TaskList.Proofs.Line.Visited

namespace TaskList

/-- The tag of a due expression. -/
def Line.dueTag (value : Text) : Token := .tag Key.due.text (some value)

/-- The text of the due tag of a task. -/
def Task.dueText? (task : Task) : Option Text := task.due?.map (·.value.expression.raw)

/-- The line of a task with a due tag in the place of its own, or at its end. -/
def Task.withDue (task : Task) (value : Text) : Text :=
  match task.due? with
  | some x => task.raw.take x.span.start ++
      ((Line.dueTag value).text ++ task.raw.drop x.span.stop)
  | none =>
    if task.raw = [] then (Line.dueTag value).text else task.raw.withTag (Line.dueTag value).text

namespace Line

section First

variable {settings : Settings} {unit : Option IndentUnit} {target : Day} {number : Int}
  {raw : Text} {task : Task}

/-! ## The first due tag -/

/-- **The field of a key is read from the first tag** that carries it. -/
theorem exists_first (h : read settings unit target number raw = .ok task) {key : Key}
    {x : Located Field} (hx : task.fieldOf? key = some x) :
    ∃ token, (key.carriers ((tokens raw (startOf settings unit raw)).map (·.value))).head? =
        some token ∧ x.value.ReadFrom target x.span.start token := by
  obtain ⟨t, ht, -, hcarries, hfrom, hleft⟩ := (takesTags_of_read h).leftmost key x hx
  have hleftmost := tokens_isLeftmost raw (startOf settings unit raw)
  generalize tokens raw (startOf settings unit raw) = found at ht hleft hleftmost ⊢
  refine ⟨t.value, ?_, hfrom⟩
  have hmem : t ∈ found.filter fun t => key.Carries t.value :=
    List.mem_filter.mpr ⟨ht, decide_eq_true hcarries⟩
  have hordered : (found.filter fun t => key.Carries t.value).Pairwise
      fun a b => a.span.stop ≤ b.span.start := hleftmost.ordered.filter _
  have hmap : key.carriers (found.map (·.value)) =
      (found.filter fun t => key.Carries t.value).map (·.value) := List.filter_map
  rw [hmap, List.head?_map]
  cases hfound : found.filter fun t => key.Carries t.value with
  | nil => simp [hfound] at hmem
  | cons s rest =>
    rw [hfound] at hmem hordered
    rcases List.mem_cons.mp hmem with rfl | hmem
    · rfl
    · -- the leftmost one would stand behind the first
      obtain ⟨hs, hcarries'⟩ := List.mem_filter.mp (hfound ▸ List.mem_cons_self : s ∈ _)
      have hle := hleft s hs (of_decide_eq_true hcarries')
      have hstop := (List.pairwise_cons.mp hordered).1 t hmem
      have hpos := s.value.text_length_pos
      have hwidth := (hleftmost.stands s hs).2.2
      omega

/-- What is due is read from a due tag. -/
theorem eq_dueTag_of_readFrom {tag : DueTag} {column : Nat} {token : Token}
    (h : (Field.due tag).ReadFrom target column token) : token = dueTag tag.expression.raw := by
  cases token with
  | mention group name => simp [Field.ReadFrom] at h
  | tag letters value =>
    obtain ⟨key, rfl, htells, -⟩ := h
    obtain rfl : Key.due = key := Option.some.inj htells.key?_eq
    cases value with
    | none => exact htells.elim
    | some v => rw [raw_of_readExpression htells.1, dueTag]

/-- **A task is due when the first due tag says.** -/
theorem due_eq_iff (h : read settings unit target number raw = .ok task) {value : Text} :
    task.dueText? = some value ↔
      (Key.due.carriers ((tokens raw (startOf settings unit raw)).map (·.value))).head? =
        some (dueTag value) := by
  cases hdue : task.due? with
  | none =>
    have hnil := (isSome_fieldOf?_iff h .due).not
    rw [Task.fieldOf?, hdue, not_not] at hnil
    rw [hnil.mp Bool.false_ne_true, Task.dueText?, hdue]
    exact iff_of_false (Option.some_ne_none value).symm (Option.some_ne_none _).symm
  | some x =>
    have hfield : task.fieldOf? .due = some (x.map .due) := by rw [Task.fieldOf?, hdue]; rfl
    obtain ⟨token, hfirst, hfrom⟩ := exists_first h hfield
    rw [hfirst, eq_dueTag_of_readFrom hfrom, Task.dueText?, hdue, Option.map_some]
    simp [dueTag]

/-- **What a due tag may say**: a text with no brace in it, and with more than white
space. -/
theorem dueTag_iff {value : Text} : (dueTag value).IsShaped ∧ Key.due.Carries (dueTag value) ↔
    value.allBlank = false ∧ '{' ∉ value ∧ '}' ∉ value := by
  have hblank : Key.due.Carries (dueTag value) ↔ value.allBlank = false := by
    rw [dueTag, Key.carries_tag_iff]
    simp [Key.Takes, Text.allBlank]
  have hshape : (dueTag value).IsShaped ↔ '{' ∉ value ∧ '}' ∉ value := by
    constructor
    · rintro ⟨-, -, hvalue⟩
      exact ⟨fun hmem => absurd (hvalue value rfl _ hmem) (by decide),
        fun hmem => absurd (hvalue value rfl _ hmem) (by decide)⟩
    · rintro ⟨hopen, hclose⟩
      refine Token.isShaped_tag .due fun v hv c hc => ?_
      obtain rfl := Option.some.inj hv
      have hne : c ≠ '{' ∧ c ≠ '}' := ⟨fun heq => hopen (heq ▸ hc), fun heq => hclose (heq ▸ hc)⟩
      simpa [Token.isValueChar] using hne
  rw [hblank, hshape, and_comm]

/-- What a task is due at is such a text. -/
theorem dueTag_of_read (h : read settings unit target number raw = .ok task) {value : Text}
    (hdue : task.dueText? = some value) :
    (dueTag value).IsShaped ∧ Key.due.Carries (dueTag value) := by
  have hmem := List.mem_of_head? ((due_eq_iff h).mp hdue)
  obtain ⟨hfound, hcarries⟩ := Key.mem_carriers.mp hmem
  obtain ⟨t, ht, htoken⟩ := List.mem_map.mp hfound
  obtain ⟨-, ⟨-, -, -, -, hshape, -⟩, -⟩ := (tokens_isLeftmost _ _).stands t ht
  exact ⟨htoken ▸ hshape, hcarries⟩

end First

/-! ## A due tag that is put in -/

section Put

variable {settings : Settings} {unit : Option IndentUnit} {target : Day} {number : Int}
  {raw value : Text} {task after : Task} {used : List Key} {front back : List Part}

/-- A due tag among unread parts, and none in front of it. -/
theorem due_of_kept (hmark : settings.doneMark = "x ".toList)
    (hlaid : Laid target none used (front ++ .kept (dueTag value) :: back) [])
    (hfront : Key.due.carriers (tokensOf front) = [])
    (hcarries : Key.due.Carries (dueTag value))
    (hread : read settings unit target number (textOf (front ++ .kept (dueTag value) :: back)) =
      .ok after) : after.dueText? = some value := by
  have htokens : tokensOf (front ++ .kept (dueTag value) :: back) =
      tokensOf front ++ dueTag value :: tokensOf back := tokensOf_append _ _
  rw [due_eq_iff hread, hlaid.map_tokens hmark unit, htokens, Key.carriers_append, hfront,
    List.nil_append, Key.carriers_cons_of_carries hcarries]
  rfl

/-- What a due field is read from is a due tag, and the only one so far. -/
theorem Laid.exists_dueTag {before : Option Char} {token : Token} {tag : DueTag} {rest : Text}
    (h : Laid target before used (front ++ .taken token (.due tag) :: back) rest) :
    ∃ old, token = dueTag old ∧ Key.due ∉ usedBehind used front := by
  obtain ⟨-, ⟨-, -, hfield⟩, -⟩ := laid_append.mp h
  obtain ⟨_, _, -, hmention, -⟩ | ⟨key, old, htoken, hfree, htells, -, -⟩ := field?_eq_some hfield
  · exact Field.noConfusion hmention
  · obtain rfl : Key.due = key := Option.some.inj htells.key?_eq
    cases old with
    | none => exact htells.elim
    | some v => exact ⟨v, htoken, hfree⟩

/-- A due field does not know where it stands. -/
theorem eq_due_of_moved {field : Field} {tag : DueTag} {column : Nat}
    (h : .due tag = field.moved column) : field = .due tag := by
  cases field with
  | count c => exact Field.noConfusion h
  | _ => exact h.symm

/-- A line with a due tag in the place of that of its task. -/
theorem withDue_of_split {x : Located DueTag} (hx : task.due? = some x) {before behind old : Text}
    (hraw : task.raw = before ++ (old ++ behind))
    (hspan : x.span = ⟨before.length, before.length + old.length⟩) (value : Text) :
    task.withDue value = before ++ ((dueTag value).text ++ behind) := by
  rw [Task.withDue, hx]
  dsimp only
  rw [hraw, hspan, List.take_left, ← List.append_assoc before old, ← List.length_append,
    List.drop_left]

/-- A due tag in the place of that of a task. -/
theorem due_of_replaced (hmark : settings.doneMark = "x ".toList)
    (h : read settings unit target number raw = .ok task) {x : Located DueTag}
    (hx : task.due? = some x) (hshape : (dueTag value).IsShaped)
    (hcarries : Key.due.Carries (dueTag value))
    (hread : read settings unit target number (task.withDue value) = .ok after) :
    after.dueText? = some value := by
  obtain ⟨parts, hlaidOut, rfl⟩ := read_iff_laidOut.mp h
  obtain ⟨front, token, field, back, hwhole, hspan, hvalue⟩ :=
    hlaidOut.exists_field (Task.mem_fields_of_due? hx)
  obtain rfl := eq_due_of_moved hvalue
  have hlaid := hlaidOut.laid_whole hmark
  have hraw := hlaidOut.textOf_whole
  rw [hwhole] at hlaid hraw
  obtain ⟨old, rfl, -⟩ := hlaid.exists_dueTag
  have hfirst := hlaid.carries_of_isCut .alone (rfl : (Field.due x.value).key? = some .due)
  -- no tag is read, so it does not matter that other due tags may stand behind
  have hunread := hlaid.unread
  rw [unreadParts_append] at hunread
  have hnew : Laid target none Key.all
      (unreadParts front ++ .kept (dueTag value) :: unreadParts back) [] :=
    hunread.swap rfl rfl
      ⟨hshape, trivial, by rw [usedBehind_unreadParts]; exact field?_all target _ _⟩ rfl
  have hsplit : raw = textOf front ++ ((dueTag old).text ++ textOf back) :=
    hraw.symm.trans (textOf_append _ _)
  have htext : textOf (unreadParts front ++ .kept (dueTag value) :: unreadParts back) =
      (taskOf settings unit number raw parts).withDue value := by
    rw [withDue_of_split hx hsplit hspan, textOf_append, textOf_cons, textOf_unreadParts,
      textOf_unreadParts]
    rfl
  refine due_of_kept hmark hnew ?_ hcarries (htext ▸ hread)
  rw [tokensOf_unreadParts]
  exact hfirst.2

/-- A due tag at the end of the line of a task without one. -/
theorem due_of_appended (hmark : settings.doneMark = "x ".toList)
    (h : read settings unit target number raw = .ok task) (hnone : task.due? = none)
    (hshape : (dueTag value).IsShaped) (hcarries : Key.due.Carries (dueTag value))
    (hread : read settings unit target number (task.withDue value) = .ok after) :
    after.dueText? = some value := by
  obtain ⟨parts, hlaidOut, -⟩ := read_iff_laidOut.mp h
  rw [Task.withDue, hnone] at hread
  dsimp only at hread
  rw [raw_of_read h] at hread
  split at hread
  · -- there is nothing but the tag
    have hlaid : Laid target none Key.all ([] ++ [.kept (dueTag value)]) [] :=
      ⟨⟨hshape, trivial, field?_all target _ _⟩, trivial⟩
    have htext : textOf ([] ++ [.kept (dueTag value)]) = (dueTag value).text := List.append_nil _
    exact due_of_kept hmark hlaid rfl hcarries (htext ▸ hread)
  · obtain ⟨base, hlaid, hwritten, htokens⟩ := hlaidOut.exists_unread_withTag hmark hshape
    have hnil : Key.due.carriers (tokensOf (base ++ [.plain ' '])) = [] := by
      have hnot := (isSome_fieldOf?_iff h .due).not
      rw [Task.fieldOf?, hnone, not_not, hlaidOut.map_tokens hmark] at hnot
      rw [tokensOf_append, htokens, Key.carriers_append, hnot.mp Bool.false_ne_true]
      rfl
    rw [List.append_cons] at hlaid hwritten
    exact due_of_kept hmark hlaid hnil hcarries (hwritten ▸ hread)

/-- **The text is what a task is due at** if it may be said in a due tag, whatever the
line of the task looks like. -/
theorem due_withDue_iff (hmark : settings.doneMark = "x ".toList)
    (h : read settings unit target number raw = .ok task)
    (hread : read settings unit target number (task.withDue value) = .ok after) :
    after.dueText? = some value ↔ value.allBlank = false ∧ '{' ∉ value ∧ '}' ∉ value := by
  rw [← dueTag_iff]
  constructor
  · exact dueTag_of_read hread
  · rintro ⟨hshape, hcarries⟩
    cases hdue : task.due? with
    | none => exact due_of_appended hmark h hdue hshape hcarries hread
    | some x => exact due_of_replaced hmark h hdue hshape hcarries hread

/-! ## The task with another due tag -/

/-- The fields of parts in front of one of them and behind it. -/
theorem fieldsAt_split (column : Nat) (front : List Part) (token : Token) (field : Field)
    (back : List Part) :
    fieldsAt column (front ++ .taken token field :: back) = fieldsAt column front ++
      ⟨⟨column + (textOf front).length, column + (textOf front).length + token.text.length⟩,
        field.moved (column + (textOf front).length)⟩ ::
      (fieldsAt 0 back).map
        (Located.moved (column + (textOf front).length + token.text.length)) := by
  rw [fieldsAt_append, ← fieldsAt_add]
  rfl

/-- A line with another due tag in the place of that of its task starts as it did, and is
laid out with that tag. -/
theorem LaidOut.redate {old : Text} {tag : DueTag} {x : Located DueTag} {e : Due.Expression}
    (h : LaidOut settings unit target raw (front ++ .taken (dueTag old) (.due tag) :: back))
    (hmark : '{' ∉ settings.doneMark) (hraw : task.raw = raw) (hx : task.due? = some x)
    (hspan : x.span = ⟨startOf settings unit raw + (textOf front).length,
      startOf settings unit raw + (textOf front).length + (dueTag old).text.length⟩)
    (hfree : Key.due ∉ usedBehind [] front) (hshape : (dueTag value).IsShaped)
    (hcarries : Key.due.Carries (dueTag value)) (he : Due.Expression.read value = .ok e) :
    Relaid settings unit target raw (task.withDue value)
      (front ++ .taken (dueTag value) (.due ⟨e, e.stateOn target⟩) :: back) := by
  have hfield : Field.ofTag? target 0 .due (some value) =
      .ok (some (.due ⟨e, e.stateOn target⟩)) := by
    simp [Field.ofTag?, Field.due?, (dueTag_iff.mp ⟨hshape, hcarries⟩).1, he]
  have hlaid := h.laid.replace hshape (field?_tag_iff.mpr ⟨.due, rfl, hfree, hfield, rfl⟩) rfl
  have hsame : Text.SameToBrace (textOf (front ++ .taken (dueTag old) (.due tag) :: back))
      (textOf (front ++ .taken (dueTag value) (.due ⟨e, e.stateOn target⟩) :: back)) :=
    ⟨textOf front, _, _, textOf_append _ _, textOf_append _ _⟩
  -- the columns of the tag, in the line and behind its start
  have hlength : (raw.take (startOf settings unit raw) ++ textOf front).length =
      startOf settings unit raw + (textOf front).length := by
    rw [List.length_append, h.length_start]
  have hsplit : raw = (raw.take (startOf settings unit raw) ++ textOf front) ++
      ((dueTag old).text ++ textOf back) := by
    conv_lhs => rw [← h.raw_eq, textOf_append, ← List.append_assoc]
    rfl
  have htext := withDue_of_split hx (hraw.trans hsplit) (hlength ▸ hspan) value
  have hline : raw.take (startOf settings unit raw) ++
      textOf (front ++ .taken (dueTag value) (.due ⟨e, e.stateOn target⟩) :: back) =
        task.withDue value := by
    rw [htext, textOf_append, List.append_assoc]
    rfl
  exact hline ▸ h.changed hmark hsame hlaid

/-- **A line with another due tag** is read as its task, with that tag in the place of its
own and what is behind the tag further right or left. -/
theorem read_redated (hmark : '{' ∉ settings.doneMark)
    (h : read settings unit target number raw = .ok task) {x : Located DueTag}
    (hx : task.due? = some x) (hshape : (dueTag value).IsShaped)
    (hcarries : Key.due.Carries (dueTag value)) {e : Due.Expression}
    (he : Due.Expression.read value = .ok e) :
    ∃ front behind : List (Located Field), task.fields =
        front ++ ⟨x.span, .due x.value⟩ :: behind.map (Located.moved x.span.stop) ∧
      read settings unit target number (task.withDue value) = .ok { task with
        raw := task.withDue value
        fields := front ++
          ⟨⟨x.span.start, x.span.start + (dueTag value).text.length⟩,
            .due ⟨e, e.stateOn target⟩⟩ ::
          behind.map (Located.moved (x.span.start + (dueTag value).text.length)) } := by
  obtain ⟨parts, hlaidOut, rfl⟩ := read_iff_laidOut.mp h
  obtain ⟨front, token, field, back, rfl, hspan, hvalue⟩ :=
    exists_taken (Task.mem_fields_of_due? hx)
  obtain rfl := eq_due_of_moved hvalue
  obtain ⟨old, rfl, hfree⟩ := hlaidOut.laid.exists_dueTag
  have hrelaid := hlaidOut.redate hmark rfl hx hspan hfree hshape hcarries he
  have htitle : Text.squeeze (leftoverOf
      (front ++ .taken (dueTag value) (.due ⟨e, e.stateOn target⟩) :: back)) =
        Text.squeeze (leftoverOf (front ++ .taken (dueTag old) (.due x.value) :: back)) := by
    rw [leftoverOf_append, leftoverOf_append]
    rfl
  generalize (taskOf settings unit number raw
    (front ++ .taken (dueTag old) (.due x.value) :: back)).withDue value = text at hrelaid ⊢
  have hstart : startOf settings unit text = startOf settings unit raw :=
    congrArg Head.start hrelaid.head_eq
  have hfields : (taskOf settings unit number text
      (front ++ .taken (dueTag value) (.due ⟨e, e.stateOn target⟩) :: back)).fields = _ :=
    (congrArg (fieldsAt · _) hstart).trans (fieldsAt_split _ front (dueTag value) _ back)
  rw [show x.span = _ from hspan, hrelaid.laidOut.read_eq number, hrelaid.taskOf_eq htitle, hfields]
  exact ⟨_, _, fieldsAt_split _ front (dueTag old) (.due x.value) back, rfl⟩

end Put

end Line

end TaskList
