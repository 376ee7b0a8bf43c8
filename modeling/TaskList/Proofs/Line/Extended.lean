/-
TaskList.Proofs.Line.Extended — a tag at the end of any line that holds more
than white space.

* `Line.head_withTag` — the start of the line is the same, unless the space in
  front of the tag makes a done mark of the line.
* `Task.withField` — a task with one field more, at the end of its line.
  `Line.read_withTag` says that this is the task of the line with the tag, and
  `Line.read_withTag_mark` what it is for the line that becomes a done mark.

Where there is a brace in the line already, nothing behind it matters to its
start (`Line.head_brace`). Here there may be none, so what the start of the
line looks at may be the tag itself or the space in front of it.
-/
import TaskList.Proofs.Line.Appended
import TaskList.Proofs.Line.Visited

namespace TaskList

namespace Line

/-! ## The start of the line -/

section Head

variable {settings : Settings} {raw : Text}

/-- A space makes no done mark of a text, unless both together are one. -/
theorem marker?_space {mark t : Text} (hne : t ++ [' '] ≠ mark) (column : Nat) :
    marker? mark column (t ++ [' ']) = marker? mark column t := by
  have hprefix : mark.isPrefixOf (t ++ [' ']) = mark.isPrefixOf t := by
    rw [Bool.eq_iff_iff, List.isPrefixOf_iff_prefix, List.isPrefixOf_iff_prefix,
      List.prefix_concat_iff]
    exact or_iff_right fun heq => hne heq.symm
  rw [marker?, marker?, hprefix]

/-- What comes behind a text does not matter to its priority, if it could not
be a part of one and leaves white space behind a bracket. -/
theorem priority?_append {t v : Text}
    (hinside : ∀ c ∈ v.head?, c ≠ '(' ∧ c ≠ ')' ∧ ¬ ('A' ≤ c ∧ c ≤ 'Z'))
    (hbehind : t.getLast? = some ')' → v.StartsBlank) (column : Nat) :
    priority? column (t ++ v) = priority? column t := by
  ext p
  rw [priority?_eq_some_iff, priority?_eq_some_iff]
  constructor
  · rintro ⟨letter, rest, htext, hletter, rfl⟩
    have hcut : t ++ v = ['(', letter, ')'] ++ rest := htext
    rcases List.append_eq_append_iff.mp hcut with ⟨more, hmore, hv⟩ | ⟨more, rfl, rfl⟩
    · cases more with
      | nil => exact ⟨letter, [], by simpa using hmore.symm, ⟨hletter.1, hletter.2.1, rfl⟩, rfl⟩
      | cons c more =>
        -- a character of the priority would stand behind the text
        obtain ⟨hopen, hclose, hcapital⟩ := hinside c (by rw [hv]; rfl)
        have hc : c ∈ ['(', letter, ')'] := by simp [hmore]
        simp only [List.mem_cons, List.not_mem_nil, or_false, hopen, hclose, or_false,
          false_or] at hc
        exact absurd ⟨hletter.1, hletter.2.1⟩ (hc ▸ hcapital)
    · refine ⟨letter, more, rfl, ⟨hletter.1, hletter.2.1, ?_⟩, rfl⟩
      cases more with
      | nil => rfl
      | cons c more => exact hletter.2.2
  · rintro ⟨letter, rest, rfl, hletter, rfl⟩
    refine ⟨letter, rest ++ v, rfl, ⟨hletter.1, hletter.2.1, ?_⟩, rfl⟩
    cases rest with
    | nil =>
      have hblank := hbehind rfl
      cases v with
      | nil => rfl
      | cons c v => exact hblank c rfl
    | cons c rest => exact hletter.2.2

/-- A text of more than white space is more than an indentation. -/
theorem takeWhile_isIndent_append (hwritten : raw.allBlank = false) (t : Text) :
    (raw ++ t).takeWhile isIndent = raw.takeWhile isIndent := by
  rw [List.takeWhile_append, if_neg]
  intro hlength
  have hall : raw.takeWhile isIndent = raw := (List.takeWhile_prefix _).eq_of_length hlength
  obtain ⟨c, hc, hblank⟩ : ∃ c ∈ raw, isBlank c = false := by
    simpa [Text.allBlank] using hwritten
  have hindent := List.all_eq_true.mp (hall ▸ List.all_takeWhile : raw.all isIndent = true) c hc
  rw [isBlank_of_isIndent hindent] at hblank
  exact Bool.noConfusion hblank

theorem head_space (hwritten : raw.allBlank = false)
    (hne : raw.dropWhile isIndent ++ [' '] ≠ settings.doneMark) (unit : IndentUnit) :
    head settings unit (raw ++ [' ']) = head settings unit raw := by
  have hle : (raw.takeWhile isIndent).length ≤ raw.length :=
    (List.takeWhile_sublist _).length_le
  have hdrop : raw.drop (raw.takeWhile isIndent).length = raw.dropWhile isIndent := by
    have hcut := congrArg (List.drop (raw.takeWhile isIndent).length)
      (List.takeWhile_append_dropWhile (p := isIndent) (l := raw))
    rwa [List.drop_left, eq_comm] at hcut
  have hmarker : marker? settings.doneMark (raw.takeWhile isIndent).length
      (raw.drop (raw.takeWhile isIndent).length ++ [' ']) =
      marker? settings.doneMark (raw.takeWhile isIndent).length
        (raw.drop (raw.takeWhile isIndent).length) := marker?_space (hdrop ▸ hne) _
  have hpriority : ∀ column t, priority? column (t ++ [' ']) = priority? column t := by
    refine fun column t => priority?_append (fun c hc => ?_) (fun _ c hc => ?_) column
    · obtain rfl : ' ' = c := Option.some.inj hc
      decide
    · obtain rfl : ' ' = c := Option.some.inj hc
      decide
  simp only [head, takeWhile_isIndent_append hwritten, List.drop_append_of_le_length hle, hmarker,
    List.drop_append_of_le_length (past_marker?_le settings.doneMark raw), hpriority]

theorem head_open (hmark : '{' ∉ settings.doneMark) (hlast : raw.getLast? = some ' ')
    (unit : IndentUnit) (v : Text) :
    head settings unit (raw ++ '{' :: v) = head settings unit raw := by
  have hindent : isIndent '{' = false := by decide
  have hle : (raw.takeWhile isIndent).length ≤ raw.length :=
    (List.takeWhile_sublist _).length_le
  have hpriority : ∀ column n, priority? column (raw.drop n ++ '{' :: v) =
      priority? column (raw.drop n) := by
    intro column n
    refine priority?_append (fun c hc => ?_) (fun hbracket => ?_) column
    · obtain rfl : '{' = c := Option.some.inj hc
      decide
    · rw [List.getLast?_drop] at hbracket
      split at hbracket
      · simp at hbracket
      · rw [hlast] at hbracket
        exact absurd hbracket (by decide)
  simp only [head, takeWhile_brace hindent, List.drop_append_of_le_length hle,
    marker?_brace hmark, List.drop_append_of_le_length (past_marker?_le settings.doneMark raw),
    hpriority]

/-- **A tag at the end of a line does not change its start**, unless the line
and a space are the done mark. -/
theorem head_withTag (hmark : '{' ∉ settings.doneMark) (hwritten : raw.allBlank = false)
    (hne : raw.dropWhile isIndent ++ [' '] ≠ settings.doneMark) (unit : IndentUnit) (v : Text) :
    head settings unit (raw.withTag ('{' :: v)) = head settings unit raw := by
  rw [Text.withTag]
  split
  · rename_i hlast
    exact head_open hmark hlast unit v
  · have hopen : head settings unit (raw ++ [' '] ++ '{' :: v) =
        head settings unit (raw ++ [' ']) := head_open hmark (by simp) unit v
    rw [← List.append_assoc, hopen, head_space hwritten hne]

end Head

/-! ## The parts of the line -/

section Parts

variable {settings : Settings} {unit : Option IndentUnit} {target : Day} {number : Int}
  {raw : Text} {task : Task} {parts : List Part} {key : Key} {value : Option Text}
  {field : Field}

/-- Behind the parts of the line, but for a space at their end, stand a space
and the tag; or the tag alone, if the start of the line ends with a space and
there is nothing else. -/
theorem LaidOut.extended (h : LaidOut settings unit target raw parts)
    (hhead : head settings (indentUnit settings unit) (raw.withTag (Token.tag key.text value).text)
      = head settings (indentUnit settings unit) raw)
    (hshape : (Token.tag key.text value).IsShaped)
    (hfield : field? target (usedBehind [] parts) ⟨⟨0, 0⟩, .tag key.text value⟩ =
      .ok (some (field, field.key?.toList))) :
    ∃ base gap, IsBase base parts ∧ (gap = [] ∨ gap = [.plain ' ']) ∧
      LaidOut settings unit target (raw.withTag (Token.tag key.text value).text)
        (base ++ (gap ++ [.taken (.tag key.text value) field])) := by
  have hstart : startOf settings unit (raw.withTag (Token.tag key.text value).text) =
      startOf settings unit raw := congrArg Head.start hhead
  -- it is enough that the new parts are behind the same start
  have hlaidOut : ∀ parts', raw.withTag (Token.tag key.text value).text =
      raw.take (startOf settings unit raw) ++ textOf parts' →
      Laid target (raw.take (startOf settings unit raw)).getLast? [] parts' [] →
      LaidOut settings unit target (raw.withTag (Token.tag key.text value).text) parts' := by
    intro parts' htext hlaid
    constructor
    case text_eq => rw [hstart, htext, List.drop_left' h.length_start]
    case laid => rwa [hstart, htext, List.take_left' h.length_start]
  by_cases hempty : parts = [] ∧ raw.getLast? = some ' '
  · obtain ⟨rfl, hlast⟩ := hempty
    have hraw := h.raw_eq
    rw [textOf_nil, List.append_nil] at hraw
    refine ⟨[], [], .inl rfl, .inl rfl, hlaidOut _ ?_ ⟨⟨hshape, trivial, hfield⟩, trivial⟩⟩
    rw [hraw, Text.withTag, if_pos hlast]
    simp [Part.text]
  · obtain ⟨base, after, hbase, hlaid, hused, htext⟩ := h.laid.exists_isBase
    have hlast : raw.getLast? = some ' ' ↔ (textOf parts).getLast? = some ' ' := by
      cases parts with
      | nil =>
        rw [textOf_nil, List.getLast?_nil]
        exact iff_of_false (fun hlast => hempty ⟨rfl, hlast⟩) (by simp)
      | cons part rest =>
        have hne : textOf (part :: rest) ≠ [] := by simp [part.text_ne_nil]
        conv_lhs => rw [← h.raw_eq]
        rw [List.getLast?_append, List.getLast?_eq_some_getLast hne, Option.some_or]
    have hraw := (h.withTag_eq hlast htext (.tag key.text value) field).2
    exact ⟨base, [.plain ' '], hbase, .inr rfl,
      hlaidOut _ hraw (hlaid.append hshape (by rwa [hused]))⟩

theorem fieldsAt_of_isBase {base : List Part} (h : IsBase base parts) (column : Nat) :
    fieldsAt column parts = fieldsAt column base := by
  rcases h with rfl | rfl
  · rfl
  · rw [fieldsAt_append]
    exact List.append_nil _

/-- A space at the end of the line and one in front of the tag do not matter to
the title. -/
theorem IsBase.squeeze_leftoverOf {base gap : List Part} (h : IsBase base parts)
    (hgap : gap = [] ∨ gap = [.plain ' ']) (token : Token) (field : Field) :
    Text.squeeze (leftoverOf (base ++ (gap ++ [.taken token field]))) =
      Text.squeeze (leftoverOf parts) := by
  have hspace : ∀ t, Text.squeeze (t ++ [' ']) = Text.squeeze t :=
    Text.squeeze_append_blank (by decide)
  have hbase : Text.squeeze (leftoverOf parts) = Text.squeeze (leftoverOf base) := by
    rcases h with rfl | rfl
    · rfl
    · rw [leftoverOf_append]
      exact hspace _
  rw [hbase, leftoverOf_append]
  rcases hgap with rfl | rfl
  · show Text.squeeze (leftoverOf base ++ []) = _
    rw [List.append_nil]
  · exact hspace _

/-- A key without a field is not used up by the parts of the line. -/
theorem notMem_usedBehind (hnone : (taskOf settings unit number raw parts).fieldOf? key = none) :
    key ∉ usedBehind [] parts := by
  rw [mem_usedBehind, exists_key_iff, ← lasting_taskOf, ← Task.isSome_fieldOf?, hnone]
  simp

end Parts

end Line

/-! ## The task of the line -/

/-- The task with one field more, whose tag stands at the end of the line. -/
def Task.withField (task : Task) (tag : Text) (field : Field) : Task :=
  { task with
    raw := task.raw.withTag tag
    fields := task.fields ++
      [⟨⟨(task.raw.withTag tag).length - tag.length, (task.raw.withTag tag).length⟩, field⟩] }

namespace Line

section Read

variable {settings : Settings} {unit : Option IndentUnit} {target : Day} {number : Int}
  {raw : Text} {task : Task} {parts : List Part} {key : Key} {value : Option Text}
  {field : Field}

/-- The fields of a line with a tag behind its parts. -/
theorem LaidOut.fields_extended {base gap : List Part} {token : Token}
    (h : LaidOut settings unit target raw (base ++ (gap ++ [.taken token field])))
    (hgap : gap = [] ∨ gap = [.plain ' ']) (hmoved : ∀ column, field.moved column = field) :
    fieldsAt (startOf settings unit raw) (base ++ (gap ++ [.taken token field])) =
      fieldsAt (startOf settings unit raw) base ++
        [⟨⟨raw.length - token.text.length, raw.length⟩, field⟩] := by
  have hlength := congrArg List.length h.raw_eq
  rw [textOf_append, textOf_append, List.length_append, List.length_append, List.length_append,
    h.length_start] at hlength
  have htoken : (textOf [.taken token field]).length = token.text.length := by simp [Part.text]
  have hstart : startOf settings unit raw + (textOf base).length + (textOf gap).length =
      raw.length - token.text.length := by omega
  have hstop : raw.length - token.text.length + token.text.length = raw.length := by omega
  have hnone : ∀ column, fieldsAt column gap = [] := by
    intro column
    rcases hgap with rfl | rfl <;> rfl
  rw [fieldsAt_append, fieldsAt_append, hnone, hstart]
  refine congrArg (_ ++ ·) ?_
  show [(⟨⟨_, _ + token.text.length⟩, field.moved _⟩ : Located Field)] = _
  rw [hstop, hmoved]

/-- **A line with a tag at its end** is read as the same task with one field
more, if it has no field with that key and its start is the same. -/
theorem read_withTag (hread : read settings unit target number raw = .ok task)
    (hhead : head settings (indentUnit settings unit) (raw.withTag (Token.tag key.text value).text)
      = head settings (indentUnit settings unit) raw)
    (hnone : task.fieldOf? key = none) (hshape : (Token.tag key.text value).IsShaped)
    (hfield : Field.ofTag? target 0 key value = .ok (some field))
    (hmoved : ∀ column, field.moved column = field) :
    read settings unit target number (raw.withTag (Token.tag key.text value).text) =
      .ok (task.withField (Token.tag key.text value).text field) := by
  obtain ⟨parts, h, rfl⟩ := read_iff_laidOut.mp hread
  have hkey := (Field.tells_of_ofTag? hfield).1.key?_eq
  have hfield : field? target (usedBehind [] parts) ⟨⟨0, 0⟩, .tag key.text value⟩ =
      .ok (some (field, field.key?.toList)) :=
    field?_tag_iff.mpr ⟨key, rfl, notMem_usedBehind hnone, hfield, by rw [hkey]; rfl⟩
  obtain ⟨base, gap, hbase, hgap, hlaidOut⟩ := h.extended hhead hshape hfield
  have hstart : startOf settings unit (raw.withTag (Token.tag key.text value).text) =
      startOf settings unit raw := congrArg Head.start hhead
  have htitle := hbase.squeeze_leftoverOf hgap (.tag key.text value) field
  have hfields := hlaidOut.fields_extended hgap hmoved
  rw [hlaidOut.read_eq number, taskOf, hhead, htitle, hfields, hstart,
    ← fieldsAt_of_isBase hbase]
  rfl

/-! ### A line that is a done mark but for a space -/

/-- How a line starts in which an `x` and nothing else is behind the
indentation. -/
theorem head_bare (hmark : settings.doneMark = "x ".toList) {indentation : Text}
    (hindent : ∀ c ∈ indentation, isIndent c = true) (unit : IndentUnit) :
    head settings unit (indentation ++ ['x']) =
      ⟨unit.depthOf indentation, none, none, indentation.length⟩ := by
  have htake := (Text.takeWhile_run ['x'] hindent (by simp [isIndent])).1
  have hmarker : marker? settings.doneMark indentation.length ['x'] = none := by rw [hmark]; rfl
  simp only [head, htake, List.drop_left, hmarker, past, Option.map_none, Option.getD_none]
  rfl

/-- With a space and a tag behind it, the `x` is a done mark. -/
theorem head_bare_withTag (hmark : settings.doneMark = "x ".toList) {indentation : Text}
    (hindent : ∀ c ∈ indentation, isIndent c = true) (unit : IndentUnit) (v : Text) :
    head settings unit (indentation ++ 'x' :: ' ' :: '{' :: v) =
      ⟨unit.depthOf indentation, some ⟨indentation.length, indentation.length + 2⟩, none,
        indentation.length + 2⟩ := by
  have htake := (Text.takeWhile_run ('x' :: ' ' :: '{' :: v) hindent (by
    intro c hc
    obtain rfl : 'x' = c := Option.some.inj hc
    decide)).1
  have hmarker : marker? settings.doneMark indentation.length ('x' :: ' ' :: '{' :: v) =
      some ⟨indentation.length, indentation.length + 2⟩ := by rw [hmark]; rfl
  have hdrop : (indentation ++ 'x' :: ' ' :: '{' :: v).drop (indentation.length + 2) =
      '{' :: v := by
    rw [← List.drop_drop, List.drop_left]
    rfl
  simp only [head, htake, List.drop_left, hmarker, past, Option.map_some, Option.getD_some, hdrop]
  rfl

/-- **A line with nothing but an `x` in it** becomes a done task without a
title. -/
theorem read_withTag_bare (hmark : settings.doneMark = "x ".toList)
    (hbare : raw.dropWhile isIndent = ['x'])
    (hread : read settings unit target number raw = .ok task)
    (hshape : (Token.tag key.text value).IsShaped)
    (hfield : Field.ofTag? target 0 key value = .ok (some field))
    (hmoved : ∀ column, field.moved column = field) :
    read settings unit target number (raw.withTag (Token.tag key.text value).text) =
      .ok { task.withField (Token.tag key.text value).text field with
        marker := some ⟨raw.length - 1, raw.length + 1⟩
        title := [] } := by
  obtain ⟨indentation, hindent, rfl⟩ : ∃ indentation : Text,
      (∀ c ∈ indentation, isIndent c = true) ∧ raw = indentation ++ ['x'] := by
    refine ⟨raw.takeWhile isIndent, List.all_eq_true.mp List.all_takeWhile, ?_⟩
    rw [← hbare, List.takeWhile_append_dropWhile]
  obtain ⟨body, hbody⟩ := Token.tag_head hshape
  have hkey := (Field.tells_of_ofTag? hfield).1.key?_eq
  have hnew : (indentation ++ ['x']).withTag (Token.tag key.text value).text =
      indentation ++ 'x' :: ' ' :: (Token.tag key.text value).text := by
    rw [Text.withTag, if_neg (by simp)]
    simp
  -- the line without the tag has one part, and the line with it has one too
  have hbefore : LaidOut settings unit target (indentation ++ ['x']) [.plain 'x'] := by
    have hstart : startOf settings unit (indentation ++ ['x']) = indentation.length :=
      congrArg Head.start (head_bare hmark hindent _)
    constructor
    case text_eq => rw [hstart, List.drop_left]; rfl
    case laid => exact ⟨rfl, trivial⟩
  have hhead : head settings (indentUnit settings unit)
      (indentation ++ 'x' :: ' ' :: (Token.tag key.text value).text) =
        ⟨(indentUnit settings unit).depthOf indentation,
          some ⟨indentation.length, indentation.length + 2⟩, none, indentation.length + 2⟩ := by
    rw [hbody]
    exact head_bare_withTag hmark hindent _ body
  have hafter : LaidOut settings unit target
      (indentation ++ 'x' :: ' ' :: (Token.tag key.text value).text)
      ([] ++ ([] ++ [.taken (.tag key.text value) field])) := by
    have hstart : startOf settings unit
        (indentation ++ 'x' :: ' ' :: (Token.tag key.text value).text) =
          indentation.length + 2 := congrArg Head.start hhead
    constructor
    case text_eq =>
      rw [hstart, ← List.drop_drop, List.drop_left]
      simp [Part.text]
    case laid =>
      exact ⟨⟨hshape, trivial, field?_tag_iff.mpr
        ⟨key, rfl, List.not_mem_nil, hfield, by rw [hkey]; rfl⟩⟩, trivial⟩
  obtain rfl : taskOf settings unit number (indentation ++ ['x']) [.plain 'x'] = task :=
    Except.ok.inj ((hbefore.read_eq number).symm.trans hread)
  rw [hnew, hafter.read_eq number, taskOf, hafter.fields_extended (.inl rfl) hmoved, hhead]
  simp only [Task.withField, taskOf, head_bare hmark hindent, hnew, List.length_append,
    List.length_singleton, Nat.add_sub_cancel]
  rfl

end Read

end Line

end TaskList
