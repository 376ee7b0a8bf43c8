/-
TaskList.Proofs.Line.Prioritized — a line with another priority.

* `Located.moved` — a field with its columns further right. `Line.fieldsAt_add` — the
  fields of parts that start further right. `Task.map_find?` — what an accessor finds,
  wherever it stands.
* `Line.bodyColumn` — the column behind the indentation and the done mark, where a
  priority stands if there is one. `Line.head_prioritized` — the start of a line that
  has one there.
* `Task.withLetter` — a task with another priority letter, which is put in if there is
  none. `Line.read_withLetter` — that is the task of the line with that letter.

A priority that is put in takes the place of what is in front of the rest of the line,
so a mark that started a mention there has to start it still: white space was in front
of it, or nothing, and now the space behind the bracket is.
-/
import TaskList.Proofs.Line.Whole

namespace TaskList

/-! ## Fields further right -/

theorem Span.moved_moved (m n : Nat) (s : Span) : (s.moved m).moved n = s.moved (n + m) := by
  simp [moved, Nat.add_assoc]

theorem Field.moved_moved (m n : Nat) (field : Field) :
    (field.moved m).moved n = field.moved (n + m) := by
  cases field <;> simp [moved, Span.moved_moved]

/-- The field with its columns further right. -/
def Located.moved (columns : Nat) (x : Located Field) : Located Field :=
  ⟨x.span.moved columns, x.value.moved columns⟩

theorem Located.moved_zero (x : Located Field) : x.moved 0 = x := by
  obtain ⟨⟨start, stop⟩, value⟩ := x
  cases value <;> simp [moved, Span.moved, Field.moved]

theorem Located.moved_moved (m n : Nat) (x : Located Field) :
    (x.moved m).moved n = x.moved (n + m) := by
  simp [moved, Span.moved_moved, Field.moved_moved]

namespace Task

/-- What an accessor finds is the first value of its kind. -/
theorem map_find? {α : Type} (kind : Field → Option α) (task : Task) :
    (task.find? kind).map (·.value) = (task.fields.map (·.value)).findSome? kind := by
  rw [find?, List.map_findSome?, List.findSome?_map]
  refine congrArg (List.findSome? · task.fields) (funext fun field => ?_)
  rw [Function.comp_apply, Function.comp_apply]
  cases kind field.value <;> rfl

/-- Tasks are done alike that have the same mark, and the same said of their completion. -/
theorem isDone_congr {task other : Task} (hmarker : task.marker = other.marker)
    (hcompletion : task.completion?.map (·.value) = other.completion?.map (·.value)) :
    task.isDone = other.isDone := by
  have hsome := congrArg Option.isSome hcompletion
  rw [Option.isSome_map, Option.isSome_map] at hsome
  rw [isDone, isDone, hmarker, hsome]

end Task

namespace Line

theorem fieldsAt_add (columns column : Nat) (parts : List Part) :
    fieldsAt (columns + column) parts = (fieldsAt column parts).map (Located.moved columns) := by
  induction parts generalizing column with
  | nil => rfl
  | cons part parts ih =>
    rw [fieldsAt, fieldsAt, List.map_append, Nat.add_assoc, ih]
    cases part.field? with
    | none => rfl
    | some field => simp [Located.moved, Span.moved, Field.moved_moved]

/-! ## The start of the line -/

/-- The column behind the indentation and the done mark of a line. -/
def bodyColumn (mark raw : Text) : Nat :=
  past (marker? mark (raw.takeWhile isIndent).length (raw.drop (raw.takeWhile isIndent).length))
    (raw.takeWhile isIndent).length

section Head

variable {settings : Settings} {raw rest : Text} {letter : Char}

/-- A line starts with a priority where its body starts, or with none. -/
theorem head_priority (settings : Settings) (unit : IndentUnit) (raw : Text) :
    (head settings unit raw).priority = none ∧
        (head settings unit raw).start = bodyColumn settings.doneMark raw ∨
      ∃ letter, (head settings unit raw).priority = some
          ⟨⟨bodyColumn settings.doneMark raw, bodyColumn settings.doneMark raw + 3⟩, letter⟩ ∧
        (head settings unit raw).start = bodyColumn settings.doneMark raw + 3 ∧
        'A' ≤ letter ∧ letter ≤ 'Z' := by
  obtain ⟨written, rest, -, hpast, hpriority⟩ := priority?_cases
    (bodyColumn settings.doneMark raw) (raw.drop (bodyColumn settings.doneMark raw))
  obtain ⟨hnone, rfl⟩ | ⟨letter, hA, hZ, rfl, hsome⟩ := hpriority
  · exact .inl ⟨hnone, hpast⟩
  · exact .inr ⟨letter, hsome, hpast, hA, hZ⟩

/-- What is in front of the body of a line: the indentation, and perhaps the done mark. -/
theorem exists_body (mark raw : Text) :
    ∃ marker behind, raw.drop (raw.takeWhile isIndent).length = marker ++ behind ∧
      bodyColumn mark raw = (raw.takeWhile isIndent).length + marker.length ∧
      raw.take (bodyColumn mark raw) = raw.takeWhile isIndent ++ marker ∧
      (marker? mark (raw.takeWhile isIndent).length (marker ++ behind) = none ∧ marker = [] ∨
        marker? mark (raw.takeWhile isIndent).length (marker ++ behind) =
            some ⟨(raw.takeWhile isIndent).length,
              (raw.takeWhile isIndent).length + marker.length⟩ ∧
          marker = mark ∧ marker ≠ []) := by
  obtain ⟨marker, behind, hbehind, hpast, hmarker⟩ := marker?_cases mark
    (raw.drop (raw.takeWhile isIndent).length) (raw.takeWhile isIndent).length
  change bodyColumn mark raw = _ at hpast
  rw [hbehind] at hmarker
  refine ⟨marker, behind, hbehind, hpast, ?_, hmarker⟩
  have hraw : raw = raw.takeWhile isIndent ++ marker ++ behind := by
    have hdrop := congrArg (List.drop (raw.takeWhile isIndent).length)
      (List.takeWhile_append_dropWhile (p := isIndent) (l := raw))
    rw [List.drop_left, hbehind] at hdrop
    rw [List.append_assoc, ← hdrop, List.takeWhile_append_dropWhile]
  refine (congrArg (List.take _) hraw).trans (List.take_left' ?_)
  rw [hpast, List.length_append]

/-- In front of the body of a line is white space, or nothing. -/
theorem endsBlank_body (hmark : settings.doneMark = "x ".toList) :
    Text.EndsBlank (raw.take (bodyColumn settings.doneMark raw)) := by
  obtain ⟨marker, behind, -, -, hfront, hmarker⟩ := exists_body settings.doneMark raw
  rw [hfront]
  obtain ⟨-, rfl⟩ | ⟨-, rfl, -⟩ := hmarker
  · rw [List.append_nil]
    intro c hc
    exact isBlank_of_isIndent (List.all_eq_true.mp List.all_takeWhile c (List.mem_of_getLast? hc))
  · rw [hmark]
    intro c hc
    rw [List.getLast?_append] at hc
    obtain rfl : ' ' = c := Option.some.inj hc
    decide

/-- A done mark stands in front of a bracket if it stands in front of the text that was
there. -/
theorem marker?_bracket (hmark : settings.doneMark = "x ".toList) {marker behind : Text}
    {column : Nat}
    (h : marker? settings.doneMark column (marker ++ behind) = none ∧ marker = [] ∨
      marker? settings.doneMark column (marker ++ behind) =
        some ⟨column, column + marker.length⟩ ∧ marker = settings.doneMark ∧ marker ≠ [])
    (t : Text) :
    marker? settings.doneMark column (marker ++ '(' :: t) =
      marker? settings.doneMark column (marker ++ behind) := by
  obtain ⟨hnone, rfl⟩ | ⟨hsome, rfl, hne⟩ := h
  · rw [hnone, hmark]
    rfl
  · rw [hsome, marker?, if_pos ⟨hne, List.isPrefixOf_iff_prefix.mpr (List.prefix_append _ _)⟩]

/-- **A priority where the body of a line starts** is read as one, and nothing else of
the start changes. -/
theorem head_prioritized (hmark : settings.doneMark = "x ".toList) (unit : IndentUnit)
    (hA : 'A' ≤ letter) (hZ : letter ≤ 'Z') (hrest : Text.StartsBlank rest) :
    head settings unit
        (raw.take (bodyColumn settings.doneMark raw) ++ '(' :: letter :: ')' :: rest) =
      { head settings unit raw with
        priority := some
          ⟨⟨bodyColumn settings.doneMark raw, bodyColumn settings.doneMark raw + 3⟩, letter⟩
        start := bodyColumn settings.doneMark raw + 3 } := by
  obtain ⟨marker, behind, hbehind, hpast, hfront, hmarker⟩ := exists_body settings.doneMark raw
  have htake : (raw.takeWhile isIndent ++ (marker ++ '(' :: letter :: ')' :: rest)).takeWhile
      isIndent = raw.takeWhile isIndent := by
    refine (Text.takeWhile_run _ (List.all_eq_true.mp List.all_takeWhile) fun c hc => ?_).1
    obtain ⟨-, rfl⟩ | ⟨-, rfl, -⟩ := hmarker
    · obtain rfl : '(' = c := Option.some.inj hc
      decide
    · rw [hmark] at hc
      obtain rfl : 'x' = c := Option.some.inj hc
      decide
  rw [hfront, List.append_assoc]
  generalize hline : raw.takeWhile isIndent ++ (marker ++ '(' :: letter :: ')' :: rest) = line
    at htake
  have hmarked : marker? settings.doneMark (line.takeWhile isIndent).length
      (line.drop (line.takeWhile isIndent).length) = (head settings unit raw).marker := by
    rw [htake, ← hline, List.drop_left, marker?_bracket hmark hmarker, ← hbehind]
    rfl
  have hcolumn : bodyColumn settings.doneMark line = bodyColumn settings.doneMark raw := by
    rw [bodyColumn, hmarked, htake]
    rfl
  have hpriority : priority? (bodyColumn settings.doneMark line)
      (line.drop (bodyColumn settings.doneMark line)) =
        some ⟨⟨bodyColumn settings.doneMark raw, bodyColumn settings.doneMark raw + 3⟩, letter⟩ := by
    rw [hcolumn, ← hline, ← List.append_assoc,
      List.drop_left' (by rw [hpast, List.length_append])]
    refine if_pos ⟨hA, hZ, ?_⟩
    cases rest with
    | nil => rfl
    | cons c rest => exact hrest c rfl
  calc head settings unit line
    _ = ⟨unit.depthOf (line.takeWhile isIndent), marker? settings.doneMark
          (line.takeWhile isIndent).length (line.drop (line.takeWhile isIndent).length),
        priority? (bodyColumn settings.doneMark line)
          (line.drop (bodyColumn settings.doneMark line)),
        past ((priority? (bodyColumn settings.doneMark line)
          (line.drop (bodyColumn settings.doneMark line))).map (·.span))
            (bodyColumn settings.doneMark line)⟩ := rfl
    _ = _ := by
      rw [hmarked, hpriority, htake]
      rfl

end Head

end Line

/-! ## The task of the line -/

/-- The task with another priority letter. Where there is none, it is put in with a space
behind it. -/
def Task.withLetter (task : Task) (letter : Char) : Task :=
  match task.priority with
  | some p =>
    { task with
      raw := task.raw.take p.span.start ++ (['(', letter, ')'] ++ task.raw.drop p.span.stop)
      priority := some ⟨p.span, letter⟩ }
  | none =>
    let column := (task.marker.map (·.stop)).getD task.contentStart
    { task with
      raw := task.raw.take column ++ (['(', letter, ')', ' '] ++ task.raw.drop column)
      priority := some ⟨⟨column, column + 3⟩, letter⟩
      fields := task.fields.map (Located.moved 4) }

namespace Line

section Read

variable {settings : Settings} {unit : Option IndentUnit} {target : Day} {number : Int}
  {raw : Text} {task : Task} {letter : Char}

/-- A line with a priority where its body starts, and parts behind that. -/
theorem read_prioritized (hmark : settings.doneMark = "x ".toList)
    (hlength : (raw.take (bodyColumn settings.doneMark raw)).length =
      bodyColumn settings.doneMark raw) (hA : 'A' ≤ letter) (hZ : letter ≤ 'Z')
    {parts : List Part} (hblank : Text.StartsBlank (textOf parts))
    (hlaid : Laid target (some ')') [] parts []) :
    read settings unit target number (raw.take (bodyColumn settings.doneMark raw) ++
        '(' :: letter :: ')' :: textOf parts) =
      .ok { line := number
            raw := raw.take (bodyColumn settings.doneMark raw) ++
              '(' :: letter :: ')' :: textOf parts
            indent := (head settings (indentUnit settings unit) raw).indent
            marker := (head settings (indentUnit settings unit) raw).marker
            priority := some
              ⟨⟨bodyColumn settings.doneMark raw, bodyColumn settings.doneMark raw + 3⟩, letter⟩
            fields := fieldsAt (bodyColumn settings.doneMark raw + 3) parts
            title := Text.squeeze (leftoverOf parts) } := by
  have hhead := @head_prioritized _ raw _ _ hmark (indentUnit settings unit) hA hZ hblank
  have hstart := congrArg Head.start hhead
  change startOf settings unit _ = bodyColumn settings.doneMark raw + 3 at hstart
  have hcut : raw.take (bodyColumn settings.doneMark raw) ++ '(' :: letter :: ')' :: textOf parts =
      raw.take (bodyColumn settings.doneMark raw) ++ ['(', letter, ')'] ++ textOf parts := by simp
  have hfront : (raw.take (bodyColumn settings.doneMark raw) ++ ['(', letter, ')']).length =
      bodyColumn settings.doneMark raw + 3 := by rw [List.length_append, hlength]; rfl
  have hlaidOut : LaidOut settings unit target
      (raw.take (bodyColumn settings.doneMark raw) ++ '(' :: letter :: ')' :: textOf parts)
      parts := by
    constructor
    case text_eq => rw [hstart, hcut, List.drop_left' hfront]
    case laid =>
      rw [hstart, hcut, List.take_left' hfront, List.getLast?_append]
      exact hlaid
  rw [hlaidOut.read_eq number, taskOf, hhead, hstart]

/-- **A line with another priority letter** is read as the task with that letter. -/
theorem read_withLetter (hmark : settings.doneMark = "x ".toList)
    (hread : read settings unit target number raw = .ok task) (hA : 'A' ≤ letter)
    (hZ : letter ≤ 'Z') :
    read settings unit target number (task.withLetter letter).raw =
      .ok (task.withLetter letter) := by
  obtain ⟨parts, h, rfl⟩ := read_iff_laidOut.mp hread
  have hlength := h.length_start
  have hcut : raw.drop (startOf settings unit raw) = textOf parts := h.text_eq
  have hlaid := h.laid
  obtain ⟨hnone, hstart⟩ | ⟨old, hsome, hstart, -⟩ :=
    head_priority settings (indentUnit settings unit) raw
  · change startOf settings unit raw = _ at hstart
    rw [hstart] at hlength hcut hlaid
    have hspace : Laid target (some ')') [] (.plain ' ' :: parts) [] := by
      refine ⟨rfl, hlaid.reopen (.inr (iff_of_true (endsBlank_body hmark) ?_))⟩
      rintro _ ⟨rfl⟩
      decide
    have hput := @read_prioritized settings unit target number raw _ hmark hlength hA hZ _
      (by rintro _ ⟨rfl⟩; decide) hspace
    have hfields : fieldsAt (bodyColumn settings.doneMark raw + 3) (.plain ' ' :: parts) =
        (fieldsAt (startOf settings unit raw) parts).map (Located.moved 4) := by
      rw [hstart, ← fieldsAt_add, Nat.add_comm 4]
      rfl
    have htitle : Text.squeeze (leftoverOf (.plain ' ' :: parts)) =
        Text.squeeze (leftoverOf parts) :=
      Text.squeeze_blank_append (List.forall_mem_singleton.mpr (by decide)) (leftoverOf parts)
    rw [hfields, htitle, textOf_cons, ← hcut] at hput
    rw [Task.withLetter, show (taskOf settings unit number raw parts).priority = none from hnone]
    exact hput
  · change startOf settings unit raw = _ at hstart
    have hbody : (raw.take (bodyColumn settings.doneMark raw)).length =
        bodyColumn settings.doneMark raw := by
      rw [hstart] at hlength
      rw [List.length_take] at hlength ⊢
      omega
    have hblank : Text.StartsBlank (textOf parts) := hcut ▸ startsBlank_of_priority hsome
    have hbracket : (raw.take (startOf settings unit raw)).getLast? = some ')' := by
      obtain ⟨blanks, mark, written, rest, hcut⟩ := head_cut settings (indentUnit settings unit) raw
      rw [startOf, hcut.take_start, (hcut.of_priority hsome).2.1, ← List.append_assoc,
        List.getLast?_append]
      rfl
    rw [hbracket] at hlaid
    have hput := @read_prioritized settings unit target number raw _ hmark hbody hA hZ _ hblank hlaid
    rw [← hstart, ← hcut] at hput
    rw [← hstart] at hsome
    rw [Task.withLetter, show (taskOf settings unit number raw parts).priority = some _ from hsome]
    exact hput

end Read

end Line

end TaskList
