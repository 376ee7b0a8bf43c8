/-
TaskList.Proofs.Line.Reindented — a line with other white space in front of it.

* `Task.said` — what is said of a task, wherever on its line it stands: all but the text of
  the line, the columns and the depth.
* `Line.SameBody` — two lines that differ in the white space in front of them and in nothing
  else. `SameBody.exists_read` — they are read alike, and the same is said by both.
* `Line.Untabbed` — a line some of whose leading tabs are written as spaces.
  `Untabbed.sameBody` — it has the same body, and `Untabbed.depthOf_eq` — it is as deep as
  before if there are as many spaces for a tab as there are columns in a level.
* `Line.depthOf_tabs` — tabs in front of a line make it deeper by as many levels.

Spaces and tabs are indentation, and white space behind them is not. It starts no token, and so it
does not matter to what the line says, unless the done mark itself starts with it.
-/
import TaskList.Proofs.Line.Prioritized
import TaskList.Proofs.Outline.Leveled

namespace TaskList

/-! ## What is said -/

/-- A field without its columns. -/
def Field.said : Field → Field
  | .count c => .count { c with digits := ⟨0, 0⟩ }
  | field => field

@[simp] theorem Field.said_moved (columns : Nat) (field : Field) :
    (field.moved columns).said = field.said := by
  cases field <;> rfl

/-- A field that stands nowhere. -/
def Located.said (x : Located Field) : Located Field := ⟨⟨0, 0⟩, x.value.said⟩

@[simp] theorem Located.said_moved (columns : Nat) (x : Located Field) :
    (x.moved columns).said = x.said := by
  simp [said, moved]

/-- What is said of a task: all but the text of its line, its columns and its depth. -/
def Task.said (task : Task) : Task where
  line := task.line
  raw := []
  indent := .level 0
  marker := task.marker.map fun _ => ⟨0, 0⟩
  priority := task.priority.map fun p => ⟨⟨0, 0⟩, p.value⟩
  fields := task.fields.map Located.said
  title := task.title

namespace Line

/-- What parts say does not depend on the column where they start. -/
theorem said_fieldsAt (column : Nat) (parts : List Part) :
    (fieldsAt column parts).map Located.said = (fieldsAt 0 parts).map Located.said := by
  have hmoved : Located.said ∘ Located.moved column = Located.said :=
    funext (Located.said_moved column)
  rw [← Nat.add_zero column, fieldsAt_add, List.map_map, hmoved]

/-! ## The indentation -/

theorem blanks_of_indents {w : Text} (hw : ∀ c ∈ w, isIndent c = true) :
    ∀ c ∈ w, isBlank c = true :=
  fun c hc => isBlank_of_isIndent (hw c hc)

theorem marker?_add (mark : Text) (columns column : Nat) (t : Text) :
    marker? mark (columns + column) t = (marker? mark column t).map (Span.moved columns) := by
  unfold marker?
  split
  · simp [Span.moved, Nat.add_assoc]
  · rfl

theorem priority?_add (columns column : Nat) (t : Text) :
    priority? (columns + column) t =
      (priority? column t).map fun p => ⟨p.span.moved columns, p.value⟩ := by
  unfold priority?
  split
  · split
    · simp [Span.moved, Nat.add_assoc]
    · rfl
  · rfl

theorem past_add (columns column : Nat) (span : Option Span) :
    past (span.map (Span.moved columns)) (columns + column) = columns + past span column := by
  cases span <;> rfl

section Indented

variable {settings : Settings} {unit : Option IndentUnit} {target : Day} {number : Int}
  {parts : List Part} {w t : Text}

/-- With spaces and tabs in front of it a line starts as it did, further right. -/
theorem head_indented (hw : ∀ c ∈ w, isIndent c = true) (settings : Settings) (unit : IndentUnit)
    (t : Text) :
    head settings unit (w ++ t) =
      { indent := unit.depthOf (w ++ t.takeWhile isIndent)
        marker := (head settings unit t).marker.map (Span.moved w.length)
        priority := (head settings unit t).priority.map fun p => ⟨p.span.moved w.length, p.value⟩
        start := w.length + (head settings unit t).start } := by
  have hdrop : ∀ n, (w ++ t).drop (w.length + n) = t.drop n := fun n => by
    rw [← List.drop_drop, List.drop_left]
  have hspan : ∀ p : Option (Located Char),
      (p.map fun p => (⟨p.span.moved w.length, p.value⟩ : Located Char)).map (·.span) =
        (p.map (·.span)).map (Span.moved w.length) := fun p => by cases p <;> rfl
  simp only [head, List.takeWhile_append_of_pos hw, List.length_append, hdrop, marker?_add,
    past_add, priority?_add, hspan]

theorem startOf_indented (hw : ∀ c ∈ w, isIndent c = true) :
    startOf settings unit (w ++ t) = w.length + startOf settings unit t :=
  congrArg Head.start (head_indented hw settings (indentUnit settings unit) t)

/-- **Spaces and tabs in front of a line** do not matter to its parts. -/
theorem laidOut_indented_iff (hw : ∀ c ∈ w, isIndent c = true) :
    LaidOut settings unit target (w ++ t) parts ↔ LaidOut settings unit target t parts := by
  have hdrop : (w ++ t).drop (startOf settings unit (w ++ t)) =
      t.drop (startOf settings unit t) := by
    rw [startOf_indented hw, ← List.drop_drop, List.drop_left]
  have htake : (w ++ t).take (startOf settings unit (w ++ t)) =
      w ++ t.take (startOf settings unit t) := by
    rw [startOf_indented hw, List.take_length_add_append]
  -- what is in front of the parts is the same character, or white space instead of nothing
  have hblank : (∀ c ∈ (w ++ t.take (startOf settings unit t)).getLast?, isBlank c = true) ↔
      ∀ c ∈ (t.take (startOf settings unit t)).getLast?, isBlank c = true := by
    rw [List.getLast?_append]
    cases (t.take (startOf settings unit t)).getLast? with
    | some c => rfl
    | none =>
      refine iff_of_true (fun c hc => ?_) (by simp)
      exact blanks_of_indents hw c (List.mem_of_getLast? hc)
  constructor
  · rintro ⟨htext, hlaid⟩
    rw [htake] at hlaid
    exact ⟨hdrop ▸ htext, hlaid.reopen (.inr hblank)⟩
  · rintro ⟨htext, hlaid⟩
    refine ⟨hdrop.trans htext, ?_⟩
    rw [htake]
    exact hlaid.reopen (.inr hblank.symm)

theorem said_taskOf_indented (hw : ∀ c ∈ w, isIndent c = true) :
    (taskOf settings unit number (w ++ t) parts).said =
      (taskOf settings unit number t parts).said := by
  simp only [taskOf, Task.said, head_indented hw, Option.map_map, said_fieldsAt (startOf _ _ _)]
  rfl

end Indented

/-! ## Other white space -/

section Blank

variable {settings : Settings} {unit : Option IndentUnit} {target : Day} {number : Int}
  {parts rest : List Part} {c : Char} {v v' t : Text}

@[simp] theorem fieldsAt_plainParts (column : Nat) (t : Text) :
    fieldsAt column (plainParts t) = [] := by
  induction t generalizing column with
  | nil => rfl
  | cons c t ih => exact ih (column + 1)

/-- White space that is no indentation ends the start of a line. -/
theorem head_blank (hc : isBlank c = true) (hindent : isIndent c = false)
    (hmark : settings.doneMark.head? ≠ some c) (unit : IndentUnit) (t : Text) :
    head settings unit (c :: t) = ⟨unit.depthOf [], none, none, 0⟩ := by
  have htake : (c :: t).takeWhile isIndent = [] := by
    rw [List.takeWhile_cons, hindent]
    rfl
  have hmarker : marker? settings.doneMark 0 (c :: t) = none := by
    unfold marker?
    split
    · rename_i h
      obtain ⟨hne, hprefix⟩ := h
      cases hdone : settings.doneMark with
      | nil => exact absurd hdone hne
      | cons d mark =>
        rw [hdone, List.isPrefixOf_cons_cons, Bool.and_eq_true, beq_iff_eq] at hprefix
        exact absurd (by rw [hdone, hprefix.1]; rfl) hmark
    · rfl
  have hpriority : priority? 0 (c :: t) = none := by
    refine Option.eq_none_iff_forall_ne_some.mpr fun p hp => ?_
    obtain ⟨letter, rest, htext, -⟩ := priority?_eq_some_iff.mp hp
    rw [(List.cons.inj htext).1] at hc
    exact absurd hc (by decide)
  simp only [head, htake, List.length_nil, List.drop_zero, hmarker, past, Option.map_none,
    Option.getD_none, hpriority]

/-- **White space behind the indentation** is a part of its own for each character. -/
theorem laidOut_blank_iff (hc : isBlank c = true) (hindent : isIndent c = false)
    (hmark : settings.doneMark.head? ≠ some c) (hv : ∀ d ∈ v, isBlank d = true) :
    LaidOut settings unit target (c :: (v ++ t)) parts ↔
      ∃ rest, parts = plainParts (c :: v) ++ rest ∧ textOf rest = t ∧
        Laid target (some ' ') [] rest [] := by
  have hstart : startOf settings unit (c :: (v ++ t)) = 0 :=
    congrArg Head.start (head_blank hc hindent hmark (indentUnit settings unit) (v ++ t))
  have hblank : ∀ d ∈ c :: v, isBlank d = true := List.forall_mem_cons.mpr ⟨hc, hv⟩
  have hplain : ∀ d ∈ c :: v, IsPlain d := fun d hd => isPlain_of_isBlank (hblank d hd)
  have hlast : (∀ d ∈ (c :: v).getLast?.or none, isBlank d = true) ↔
      ∀ d ∈ some ' ', isBlank d = true := by
    rw [Option.or_none]
    exact iff_of_true (fun d hd => hblank d (List.mem_of_getLast? hd)) fun _ hd =>
      Option.some.inj hd ▸ rfl
  constructor
  · rintro ⟨htext, hlaid⟩
    rw [hstart] at htext hlaid
    obtain ⟨rest, rfl, hrest⟩ := exists_plainParts (t := c :: v) htext.symm hplain
    have hlaid := (laid_plainParts_append hplain).mp hlaid
    exact ⟨rest, rfl, hrest, hlaid.reopen (.inr hlast)⟩
  · rintro ⟨rest, rfl, rfl, hlaid⟩
    constructor
    · rw [hstart, textOf_append, textOf_plainParts]
      rfl
    · rw [hstart]
      exact (laid_plainParts_append hplain).mpr (hlaid.reopen (.inr hlast.symm))

/-- How much white space there is does not matter to what the line says. -/
theorem said_taskOf_blank (hc : isBlank c = true) (hindent : isIndent c = false)
    (hmark : settings.doneMark.head? ≠ some c) (hv : ∀ d ∈ v, isBlank d = true) :
    (taskOf settings unit number (c :: (v ++ t)) (plainParts (c :: v) ++ rest)).said =
      { line := number
        raw := []
        indent := .level 0
        fields := (fieldsAt 0 rest).map Located.said
        title := Text.squeeze (leftoverOf rest) } := by
  have hfields : (fieldsAt (startOf settings unit (c :: (v ++ t)))
      (plainParts (c :: v) ++ rest)).map Located.said = (fieldsAt 0 rest).map Located.said := by
    rw [fieldsAt_append, fieldsAt_plainParts, List.nil_append, said_fieldsAt]
  have htitle : Text.squeeze (leftoverOf (plainParts (c :: v) ++ rest)) =
      Text.squeeze (leftoverOf rest) := by
    rw [leftoverOf_append, leftoverOf_plainParts]
    exact Text.squeeze_blank_append (List.forall_mem_cons.mpr ⟨hc, hv⟩) _
  simp only [taskOf, Task.said, hfields, htitle, head_blank hc hindent hmark]
  rfl

end Blank

/-! ## The same behind the white space -/

/-- The two lines differ in the white space in front of them and in nothing else. -/
inductive SameBody (mark : Text) : Text → Text → Prop where
  /-- Other spaces and tabs. -/
  | indent {w w' t : Text} : (∀ c ∈ w, isIndent c = true) → (∀ c ∈ w', isIndent c = true) →
      SameBody mark (w ++ t) (w' ++ t)
  /-- Other white space behind the indentation too, in front of which no done mark starts. -/
  | blank {w w' v v' t : Text} {c : Char} : (∀ c ∈ w, isIndent c = true) →
      (∀ c ∈ w', isIndent c = true) → isBlank c = true → isIndent c = false →
      mark.head? ≠ some c → (∀ d ∈ v, isBlank d = true) → (∀ d ∈ v', isBlank d = true) →
      SameBody mark (w ++ c :: (v ++ t)) (w' ++ c :: (v' ++ t))

namespace SameBody

variable {settings : Settings} {unit : Option IndentUnit} {target : Day} {number : Int}
  {mark raw text : Text} {task : Task} {c : Char}

theorem refl (t : Text) : SameBody mark t t :=
  @indent mark [] [] t (by simp) (by simp)

theorem symm (h : SameBody mark raw text) : SameBody mark text raw := by
  cases h with
  | indent hw hw' => exact .indent hw' hw
  | blank hw hw' hc hindent hmark hv hv' => exact .blank hw' hw hc hindent hmark hv' hv

/-- The same white space in front, or other spaces and tabs. -/
theorem indented {w w' : Text} (hw : ∀ c ∈ w, isIndent c = true) (hw' : ∀ c ∈ w', isIndent c = true)
    (h : SameBody mark raw text) : SameBody mark (w ++ raw) (w' ++ text) := by
  cases h with
  | indent hv hv' =>
    rw [← List.append_assoc, ← List.append_assoc]
    exact .indent (List.forall_mem_append.mpr ⟨hw, hv⟩) (List.forall_mem_append.mpr ⟨hw', hv'⟩)
  | blank hv hv' hc hindent hmark hu hu' =>
    rw [← List.append_assoc, ← List.append_assoc]
    exact .blank (List.forall_mem_append.mpr ⟨hw, hv⟩) (List.forall_mem_append.mpr ⟨hw', hv'⟩)
      hc hindent hmark hu hu'

/-- A blank in front that is no indentation: all white space behind it is only white space. -/
theorem blank_cons (hc : isBlank c = true) (hindent : isIndent c = false)
    (hmark : mark.head? ≠ some c) (h : SameBody mark raw text) :
    SameBody mark (c :: raw) (c :: text) := by
  have hnil : ∀ d ∈ ([] : Text), isIndent d = true := by simp
  cases h with
  | indent hw hw' =>
    exact .blank hnil hnil hc hindent hmark (blanks_of_indents hw) (blanks_of_indents hw')
  | @blank w w' v v' t d hw hw' hd _ _ hv hv' =>
    have hmore : ∀ {w v : Text}, (∀ e ∈ w, isIndent e = true) → (∀ e ∈ v, isBlank e = true) →
        ∀ e ∈ w ++ d :: v, isBlank e = true := fun hw hv =>
      List.forall_mem_append.mpr ⟨blanks_of_indents hw, List.forall_mem_cons.mpr ⟨hd, hv⟩⟩
    have hassoc : ∀ w v : Text, w ++ d :: (v ++ t) = (w ++ d :: v) ++ t := fun w v => by
      rw [List.append_assoc, List.cons_append]
    rw [hassoc, hassoc]
    exact .blank hnil hnil hc hindent hmark (hmore hw hv) (hmore hw' hv')

theorem allBlank_eq (h : SameBody mark raw text) : text.allBlank = raw.allBlank := by
  have hall : ∀ {v : Text}, (∀ d ∈ v, isBlank d = true) → v.all isBlank = true :=
    fun hv => List.all_eq_true.mpr hv
  cases h with
  | indent hw hw' =>
    rw [Text.allBlank, Text.allBlank, List.all_append, List.all_append,
      hall (blanks_of_indents hw), hall (blanks_of_indents hw')]
  | blank hw hw' hc _ _ hv hv' =>
    simp only [Text.allBlank, List.all_append, List.all_cons, hc, hall hv, hall hv',
      hall (blanks_of_indents hw), hall (blanks_of_indents hw')]

/-- **Lines with the same body are read alike.** -/
theorem exists_read (h : SameBody settings.doneMark raw text)
    (hread : read settings unit target number raw = .ok task) :
    ∃ other, read settings unit target number text = .ok other ∧ other.said = task.said := by
  obtain ⟨parts, hlaidOut, rfl⟩ := read_iff_laidOut.mp hread
  cases h with
  | indent hw hw' =>
    have hother := (laidOut_indented_iff hw').mpr ((laidOut_indented_iff hw).mp hlaidOut)
    exact ⟨_, hother.read_eq number, by
      rw [said_taskOf_indented hw', said_taskOf_indented hw]⟩
  | @blank w w' v v' t c hw hw' hc hindent hmark hv hv' =>
    obtain ⟨rest, rfl, hrest⟩ :=
      (laidOut_blank_iff hc hindent hmark hv).mp ((laidOut_indented_iff hw).mp hlaidOut)
    have hother : LaidOut settings unit target (w' ++ c :: (v' ++ t))
        (plainParts (c :: v') ++ rest) :=
      (laidOut_indented_iff hw').mpr
        ((laidOut_blank_iff hc hindent hmark hv').mpr ⟨rest, rfl, hrest⟩)
    exact ⟨_, hother.read_eq number, by
      rw [said_taskOf_indented hw', said_taskOf_indented hw,
        said_taskOf_blank hc hindent hmark hv', said_taskOf_blank hc hindent hmark hv]⟩

end SameBody

/-! ## Spaces for tabs -/

/-- Some of the tabs in the white space that a line starts with are spaces on the other line,
`width` of them for each. White space that is no indentation is passed over too, unless the done
mark starts with it: what is behind it is the text of the line then. -/
inductive Untabbed (mark : Text) (width : Nat) : Text → Text → Prop where
  /-- Nothing more is replaced. -/
  | rest (t : Text) : Untabbed mark width t t
  /-- A blank that stays. -/
  | blank {c : Char} {t t' : Text} : isBlank c = true →
      (isIndent c = true ∨ mark.head? ≠ some c) → Untabbed mark width t t' →
      Untabbed mark width (c :: t) (c :: t')
  /-- A tab that is replaced. -/
  | tab {t t' : Text} : Untabbed mark width t t' →
      Untabbed mark width ('\t' :: t) (List.replicate width ' ' ++ t')

/-- How many columns wide an indentation is when a tab is `width` columns wide. -/
def columnsOf (width : Nat) (indentation : Text) : Nat :=
  indentation.count '\t' * width + indentation.count ' '

theorem columnsOf_append (width : Nat) (first second : Text) :
    columnsOf width (first ++ second) = columnsOf width first + columnsOf width second := by
  rw [columnsOf, List.count_append, List.count_append, Nat.add_mul, columnsOf, columnsOf]
  omega

theorem columnsOf_cons (width : Nat) (c : Char) (indentation : Text) :
    columnsOf width (c :: indentation) = columnsOf width [c] + columnsOf width indentation :=
  columnsOf_append width [c] indentation

theorem columnsOf_tabs (width tabs : Nat) :
    columnsOf width (List.replicate tabs '\t') = tabs * width := by
  simp [columnsOf, List.count_replicate]

theorem columnsOf_spaces (width spaces : Nat) :
    columnsOf width (List.replicate spaces ' ') = spaces := by
  simp [columnsOf, List.count_replicate]

/-- The depth of an indentation is its width in whole levels. -/
theorem depthOf_columns {width : Nat} (hwidth : 0 < width) (indentation : Text) :
    (IndentUnit.columns width).depthOf indentation =
      .level ((columnsOf width indentation / width : Nat) : Int) := by
  have hwhole := Nat.add_mul_div_right (indentation.count ' ') (indentation.count '\t') hwidth
  rw [IndentUnit.depthOf, Int.fdiv_eq_ediv_of_nonneg _ (Int.natCast_nonneg width), columnsOf,
    Nat.add_comm (_ * _), hwhole, Nat.add_comm, Int.natCast_add, Int.natCast_ediv]

section Width

variable {mark raw text : Text} {width : Nat}

theorem isIndent_of_mem_replicate {n : Nat} {c d : Char} (hd : isIndent d = true)
    (hc : c ∈ List.replicate n d) : isIndent c = true :=
  List.eq_of_mem_replicate hc ▸ hd

theorem takeWhile_replicate_append {d : Char} (hd : isIndent d = true) (n : Nat) (t : Text) :
    (List.replicate n d ++ t).takeWhile isIndent = List.replicate n d ++ t.takeWhile isIndent :=
  List.takeWhile_append_of_pos fun _ hc => isIndent_of_mem_replicate hd hc

/-- A comment starts with no blank. -/
theorem not_comment_of_isBlank {c : Char} (hc : isBlank c = true) {t : Text} :
    "# ".toList.isPrefixOf (c :: t) = false := by
  have hne : ('#' == c) = false := beq_eq_false_iff_ne.mpr fun h => by
    rw [← h] at hc
    exact absurd hc (by decide)
  rw [show "# ".toList = ['#', ' '] from rfl, List.isPrefixOf_cons_cons, hne, Bool.false_and]

namespace Untabbed

theorem sameBody (h : Untabbed mark width raw text) : SameBody mark raw text := by
  induction h with
  | rest t => exact .refl t
  | @blank c t t' hc hstart _ ih =>
    cases hindent : isIndent c with
    | true =>
      have hone : ∀ d ∈ [c], isIndent d = true := List.forall_mem_singleton.mpr hindent
      exact ih.indented hone hone
    | false =>
      rw [hindent, or_iff_right Bool.false_ne_true] at hstart
      exact ih.blank_cons hc hindent hstart
  | tab _ ih =>
    exact ih.indented (w := ['\t']) (List.forall_mem_singleton.mpr rfl) fun _ hc =>
      isIndent_of_mem_replicate rfl hc

/-- The width of the indentation is the same. -/
theorem columnsOf_eq (h : Untabbed mark width raw text) :
    columnsOf width (text.takeWhile isIndent) = columnsOf width (raw.takeWhile isIndent) := by
  induction h with
  | rest t => rfl
  | @blank c t t' _ _ _ ih =>
    cases hindent : isIndent c with
    | true =>
      rw [List.takeWhile_cons_of_pos hindent, List.takeWhile_cons_of_pos hindent, columnsOf_cons,
        ih, ← columnsOf_cons]
    | false =>
      rw [List.takeWhile_cons_of_neg (by simp [hindent]),
        List.takeWhile_cons_of_neg (by simp [hindent])]
  | @tab t t' _ ih =>
    rw [takeWhile_replicate_append rfl, columnsOf_append, columnsOf_spaces, ih,
      List.takeWhile_cons_of_pos rfl, columnsOf_cons]
    exact congrArg (· + _) (Nat.one_mul width).symm

/-- **A line with spaces for its tabs is as deep as before.** -/
theorem depthOf_eq (hwidth : 0 < width) (h : Untabbed mark width raw text) :
    (IndentUnit.columns width).depthOf (text.takeWhile isIndent) =
      (IndentUnit.columns width).depthOf (raw.takeWhile isIndent) := by
  rw [depthOf_columns hwidth, depthOf_columns hwidth, h.columnsOf_eq]

/-- A line does not become a comment, and a comment stays what it is: a comment starts with no
blank. -/
theorem isPrefixOf_comment_eq (hwidth : 0 < width) (h : Untabbed mark width raw text) :
    "# ".toList.isPrefixOf text = "# ".toList.isPrefixOf raw := by
  cases h with
  | rest t => rfl
  | @blank c t t' hc _ _ =>
    rw [not_comment_of_isBlank hc, not_comment_of_isBlank hc]
  | tab _ =>
    obtain ⟨n, rfl⟩ := Nat.exists_eq_succ_of_ne_zero hwidth.ne'
    rw [List.replicate_succ, List.cons_append, not_comment_of_isBlank (by decide),
      not_comment_of_isBlank (by decide)]

theorem eq_of_comment (h : Untabbed mark width raw text)
    (hcomment : "# ".toList.isPrefixOf raw = true) : text = raw := by
  cases h with
  | rest t => rfl
  | blank hc _ _ => rw [not_comment_of_isBlank hc] at hcomment; cases hcomment
  | tab _ => rw [not_comment_of_isBlank (by decide)] at hcomment; cases hcomment

end Untabbed

/-! ## Tabs in front -/

/-- Tabs in front of a line change nothing but how deep it is. -/
theorem sameBody_tabs (mark : Text) (tabs : Nat) (raw : Text) :
    SameBody mark raw (List.replicate tabs '\t' ++ raw) :=
  .indent (w := []) (by simp) fun _ hc => isIndent_of_mem_replicate rfl hc

/-- **Tabs in front of a line make it deeper by as many levels.** -/
theorem depthOf_tabs (hwidth : 0 < width) (tabs : Nat) (raw : Text) :
    (IndentUnit.columns width).depthOf ((List.replicate tabs '\t' ++ raw).takeWhile isIndent) =
      ((IndentUnit.columns width).depthOf (raw.takeWhile isIndent)).relabel (· + tabs) := by
  rw [takeWhile_replicate_append rfl, depthOf_columns hwidth, depthOf_columns hwidth,
    columnsOf_append, columnsOf_tabs, Nat.add_comm, Nat.add_mul_div_right _ _ hwidth]
  rfl

end Width

end Line

end TaskList
