/-
TaskList.Proofs.Line.Whole — a line as parts from its first column on.

* `Line.plainParts` — the characters of a text as parts, none of which starts a
  token. The indentation, the done mark and the priority are such, so a line that
  is laid out behind its start is laid out as a whole: `LaidOut.laid_whole`, and
  `Laid.exists_laidOut` for the other way.
* `Line.startWords` — the words of the start of a line. `LaidOut.words_whole` — with
  those of the title they are the words that the whole line leaves.
* `Line.exists_taken`, `LaidOut.exists_gap` — a field of a task is a part of its line,
  and the columns that its tag is taken out with are it and perhaps a space.
-/
import TaskList.Proofs.Line.Closed
import TaskList.Proofs.Line.TagSpan

namespace TaskList

namespace Line

/-! ## Characters at which no token starts -/

/-- No token starts at the character, whatever stands next to it. -/
def IsPlain (c : Char) : Prop := c ≠ '{' ∧ Group.ofMark? c = none

/-- The characters of a text as parts. -/
def plainParts (t : Text) : List Part := t.map .plain

section Plain

variable {target : Day} {before : Option Char} {used : List Key} {parts whole : List Part}
  {t rest after : Text}

@[simp] theorem textOf_plainParts (t : Text) : textOf (plainParts t) = t := by
  induction t with
  | nil => rfl
  | cons c t ih => exact congrArg (c :: ·) ih

@[simp] theorem leftoverOf_plainParts (t : Text) : leftoverOf (plainParts t) = t := by
  induction t with
  | nil => rfl
  | cons c t ih => exact congrArg (c :: ·) ih

theorem usedBehind_plainParts (used : List Key) (t : Text) :
    usedBehind used (plainParts t) = used := by
  induction t with
  | nil => rfl
  | cons c t ih => exact ih

theorem kept_notMem_plainParts (token : Token) (t : Text) : .kept token ∉ plainParts t := by
  simp [plainParts]

theorem IsPlain.at?_eq_none {c : Char} (h : IsPlain c) (before : Option Char) (t : Text) :
    Token.at? before (c :: t) = none := by
  unfold Token.at?
  split
  · rfl
  · rename_i heq
    exact absurd (List.cons.inj heq).1 h.1
  · rename_i d rest _ heq
    obtain ⟨rfl, -⟩ := List.cons.inj heq
    rw [h.2]

theorem not_isPlain_of_token {token : Token} {c : Char} (h : token.text = c :: t) :
    ¬ IsPlain c := by
  rintro ⟨hbrace, hmark⟩
  cases token with
  | tag key value => cases value <;> exact hbrace (List.cons.inj h).1.symm
  | mention group name =>
    rw [← (List.cons.inj h).1, Token.ofMark?_eq_some_iff.mpr rfl] at hmark
    exact Option.some_ne_none group hmark

theorem laid_plainParts (h : ∀ c ∈ t, IsPlain c) :
    Laid target before used (plainParts t) after := by
  induction t generalizing before with
  | nil => trivial
  | cons c t ih =>
    exact ⟨(h c List.mem_cons_self).at?_eq_none before _,
      ih fun d hd => h d (List.mem_cons_of_mem c hd)⟩

theorem laid_plainParts_append (h : ∀ c ∈ t, IsPlain c) :
    Laid target before used (plainParts t ++ parts) after ↔
      Laid target (t.getLast?.or before) used parts after := by
  rw [laid_append, usedBehind_plainParts, lastBehind_eq, textOf_plainParts,
    and_iff_right (laid_plainParts h)]

/-- Parts that are written as plain characters at their start are those. -/
theorem exists_plainParts (htext : textOf whole = t ++ rest) (h : ∀ c ∈ t, IsPlain c) :
    ∃ parts, whole = plainParts t ++ parts ∧ textOf parts = rest := by
  induction t generalizing whole with
  | nil => exact ⟨whole, rfl, htext⟩
  | cons c t ih =>
    obtain ⟨hc, ht⟩ := List.forall_mem_cons.mp h
    cases whole with
    | nil => simp at htext
    | cons part whole =>
      rw [textOf_cons] at htext
      cases hpart : part.text with
      | nil => exact absurd hpart part.text_ne_nil
      | cons d text =>
        rw [hpart, List.cons_append, List.cons_append, List.cons.injEq] at htext
        obtain ⟨rfl, htext⟩ := htext
        cases part with
        | plain e =>
          obtain ⟨rfl, rfl⟩ : e = d ∧ [] = text := List.cons.inj hpart
          obtain ⟨parts, rfl, hparts⟩ := ih htext ht
          exact ⟨parts, rfl, hparts⟩
        | kept token => exact absurd hc (not_isPlain_of_token hpart)
        | taken token field => exact absurd hc (not_isPlain_of_token hpart)

end Plain

/-! ## The start of a line -/

theorem isPlain_of_isBlank {c : Char} (h : isBlank c = true) : IsPlain c := by
  refine ⟨fun hbrace => ?_, ofMark?_of_isBlank h⟩
  rw [hbrace] at h
  exact absurd h (by decide)

/-- A capital letter is no mark, and no white space. -/
theorem isPlain_of_letter {c : Char} (hA : 'A' ≤ c) (hZ : c ≤ 'Z') :
    IsPlain c ∧ isBlank c = false := by
  rw [Char.le_def, UInt32.le_iff_toNat_le] at hA hZ
  have hA : 65 ≤ c.toNat := hA
  have hZ : c.toNat ≤ 90 := hZ
  refine ⟨⟨fun hbrace => ?_, ?_⟩, ?_⟩
  · rw [hbrace] at hZ
    exact absurd hZ (by decide)
  · refine Option.eq_none_iff_forall_ne_some.mpr fun group hgroup => ?_
    rw [← Token.ofMark?_eq_some_iff.mp hgroup] at hA
    cases group <;> exact absurd hA (by decide)
  · simp only [isBlank, Bool.or_eq_false_iff, Bool.and_eq_false_iff, decide_eq_false_iff_not,
      beq_eq_false_iff_ne]
    omega

/-- The words that a line starts with: an `x` if it is marked, and a priority. -/
def startWords (marked : Bool) (letter : Option Char) : List Text :=
  (if marked then [['x']] else []) ++ (letter.map fun c => ['(', c, ')']).toList

/-- The words of the start tell what it says. -/
theorem startWords_inj {marked marked' : Bool} {letter letter' : Option Char} :
    startWords marked letter = startWords marked' letter' ↔
      marked = marked' ∧ letter = letter' := by
  cases marked <;> cases marked' <;> cases letter <;> cases letter' <;> simp [startWords]

section Start

variable {settings : Settings} {unit : Option IndentUnit} {target : Day} {raw : Text}
  {used : List Key} {parts whole : List Part}

/-- Behind a priority there is white space, or the end of the line. -/
theorem startsBlank_of_priority {width : IndentUnit} {p : Located Char}
    (h : (head settings width raw).priority = some p) :
    Text.StartsBlank (raw.drop (head settings width raw).start) := by
  simp only [head] at h ⊢
  generalize past _ (raw.takeWhile isIndent).length = column at h ⊢
  rw [h]
  obtain ⟨letter, rest, htext, ⟨-, -, hblank⟩, rfl⟩ := priority?_eq_some_iff.mp h
  rw [Option.map_some, past, Option.map_some, Option.getD_some, ← List.drop_drop, htext]
  intro c hc
  rw [show List.drop 3 ('(' :: letter :: ')' :: rest) = rest from rfl] at hc
  rw [Option.mem_def.mp hc] at hblank
  exact hblank

section Cut

variable {priority : Option (Located Char)} {marker : Option Span} {start : Nat}
  {blanks mark letter rest : Text}

theorem Cut.take_start (h : Cut settings.doneMark raw marker priority start blanks mark letter rest) :
    raw.take start = blanks ++ (mark ++ letter) := by
  have hlength : (blanks ++ (mark ++ letter)).length = start := by
    rw [h.start_eq]
    simp [Nat.add_assoc]
  rw [h.raw_eq, ← List.append_assoc mark, ← List.append_assoc]
  exact List.take_left' hlength

/-- No token starts in the start of a line. -/
theorem Cut.isPlain (hmark : settings.doneMark = "x ".toList)
    (h : Cut settings.doneMark raw marker priority start blanks mark letter rest) :
    ∀ c ∈ raw.take start, IsPlain c := by
  intro c hc
  rw [h.take_start, List.mem_append, List.mem_append] at hc
  obtain hc | hc | hc := hc
  · exact isPlain_of_isBlank (h.blank c hc)
  · obtain ⟨-, rfl⟩ | ⟨-, rfl, -⟩ := h.marker_eq
    · simp at hc
    · rw [hmark] at hc
      obtain rfl | rfl : c = 'x' ∨ c = ' ' := by simpa using hc
      · exact ⟨by decide, by decide⟩
      · exact ⟨by decide, by decide⟩
  · obtain ⟨-, rfl⟩ | ⟨d, hA, hZ, rfl, -⟩ := h.priority_eq
    · simp at hc
    · obtain rfl | rfl | rfl : c = '(' ∨ c = d ∨ c = ')' := by simpa using hc
      · exact ⟨by decide, by decide⟩
      · exact (isPlain_of_letter hA hZ).1
      · exact ⟨by decide, by decide⟩

/-- The words of a text with the start of a line in front of it. -/
theorem Cut.words_append (hmark : settings.doneMark = "x ".toList)
    (h : Cut settings.doneMark raw marker priority start blanks mark letter rest) {t : Text}
    (ht : priority.isSome → t.StartsBlank) :
    Text.words (raw.take start ++ t) =
      startWords marker.isSome (priority.map (·.value)) ++ Text.words t := by
  have hletter : Text.words (letter ++ t) =
      (priority.map fun p => ['(', p.value, ')']).toList ++ Text.words t := by
    obtain ⟨rfl, rfl⟩ | ⟨c, hA, hZ, rfl, rfl⟩ := h.priority_eq
    · rfl
    · rw [Text.words_append (.inr (ht rfl)), Text.words_of_forall (List.cons_ne_nil _ _)]
      · rfl
      · simp [(isPlain_of_letter hA hZ).2, show isBlank '(' = false by decide,
          show isBlank ')' = false by decide]
  rw [h.take_start, List.append_assoc, List.append_assoc, Text.words_blank_append h.blank,
    startWords, List.append_assoc, Option.map_map]
  obtain ⟨rfl, rfl⟩ | ⟨rfl, rfl, -⟩ := h.marker_eq
  · exact hletter
  · have hspace : settings.doneMark ++ (letter ++ t) = ['x'] ++ ' ' :: (letter ++ t) := by
      rw [hmark]
      rfl
    rw [hspace, Text.words_append_cons (by decide), hletter,
      Text.words_of_forall (List.cons_ne_nil _ _) (List.forall_mem_singleton.mpr (by decide))]
    rfl

end Cut

/-- The parts of a line from its first column on, when others are those behind its
start. -/
def wholeOf (settings : Settings) (unit : Option IndentUnit) (raw : Text) (parts : List Part) :
    List Part := plainParts (raw.take (startOf settings unit raw)) ++ parts

/-- **A line that is laid out is laid out from its first column on.** -/
theorem LaidOut.laid_whole (h : LaidOut settings unit target raw parts)
    (hmark : settings.doneMark = "x ".toList) :
    Laid target none [] (wholeOf settings unit raw parts) [] := by
  obtain ⟨blanks, mark, letter, rest, hcut⟩ := head_cut settings (indentUnit settings unit) raw
  refine (laid_plainParts_append (hcut.isPlain hmark)).mpr ?_
  rw [Option.or_none]
  exact h.laid

theorem LaidOut.textOf_whole (h : LaidOut settings unit target raw parts) :
    textOf (wholeOf settings unit raw parts) = raw := by
  rw [wholeOf, textOf_append, textOf_plainParts, h.raw_eq]

/-- Parts of a whole line are those behind its start, and plain characters in
front of them. -/
theorem Laid.exists_laidOut (h : Laid target none [] whole [])
    (hmark : settings.doneMark = "x ".toList) (unit : Option IndentUnit) :
    ∃ parts, whole = wholeOf settings unit (textOf whole) parts ∧
      LaidOut settings unit target (textOf whole) parts := by
  obtain ⟨blanks, mark, letter, rest, hcut⟩ :=
    head_cut settings (indentUnit settings unit) (textOf whole)
  have hplain := hcut.isPlain hmark
  obtain ⟨parts, hwhole, hparts⟩ :=
    exists_plainParts (List.take_append_drop _ (textOf whole)).symm hplain
  refine ⟨parts, hwhole, hparts.symm, ?_⟩
  rw [hwhole] at h
  have hlaid := (laid_plainParts_append hplain).mp h
  rwa [Option.or_none] at hlaid

/-- The words that the whole line leaves are those of its start and of its title. -/
theorem LaidOut.words_whole (h : LaidOut settings unit target raw parts)
    (hmark : settings.doneMark = "x ".toList) (number : Int) :
    Text.words (leftoverOf (wholeOf settings unit raw parts)) =
      startWords (taskOf settings unit number raw parts).marker.isSome
        (taskOf settings unit number raw parts).letter? ++
      Text.words (taskOf settings unit number raw parts).title := by
  obtain ⟨blanks, mark, letter, rest, hcut⟩ := head_cut settings (indentUnit settings unit) raw
  rw [wholeOf, leftoverOf_append, leftoverOf_plainParts]
  have htitle : Text.words (taskOf settings unit number raw parts).title =
      Text.words (leftoverOf parts) := Text.words_squeeze _
  rw [htitle]
  refine hcut.words_append hmark fun hsome => ?_
  obtain ⟨p, hp⟩ := Option.isSome_iff_exists.mp hsome
  have hstart := startsBlank_of_priority hp
  rw [show raw.drop (head settings (indentUnit settings unit) raw).start = textOf parts from
    h.text_eq] at hstart
  exact leftover_startsBlank hstart

/-! ## A done mark put in or taken out -/

/-- A done mark behind the indentation changes no part of the line. -/
theorem laid_mark_iff {blanks : Text} (hblank : ∀ c ∈ blanks, isBlank c = true) :
    Laid target none used (plainParts (blanks ++ "x ".toList) ++ parts) [] ↔
      Laid target none used (plainParts blanks ++ parts) [] := by
  have hplain : ∀ c ∈ blanks, IsPlain c := fun c hc => isPlain_of_isBlank (hblank c hc)
  have hplain' : ∀ c ∈ blanks ++ "x ".toList, IsPlain c := fun c hc => by
    rcases List.mem_append.mp hc with hc | hc
    · exact hplain c hc
    · obtain rfl | rfl : c = 'x' ∨ c = ' ' := by simpa using hc
      · exact ⟨by decide, by decide⟩
      · exact ⟨by decide, by decide⟩
  -- white space is in front of the parts, with the mark and without it
  have hspace : ∀ c ∈ (blanks ++ "x ".toList).getLast?.or none, isBlank c = true := by
    rw [List.getLast?_append]
    intro c hc
    obtain rfl : ' ' = c := by simpa using hc
    decide
  have hbase : ∀ c ∈ blanks.getLast?.or none, isBlank c = true := by
    rw [Option.or_none]
    exact fun c hc => hblank c (List.mem_of_getLast? hc)
  rw [laid_plainParts_append hplain, laid_plainParts_append hplain']
  exact ⟨fun h => h.reopen (.inr (iff_of_true hspace hbase)),
    fun h => h.reopen (.inr (iff_of_true hbase hspace))⟩

theorem words_mark {blanks : Text} (hblank : ∀ c ∈ blanks, isBlank c = true)
    (parts : List Part) :
    Text.words (leftoverOf (plainParts (blanks ++ "x ".toList) ++ parts)) =
      ['x'] :: Text.words (leftoverOf (plainParts blanks ++ parts)) := by
  have hspace : "x ".toList ++ leftoverOf parts = ['x'] ++ ' ' :: leftoverOf parts := rfl
  rw [leftoverOf_append, leftoverOf_append, leftoverOf_plainParts, leftoverOf_plainParts,
    List.append_assoc, Text.words_blank_append hblank, Text.words_blank_append hblank, hspace,
    Text.words_append_cons (by decide),
    Text.words_of_forall (List.cons_ne_nil _ _) (List.forall_mem_singleton.mpr (by decide))]
  rfl

end Start

/-! ## Fields and the columns of their tags -/

section Fields

variable {settings : Settings} {unit : Option IndentUnit} {target : Day} {number : Int}
  {raw : Text} {parts whole front back : List Part} {x : Located Field} {token : Token}
  {field : Field}

/-- A field of parts is one of them. -/
theorem exists_taken {column : Nat} (hx : x ∈ fieldsAt column parts) :
    ∃ front token field back, parts = front ++ .taken token field :: back ∧
      x.span = ⟨column + (textOf front).length,
        column + (textOf front).length + token.text.length⟩ ∧
      x.value = field.moved (column + (textOf front).length) := by
  induction parts generalizing column with
  | nil => simp [fieldsAt] at hx
  | cons part parts ih =>
    rw [fieldsAt, List.mem_append] at hx
    obtain hx | hx := hx
    · cases part with
      | plain c => simp [Part.field?] at hx
      | kept token => simp [Part.field?] at hx
      | taken token field =>
        obtain rfl := List.mem_singleton.mp hx
        exact ⟨[], token, field, parts, rfl, rfl, rfl⟩
    · obtain ⟨front, token, field, back, rfl, hspan, hvalue⟩ := ih hx
      refine ⟨part :: front, token, field, back, rfl, ?_, ?_⟩
      · rw [hspan, textOf_cons, List.length_append, Nat.add_assoc column]
      · rw [hvalue, textOf_cons, List.length_append, Nat.add_assoc column]

/-- A field of a task is a part of its line. -/
theorem LaidOut.exists_field (h : LaidOut settings unit target raw parts)
    (hx : x ∈ (taskOf settings unit number raw parts).fields) :
    ∃ front token field back,
      wholeOf settings unit raw parts =
        front ++ .taken token field :: back ∧
      x.span = ⟨(textOf front).length, (textOf front).length + token.text.length⟩ ∧
      x.value = field.moved (textOf front).length := by
  obtain ⟨front, token, field, back, rfl, hspan, hvalue⟩ := exists_taken hx
  have hlength : (textOf (plainParts (raw.take (startOf settings unit raw)) ++ front)).length =
      startOf settings unit raw + (textOf front).length := by
    rw [textOf_append, textOf_plainParts, List.length_append, h.length_start]
  exact ⟨_, token, field, back, (List.append_assoc _ _ _).symm, by rw [hlength, hspan],
    by rw [hlength, hvalue]⟩

/-- Parts that start with a space start with a part that is one. -/
theorem exists_of_head_space (h : (textOf parts).head? = some ' ') :
    ∃ rest, parts = .plain ' ' :: rest := by
  cases parts with
  | nil => simp at h
  | cons part rest =>
    rw [textOf_cons, List.head?_append_of_ne_nil _ part.text_ne_nil] at h
    cases part with
    | plain c =>
      obtain rfl : c = ' ' := Option.some.inj h
      exact ⟨rest, rfl⟩
    | kept token => exact absurd h (head?_ne_space token)
    | taken token field => exact absurd h (head?_ne_space token)

/-- **The columns that a tag is taken out with** are a part, and perhaps a space
next to it. -/
theorem Laid.exists_gap (h : Laid target none [] (front ++ .taken token field :: back) [])
    {task : Task} (hraw : task.raw = textOf (front ++ .taken token field :: back)) {s : Span}
    (hs : s = ⟨(textOf front).length, (textOf front).length + token.text.length⟩) :
    ∃ front' gone back', front ++ .taken token field :: back = front' ++ (gone ++ back') ∧
      IsCut token field gone ∧ (textOf front').length = (task.tagSpan s).start ∧
      (textOf (front' ++ gone)).length = (task.tagSpan s).stop := by
  subst hs
  obtain hgap | ⟨hfloor, hspace, hgap⟩ | ⟨hspace, hgap⟩ := task.tagSpan_withSpace _
  · refine ⟨front, [.taken token field], back, rfl, .alone, by rw [hgap], ?_⟩
    rw [hgap]
    simp [Part.text]
  · have hlast : (textOf front).getLast? = some ' ' := by
      rw [hraw, textOf_append, List.getElem?_append_left (by dsimp only at hfloor ⊢; omega)] at hspace
      rw [List.getLast?_eq_getElem?]
      exact hspace
    obtain ⟨base, rfl⟩ := (laid_append.mp h).1.exists_base hlast
    refine ⟨base, [.plain ' ', .taken token field], back, by simp, .left, ?_, ?_⟩
    · rw [hgap]
      simp [Part.text]
    · rw [hgap]
      simp [Part.text]
      omega
  · have hhead : (textOf back).head? = some ' ' := by
      have hbehind : task.raw = (textOf front ++ token.text) ++ textOf back := by
        rw [hraw]
        simp [Part.text]
      rw [hbehind, List.getElem?_append_right (by simp)] at hspace
      simpa [List.head?_eq_getElem?] using hspace
    obtain ⟨rest, rfl⟩ := exists_of_head_space hhead
    refine ⟨front, [.taken token field, .plain ' '], rest, rfl, .right, by rw [hgap], ?_⟩
    rw [hgap]
    simp [Part.text, Nat.add_assoc]

theorem tokensAt_append (column : Nat) (parts rest : List Part) :
    tokensAt column (parts ++ rest) =
      tokensAt column parts ++ tokensAt (column + (textOf parts).length) rest := by
  induction parts generalizing column with
  | nil => rfl
  | cons part parts ih =>
    rw [List.cons_append, tokensAt, tokensAt, ih, textOf_cons, List.length_append,
      List.append_assoc, Nat.add_assoc]

/-- A tag that alone carries a key stands where the field of the key is, so none
that stays text does. -/
theorem LaidOut.not_carries (h : LaidOut settings unit target raw parts)
    (hx : x ∈ (taskOf settings unit number raw parts).fields) {key : Key}
    (honly : ∀ t ∈ tokens raw (startOf settings unit raw), key.Carries t.value → t.span = x.span)
    (hkept : .kept token ∈ wholeOf settings unit raw parts) :
    ¬ key.Carries token := by
  intro hcarries
  have hkept := (List.mem_append.mp hkept).resolve_left (kept_notMem_plainParts token _)
  obtain ⟨front, back, hparts⟩ := List.append_of_mem hkept
  obtain ⟨front', token', field, back', hparts', hspan, -⟩ := exists_taken hx
  have hmem : ⟨⟨startOf settings unit raw + (textOf front).length,
      startOf settings unit raw + (textOf front).length + token.text.length⟩, token⟩ ∈
        tokens raw (startOf settings unit raw) := by
    rw [tokens, h.text_eq, h.laid.scan_eq, hparts, tokensAt_append]
    exact List.mem_append_right _ List.mem_cons_self
  have hstart := congrArg Span.start ((honly _ hmem hcarries).trans hspan)
  dsimp only at hstart
  -- two parts that start at one column are one part
  obtain ⟨more, rfl⟩ := exists_append_of_length (hparts.symm.trans hparts') (by omega)
  rw [hparts, List.append_assoc, List.append_cancel_left_eq] at hparts'
  cases more with
  | nil => simp at hparts'
  | cons part more =>
    have hpos := List.length_pos_iff.mpr part.text_ne_nil
    simp only [textOf_append, textOf_cons, List.length_append] at hstart
    omega

end Fields

end Line

end TaskList
