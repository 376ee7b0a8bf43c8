/-
TaskList.Proofs.Action.Removal — what the edits of a task make of the parts of its
line.

* `LaidOut.exists_cut`, `LaidOut.exists_counter` — what goes with a tag, and the
  counter, among the parts of a line.
* `LaidOut.trim_tag` — a tag is taken out, where the line closes up.
  `LaidOut.trim_count` — a number is written into the counter.
* `Task.Trims` — the edits of these two kinds. `LaidOut.exists_trimmed` — carried out
  from right to left, they leave the same words.
* `LaidOut.exists_stamped` — a completion tag is put in at the end, before the others
  are carried out. `Task.Marks`, `LaidOut.exists_marked` — the done mark is put in or
  taken out, after them.
-/
import TaskList.Proofs.Action.Counting
import TaskList.Proofs.Action.Own
import TaskList.Proofs.Edit.Carried
import TaskList.Proofs.Line.Extended
import TaskList.Proofs.Line.Trimmed
import TaskList.Proofs.Line.Whole

namespace TaskList

namespace Line

/-- No other tag of the line carries the key of the field. -/
def IsSole (settings : Settings) (unit : Option IndentUnit) (raw : Text) (x : Located Field) :
    Prop :=
  ∀ key ∈ x.value.key?, ∀ t ∈ tokens raw (startOf settings unit raw),
    key.Carries t.value → t.span = x.span

section Parts

variable {settings : Settings} {unit : Option IndentUnit} {target : Day} {number : Int}
  {raw : Text} {base : List Part}

/-- The tag of a field, with the space that it is taken out with, among the parts of its
line. -/
theorem LaidOut.exists_cut (h : LaidOut settings unit target raw base)
    (hmark : settings.doneMark = "x ".toList) {task : Task}
    (htask : task = taskOf settings unit number raw base) {x : Located Field}
    (hx : x ∈ task.fields) (hkey : x.value.key?.isSome) :
    ∃ front gone back letters value field,
      wholeOf settings unit raw base = front ++ (gone ++ back) ∧
      IsCut (.tag letters value) field gone ∧ field.key? = x.value.key? ∧
      (textOf front).length = (task.tagSpan x.span).start ∧
      (textOf (front ++ gone)).length = (task.tagSpan x.span).stop ∧
      raw.take (task.tagSpan x.span).start = textOf front ∧
      (task.tagSpan x.span).textIn raw = textOf gone := by
  have hread : x ∈ (taskOf settings unit number raw base).fields := htask ▸ hx
  obtain ⟨front, token, field, back, hwhole, hspan, hvalue⟩ := h.exists_field hread
  have hlaid := h.laid_whole hmark
  have hraw := h.textOf_whole
  rw [hwhole] at hlaid hraw
  have hline : task.raw = textOf (front ++ .taken token field :: back) := by
    rw [htask, hraw]
    rfl
  obtain ⟨front', gone, back', hgap, hcut, hstart, hstop⟩ := hlaid.exists_gap hline hspan
  have hfield : field.key? = x.value.key? := by rw [hvalue, Field.key?_moved]
  obtain ⟨letters, value, rfl⟩ : ∃ letters value, token = .tag letters value := by
    obtain ⟨-, ⟨-, -, hread⟩, -⟩ := laid_append.mp hlaid
    obtain ⟨_, _, -, rfl, -⟩ | ⟨key, value, htoken, -⟩ := field?_eq_some hread
    · rw [← hfield] at hkey
      exact absurd hkey Bool.false_ne_true
    · exact ⟨key.text, value, htoken⟩
  refine ⟨front', gone, back', letters, value, field, hwhole.trans hgap, hcut, hfield, hstart,
    hstop, ?_⟩
  -- the texts in front of the columns and at them
  have hsplit : raw = textOf front' ++ (textOf gone ++ textOf back') := by
    rw [← hraw, hgap, textOf_append, textOf_append]
  rw [textOf_append, List.length_append] at hstop
  constructor
  · rw [← hstart]
    exact (congrArg (List.take _) hsplit).trans List.take_left
  · rw [Span.textIn, ← hstart, ← hstop]
    exact (congrArg (Text.slice _ _) hsplit).trans (Text.slice_append _ _ _)

/-- The counter among the parts of its line. -/
theorem LaidOut.exists_counter (h : LaidOut settings unit target raw base)
    (hmark : settings.doneMark = "x ".toList) {task : Task}
    (htask : task = taskOf settings unit number raw base) {x : Located Count}
    (hx : task.count? = some x) :
    ∃ front current scale c back,
      wholeOf settings unit raw base =
        front ++ .taken (.tag Key.count.text (some (current ++ scale))) (.count c) :: back ∧
      x.span = ⟨(textOf front).length, (textOf (front ++
        [.taken (.tag Key.count.text (some (current ++ scale))) (.count c)])).length⟩ ∧
      x.value = { c with digits := c.digits.moved (textOf front).length } ∧
      field? target (usedBehind [] front) ⟨⟨0, 0⟩, .tag Key.count.text (some (current ++ scale))⟩ =
        .ok (some (.count c, [.count])) ∧
      (∀ d ∈ current, Numeral.isDigit d = true) ∧ Field.IsScale c.needed scale ∧
      c.digits = ⟨7, 7 + current.length⟩ := by
  have hread : ⟨x.span, .count x.value⟩ ∈ (taskOf settings unit number raw base).fields :=
    htask ▸ Task.mem_fields_of_count? hx
  obtain ⟨front, token, field, back, hwhole, hspan, hvalue⟩ := h.exists_field hread
  have hlaid := h.laid_whole hmark
  rw [hwhole] at hlaid
  obtain ⟨c, rfl, hcount⟩ : ∃ c, field = .count c ∧
      x.value = { c with digits := c.digits.moved (textOf front).length } := by
    cases field with
    | count c => exact ⟨c, rfl, Field.count.inj hvalue⟩
    | _ => exact absurd hvalue (by simp [Field.moved])
  obtain ⟨-, ⟨-, -, hfield⟩, -⟩ := laid_append.mp hlaid
  obtain ⟨-, current, scale, rfl, hcurrent, hscale, hdigits⟩ := counter_of_field? hfield
  refine ⟨front, current, scale, c, back, hwhole, ?_, hcount, hfield, hcurrent, hscale, hdigits⟩
  rw [textOf_append, List.length_append]
  simpa [Part.text] using hspan

/-- Another number in the counter is what an edit writes there. -/
theorem textOf_recount {task : Task} {x : Located Count} {front behind : List Part}
    {part part' : Part} {c : Count} {current scale : Text} {done : Nat}
    (hvalue : x.value = { c with digits := c.digits.moved (textOf front).length })
    (hcurrent : ∀ d ∈ current, Numeral.isDigit d = true) (hscale : Field.IsScale c.needed scale)
    (hdigits : c.digits = ⟨7, 7 + current.length⟩)
    (hpart : part.text = (Token.tag Key.count.text (some (current ++ scale))).text)
    (hpart' : part'.text =
      ((Token.tag Key.count.text (some (current ++ scale))).recount done).text)
    (kind : EditKind) :
    textOf (front ++ part' :: behind) =
      (task.writeCount x.value done kind).applyTo (textOf (front ++ part :: behind)) := by
  have htext : ∀ (digits : Text) (other : Part),
      other.text = (Token.tag Key.count.text (some (digits ++ scale))).text →
        textOf (front ++ other :: behind) =
          upToDigits front ++ (digits ++ (scale ++ '}' :: textOf behind)) :=
    fun digits other hother => by simp [hother, upToDigits, Token.text]
  rw [Token.recount, dropWhile_isDigit hcurrent hscale] at hpart'
  rw [htext _ _ hpart', htext _ _ hpart]
  refine (Edit.applyTo_replace task.line ?_ ?_ _ _ kind _).symm
  · rw [hvalue, length_upToDigits, hdigits]
    rfl
  · rw [hvalue, length_upToDigits, hdigits]
    exact (Nat.add_assoc _ _ _).symm

end Parts

section Edits

variable {settings : Settings} {unit : Option IndentUnit} {target : Day} {number : Int}
  {raw : Text} {base rest parts : List Part} {column : Nat}

/-- **A tag is taken out** with a space next to it or without, where the line closes
up. -/
theorem LaidOut.trim_tag (h : LaidOut settings unit target raw base)
    (hmark : settings.doneMark = "x ".toList) (hkept : ∀ token, .kept token ∉ rest)
    {task : Task} (htask : task = taskOf settings unit number raw base) {x : Located Field}
    (hx : x ∈ task.fields) (hkey : x.value.key?.isSome)
    (hsole : IsSole settings unit raw x)
    (htrimmed : Trimmed target
      (wholeOf settings unit raw base ++ rest) column parts)
    (hle : (task.tagSpan x.span).stop ≤ column)
    (hcloses : Text.ClosesUp (raw.take (task.tagSpan x.span).start)
      ((task.tagSpan x.span).textIn raw) ((textOf parts).drop (task.tagSpan x.span).stop))
    (kind : EditKind) (payload : Payload) :
    ∃ parts', Trimmed target
        (wholeOf settings unit raw base ++ rest)
        (task.tagSpan x.span).start parts' ∧
      textOf parts' = (Edit.delete task.line (task.tagSpan x.span) kind payload).applyTo
        (textOf parts) := by
  have hread : x ∈ (taskOf settings unit number raw base).fields := htask ▸ hx
  obtain ⟨front, gone, back, letters, value, field, hwhole, hcut, hfield, hstart, hstop, hfront,
    hgone⟩ := h.exists_cut hmark htask hx hkey
  rw [hfront, hgone, ← hstop] at hcloses
  rw [← hstop] at hle
  have honly : ∀ token, .kept token ∈ wholeOf settings unit raw base ++ rest →
      ∀ key ∈ field.key?, ¬ key.Carries token := fun token htoken key hkey' =>
    h.not_carries hread (hsole key (hfield ▸ hkey'))
      ((List.mem_append.mp htoken).resolve_right (hkept token))
  have hwhole' : wholeOf settings unit raw base ++ rest = front ++ (gone ++ (back ++ rest)) := by
    rw [hwhole, List.append_assoc, List.append_assoc]
  obtain ⟨behind, rfl, htrimmed'⟩ := htrimmed.cut hwhole' hle hcut hcloses honly
  rw [hstart] at htrimmed'
  refine ⟨front ++ behind, htrimmed', ?_⟩
  rw [textOf_append, List.length_append] at hstop
  rw [textOf_append, textOf_append, textOf_append]
  exact (Edit.applyTo_replace task.line hstart.symm hstop.symm _ [] kind payload).symm

/-- **A number is written** into the counter. -/
theorem LaidOut.trim_count (h : LaidOut settings unit target raw base)
    (hmark : settings.doneMark = "x ".toList) {task : Task}
    (htask : task = taskOf settings unit number raw base) {x : Located Count}
    (hx : task.count? = some x) {done : Nat}
    (hdone : done ≤ x.value.current ∨ done ≤ x.value.needed)
    (htrimmed : Trimmed target
      (wholeOf settings unit raw base ++ rest) column parts)
    (hle : x.span.stop ≤ column) (kind : EditKind) :
    ∃ parts', Trimmed target
        (wholeOf settings unit raw base ++ rest) x.span.start parts' ∧
      textOf parts' = (task.writeCount x.value done kind).applyTo (textOf parts) := by
  obtain ⟨front, current, scale, c, back, hwhole, hspan, hvalue, hfield, hcurrent, hscale,
    hdigits⟩ := h.exists_counter hmark htask hx
  have hdone' : Numeral.value (Numeral.ofNat done) = .ok done :=
    value_ofNat_of_field? hfield (by rwa [hvalue] at hdone)
  rw [hspan] at hle ⊢
  obtain ⟨behind, rfl, htrimmed'⟩ := htrimmed.recount
    (by rw [hwhole, List.append_assoc, List.cons_append]) hle hdone'
  exact ⟨_, htrimmed', textOf_recount hvalue hcurrent hscale hdigits rfl rfl kind⟩

end Edits

end Line

/-! ## Edits inside of a line -/

/-- The edit that takes a tag out, at its columns. -/
def Task.takeOut (task : Task) (kind : EditKind) (payload : Payload) (x : Located Field) :
    Located Edit :=
  ⟨task.tagSpan x.span, .delete task.line (task.tagSpan x.span) kind payload⟩

/-- An edit inside of a line, with the columns of what it changes: a tag is taken out,
or another number is written into the counter. -/
inductive Task.Trims (task : Task) (taken : List (Located Field)) : Located Edit → Prop
  | take {x : Located Field} (hx : x ∈ taken) (kind : EditKind) (payload : Payload) :
    Trims task taken (task.takeOut kind payload x)
  | recount {x : Located Count} (hx : task.count? = some x) {done : Nat}
      (hdone : done ≤ x.value.current ∨ done ≤ x.value.needed) (kind : EditKind) :
    Trims task taken ⟨x.span, task.writeCount x.value done kind⟩

/-- The fields are those of tags, and none is a counter. -/
def Task.AreTags (task : Task) (taken : List (Located Field)) : Prop :=
  ∀ x ∈ taken, x ∈ task.fields ∧ x.value.key?.isSome ∧ x.value.key? ≠ some .count

section Trims

variable {settings : Settings} {unit : Option IndentUnit} {target : Day} {number : Int}
  {raw : Text} {task : Task} {taken : List (Located Field)} {item other : Located Edit}
  {items : List (Located Edit)}

/-- The columns of the edit are in those of what it changes. -/
theorem Task.Trims.within (ht : task.Trims taken item) (htaken : task.AreTags taken)
    (h : Line.read settings unit target number raw = .ok task) :
    (item.span.start : Int) ≤ item.value.start ∧ item.value.start < item.value.stop ∧
      item.value.stop ≤ item.span.stop := by
  cases ht with
  | @take x hx kind payload =>
    have hfield := (htaken x hx).1
    obtain ⟨hlt, -⟩ := Line.field_edges h hfield
    have hbounds := Line.tagSpan_bounds h hfield
    simp only [Task.takeOut, Edit.delete]
    omega
  | @recount x hx done hdone kind =>
    obtain ⟨hstart, hstop⟩ := Task.digits_within h hx
    obtain ⟨hlt, -⟩ := Task.digits_inside h hx
    simp only [Task.writeCount, Edit.replace]
    omega

/-- Edits that are apart change what is apart. -/
theorem Task.Trims.disjoint (ht : task.Trims taken item) (ht' : task.Trims taken other)
    (htaken : task.AreTags taken) (h : Line.read settings unit target number raw = .ok task)
    (hdisjoint : item.value.span.Disjoint other.value.span) : item.span.Disjoint other.span := by
  have hcount : ∀ {x : Located Field} {y : Located Count}, x ∈ taken → task.count? = some y →
      (task.tagSpan x.span).Disjoint y.span := by
    intro x y hx hy
    refine Line.tagSpan_disjoint_field h (htaken x hx).1 (Task.mem_fields_of_count? hy) ?_
    rintro rfl
    exact (htaken _ hx).2.2 rfl
  cases ht with
  | @take x hx kind payload =>
    cases ht' with
    | take hy => exact hdisjoint
    | recount hy => exact hcount hx hy
  | @recount x hx done hdone kind =>
    cases ht' with
    | take hy => exact (hcount hy hx).symm
    | recount hy =>
      -- a task has one counter, and a counter has a digit
      obtain rfl := Option.some.inj (hx.symm.trans hy)
      obtain ⟨hlt, -⟩ := Task.digits_inside h hx
      have hmeet : x.value.digits.Disjoint x.value.digits := hdisjoint
      rw [Span.Disjoint] at hmeet
      omega

/-- Edits from left to right, with the columns of the tags, are so without them. -/
theorem Task.Trims.pairwise (hitems : ∀ item ∈ items, task.Trims taken item)
    (htaken : task.AreTags taken) (h : Line.read settings unit target number raw = .ok task)
    (hchain : items.Pairwise fun a b => a.span.stop ≤ b.span.start) :
    (items.map (·.value)).Pairwise fun a b => a.stop ≤ b.start := by
  refine List.pairwise_map.mpr (hchain.imp_of_mem fun {a b} ha hb hab => ?_)
  have hstop := ((hitems a ha).within htaken h).2.2
  have hstart := ((hitems b hb).within htaken h).1
  omega

namespace Line

variable {base rest : List Part}

/-- **Edits inside of a line**, from right to left, leave the same words of it where it
closes up. -/
theorem LaidOut.exists_trimmed (h : LaidOut settings unit target raw base)
    (hmark : settings.doneMark = "x ".toList) (hkept : ∀ token, .kept token ∉ rest)
    (htask : task = taskOf settings unit number raw base) (htaken : task.AreTags taken)
    (hsole : ∀ x ∈ taken, IsSole settings unit raw x)
    (hlaid : Laid target none [] (wholeOf settings unit raw base ++ rest) [])
    (hitems : ∀ item ∈ items, task.Trims taken item)
    (hchain : items.Pairwise fun a b => a.span.stop ≤ b.span.start)
    (hcloses : ∀ front item behind, items = front ++ item :: behind →
      ∀ x ∈ taken, ∀ kind payload, item = task.takeOut kind payload x →
        Text.ClosesUp (raw.take item.span.start) (item.span.textIn raw)
          (((behind.map (·.value)).foldr Edit.applyTo
            (textOf (wholeOf settings unit raw base ++ rest))).drop item.span.stop))
    {low : Nat} (hlow : ∀ item ∈ items, low ≤ item.span.start) :
    ∃ parts, Trimmed target (wholeOf settings unit raw base ++ rest) low parts ∧
      textOf parts = (items.map (·.value)).foldr Edit.applyTo
        (textOf (wholeOf settings unit raw base ++ rest)) := by
  induction items generalizing low with
  | nil => exact ⟨_, hlaid.trimmed low, rfl⟩
  | cons item items ih =>
    obtain ⟨hbehind, hchain⟩ := List.pairwise_cons.mp hchain
    obtain ⟨parts, htrimmed, htext⟩ := ih (fun x hx => hitems x (List.mem_cons_of_mem item hx))
      hchain (fun front x behind hitems => hcloses (item :: front) x behind (by rw [hitems]; rfl))
      hbehind
    have hfirst := hlow item List.mem_cons_self
    have hclose := hcloses [] item items rfl
    rw [← htext] at hclose
    rw [List.map_cons, List.foldr_cons, ← htext]
    cases hitems item List.mem_cons_self with
    | @take x hx kind payload =>
      obtain ⟨hfield, hkey, -⟩ := htaken x hx
      obtain ⟨parts', htrimmed', htext'⟩ := h.trim_tag hmark hkept htask hfield hkey (hsole x hx)
        htrimmed (Nat.le_refl _) (hclose x hx kind payload rfl) kind payload
      exact ⟨parts', htrimmed'.mono hfirst, htext'⟩
    | @recount x hx done hdone kind =>
      obtain ⟨parts', htrimmed', htext'⟩ := h.trim_count hmark htask hx hdone htrimmed
        (Nat.le_refl _) kind
      exact ⟨parts', htrimmed'.mono hfirst, htext'⟩

end Line

end Trims

/-! ## Edits at the ends of a line -/

/-- The edits that leave a done mark, or none. -/
inductive Task.Marks (settings : Settings) (task : Task) : Bool → List Edit → Prop
  | keep : Marks settings task task.marker.isSome []
  | take {m : Span} (hm : task.marker = some m) :
    Marks settings task false [.delete task.line m .clearCompletion (.text "done".toList)]
  | put (hnone : task.marker = none) :
    Marks settings task true
      [.insert task.line task.contentStart settings.doneMark .insertMarker]

section Ends

variable {settings : Settings} {unit : Option IndentUnit} {target : Day} {number : Int}
  {raw : Text} {task : Task} {taken : List (Located Field)} {item : Located Edit} {e : Edit}
  {marked : Bool} {mark : List Edit}

/-- A done mark is in front of what is read. -/
theorem Task.Marks.stop_le (hmarks : task.Marks settings marked mark)
    (h : Line.read settings unit target number raw = .ok task) (he : e ∈ mark) :
    e.stop ≤ Line.startOf settings unit raw := by
  cases hmarks with
  | keep => simp at he
  | take hm =>
    obtain rfl := List.mem_singleton.mp he
    exact Int.ofNat_le.mpr (Line.marker_before h hm).2.1
  | put =>
    obtain rfl := List.mem_singleton.mp he
    exact Int.ofNat_le.mpr (Line.contentStart_front h).1

theorem Task.Marks.pairwise {R : Edit → Edit → Prop} (hmarks : task.Marks settings marked mark) :
    mark.Pairwise R := by
  cases hmarks <;> simp

/-- Where edits inside of a line are behind those for a done mark, there is a column
between them. -/
theorem Task.Marks.exists_column (hmarks : task.Marks settings marked mark)
    {items : List (Located Edit)}
    (hbefore : ∀ e ∈ mark, ∀ item ∈ items, e.stop ≤ item.span.start) :
    ∃ column : Nat, (∀ e ∈ mark, e.stop ≤ column) ∧ ∀ item ∈ items, column ≤ item.span.start := by
  cases hmarks with
  | keep => exact ⟨0, by simp, fun _ _ => Nat.zero_le _⟩
  | @take m hm =>
    refine ⟨m.stop, fun e he => ?_, fun item hitem =>
      Int.ofNat_le.mp (hbefore _ List.mem_cons_self item hitem)⟩
    obtain rfl := List.mem_singleton.mp he
    exact Int.le_refl _
  | put =>
    refine ⟨task.contentStart, fun e he => ?_, fun item hitem =>
      Int.ofNat_le.mp (hbefore _ List.mem_cons_self item hitem)⟩
    obtain rfl := List.mem_singleton.mp he
    exact Int.le_refl _

/-- What is changed inside of a line is behind an edit at its start, with the columns
of the tag. -/
theorem Task.Trims.behind (ht : task.Trims taken item) (htaken : task.AreTags taken)
    (h : Line.read settings unit target number raw = .ok task) (hinside : e.Inside task.raw)
    (hstop : e.stop ≤ Line.startOf settings unit raw)
    (hdisjoint : e.span.Disjoint item.value.span) : e.stop ≤ item.span.start := by
  have hstart := hinside.start_nonneg
  have hle := hinside.start_le
  cases ht with
  | @take x hx kind payload =>
    have hfield := (htaken x hx).1
    have hfirst := (Line.field_stands h hfield).1
    have hlt := (Line.field_edges h hfield).1
    have hbounds := Line.tagSpan_bounds h hfield
    have hdisjoint : e.span.Disjoint (task.tagSpan x.span) := hdisjoint
    simp only [Span.Disjoint, Edit.span, Task.takeOut] at hdisjoint ⊢
    omega
  | @recount x hx done hdone kind =>
    have hfirst := (Line.field_stands h (Task.mem_fields_of_count? hx)).1
    exact Int.le_trans hstop (Int.ofNat_le.mpr hfirst)

namespace Line

variable {base rest parts : List Part} {column : Nat}

/-- **A completion tag at the end** is a part behind the others, and no word. -/
theorem LaidOut.exists_stamped (h : LaidOut settings unit target raw base)
    (hmark : settings.doneMark = "x ".toList) (htask : task = taskOf settings unit number raw base)
    (hne : raw ≠ []) {since : Option Instant}
    (hsince : ∀ now ∈ since, task.completion? = none ∧ 1000 ≤ now.day.civil.year) :
    ∃ rest, Laid target none [] (wholeOf settings unit raw base ++ rest) [] ∧
      textOf (wholeOf settings unit raw base ++ rest) =
        (since.toList.map (task.stampCompletion settings)).foldr Edit.applyTo raw ∧
      Text.words (leftoverOf (wholeOf settings unit raw base ++ rest)) =
        Text.words (leftoverOf (wholeOf settings unit raw base)) ∧
      ∀ token, .kept token ∉ rest := by
  have hlaid := h.laid_whole hmark
  cases since with
  | none => exact ⟨[], by rwa [List.append_nil], by simp [h.textOf_whole], by simp, by simp⟩
  | some now =>
    obtain ⟨hnone, hyear⟩ := hsince now rfl
    have hfree : Key.completed ∉ usedBehind [] (wholeOf settings unit raw base) := by
      rw [wholeOf, usedBehind_append, usedBehind_plainParts]
      refine @notMem_usedBehind settings unit number raw base .completed ?_
      rw [← htask, Task.fieldOf?, hnone, Option.map_none]
    obtain ⟨rest, hrest, htext, hwords⟩ :=
      hlaid.exists_withTag isShaped_stampTag (field?_stampTag hyear hfree)
    have hraw : task.raw = raw := congrArg Task.raw htask
    have happend : (task.stampCompletion settings now).applyTo task.raw =
        task.raw.withTag (stampTag settings now).text :=
      Task.applyTo_append (by rwa [hraw]) _ _ _
    rw [hraw] at happend
    refine ⟨rest, hrest, ?_, hwords⟩
    rw [htext, h.textOf_whole]
    exact happend.symm

/-- The start of a line is plain characters, and stays in front of what is changed
behind it. -/
theorem Trimmed.exists_front
    (h : Trimmed target (wholeOf settings unit raw base ++ rest) column parts) {t more : Text}
    (ht : raw.take (startOf settings unit raw) = t ++ more) (hle : t.length ≤ column) :
    ∃ behind, parts = plainParts t ++ behind := by
  refine h.front (plainParts t) (plainParts more ++ (base ++ rest)) ?_ (by simpa using hle)
  rw [wholeOf, ht]
  simp [plainParts]

/-- A line that is marked starts with white space and the mark, and is without the mark
when it is taken out. -/
theorem exists_unmarked (hmark : settings.doneMark = "x ".toList)
    (h : read settings unit target number raw = .ok task) {m : Span}
    (hm : task.marker = some m) :
    ∃ blanks more, (∀ c ∈ blanks, isBlank c = true) ∧
      raw.take (startOf settings unit raw) = (blanks ++ "x ".toList) ++ more ∧
      (blanks ++ "x ".toList).length = m.stop ∧
      ∀ (behind : List Part) (kind : EditKind) (payload : Payload),
        textOf (plainParts blanks ++ behind) = (Edit.delete task.line m kind payload).applyTo
          (textOf (plainParts (blanks ++ "x ".toList) ++ behind)) := by
  obtain ⟨blanks, marker, letter, behind, hcut⟩ := cut_of_read h
  obtain ⟨rfl, rfl, -⟩ := hcut.of_marker hm
  rw [← hmark]
  refine ⟨blanks, letter, hcut.blank, hcut.take_start.trans (List.append_assoc _ _ _).symm,
    List.length_append, fun behind kind payload => ?_⟩
  rw [textOf_append, textOf_append, textOf_plainParts, textOf_plainParts, List.append_assoc]
  exact (@Edit.applyTo_replace task.line
    ⟨blanks.length, blanks.length + settings.doneMark.length⟩ blanks settings.doneMark rfl rfl
    (textOf behind) [] kind payload).symm

/-- **The done mark is put in or taken out** in front of what is changed in the line. -/
theorem LaidOut.exists_marked (h : LaidOut settings unit target raw base)
    (hmark : settings.doneMark = "x ".toList) (htask : task = taskOf settings unit number raw base)
    (hmarks : task.Marks settings marked mark) (hlow : ∀ e ∈ mark, e.stop ≤ column)
    (htrimmed : Trimmed target (wholeOf settings unit raw base ++ rest) column parts)
    (hrest : Text.words (leftoverOf (wholeOf settings unit raw base ++ rest)) =
      Text.words (leftoverOf (wholeOf settings unit raw base))) :
    ∃ parts', Laid target none [] parts' [] ∧
      textOf parts' = mark.foldr Edit.applyTo (textOf parts) ∧
      Text.words (leftoverOf parts') =
        startWords marked task.letter? ++ Text.words task.title := by
  have hread : read settings unit target number raw = .ok task := htask ▸ h.read_eq number
  have hlaid := htrimmed.laid
  have hwords := (htrimmed.words_eq.trans hrest).trans (h.words_whole hmark number)
  rw [← htask] at hwords
  cases hmarks with
  | keep => exact ⟨parts, hlaid, rfl, hwords⟩
  | @take m hm =>
    obtain ⟨blanks, more, hblank, hstart, hstop, htext⟩ := exists_unmarked hmark hread hm
    obtain ⟨rest', rfl⟩ := htrimmed.exists_front hstart
      (hstop ▸ Int.ofNat_le.mp (hlow _ List.mem_cons_self))
    rw [words_mark hblank, hm] at hwords
    exact ⟨plainParts blanks ++ rest', (laid_mark_iff hblank).mp hlaid, htext rest' _ _,
      (List.cons.inj hwords).2⟩
  | put hnone =>
    have hcontent : task.contentStart = (raw.takeWhile isIndent).length :=
      congrArg (fun t : Text => (t.takeWhile isIndent).length) (raw_of_read hread)
    have hfront := (contentStart_front hread).1
    rw [hcontent] at hfront
    have hblank : ∀ c ∈ raw.takeWhile isIndent, isBlank c = true := fun c hc =>
      isBlank_of_isIndent (List.all_eq_true.mp List.all_takeWhile c hc)
    obtain ⟨more, hmore⟩ : raw.takeWhile isIndent <+: raw.take (startOf settings unit raw) :=
      List.prefix_take_iff.mpr ⟨List.takeWhile_prefix _, hfront⟩
    have hstop := hlow _ List.mem_cons_self
    obtain ⟨rest', rfl⟩ := htrimmed.exists_front hmore.symm (by
      rw [← hcontent]
      exact Int.ofNat_le.mp hstop)
    refine ⟨plainParts (raw.takeWhile isIndent ++ "x ".toList) ++ rest',
      (laid_mark_iff hblank).mpr hlaid, ?_, ?_⟩
    · have hput := @Edit.applyTo_replace task.line ⟨task.contentStart, task.contentStart⟩
        (raw.takeWhile isIndent) [] hcontent hcontent (textOf rest') settings.doneMark
        .insertMarker .none
      rw [List.foldr_cons, List.foldr_nil, textOf_append, textOf_append, textOf_plainParts,
        textOf_plainParts, List.append_assoc, ← hmark]
      exact hput.symm
    · rw [words_mark hblank, hwords, hnone]
      rfl

end Line

end Ends

end TaskList
