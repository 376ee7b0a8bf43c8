/-
TaskList.Proofs.Line.Trimmed — a line changed from right to left.

* `Line.Trimmed` — parts of a line of which tags behind a column are taken out, or
  hold another number: the same words are left for the title.
* `Trimmed.cut`, `Trimmed.recount` — the same is done in front of the column.
* `Laid.exists_withTag` — a tag at the end of a line, to start from.
-/
import TaskList.Proofs.Line.Appended
import TaskList.Proofs.Line.Closed

namespace TaskList

namespace Line

variable {target : Day} {parts front gone : List Part}

/-! ## From right to left -/

/-- Parts of a line of which tags behind a column are taken out, or hold another
number. -/
structure Trimmed (target : Day) (whole : List Part) (column : Nat) (parts : List Part) : Prop where
  laid : Laid target none [] parts []
  /-- No other token stays text, -/
  kept : ∀ token, .kept token ∈ parts → .kept token ∈ whole
  /-- the same words are left for the title, -/
  words_eq : Text.words (leftoverOf parts) = Text.words (leftoverOf whole)
  /-- and in front of the column nothing is changed. -/
  front : ∀ first rest, whole = first ++ rest → (textOf first).length ≤ column →
    ∃ rest', parts = first ++ rest'

section Trimmed

variable {whole back : List Part} {column : Nat} {letters : Text} {value : Option Text}
  {field : Field}

theorem Laid.trimmed (h : Laid target none [] whole []) (column : Nat) :
    Trimmed target whole column whole where
  laid := h
  kept _ := id
  words_eq := rfl
  front _ rest hwhole _ := ⟨rest, hwhole⟩

theorem Trimmed.mono {low : Nat} (h : Trimmed target whole column parts) (hle : low ≤ column) :
    Trimmed target whole low parts where
  laid := h.laid
  kept := h.kept
  words_eq := h.words_eq
  front first rest hfirst hlow := h.front first rest hfirst (Nat.le_trans hlow hle)

/-- **Taking a tag out** in front of the column. -/
theorem Trimmed.cut (h : Trimmed target whole column parts)
    (hwhole : whole = front ++ (gone ++ back))
    (hle : (textOf (front ++ gone)).length ≤ column) (hcut : IsCut (.tag letters value) field gone)
    (hcloses : Text.ClosesUp (textOf front) (textOf gone)
      ((textOf parts).drop (textOf (front ++ gone)).length))
    (honly : ∀ token, .kept token ∈ whole → ∀ key ∈ field.key?, ¬ key.Carries token) :
    ∃ behind, parts = front ++ (gone ++ behind) ∧
      Trimmed target whole (textOf front).length (front ++ behind) := by
  obtain ⟨behind, hparts⟩ := h.front (front ++ gone) back (by rw [hwhole, List.append_assoc]) hle
  have hbehind : (textOf parts).drop (textOf (front ++ gone)).length = textOf behind := by
    rw [hparts, textOf_append _ behind, List.drop_left]
  rw [hbehind] at hcloses
  rw [List.append_assoc] at hparts
  have hlaid := h.laid
  rw [hparts] at hlaid
  refine ⟨behind, hparts, ?_⟩
  constructor
  case laid =>
    refine hlaid.cut hcut hcloses fun token htoken => honly token (h.kept token ?_)
    rw [hparts]
    simp [htoken]
  case kept =>
    intro token htoken
    refine h.kept token ?_
    rw [hparts]
    rcases List.mem_append.mp htoken with htoken | htoken <;> simp [htoken]
  case words_eq => rw [hlaid.words_cut hcut hcloses, ← hparts, h.words_eq]
  case front =>
    intro first rest hfirst hle'
    obtain ⟨more, rfl⟩ := exists_append_of_length (hfirst.symm.trans hwhole) hle'
    exact ⟨more ++ behind, List.append_assoc _ _ _⟩

/-- **Writing a number** into a counter in front of the column. -/
theorem Trimmed.recount {token : Token} {c : Count} {done : Nat}
    (h : Trimmed target whole column parts)
    (hwhole : whole = front ++ .taken token (.count c) :: back)
    (hle : (textOf (front ++ [.taken token (.count c)])).length ≤ column)
    (hdone : Numeral.value (Numeral.ofNat done) = .ok done) :
    ∃ behind, parts = front ++ .taken token (.count c) :: behind ∧
      Trimmed target whole (textOf front).length
        (front ++ Part.recount done (.taken token (.count c)) :: behind) := by
  obtain ⟨behind, hparts⟩ := h.front (front ++ [.taken token (.count c)]) back
    (by rw [hwhole, List.append_assoc, List.singleton_append]) hle
  rw [List.append_assoc, List.singleton_append] at hparts
  have hlaid := h.laid
  rw [hparts] at hlaid
  refine ⟨behind, hparts, ?_⟩
  constructor
  case laid =>
    obtain ⟨-, ⟨hshape, -, hfield⟩, -⟩ := laid_append.mp hlaid
    obtain ⟨-, current, scale, rfl, -⟩ := counter_of_field? hfield
    exact hlaid.replace (isShaped_recount hshape) (field?_recount hfield hdone) rfl
  case kept =>
    intro other hother
    refine h.kept other ?_
    rw [hparts]
    simpa [Part.recount] using hother
  case words_eq =>
    rw [← h.words_eq, hparts, leftoverOf_append, leftoverOf_append]
    rfl
  case front =>
    intro first rest hfirst hle'
    obtain ⟨more, rfl⟩ := exists_append_of_length (hfirst.symm.trans hwhole) hle'
    exact ⟨more ++ _, List.append_assoc _ _ _⟩

end Trimmed

/-! ## A tag at the end -/

/-- A tag that is put in at the end of a line is a part behind the others, and
leaves no word for the title. -/
theorem Laid.exists_withTag {whole : List Part} {key : Text} {value : Option Text} {field : Field}
    (h : Laid target none [] whole []) (hshape : (Token.tag key value).IsShaped)
    (hfield : field? target (usedBehind [] whole) ⟨⟨0, 0⟩, .tag key value⟩ =
      .ok (some (field, field.key?.toList))) :
    ∃ rest, Laid target none [] (whole ++ rest) [] ∧
      textOf (whole ++ rest) = (textOf whole).withTag (Token.tag key value).text ∧
      Text.words (leftoverOf (whole ++ rest)) = Text.words (leftoverOf whole) ∧
      ∀ token, .kept token ∉ rest := by
  obtain ⟨base, after, hbase, hlaid, hused, htext⟩ := h.exists_isBase
  have hnew := hlaid.append hshape (by rwa [hused])
  have hwritten := textOf_put htext (.taken (.tag key value) field)
  rcases hbase with rfl | rfl
  · refine ⟨_, hnew, hwritten, ?_, by simp⟩
    have hspace : leftoverOf [.plain ' ', .taken (.tag key value) field] = ' ' :: [] := rfl
    rw [leftoverOf_append, hspace, Text.words_append_cons (by decide)]
    exact List.append_nil _
  · refine ⟨[.taken (.tag key value) field], ?_, ?_, ?_, by simp⟩
    · rwa [List.append_assoc]
    · rwa [List.append_assoc]
    · rw [leftoverOf_append]
      exact congrArg Text.words (List.append_nil _)

end Line

end TaskList
