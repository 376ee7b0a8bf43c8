/-
TaskList.Proofs.Text.Lines — lines that are written to a file and read again.

* `Text.IsLine` — a text without line breaks, as every line of a text is.
* `Text.lines_ofLines` — lines that are written are the lines that are read again,
  as long as none of them has a break in it. Unifying the breaks before that changes
  nothing, since those between written lines are line feeds (`Text.unifyBreaks_ofLines`).
* `Text.HasBytes` — a text without halves of surrogate pairs, which a file can hold.
* `Text.IsWritable` — both: a text that can be written into a line of a file. Any text of
  printable characters is one (`Text.isWritable_of_isPrintable`).
-/
import TaskList.Text.LineBreak
import TaskList.Text.Surrogate

namespace TaskList.Text

/-- There is no line break in the text. -/
def IsLine (t : Text) : Prop := ∀ c ∈ t, isLineBreak c = false

instance (t : Text) : Decidable (IsLine t) := List.decidableBAll _ t

theorem not_isLine_return {t : Text} (h : IsLine t) : '\r' ∉ t :=
  fun hmem => by simpa [isLineBreak] using h _ hmem

/-! ## The lines of a text -/

/-- A character that is no break starts the first line. -/
theorem lines_cons {c : Char} (hc : isLineBreak c = false) (t : Text) :
    lines (c :: t) = match lines t with
      | [] => [[c]]
      | line :: more => (c :: line) :: more := by
  have hreturn : c ≠ '\r' := by
    rintro rfl
    simp [isLineBreak] at hc
  rw [lines.eq_3 _ _ (fun _ h => absurd h hreturn)]
  cases lines t <;> simp [hc]

/-- A line feed ends the line before it. -/
theorem lines_append_lineFeed {line : Text} (h : IsLine line) (t : Text) :
    lines (line ++ '\n' :: t) = line :: lines t := by
  induction line with
  | nil =>
    rw [List.nil_append, lines.eq_3 _ _ (fun _ h => absurd h (by decide)), if_pos (by decide)]
  | cons c rest ih =>
    rw [List.cons_append, lines_cons (h c List.mem_cons_self),
      ih fun d hd => h d (List.mem_cons_of_mem _ hd)]

theorem isLine_of_mem_lines {t line : Text} (h : line ∈ lines t) : IsLine line := by
  induction t using lines.induct generalizing line with
  | case1 => simp [lines] at h
  | case2 rest ih =>
    rw [lines, List.mem_cons] at h
    rcases h with rfl | h
    · simp [IsLine]
    · exact ih h
  | case3 c rest hreturn hbreak ih =>
    rw [lines.eq_3 _ _ hreturn, if_pos hbreak, List.mem_cons] at h
    rcases h with rfl | h
    · simp [IsLine]
    · exact ih h
  | case4 c rest hreturn hbreak hnil ih =>
    rw [lines.eq_3 _ _ hreturn, if_neg hbreak, hnil] at h
    obtain rfl := List.mem_singleton.mp h
    simpa [IsLine] using hbreak
  | case5 c rest hreturn hbreak first more hlines ih =>
    rw [lines.eq_3 _ _ hreturn, if_neg hbreak, hlines, List.mem_cons] at h
    rw [hlines] at ih
    rcases h with rfl | h
    · exact List.forall_mem_cons.mpr ⟨by simpa using hbreak, ih List.mem_cons_self⟩
    · exact ih (List.mem_cons_of_mem _ h)

/-! ## Unified breaks -/

/-- Without a carriage return there is nothing to unify. -/
theorem unifyBreaks_eq_self {t : Text} (h : '\r' ∉ t) : unifyBreaks t = t := by
  induction t with
  | nil => rfl
  | cons c rest ih =>
    obtain ⟨hc, hrest⟩ := List.ne_and_not_mem_of_not_mem_cons h
    rw [unifyBreaks.eq_4 _ _ (fun _ h => absurd h hc.symm) hc.symm, ih hrest]

/-! ## Lines that are written -/

theorem ofLines_cons (line : Text) (rest : List Text) : ofLines (line :: rest) =
    line ++ '\n' :: if rest = [] then [] else ofLines rest := by
  cases rest with
  | nil => rfl
  | cons next more => simp [ofLines, joined]

theorem mem_ofLines {ls : List Text} {c : Char} (h : c ∈ ofLines ls) :
    c = '\n' ∨ ∃ line ∈ ls, c ∈ line := by
  induction ls with
  | nil => exact .inl (List.mem_singleton.mp h)
  | cons line rest ih =>
    rw [ofLines_cons, List.mem_append, List.mem_cons] at h
    rcases h with h | rfl | h
    · exact .inr ⟨line, List.mem_cons_self, h⟩
    · exact .inl rfl
    · split at h
      · simp at h
      · exact (ih h).imp_right fun ⟨other, hother, hc⟩ => ⟨other, List.mem_cons_of_mem _ hother, hc⟩

/-- **Lines that are written are read again**, none of them split, joined or lost. An
empty list cannot be told from a single empty line. -/
theorem lines_ofLines {ls : List Text} (h : ∀ line ∈ ls, IsLine line) (hne : ls ≠ []) :
    lines (ofLines ls) = ls := by
  induction ls with
  | nil => exact absurd rfl hne
  | cons line rest ih =>
    rw [ofLines_cons, lines_append_lineFeed (h line List.mem_cons_self)]
    split
    · rename_i hrest
      rw [hrest, lines]
    · rename_i hrest
      rw [ih (fun other hother => h other (List.mem_cons_of_mem _ hother)) hrest]

theorem unifyBreaks_ofLines {ls : List Text} (h : ∀ line ∈ ls, IsLine line) :
    unifyBreaks (ofLines ls) = ofLines ls := by
  refine unifyBreaks_eq_self fun hmem => ?_
  rcases mem_ofLines hmem with hfeed | ⟨line, hline, hc⟩
  · simp at hfeed
  · exact not_isLine_return (h line hline) hc

/-! ## Texts that a file can hold -/

/-- There is no half of a surrogate pair in the text. -/
def HasBytes (t : Text) : Prop := ∀ c ∈ t, Surrogate.code? c = none

instance (t : Text) : Decidable (HasBytes t) := List.decidableBAll _ t

theorem run?_eq_none_iff {t : Text} :
    Surrogate.run? (fun _ => false) 0 t = none ↔ HasBytes t := by
  rw [Surrogate.run?_eq_none_iff]
  refine forall₂_congr fun c _ => ?_
  cases Surrogate.code? c <;> simp

/-- A text that can be written into a line of a file. -/
structure IsWritable (t : Text) : Prop where
  isLine : IsLine t
  hasBytes : HasBytes t

instance (t : Text) : Decidable (IsWritable t) :=
  decidable_of_iff (IsLine t ∧ HasBytes t) ⟨fun h => ⟨h.1, h.2⟩, fun h => ⟨h.1, h.2⟩⟩

/-- A printable character of ASCII, the space among them. -/
def isPrintable (c : Char) : Bool := ' ' ≤ c && c ≤ '~'

theorem toNat_of_isPrintable {c : Char} (h : isPrintable c = true) :
    32 ≤ c.toNat ∧ c.toNat ≤ 126 := by
  simpa [isPrintable, Char.le_def, UInt32.le_iff_toNat_le] using h

theorem isPrintable_of_isDigit {c : Char} (h : Numeral.isDigit c = true) :
    isPrintable c = true := by
  have hbounds : 48 ≤ c.toNat ∧ c.toNat ≤ 57 := by
    simpa [Numeral.isDigit, Char.le_def, UInt32.le_iff_toNat_le] using h
  simp only [isPrintable, Char.le_def, UInt32.le_iff_toNat_le, Bool.and_eq_true, decide_eq_true_eq]
  exact ⟨by have := hbounds.1; exact Nat.le_trans (by decide) this,
    Nat.le_trans hbounds.2 (by decide)⟩

theorem isLineBreak_of_isPrintable {c : Char} (h : isPrintable c = true) :
    isLineBreak c = false := by
  have := toNat_of_isPrintable h
  simp [isLineBreak]
  omega

theorem code?_of_isPrintable {c : Char} (h : isPrintable c = true) :
    Surrogate.code? c = none := by
  have := toNat_of_isPrintable h
  rw [Surrogate.code?, if_neg]
  simp only [Surrogate.standIn]
  omega

/-- Printable characters can be written. -/
theorem isWritable_of_isPrintable {t : Text} (h : ∀ c ∈ t, isPrintable c = true) :
    IsWritable t where
  isLine c hc := isLineBreak_of_isPrintable (h c hc)
  hasBytes c hc := code?_of_isPrintable (h c hc)

end TaskList.Text
