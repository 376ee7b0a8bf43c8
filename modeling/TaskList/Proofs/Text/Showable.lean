/-
TaskList.Proofs.Text.Showable — texts without style marks.

* `Text.isInert` — a printable character of ASCII that opens no style mark.
* `Text.IsShowable` — a text that opens no style mark and has bytes. The quoted literal
  of such a text is another one (`Text.IsShowable.quoted`).
-/
import TaskList.Proofs.Text.Digits
import TaskList.Proofs.Text.Lines
import TaskList.Text.Quoted

namespace TaskList.Text

/-! ## Characters -/

/-- A printable character of ASCII, other than the bracket that opens style marks. -/
def isInert (c : Char) : Bool := isPrintable c && c != '['

theorem isPrintable_of_isInert {c : Char} (h : isInert c = true) : isPrintable c = true :=
  (Bool.and_eq_true_iff.mp h).1

theorem ne_of_isInert {c : Char} (h : isInert c = true) : c ≠ '[' :=
  bne_iff_ne.mp (Bool.and_eq_true_iff.mp h).2

theorem isInert_of_isDigit {c : Char} (h : Numeral.isDigit c = true) : isInert c = true := by
  refine Bool.and_eq_true_iff.mpr ⟨isPrintable_of_isDigit h, bne_iff_ne.mpr ?_⟩
  rintro rfl
  exact absurd h (by decide)

theorem isInert_of_mem_hex {width n : Nat} {c : Char} (h : c ∈ Numeral.hex width n) :
    isInert c = true := by
  have hdigit : ∀ d < 16, isInert (Nat.digitChar d) = true := by decide
  obtain ⟨d, hd, rfl⟩ := Numeral.exists_of_mem_hex h
  exact hdigit d hd

/-! ## Texts -/

/-- A text that can be shown as it is. -/
structure IsShowable (t : Text) : Prop where
  hasBytes : HasBytes t
  not_mem : '[' ∉ t

section Showable

variable {t u : Text} {c : Char}

instance (t : Text) : Decidable (IsShowable t) :=
  decidable_of_iff (HasBytes t ∧ '[' ∉ t) ⟨fun h => ⟨h.1, h.2⟩, fun h => ⟨h.1, h.2⟩⟩

theorem isShowable_of_isInert (h : ∀ c ∈ t, isInert c = true) : IsShowable t where
  hasBytes := (isWritable_of_isPrintable fun c hc => isPrintable_of_isInert (h c hc)).hasBytes
  not_mem hmem := ne_of_isInert (h _ hmem) rfl

theorem isShowable_ofNat (n : Nat) : IsShowable (Numeral.ofNat n) :=
  isShowable_of_isInert fun _ hc => isInert_of_isDigit (Numeral.isDigit_of_mem_ofNat hc)

theorem IsShowable.append (ht : IsShowable t) (hu : IsShowable u) : IsShowable (t ++ u) where
  hasBytes := List.forall_mem_append.mpr ⟨ht.hasBytes, hu.hasBytes⟩
  not_mem hmem := (List.mem_append.mp hmem).elim ht.not_mem hu.not_mem

/-- A character is shown as itself, or by inert ones. -/
theorem mem_escape {quote d : Char} (h : c ∈ Quoted.escape quote d) : c = d ∨ isInert c = true := by
  have hmarks : isInert '\\' = true ∧ isInert 't' = true ∧ isInert 'n' = true ∧
      isInert 'r' = true ∧ isInert 'x' = true ∧ isInert 'u' = true ∧ isInert 'U' = true := by decide
  unfold Quoted.escape at h
  dsimp only at h
  repeat' split at h
  all_goals
    simp only [List.mem_cons, List.not_mem_nil, or_false] at h
    grind [isInert_of_mem_hex]

/-- What is in a quoted literal is in the text, or inert. -/
theorem mem_quoted (h : c ∈ t.quoted) : c ∈ t ∨ isInert c = true := by
  have hquote : isInert (if t.contains '\'' && !t.contains '"' then '"' else '\'') = true := by
    split <;> decide
  rw [quoted, List.mem_append, List.mem_cons, List.mem_singleton] at h
  rcases h with (rfl | h) | rfl
  · exact .inr hquote
  · obtain ⟨d, hd, hc⟩ := List.mem_flatMap.mp h
    rcases mem_escape hc with rfl | hinert
    · exact .inl hd
    · exact .inr hinert
  · exact .inr hquote

/-- **The quoted literal of a text that can be shown** can be shown. -/
theorem IsShowable.quoted (h : IsShowable t) : IsShowable t.quoted where
  hasBytes c hc :=
    (mem_quoted hc).elim (h.hasBytes c) fun hinert =>
      code?_of_isPrintable (isPrintable_of_isInert hinert)
  not_mem hmem := (mem_quoted hmem).elim h.not_mem fun hinert => ne_of_isInert hinert rfl

end Showable

end TaskList.Text
