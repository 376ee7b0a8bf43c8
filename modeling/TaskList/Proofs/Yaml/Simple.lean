/-
TaskList.Proofs.Yaml.Simple — a document is written in printable ASCII.

* `Yaml.IsSimple` — a text of printable ASCII and line feeds.
* `Yaml.isSimple_textFrom` — in whatever style a text is written, the result is
  simple: what stands without escapes is simple itself, and escapes are.
* `Yaml.isSimple_write` — so is a document of texts, integers and truth values. A file
  can hold it, and its line breaks are read as they were written.
-/
import TaskList.Proofs.Text.Digits
import TaskList.Proofs.Text.Lines
import TaskList.Yaml.Write

namespace TaskList

namespace Yaml

/-- The text consists of printable ASCII and line feeds. -/
def IsSimple (t : Text) : Prop := ∀ c ∈ t, isSimple c = true

section Texts

variable {t u : Text} {c : Char}

@[simp] theorem isSimple_nil : IsSimple [] := fun _ h => nomatch h

@[simp] theorem isSimple_cons : IsSimple (c :: t) ↔ isSimple c = true ∧ IsSimple t :=
  List.forall_mem_cons

@[simp] theorem isSimple_append : IsSimple (t ++ u) ↔ IsSimple t ∧ IsSimple u :=
  List.forall_mem_append

@[simp] theorem isSimple_reverse : IsSimple t.reverse ↔ IsSimple t := by
  simp [IsSimple]

@[simp] theorem isSimple_replicate (n : Nat) (hc : isSimple c = true) :
    IsSimple (List.replicate n c) := fun _ h => (List.eq_of_mem_replicate h) ▸ hc

theorem isSimple_of_isPrintable (h : Text.isPrintable c = true) : isSimple c = true :=
  Bool.or_eq_true_iff.mpr (.inr h)

theorem isSimple_of_all (h : t.all isSimple = true) : IsSimple t := List.all_eq_true.mp h

theorem IsSimple.not_mem_return (h : IsSimple t) : '\r' ∉ t :=
  fun hmem => absurd (h _ hmem) (by decide)

/-- Printable ASCII has bytes. -/
theorem IsSimple.hasBytes (h : IsSimple t) : t.HasBytes := by
  intro c hc
  rcases Bool.or_eq_true_iff.mp (h c hc) with hfeed | hprintable
  · obtain rfl := beq_iff_eq.mp hfeed
    decide
  · exact Text.code?_of_isPrintable hprintable

end Texts

/-! ## The styles -/

section Styles

variable {m : Margin} {t : Text}

@[simp] theorem isSimple_newLine (m : Margin) : IsSimple m.newLine := by
  simp [Margin.newLine, show isSimple '\n' = true by decide, show isSimple ' ' = true by decide]

theorem isSimple_plainFrom {column spaces : Nat} (h : IsSimple t) :
    IsSimple (plainFrom m column spaces t) := by
  induction t generalizing column spaces with
  | nil => exact isSimple_replicate _ (by decide)
  | cons c rest ih =>
    obtain ⟨hc, hrest⟩ := isSimple_cons.mp h
    by_cases hspace : c = ' '
    · subst hspace
      exact ih hrest
    · rw [plainFrom.eq_3 _ _ _ _ _ hspace]
      split
      · simp [hc, ih hrest]
      · simp [hc, ih hrest, show isSimple ' ' = true by decide]

theorem isSimple_gap (m : Margin) (column : Nat) (last : Bool) (gap : Gap) :
    IsSimple (gap.single m column last).1 := by
  have hspace : isSimple ' ' = true := by decide
  have hfeed : isSimple '\n' = true := by decide
  cases gap with
  | none => exact isSimple_nil
  | spaces count first =>
    rw [Gap.single]
    split <;> simp [hspace]
  | breaks count => simp [Gap.single, hfeed]

theorem isSimple_singleFrom {column : Nat} {gap : Gap} (h : IsSimple t) :
    IsSimple (singleFrom m column gap t) := by
  induction t generalizing column gap with
  | nil => simp [singleFrom, isSimple_gap, show isSimple '\'' = true by decide]
  | cons c rest ih =>
    obtain ⟨hc, hrest⟩ := isSimple_cons.mp h
    rw [singleFrom.eq_def]
    dsimp only
    split
    · cases gap <;> simp [isSimple_gap, ih hrest]
    · split
      · cases gap <;> simp [isSimple_gap, ih hrest]
      · have hwritten : IsSimple (if (c == '\'') = true then ['\'', '\''] else [c]) := by
          split
          · exact isSimple_of_all (by decide)
          · simp [hc]
        exact isSimple_append.mpr ⟨isSimple_append.mpr ⟨isSimple_gap m column false gap, hwritten⟩,
          ih hrest⟩

theorem isSimple_codeText (length n : Nat) : IsSimple (codeText length n) := by
  have hdigit : ∀ d < 16, isSimple (Nat.digitChar d).toUpper = true := by decide
  intro c hc
  obtain ⟨digit, hmem, rfl⟩ := List.mem_map.mp hc
  obtain ⟨d, hd, rfl⟩ := Numeral.exists_of_mem_hex hmem
  exact hdigit d hd

theorem isSimple_escape {c : Char} {escaped : Text} (h : escape? c = some escaped) :
    IsSimple escaped := by
  have hletters : ∀ e ∈ Cursor.escapes.filter fun e => e.1 != '\t' && e.1 != ' ' && e.1 != '/',
      isSimple e.1 = true := by decide
  have hmarks : isSimple '\\' = true ∧ isSimple 'x' = true ∧ isSimple 'u' = true ∧
      isSimple 'U' = true := by decide
  unfold escape? at h
  split at h
  · rename_i letter meaning hfound
    obtain rfl := Option.some.inj h
    simp [hmarks, hletters _ (List.mem_of_find?_eq_some hfound)]
  · dsimp only at h
    split at h
    · simp at h
    · repeat' split at h
      all_goals
        obtain rfl := Option.some.inj h
        simp [hmarks, isSimple_codeText]

/-- What needs no escape is simple itself. -/
theorem isSimple_of_escape?_eq_none {c : Char} (h : escape? c = none) : isSimple c = true := by
  unfold escape? at h
  split at h
  · simp at h
  · dsimp only at h
    split at h
    · rename_i hprintable
      exact isSimple_of_isPrintable hprintable
    · repeat' split at h
      all_goals simp at h

theorem isSimple_brokenBefore (m : Margin) (rest : Text) : IsSimple (m.brokenBefore rest).1 := by
  have hslash : isSimple '\\' = true := by decide
  unfold Margin.brokenBefore
  split <;> simp [hslash]

theorem isSimple_doubleFrom {length index column : Nat} {run : Text} (hrun : IsSimple run) :
    IsSimple (doubleFrom m length index column run t) := by
  induction t generalizing index column run with
  | nil => simp [doubleFrom, hrun, show isSimple '"' = true by decide]
  | cons c rest ih =>
    rw [doubleFrom]
    split
    · rename_i escaped hfound
      have hescape := isSimple_escape hfound
      dsimp only
      split
      · simp [hrun, hescape, isSimple_brokenBefore, ih isSimple_nil]
      · simp [hrun, hescape, ih isSimple_nil]
    · rename_i hfound
      have hescape := isSimple_of_escape?_eq_none hfound
      have hc : IsSimple [c] := isSimple_cons.mpr ⟨hescape, isSimple_nil⟩
      dsimp only
      split
      · simp [hrun, isSimple_brokenBefore, ih hc]
      · exact ih (isSimple_cons.mpr ⟨hescape, hrun⟩)

/-- **A text is written in printable ASCII**, whatever its style. -/
theorem isSimple_textFrom (m : Margin) (column : Nat) (t : Text) : IsSimple (textFrom m column t) := by
  unfold textFrom
  split
  · rename_i hstyle
    unfold style at hstyle
    split at hstyle
    · rename_i hplain
      simp only [isPlain, Bool.and_eq_true] at hplain
      exact isSimple_plainFrom (isSimple_of_all (by tauto))
    · split at hstyle <;> cases hstyle
  · rename_i hstyle
    unfold style at hstyle
    split at hstyle
    · cases hstyle
    · split at hstyle
      · rename_i hsingle
        simp only [isSingle, Bool.and_eq_true] at hsingle
        exact isSimple_cons.mpr ⟨by decide, isSimple_singleFrom (isSimple_of_all (by tauto))⟩
      · cases hstyle
  · exact isSimple_cons.mpr ⟨by decide, isSimple_doubleFrom isSimple_nil⟩

end Styles

/-! ## Documents -/

/-- Texts, integers and truth values. -/
def Value.IsFlat : Value → Prop
  | .text _ | .int _ | .bool _ => True
  | _ => False

theorem isSimple_ofNat (n : Nat) : IsSimple (Numeral.ofNat n) := fun _ hc =>
  isSimple_of_isPrintable (Text.isPrintable_of_isDigit (Numeral.isDigit_of_mem_ofNat hc))

theorem isSimple_scalarFrom {v : Value} (h : v.IsFlat) (m : Margin) (column : Nat) :
    IsSimple (scalarFrom m column v) := by
  match v, h with
  | .text t, _ => exact isSimple_textFrom m column t
  | .bool true, _ =>
    exact isSimple_of_all (show "true".toList.all isSimple = true by decide)
  | .bool false, _ =>
    exact isSimple_of_all (show "false".toList.all isSimple = true by decide)
  | .int (.ofNat n), _ => exact isSimple_ofNat n
  | .int (.negSucc n), _ => exact isSimple_cons.mpr ⟨by decide, isSimple_ofNat (n + 1)⟩

theorem isSimple_keyText (column : Nat) (key : Text) :
    IsSimple (keyText column (.text key)).1 := by
  have hmarks : isSimple ':' = true ∧ isSimple '?' = true ∧ isSimple ' ' = true ∧
      isSimple '\n' = true := by decide
  have hkey : ∀ m column, IsSimple (scalarFrom m column (.text key)) :=
    fun m column => isSimple_textFrom m column key
  unfold keyText
  dsimp only
  split <;> simp [hkey, hmarks]

theorem isSimple_valueAt {v : Value} (h : v.IsFlat) (column : Nat) (lead : Lead) :
    IsSimple (valueAt column lead v) := by
  have hmarks : isSimple ' ' = true ∧ isSimple '\n' = true := by decide
  match v, h with
  | .text t, h => simp [valueAt, isSimple_scalarFrom h, hmarks]
  | .bool b, h => simp [valueAt, isSimple_scalarFrom h, hmarks]
  | .int n, h => simp [valueAt, isSimple_scalarFrom h, hmarks]

theorem isSimple_joined {separator : Text} (hseparator : IsSimple separator) {parts : List Text}
    (h : ∀ part ∈ parts, IsSimple part) : IsSimple (Text.joined separator parts) := by
  induction parts with
  | nil => exact isSimple_nil
  | cons part rest ih =>
    have hpart := h part List.mem_cons_self
    have hrest := ih fun other hother => h other (List.mem_cons_of_mem part hother)
    cases rest with
    | nil => exact hpart
    | cons next more => simp [Text.joined, hpart, hseparator, hrest]

/-- **A document of texts, integers and truth values is printable ASCII.** -/
theorem isSimple_write {entries : List (Text × Value)} (h : ∀ e ∈ entries, e.2.IsFlat) :
    IsSimple (write entries) := by
  refine isSimple_joined (isSimple_replicate 0 (by decide)) ?_
  induction entries with
  | nil => simp [entriesAt]
  | cons e rest ih =>
    intro part hpart
    rw [List.map_cons, entriesAt, List.map_cons] at hpart
    rcases List.mem_cons.mp hpart with rfl | hpart
    · exact isSimple_append.mpr ⟨isSimple_keyText 0 e.1,
        isSimple_valueAt (h e List.mem_cons_self) _ _⟩
    · exact ih (fun other hother => h other (List.mem_cons_of_mem e hother)) part hpart

end Yaml

end TaskList
