/-
TaskList.Proofs.Due.Overlong — when a due expression cannot be read.

* `Numeral.FailsOn` — what is read fails on runs of digits of certain lengths,
  and on nothing else. `FailsOn.mapM` says what follows for a list that is read
  one by one.
* `Due.Rule.Overlong` — the alternatives that cannot be read: a date with an
  interval behind it whose number has too many digits.
  `Rule.read_eq_error_iff` says that there are no others, and
  `Expression.read_failsOn` that one of them is enough for an expression.
-/
import TaskList.Proofs.Due.Spelling
import TaskList.Due.Expression
import TaskList.Proofs.Reading

namespace TaskList

namespace Numeral

/-- The text is a run of `n` digits, which are too many for a number. -/
structure Overlong (run : Text) (n : Nat) : Prop where
  digits : ∀ c ∈ run, isDigit c = true
  length : run.length = n
  long : longest < n

/-- What was read failed on a run of digits with one of the lengths; and it
did fail if there is such a length. -/
structure FailsOn {α : Type} (result : Except TooLong α) (lengths : Nat → Prop) : Prop where
  of_error : ∀ e, result = .error e → lengths e.digits
  exists_error : ∀ n, lengths n → ∃ e, result = .error e

theorem value_eq_error_iff {digits : Text} {e : TooLong} :
    value digits = .error e ↔ longest < digits.length ∧ digits.length = e.digits := by
  obtain ⟨n⟩ := e
  unfold value
  split <;> simp [*]

namespace FailsOn

variable {α : Type} {result : Except TooLong α} {lengths : Nat → Prop}

theorem of_iff (h : ∀ e, result = .error e ↔ lengths e.digits) : FailsOn result lengths :=
  ⟨fun e => (h e).mp, fun n hn => ⟨⟨n⟩, (h ⟨n⟩).mpr hn⟩⟩

theorem of_ok {x : α} (h : result = .ok x) (hnone : ∀ n, ¬ lengths n) : FailsOn result lengths :=
  ⟨fun e he => by simp [h] at he, fun n hn => absurd hn (hnone n)⟩

theorem congr {others : Nat → Prop} (h : FailsOn result lengths)
    (hsame : ∀ n, lengths n ↔ others n) : FailsOn result others :=
  ⟨fun e he => (hsame _).mp (h.of_error e he), fun n hn => h.exists_error n ((hsame n).mpr hn)⟩

/-- What does not fail gives a result. -/
theorem exists_ok (h : FailsOn result lengths) (hnone : ∀ n, ¬ lengths n) :
    ∃ x, result = .ok x := by
  cases result with
  | error e => exact absurd (h.of_error e rfl) (hnone _)
  | ok x => exact ⟨x, rfl⟩

/-- A result of another kind fails as the one it is made from. -/
theorem of_error_iff {β : Type} {other : Except TooLong β} (h : FailsOn result lengths)
    (hsame : ∀ e, other = .error e ↔ result = .error e) : FailsOn other lengths := by
  refine ⟨fun e he => h.of_error e ((hsame e).mp he), fun n hn => ?_⟩
  obtain ⟨e, he⟩ := h.exists_error n hn
  exact ⟨e, (hsame e).mpr he⟩

/-- A list fails on what one of its members fails on. -/
theorem mapM {β : Type} {f : β → Except TooLong α} {xs : List β} {lengths : β → Nat → Prop}
    (h : ∀ x ∈ xs, FailsOn (f x) (lengths x)) :
    FailsOn (xs.mapM f) fun n => ∃ x ∈ xs, lengths x n := by
  constructor
  case of_error =>
    intro e he
    obtain ⟨x, hx, hxe⟩ := exists_of_mapM_eq_error he
    exact ⟨x, hx, (h x hx).of_error e hxe⟩
  case exists_error =>
    rintro n ⟨x, hx, hn⟩
    obtain ⟨e, he⟩ := (h x hx).exists_error n hn
    cases hxs : xs.mapM f with
    | error e' => exact ⟨e', rfl⟩
    | ok ys =>
      obtain ⟨y, -, hy⟩ := exists_of_forall₂ (mapM_eq_ok_iff.mp hxs).flip hx
      rw [he] at hy
      cases hy

end FailsOn

end Numeral

namespace Due

/-! ## Intervals and rules -/

/-- The text, trimmed and lower-cased, is a date with an interval behind it,
whose number has `n` digits and so too many. -/
def Rule.Overlong (text : Text) (n : Nat) : Prop :=
  ∃ (start : Day) (date digits : Text) (mark : Char),
    text.trim.lower = date ++ mark :: 'e' :: (digits ++ ['d']) ∧ start.SpelledBy date ∧
      (mark = '|' ∨ mark = '-') ∧ Numeral.Overlong digits n

theorem interval?_eq_error_iff {t : Text} {e : Numeral.TooLong} (hlast : t.getLast? ≠ some '\n') :
    interval? t = .error e ↔
      ∃ digits : Text, t = 'e' :: (digits ++ ['d']) ∧ Numeral.Overlong digits e.digits := by
  constructor
  · intro h
    unfold interval? at h
    split at h
    · simp at h
    · rename_i digits hshape
      obtain ⟨rfl, -, hdigits⟩ := (intervalDigits?_eq_some_iff hlast).mp hshape
      split at h
      · rename_i cause hcause
        cases h
        obtain ⟨hlong, hlength⟩ := Numeral.value_eq_error_iff.mp hcause
        exact ⟨digits, rfl, hdigits, hlength, hlength ▸ hlong⟩
      · simp at h
  · rintro ⟨digits, rfl, hdigits, hlength, hlong⟩
    have hne : digits ≠ [] := by
      rintro rfl
      rw [← hlength] at hlong
      simp at hlong
    have hvalue := Numeral.value_eq_error_iff.mpr ⟨hlength.symm ▸ hlong, hlength⟩
    rw [interval?, (intervalDigits?_eq_some_iff hlast).mpr ⟨rfl, hne, hdigits⟩]
    simp only [hvalue]

theorem readDated_eq_error_iff {t : Text} {e : Numeral.TooLong} (hlast : t.getLast? ≠ some '\n') :
    Rule.readDated t = .error e ↔ ∃ (start : Day) (date digits : Text) (mark : Char),
      t = date ++ mark :: 'e' :: (digits ++ ['d']) ∧ start.SpelledBy date ∧
        (mark = '|' ∨ mark = '-') ∧ Numeral.Overlong digits e.digits := by
  constructor
  · intro h
    have ht : t.take 10 ++ t.drop 10 = t := List.take_append_drop 10 t
    unfold Rule.readDated at h
    split at h
    · simp at h
    · rename_i day mark interval hday hdrop
      rw [hdrop] at ht
      have hlast' : interval.getLast? ≠ some '\n' := by
        intro hfeed
        rw [← ht, List.getLast?_append, List.getLast?_cons, hfeed] at hlast
        exact hlast rfl
      split at h
      · rename_i hmark
        split at h
        · rename_i cause hcause
          cases h
          obtain ⟨digits, rfl, hlong⟩ := (interval?_eq_error_iff hlast').mp hcause
          exact ⟨day, _, digits, mark, ht.symm, Calendar.day?_eq_some_iff.mp hday, hmark, hlong⟩
        · simp at h
        · simp at h
      · simp at h
    · simp at h
  · rintro ⟨start, date, digits, mark, rfl, hstart, hmark, hlong⟩
    have hlast' : ('e' :: (digits ++ ['d'])).getLast? ≠ some '\n' := by
      rw [← List.cons_append, List.getLast?_concat]
      decide
    have hinterval := (interval?_eq_error_iff hlast').mpr ⟨digits, rfl, hlong⟩
    rw [Rule.readDated, List.take_left' hstart.length_eq, List.drop_left' hstart.length_eq,
      Calendar.day?_eq_some_iff.mpr hstart]
    simp only [if_pos hmark, hinterval]

/-- **A rule fails to be read only if the number of its interval has too many
digits**, and then it does. -/
theorem Rule.read_eq_error_iff {text : Text} {e : Numeral.TooLong} :
    Rule.read text = .error e ↔ Rule.Overlong text e.digits := by
  have hlast := Text.getLast?_lower (Text.getLast?_trim_ne_lineFeed text)
  rw [Rule.Overlong, ← readDated_eq_error_iff hlast]
  constructor
  · intro h
    unfold Rule.read at h
    dsimp only at h
    split at h
    · simp at h
    · split at h
      · simp at h
      · split at h
        · simp at h
        · split at h
          · simp at h
          · exact h
  · intro h
    obtain ⟨start, date, digits, mark, ht, hstart, hmark, hlong⟩ :=
      (readDated_eq_error_iff hlast).mp h
    obtain ⟨c, hc, hdigit⟩ := hstart.exists_digit
    have hmem : c ∈ text.trim.lower := ht ▸ List.mem_append_left _ hc
    have hdots : '.' ∉ text.trim.lower := by
      rw [ht]
      exact dot_notMem_interval hstart hmark hlong.digits
    rw [read_of_dated hmem hdigit hdots, h]

/-! ## Expressions -/

theorem Alternative.read_eq_error_iff {text : Text} {e : Numeral.TooLong} :
    Alternative.read text = .error e ↔ Rule.Overlong text e.digits := by
  rw [← Rule.read_eq_error_iff, Alternative.read]
  split <;> simp [*]

/-- An expression fails to be read if one of its alternatives does. -/
theorem Expression.read_failsOn (raw : Text) :
    Numeral.FailsOn (Expression.read raw) fun n =>
      ∃ piece ∈ Expression.pieces raw, Rule.Overlong piece n := by
  have hpiece : ∀ piece ∈ Expression.pieces raw,
      Numeral.FailsOn (Alternative.read piece) (Rule.Overlong piece) := by
    intro piece _
    exact .of_iff fun e => Alternative.read_eq_error_iff
  refine (Numeral.FailsOn.mapM hpiece).of_error_iff fun e => ?_
  rw [Expression.read]
  split <;> simp [*]

end Due

end TaskList
