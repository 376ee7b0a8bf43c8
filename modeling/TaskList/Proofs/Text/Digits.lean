/-
TaskList.Proofs.Text.Digits — digits, and the numbers that they denote.

* `Numeral.isDigit_iff` — the digits are those of the numbers below ten.
* `Numeral.padded_ofDigitChars`, `Numeral.ofDigitChars_padded` — a run of
  digits is its number, written as wide as the run is. So numbers of a fixed
  width are read and written without a loss.
-/
import Mathlib.Algebra.Ring.Nat
import Mathlib.Data.List.Induction
import TaskList.Text.Numeral

namespace TaskList.Numeral

theorem isDigit_digitChar {n : Nat} (h : n < 10) : isDigit n.digitChar = true := by
  have hall : ∀ n, n < 10 → isDigit n.digitChar = true := by decide
  exact hall n h

theorem isDigit_iff {c : Char} : isDigit c = true ↔ ∃ n < 10, c = Nat.digitChar n := by
  constructor
  · intro h
    have hbounds : 48 ≤ c.toNat ∧ c.toNat ≤ 57 := by
      simpa [isDigit, Char.le_def, UInt32.le_iff_toNat_le] using h
    refine ⟨c.toNat - 48, by omega, Char.toNat_inj.mp ?_⟩
    rw [Nat.toNat_digitChar_of_lt_ten (by omega)]
    omega
  · rintro ⟨n, hn, rfl⟩
    exact isDigit_digitChar hn

theorem isDigit_of_mem_ofNat {n : Nat} {c : Char} (h : c ∈ ofNat n) : isDigit c = true := by
  have hdigit := Nat.isDigit_of_mem_toDigits (by decide) (by decide) h
  simpa [isDigit, Char.isDigit, Char.le_def] using hdigit

/-- One digit more. -/
theorem ofDigitChars_concat (front : Text) {n : Nat} (hn : n < 10) :
    Nat.ofDigitChars 10 (front ++ [n.digitChar]) 0 = 10 * Nat.ofDigitChars 10 front 0 + n := by
  rw [Nat.ofDigitChars_append, Nat.ofDigitChars_cons_digitChar_of_lt_ten hn, Nat.ofDigitChars_nil]

theorem ofNat_concat {m n : Nat} (hm : 0 < m) (hn : n < 10) :
    ofNat (10 * m + n) = ofNat m ++ [n.digitChar] := by
  rw [ofNat, ofNat, ← Nat.toDigits_append_toDigits (by decide) hm hn, Nat.toDigits_of_lt_base hn]

/-- A number with room for one digit more in front of its last one. -/
theorem padded_concat {width m n : Nat} (hwidth : 0 < width) (hn : n < 10) :
    padded (width + 1) (10 * m + n) = padded width m ++ [n.digitChar] := by
  rcases Nat.eq_zero_or_pos m with rfl | hm
  · rw [Nat.mul_zero, Nat.zero_add, padded, padded, ofNat, ofNat, Nat.toDigits_of_lt_base hn,
      Nat.toDigits_zero, List.leftpad, List.leftpad, List.length_singleton, List.length_singleton,
      Nat.add_sub_cancel, ← List.replicate_succ', Nat.sub_add_cancel hwidth]
  · rw [padded, padded, ofNat_concat hm hn, List.leftpad, List.leftpad, List.length_append,
      List.length_singleton, Nat.add_sub_add_right, List.append_assoc]

/-- A run of digits is its number, written as wide as the run is. -/
theorem padded_ofDigitChars {digits : Text} (hne : digits ≠ [])
    (h : ∀ c ∈ digits, isDigit c = true) :
    padded digits.length (Nat.ofDigitChars 10 digits 0) = digits := by
  induction digits using List.reverseRecOn with
  | nil => exact absurd rfl hne
  | append_singleton front c ih =>
    obtain ⟨n, hn, rfl⟩ := isDigit_iff.mp (h c (by simp))
    rw [ofDigitChars_concat front hn, List.length_append, List.length_singleton]
    rcases front.eq_nil_or_concat with rfl | hfront
    · rw [Nat.ofDigitChars_nil, Nat.mul_zero, Nat.zero_add, padded, ofNat,
        Nat.toDigits_of_lt_base hn]
      rfl
    · have hne' : front ≠ [] := by
        obtain ⟨more, last, rfl⟩ := hfront
        simp
      rw [padded_concat (List.length_pos_iff.mpr hne') hn,
        ih hne' fun d hd => h d (by simp [hd])]

/-- Zeros in front do not matter to a number. -/
theorem ofDigitChars_padded (width n : Nat) : Nat.ofDigitChars 10 (padded width n) 0 = n := by
  rw [padded, List.leftpad, Nat.ofDigitChars_append, Nat.ofDigitChars_replicate_zero, Nat.mul_zero,
    ofNat, Nat.ofDigitChars_ten_toDigits]

theorem isDigit_of_mem_padded {width n : Nat} {c : Char} (h : c ∈ padded width n) :
    isDigit c = true := by
  rw [padded, List.leftpad, List.mem_append] at h
  rcases h with h | h
  · rw [List.eq_of_mem_replicate h]
    decide
  · exact isDigit_of_mem_ofNat h

theorem length_padded {width n : Nat} (hwidth : 0 < width) (h : n < 10 ^ width) :
    (padded width n).length = width := by
  have hle := (Nat.length_toDigits_le_iff (by decide) hwidth).mpr h
  rw [padded, List.length_leftpad]
  exact Nat.max_eq_left hle

/-- A number that is wide enough needs no zeros in front. -/
theorem padded_eq_ofNat {width n : Nat} (hwidth : 1 < width) (h : 10 ^ (width - 1) ≤ n) :
    padded width n = ofNat n := by
  have hlt : ¬ (ofNat n).length ≤ width - 1 := by
    rw [ofNat, Nat.length_toDigits_le_iff (by decide) (by omega)]
    omega
  rw [padded, List.leftpad, show width - (ofNat n).length = 0 by omega]
  rfl

/-- A number up to the one that digits denote has no more digits than these. -/
theorem length_ofNat_le {digits : Text} {n : Nat} (hne : digits ≠ [])
    (h : ∀ c ∈ digits, isDigit c = true) (hle : n ≤ Nat.ofDigitChars 10 digits 0) :
    (ofNat n).length ≤ digits.length := by
  have hpadded := congrArg List.length (padded_ofDigitChars hne h)
  rw [padded, List.length_leftpad] at hpadded
  have hwide : (ofNat (Nat.ofDigitChars 10 digits 0)).length ≤ digits.length := by omega
  have hpos := List.length_pos_iff.mpr hne
  rw [ofNat, Nat.length_toDigits_le_iff (by decide) hpos] at hwide ⊢
  exact Nat.lt_of_le_of_lt hle hwide

/-- A number up to one that was read can be read too. -/
theorem value_ofNat_of_le {digits : Text} {m n : Nat} (hne : digits ≠ [])
    (hdigits : ∀ c ∈ digits, isDigit c = true) (h : value digits = .ok n) (hle : m ≤ n) :
    value (ofNat m) = .ok m := by
  unfold value at h
  split at h
  · simp at h
  · rename_i hlength
    obtain rfl := Except.ok.inj h
    have hfew := length_ofNat_le hne hdigits hle
    exact value_ofNat (by omega)

/-! ## Other bases -/

/-- A digit in a base is that of a number below it. -/
theorem exists_of_mem_toDigits {base : Nat} (hbase : 1 < base) {n : Nat} {c : Char}
    (h : c ∈ Nat.toDigits base n) : ∃ d < base, c = Nat.digitChar d := by
  induction n using Nat.strongRecOn with
  | ind n ih =>
    rw [Nat.toDigits_eq_if hbase] at h
    split at h
    · rename_i hlt
      exact ⟨n, hlt, List.mem_singleton.mp h⟩
    · rename_i hge
      rcases List.mem_append.mp h with h | h
      · exact ih (n / base) (Nat.div_lt_self (by omega) hbase) h
      · exact ⟨n % base, Nat.mod_lt _ (by omega), List.mem_singleton.mp h⟩

/-- The hexadecimal digits are those of the numbers below sixteen. -/
theorem exists_of_mem_hex {width n : Nat} {c : Char} (h : c ∈ hex width n) :
    ∃ d < 16, c = Nat.digitChar d := by
  rw [hex, List.leftpad, List.mem_append] at h
  rcases h with h | h
  · exact ⟨0, by decide, List.eq_of_mem_replicate h⟩
  · exact exists_of_mem_toDigits (by decide) h

end TaskList.Numeral
