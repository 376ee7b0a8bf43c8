/-
TaskList.Text.Surrogate — halves of surrogate pairs in a text.

* `Surrogate.ofCode?` — what stands for a half of a pair. Such a half is a
  code point but no character, so an unassigned character stands for it.
* `Surrogate.code?` — the code point of such a half.
* `Surrogate.run?` — the first halves in a text. Halves have no bytes, so no
  file holds them.

`code?_ofCode?` says that the code point is kept, and `run?_eq_none_iff` when
there are no halves.
-/
import TaskList.Text.Numeral

namespace TaskList.Surrogate

/-- The first code point of a half of a pair. -/
def first : Nat := 0xD800

/-- The number of halves of pairs. -/
def count : Nat := 0x800

/-- The first of the characters that stand for halves of pairs. -/
def standIn : Nat := 0xDD800

/-- What stands for the half of a pair with a code point. -/
def ofCode? (n : Nat) : Option Char :=
  if first ≤ n ∧ n < first + count then some (Char.ofNat (standIn + (n - first))) else none

/-- The code point of the half of a pair that a character stands for. -/
def code? (c : Char) : Option Nat :=
  if standIn ≤ c.toNat ∧ c.toNat < standIn + count then some (first + (c.toNat - standIn))
  else none

/-- The code point as which a character counts. -/
def code (c : Char) : Nat := (code? c).getD c.toNat

/-- Some halves in a row. -/
structure Run where
  /-- The code point of the first one. -/
  code : Nat
  /-- The place of the first one. -/
  start : Nat
  /-- The place behind the last one. -/
  stop : Nat
  deriving DecidableEq, Repr

/-- The first halves in a text whose first character has a place, but for
those that are `spared` at the start of a run. -/
def run? (spared : Nat → Bool) (place : Nat) : Text → Option Run
  | [] => none
  | c :: rest =>
    match code? c with
    | none => run? spared (place + 1) rest
    | some code =>
      if spared code then run? spared (place + 1) rest
      else
        let more := rest.takeWhile fun c => (code? c).isSome
        some ⟨code, place, place + 1 + more.length⟩

/-- What is said of halves that have no bytes. -/
def Run.message (run : Run) : String :=
  if run.stop = run.start + 1 then
    s!"'utf-8' codec can't encode character '\\u{String.ofList (Numeral.hex 4 run.code)}' in" ++
    s!" position {run.start}: surrogates not allowed"
  else
    s!"'utf-8' codec can't encode characters in position {run.start}-{run.stop - 1}" ++
    ": surrogates not allowed"

/-- There are no halves to be found where all that there are are spared. -/
theorem run?_eq_none_iff {spared : Nat → Bool} {place : Nat} {t : Text} :
    run? spared place t = none ↔ ∀ c ∈ t, ∀ code, code? c = some code → spared code = true := by
  induction t generalizing place with
  | nil => simp [run?]
  | cons c rest ih =>
    rw [run?]
    cases hcode : code? c with
    | none => simp [ih, hcode]
    | some code => cases hspared : spared code <;> simp [ih, hcode, hspared]

private theorem toNat_ofNat {m : Nat} (h : m.isValidChar) : (Char.ofNat m).toNat = m := by
  unfold Char.ofNat
  rw [dif_pos h]
  rfl

/-- What stands for the half of a pair has the code point of that half. -/
theorem code?_ofCode? {n : Nat} {c : Char} (h : ofCode? n = some c) : code? c = some n := by
  unfold ofCode? at h
  by_cases range : first ≤ n ∧ n < first + count
  · rw [if_pos range] at h
    have valid : (standIn + (n - first)).isValidChar := by
      simp only [Nat.isValidChar, standIn, first, count] at *
      omega
    rw [← Option.some.inj h]
    unfold code?
    rw [toNat_ofNat valid, if_pos ⟨Nat.le_add_right _ _, by omega⟩, Nat.add_sub_cancel_left,
      Nat.add_sub_cancel' range.1]
  · rw [if_neg range] at h
    cases h

end TaskList.Surrogate
