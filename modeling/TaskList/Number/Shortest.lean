/-
TaskList.Number.Shortest — numbers with a point as text.

* `Binary64.shortest` — the fewest digits that read back as the number,
  and of those the nearest ones.
* `Binary64.text` — how a number is shown: positional from a
  ten-thousandth up to sixteen digits before the point, with an exponent
  beyond. A whole number keeps `.0`.
-/
import TaskList.Number.Binary64
import TaskList.Text.Numeral

namespace TaskList.Binary64

/-! ## The fewest digits -/

/-- The number of digits of a number; zero has none. -/
def digitCount (n : Nat) : Nat := if n = 0 then 0 else (Nat.toDigits 10 n).length

/-- The place of the first digit of a positive quotient: the power of ten
that it stands for. -/
def leadingPlace (num den : Nat) : Int :=
  if den ≤ num then (digitCount (num / den) : Int) - 1
  else -(digitCount ((den + num - 1) / num - 1) : Int)

/-- A quotient in units of a power of ten, as a quotient again. -/
def inUnits (num den : Nat) (place : Int) : Nat × Nat :=
  if place < 0 then (num * Nat.pow 10 place.natAbs, den)
  else (num, den * Nat.pow 10 place.natAbs)

/-- The two numbers of units of a power of ten that are next to a
quotient, the nearer one first; halfway, the even one. -/
def neighbours (num den : Nat) (place : Int) : List Nat :=
  let (n, d) := inUnits num den place
  let nearest := roundDiv n d
  if nearest = n / d then [nearest, nearest + 1] else [nearest, nearest - 1]

/-- The digits that read back as a positive number, at most `tries` more of
them than at a place; the digits and the place of the last of them. -/
def search (mantissa : Nat) (exponent : Int) (num den : Nat) : Nat → Int → Nat × Int
  | 0, place => (roundDiv (inUnits num den place).1 (inUnits num den place).2, place)
  | tries + 1, place =>
    match (neighbours num den place).find? fun digits =>
        ofScientific false digits place == .finite false mantissa exponent with
    | some digits => (digits, place)
    | none => search mantissa exponent num den tries (place - 1)

/-- The most digits that are ever needed. -/
def mostDigits : Nat := 17

/-- The fewest digits that read back as a positive number, and the power
of ten that the last of them stands for. -/
def shortest (mantissa : Nat) (exponent : Int) : Nat × Int :=
  let (num, den) := scaled mantissa 1 (-exponent)
  search mantissa exponent num den (mostDigits - 1) (leadingPlace num den)

/-! ## The layout -/

/-- A digit run without the zeros at its end, and how many they were. -/
def dropZeros : Text → Text × Nat
  | [] => ([], 0)
  | c :: rest =>
    match dropZeros rest with
    | ([], zeros) => if c == '0' then ([], zeros + 1) else ([c], zeros)
    | (kept, zeros) => (c :: kept, zeros)

/-- An exponent with its sign and at least two digits. -/
def exponentText (e : Int) : Text :=
  'e' :: (if e < 0 then '-' else '+') :: Numeral.padded 2 e.natAbs

/-- Digits with the point behind the first `point` of them, where `point`
may be outside the run. -/
def positional (digits : Text) (point : Int) : Text :=
  if point ≤ 0 then '0' :: '.' :: List.replicate point.natAbs '0' ++ digits
  else if digits.length ≤ point.toNat then
    digits ++ List.replicate (point.toNat - digits.length) '0' ++ ['.', '0']
  else digits.take point.toNat ++ '.' :: digits.drop point.toNat

/-- Digits with the point behind the first and an exponent. -/
def scientific (digits : Text) (point : Int) : Text :=
  digits.take 1 ++ (if digits.length ≤ 1 then [] else '.' :: digits.drop 1) ++
    exponentText (point - 1)

/-- How the number `digits · 10 ^ place` is shown. -/
def layout (digits : Nat) (place : Int) : Text :=
  let (kept, zeros) := dropZeros (Numeral.ofNat digits)
  let point : Int := kept.length + zeros + place
  if -4 < point ∧ point ≤ 16 then positional kept point else scientific kept point

/-- How a number without its sign is shown. -/
def magnitude (mantissa : Nat) (exponent : Int) : Text :=
  if mantissa = 0 then ['0', '.', '0']
  else layout (shortest mantissa exponent).1 (shortest mantissa exponent).2

/-- How a number is shown. -/
def text : Binary64 → Text
  | .finite negative mantissa exponent =>
    (if negative then ['-'] else []) ++ magnitude mantissa exponent
  | .infinite negative => (if negative then ['-'] else []) ++ "inf".toList
  | .undefined => "nan".toList

end TaskList.Binary64
