/-
TaskList.Number.Binary64 — numbers with a point, held in 64 bits.

* `Binary64` — a sign, a whole number of at most 53 bits and a power of
  two; or an infinity; or no number at all.
* `Binary64.ofRatio` — the nearest such number to a quotient; halfway
  between two, the one with the even mantissa. What is too large becomes an
  infinity, what is too small becomes zero.
* `Binary64.ofScientific`, `Binary64.ofInt?`, `Binary64.add`,
  `Binary64.mul` — each is exact arithmetic followed by one such rounding.
* `Binary64.le`, `Binary64.lt` and `Binary64.sameAs` — comparison by size,
  without any rounding. What is no number compares with nothing.
-/

namespace TaskList

/-- A number with a point, held in 64 bits. -/
inductive Binary64 where
  /-- The number `mantissa · 2 ^ exponent`, with its sign. -/
  | finite (negative : Bool) (mantissa : Nat) (exponent : Int)
  | infinite (negative : Bool)
  /-- Not a number. -/
  | undefined
  deriving DecidableEq, Repr

namespace Binary64

/-! ## Rounding -/

/-- The bits of a mantissa. -/
def precision : Nat := 53

/-- The least exponent. -/
def leastExponent : Int := -1074

/-- The greatest exponent. -/
def greatestExponent : Int := 971

/-- A quotient rounded to the nearest whole number; halfway between two,
to the even one. -/
def roundDiv (num den : Nat) : Nat :=
  let below := num / den
  let twice := 2 * (num % den)
  if twice < den ∨ (twice = den ∧ below % 2 = 0) then below else below + 1

/-- A quotient in units of a power of two, as a quotient again. -/
def scaled (num den : Nat) (exponent : Int) : Nat × Nat :=
  if exponent < 0 then (num * Nat.pow 2 exponent.natAbs, den)
  else (num, den * Nat.pow 2 exponent.natAbs)

/-- The exponent for a quotient: the one with which the mantissa has all
its bits, but not below the least one. -/
def exponentOf (num den : Nat) : Int :=
  let estimate : Int := (Nat.log2 num : Int) - Nat.log2 den - precision
  let (n, d) := scaled num den estimate
  max leastExponent (if Nat.pow 2 precision ≤ n / d then estimate + 1 else estimate)

/-- The number with a mantissa of at most 54 bits; too large a one is
infinite. -/
def ofMantissa (negative : Bool) (mantissa : Nat) (exponent : Int) : Binary64 :=
  let (m, e) := if mantissa = Nat.pow 2 precision then (mantissa / 2, exponent + 1)
    else (mantissa, exponent)
  if greatestExponent < e then .infinite negative else .finite negative m e

/-- The number nearest to a quotient. -/
def ofRatio (negative : Bool) (num den : Nat) : Binary64 :=
  if num = 0 then .finite negative 0 leastExponent
  else
    let exponent := exponentOf num den
    let (n, d) := scaled num den exponent
    ofMantissa negative (roundDiv n d) exponent

/-- The number nearest to `n · 2 ^ exponent`. -/
def ofScaled (n : Int) (exponent : Int) : Binary64 :=
  let (num, den) := scaled n.natAbs 1 (-exponent)
  ofRatio (decide (n < 0)) num den

/-- The number nearest to `digits · 10 ^ exponent`. Exponents far outside
the range are not worked out. -/
def ofScientific (negative : Bool) (digits : Nat) (exponent : Int) : Binary64 :=
  let size : Int := (Nat.toDigits 10 digits).length + exponent
  if digits = 0 ∨ size < -330 then .finite negative 0 leastExponent
  else if 310 < size then .infinite negative
  else if exponent < 0 then ofRatio negative digits (Nat.pow 10 exponent.natAbs)
  else ofRatio negative (digits * Nat.pow 10 exponent.natAbs) 1

/-- Zero. -/
def zero : Binary64 := .finite false 0 leastExponent

/-- The number nearest to an integer; none if that is infinite. -/
def ofInt? (n : Int) : Option Binary64 :=
  match ofScaled n 0 with
  | .finite negative mantissa exponent => some (.finite negative mantissa exponent)
  | .infinite _ | .undefined => none

/-! ## Arithmetic -/

/-- A mantissa with its sign. -/
def signed (negative : Bool) (mantissa : Nat) : Int := if negative then -(mantissa : Int) else mantissa

/-- The mantissa of a number that is written with a smaller exponent. -/
def shifted (negative : Bool) (mantissa : Nat) (exponent smaller : Int) : Int :=
  signed negative (mantissa * Nat.pow 2 (exponent - smaller).toNat)

/-- The sum of two numbers. -/
def add : Binary64 → Binary64 → Binary64
  | .undefined, _ | _, .undefined => .undefined
  | .infinite a, .infinite b => if a = b then .infinite a else .undefined
  | .infinite a, .finite .. | .finite .., .infinite a => .infinite a
  | .finite s m e, .finite t n f =>
    let low := min e f
    let sum := shifted s m e low + shifted t n f low
    if sum = 0 then .finite (s && t) 0 leastExponent else ofScaled sum low

/-- The product of two numbers. -/
def mul : Binary64 → Binary64 → Binary64
  | .undefined, _ | _, .undefined => .undefined
  | .infinite a, .infinite b => .infinite (a != b)
  | .infinite a, .finite b m _ | .finite b m _, .infinite a =>
    if m = 0 then .undefined else .infinite (a != b)
  | .finite s m e, .finite t n f =>
    let (num, den) := scaled (m * n) 1 (-(e + f))
    ofRatio (s != t) num den

/-- The number with the other sign. -/
def neg : Binary64 → Binary64
  | .finite negative mantissa exponent => .finite (!negative) mantissa exponent
  | .infinite negative => .infinite (!negative)
  | .undefined => .undefined

/-- Is the number zero? -/
def isZero : Binary64 → Bool
  | .finite _ mantissa _ => mantissa == 0
  | .infinite _ | .undefined => false

/-- How often one number goes into another, rounded down; none if that is
no number. An infinite number goes into a finite one no time at all, or into
one with the other sign minus one time. -/
def floorDiv? (a b : Binary64) : Option Int :=
  match a, b with
  | .finite s m e, .finite t n f =>
    let low := min e f
    if n = 0 then none else some (Int.fdiv (shifted s m e low) (shifted t n f low))
  | .finite s m _, .infinite t => some (if m ≠ 0 ∧ s ≠ t then -1 else 0)
  | _, _ => none

/-! ## Comparison -/

/-- Is one number at most another? -/
def le : Binary64 → Binary64 → Bool
  | .undefined, _ | _, .undefined => false
  | .infinite a, .infinite b => a || !b
  | .infinite a, .finite .. => a
  | .finite .., .infinite b => !b
  | .finite s m e, .finite t n f =>
    let low := min e f
    decide (shifted s m e low ≤ shifted t n f low)

/-- Is one number as large as another? -/
def sameAs (a b : Binary64) : Bool := a.le b && b.le a

/-- Is one number less than another? -/
def lt (a b : Binary64) : Bool := a.le b && !b.le a

/-- An integer as a pair of a mantissa and an exponent, whatever its
size. -/
def exact (n : Int) : Binary64 := .finite (decide (n < 0)) n.natAbs 0

/-- Is the number below one? What is no number is not. -/
def belowOne (a : Binary64) : Bool := a.lt (exact 1)

/-- A quotient of a number by itself is one. -/
theorem roundDiv_self {n : Nat} (h : 0 < n) : roundDiv n n = 1 := by
  unfold roundDiv
  simp [Nat.div_self h, h]

/-- A whole quotient stays as it is. -/
theorem roundDiv_mul {n d : Nat} (h : 0 < d) : roundDiv (n * d) d = n := by
  unfold roundDiv
  simp [Nat.mul_div_cancel n h, h]

end Binary64

end TaskList
