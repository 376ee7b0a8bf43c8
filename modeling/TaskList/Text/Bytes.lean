/-
TaskList.Text.Bytes — bytes, and how they are written as text.

* `Bytes` — bytes in order.
* `Bytes.ofBase64?` — the bytes that a text denotes, four of its digits for
  three of them. What is no digit is passed over, and so is all that follows
  the filled-up last group; a group that is not filled up denotes nothing.
* `Bytes.base64` — such a text for bytes.
* `Bytes.quoted` — bytes as a quoted literal, for messages.
-/
import TaskList.Text.Quoted

namespace TaskList

/-- Bytes in order. -/
abbrev Bytes := List UInt8

namespace Bytes

/-! ## Base 64 -/

/-- The value of a digit in base 64. -/
def sextet? (c : Char) : Option Nat :=
  if 'A' ≤ c && c ≤ 'Z' then some (c.toNat - 65)
  else if 'a' ≤ c && c ≤ 'z' then some (c.toNat - 71)
  else if '0' ≤ c && c ≤ '9' then some (c.toNat + 4)
  else if c == '+' then some 62
  else if c == '/' then some 63
  else none

/-- The bytes that the rest of a text denotes. `place` is the number of
digits in the group so far, `bits` what the last of them leaves for the next
byte, and `fillers` the number of equals signs just before. -/
def groups? (place bits fillers : Nat) : Text → Option Bytes
  | [] => if place = 0 then some [] else none
  | c :: rest =>
    if c == '=' then
      if place < 2 then groups? place bits fillers rest
      else if 4 ≤ place + (fillers + 1) then some []
      else groups? place bits (fillers + 1) rest
    else match sextet? c with
      | none => groups? place bits fillers rest
      | some n =>
        match place with
        | 0 => groups? 1 n 0 rest
        | 1 => (groups? 2 (n % 16) 0 rest).map (UInt8.ofNat (4 * bits + n / 16) :: ·)
        | 2 => (groups? 3 (n % 4) 0 rest).map (UInt8.ofNat (16 * bits + n / 4) :: ·)
        | _ => (groups? 0 0 0 rest).map (UInt8.ofNat (64 * bits + n) :: ·)

/-- The bytes that a text denotes in base 64. There is nothing but ASCII in
such a text. -/
def ofBase64? (t : Text) : Option Bytes :=
  if t.all fun c => c.toNat < 0x80 then groups? 0 0 0 t else none

/-- The digit with a value in base 64. -/
def digit (n : Nat) : Char :=
  if n < 26 then Char.ofNat (n + 65)
  else if n < 52 then Char.ofNat (n + 71)
  else if n < 62 then Char.ofNat (n - 4)
  else if n = 62 then '+' else '/'

/-- Bytes in base 64, the last group filled up with equals signs. -/
def base64 : Bytes → Text
  | a :: b :: c :: rest =>
    digit (a.toNat / 4) :: digit (16 * (a.toNat % 4) + b.toNat / 16) ::
      digit (4 * (b.toNat % 16) + c.toNat / 64) :: digit (c.toNat % 64) :: base64 rest
  | [a, b] =>
    [digit (a.toNat / 4), digit (16 * (a.toNat % 4) + b.toNat / 16), digit (4 * (b.toNat % 16)),
      '=']
  | [a] => [digit (a.toNat / 4), digit (16 * (a.toNat % 4)), '=', '=']
  | [] => []

/-! ## Literals -/

/-- One byte between quotes of the given kind. -/
def escape (quote : Char) (b : UInt8) : Text :=
  if b < 0x80 then Quoted.escape quote (Char.ofNat b.toNat)
  else '\\' :: 'x' :: Numeral.hex 2 b.toNat

/-- Bytes as a quoted literal. -/
def quoted (bytes : Bytes) : Text :=
  let single : UInt8 := 0x27
  let double : UInt8 := 0x22
  let quote := if bytes.contains single && !bytes.contains double then '"' else '\''
  'b' :: quote :: bytes.flatMap (escape quote) ++ [quote]

end Bytes

end TaskList
