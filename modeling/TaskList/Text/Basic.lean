/-
TaskList.Text.Basic — text as a list of characters, and how it is cut.

* `Text` — a line, a title, a name or a tag value. Columns count its
  characters, so a column is a position in the list.
* `Text.cut` — the pieces between separator characters;
  `Text.cutAtDots` — the pieces between pairs of dots.
* `Text.joined` — the pieces put together again, one separator between
  each two. `joined_cut` says that cutting loses nothing but separators.
-/

namespace TaskList

/-- A piece of text: its characters in order. -/
abbrev Text := List Char

namespace Text

/-! ## Cutting at separators -/

/-- The pieces of a text between the characters that satisfy `sep`. Two
separators in a row have an empty piece between them, so there is always
one piece more than there are separators. -/
def cut (sep : Char → Bool) : Text → List Text
  | [] => [[]]
  | c :: rest => if sep c then [] :: cut sep rest else (cut sep rest).modifyHead (c :: ·)

/-- The pieces of a text between pairs of dots, the leftmost pair taken
first. -/
def cutAtDots : Text → List Text
  | '.' :: '.' :: rest => [] :: cutAtDots rest
  | c :: rest => (cutAtDots rest).modifyHead (c :: ·)
  | [] => [[]]

/-- The pieces in one text, with `sep` between each two. -/
def joined (sep : Text) : List Text → Text
  | [] => []
  | [piece] => piece
  | piece :: rest => piece ++ sep ++ joined sep rest

theorem cut_ne_nil (sep : Char → Bool) (t : Text) : cut sep t ≠ [] := by
  induction t with
  | nil => simp [cut]
  | cons c rest ih =>
    unfold cut
    split
    · simp
    · cases h : cut sep rest with
      | nil => exact absurd h ih
      | cons piece pieces => simp

/-- Cutting at one character and joining with it gives the text back. -/
theorem joined_cut (s : Char) (t : Text) : joined [s] (cut (· == s) t) = t := by
  induction t with
  | nil => rfl
  | cons c rest ih =>
    cases h : cut (· == s) rest with
    | nil => exact absurd h (cut_ne_nil _ rest)
    | cons piece pieces =>
      rw [h] at ih
      by_cases hc : c = s
      · simp [cut, hc, h, joined, ih]
      · cases pieces <;> simp_all [cut, joined]

/-! ## Ends and columns -/

/-- The text without one line feed at its very end. -/
def chomp (t : Text) : Text := if t.getLast? = some '\n' then t.dropLast else t

/-- The characters from column `start` up to, not including, `stop`. -/
def slice (start stop : Nat) (t : Text) : Text := (t.take stop).drop start

end Text

end TaskList
