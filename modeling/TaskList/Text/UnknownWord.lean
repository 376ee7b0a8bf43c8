/-
TaskList.Text.UnknownWord — a word that stands for none of the things it
could stand for.
-/
import TaskList.Text.Quoted

namespace TaskList

/-- A word that stands for none of the things it could stand for. -/
structure UnknownWord where
  /-- The word. -/
  word : Text
  /-- What it should have stood for. -/
  kind : String
  deriving DecidableEq, Repr

/-- What is said of such a word. -/
def UnknownWord.message (e : UnknownWord) : String :=
  s!"{String.ofList e.word.quoted} is not a valid {e.kind}"

/-- What a word stands for, given how words are looked up. -/
def lookUp {α : Type} (ofName? : String → Option α) (kind : String) (word : String) :
    Except UnknownWord α :=
  match ofName? word with
  | some found => .ok found
  | none => .error ⟨word.toList, kind⟩

end TaskList
