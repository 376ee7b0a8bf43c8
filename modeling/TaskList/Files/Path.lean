/-
TaskList.Files.Path — names of files.

* `Path` — the parts of a name between slashes. `Path.ofText` drops empty
  parts and single dots; `Path.text` puts the parts together again.
* `NameFault` — what keeps a text from being a name: a NUL, or halves of
  surrogate pairs that do not stand for bytes.
* `Home.expand` — a name with the home directory that it starts with
  spelled out: `~` is the user's own, `~name` is another user's.
-/
import TaskList.Text.Surrogate

namespace TaskList

/-! ## What no name may hold -/

/-- What keeps a text from being a name. -/
inductive NameFault where
  /-- A NUL. -/
  | nul
  /-- Halves of surrogate pairs. -/
  | halves (run : Surrogate.Run)
  deriving DecidableEq, Repr

/-- What is said of a text that is no name. -/
def NameFault.message : NameFault → String
  | .nul => "embedded null byte"
  | .halves run => run.message

/-- Does a half of a surrogate pair stand for a byte of a name? -/
def NameFault.isByte (code : Nat) : Bool := 0xDC80 ≤ code && code ≤ 0xDCFF

/-- What keeps a text from being a name, if anything does. -/
def NameFault.find? (t : Text) : Option NameFault :=
  match Surrogate.run? isByte 0 t with
  | some run => some (.halves run)
  | none => if t.contains '\x00' then some .nul else none

/-! ## Names in parts -/

/-- The name of a file, in parts. -/
structure Path where
  /-- The slashes in front of it: none, one, or exactly two. -/
  root : Text := []
  /-- The parts between slashes. -/
  parts : List Text := []
  deriving DecidableEq, Repr

namespace Path

/-- The slashes that count as the root of a name. -/
def rootOf (t : Text) : Text :=
  match (t.takeWhile (· == '/')).length with
  | 0 => []
  | 2 => ['/', '/']
  | _ => ['/']

/-- The name that a text spells. -/
def ofText (t : Text) : Path where
  root := rootOf t
  parts := (t.cut (· == '/')).filter fun part => !part.isEmpty && part != ['.']

/-- How the name is spelled; the empty one is a dot. -/
def text (p : Path) : Text :=
  if p.root.isEmpty && p.parts.isEmpty then ['.'] else p.root ++ Text.joined ['/'] p.parts

/-- A name inside the folder of a name. -/
def child (p : Path) (name : Text) : Path := { p with parts := p.parts ++ [name] }

/-- The folder of a name. -/
def parent (p : Path) : Path := { p with parts := p.parts.dropLast }

end Path

/-- The home directories of users. -/
structure Home where
  /-- The user's own. -/
  own : Text
  /-- Those of others, by name. -/
  others : List (Text × Text) := []

namespace Home

/-- The home directories in a list of accounts: one account on each line,
its name first and its home directory sixth between colons. -/
def ofAccounts (accounts : Text) : List (Text × Text) :=
  (accounts.cut (· == '\n')).filterMap fun line =>
    match line.cut (· == ':') with
    | name :: _ :: _ :: _ :: _ :: folder :: _ => some (name, folder)
    | _ => none

/-- A text without the slashes at its end. -/
def dropSlashes (t : Text) : Text := (t.reverse.dropWhile (· == '/')).reverse

/-- The home directory of a user; the empty name means the user's own. -/
def folder? (home : Home) (user : Text) : Option Text :=
  if user.isEmpty then some home.own else (home.others.find? (·.1 == user)).map (·.2)

/-- What is wrong with the name of the user whose home directory a name starts
with, if it starts with one. -/
def userFault? : Text → Option NameFault
  | '~' :: rest => NameFault.find? (rest.takeWhile (· != '/'))
  | _ => none

/-- The name with the home directory that it starts with spelled out. It
stays as it is if it starts with none, or with one that is not known. -/
def expand (home : Home) (t : Text) : Text :=
  match t with
  | '~' :: rest =>
    match home.folder? (rest.takeWhile (· != '/')) with
    | none => t
    | some folder =>
      match dropSlashes folder ++ rest.dropWhile (· != '/') with
      | [] => ['/']
      | expanded => expanded
  | _ => t

/-- The name with the home directory that it starts with spelled out; none
if that directory is not known. -/
def expandPath? (home : Home) (p : Path) : Option Path :=
  match p.root, p.parts with
  | [], first :: rest =>
    if first.head? = some '~' then
      let expanded := home.expand first
      if expanded.head? = some '~' then none
      else some { Path.ofText expanded with parts := (Path.ofText expanded).parts ++ rest }
    else some p
  | _, _ => some p

end Home

end TaskList
