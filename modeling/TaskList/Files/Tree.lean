/-
TaskList.Files.Tree — the files that a program works on, as a value.

* `FileTree` — files and folders by name. The names start at the folder
  where the program runs.
* `FileTree.find` — what there is under a name. The parts of the name are
  followed one after the other, and a part behind a folder that is missing
  is not looked at.
* `FileTree.read`, `FileTree.write`, `FileTree.makeFolders` — what the
  program does with them, and the `FileError` when it cannot be done.
-/
import TaskList.Files.Path
import TaskList.Text.Quoted

namespace TaskList

/-- A file with its text, or a folder. -/
inductive FileEntry where
  | file (text : Text)
  | folder
  deriving DecidableEq, Repr

/-- Files and folders by name. -/
structure FileTree where
  /-- The entries. A folder that some entry lies in need not be one
  itself. -/
  entries : List (Path × FileEntry) := []
  deriving DecidableEq, Repr

/-- Why something cannot be done with a file. -/
inductive FileError where
  /-- There is nothing under the name. -/
  | missing (path : Path)
  /-- There is a folder under the name. -/
  | isFolder (path : Path)
  /-- The name leads into a file. -/
  | inFile (path : Path)
  /-- There is something under the name already. -/
  | present (path : Path)
  /-- The name, or a part of it, has too many bytes. -/
  | tooLong (path : Path)
  /-- The name has a character that no name may have. -/
  | badName (fault : NameFault)
  deriving DecidableEq, Repr

namespace FileError

/-- What is said when something cannot be done with a file. -/
def message : FileError → String
  | .missing path => s!"[Errno 2] No such file or directory: {String.ofList path.text.quoted}"
  | .isFolder path => s!"[Errno 21] Is a directory: {String.ofList path.text.quoted}"
  | .inFile path => s!"[Errno 20] Not a directory: {String.ofList path.text.quoted}"
  | .present path => s!"[Errno 17] File exists: {String.ofList path.text.quoted}"
  | .tooLong path => s!"[Errno 36] File name too long: {String.ofList path.text.quoted}"
  | .badName fault => fault.message

/-- Is it the name itself that is wrong? -/
def isBadName : FileError → Bool
  | .badName _ => true
  | _ => false

end FileError

namespace FileTree

/-! ## Names -/

/-- The most bytes of a name. -/
def nameLimit : Nat := 4095

/-- The most bytes of one part of a name. -/
def partLimit : Nat := 255

/-- The bytes of a text. -/
def byteCount (t : Text) : Nat := (String.ofList t).utf8ByteSize

/-- A pair of dots, which stands for the folder that holds a folder. -/
def up : Text := ['.', '.']

/-- The parts of a name, the last one first, with a further part. A pair of
dots takes the part before it away; at the root it stands for the root. -/
def addPart (root : Text) (done : List Text) (part : Text) : List Text :=
  if part != up then part :: done
  else match done with
    | [] => if root.isEmpty then [up] else []
    | last :: rest => if last == up then up :: done else rest

/-- The name under which an entry is kept: no pair of dots follows another
part. -/
def key (p : Path) : Path := { p with parts := (p.parts.foldl (addPart p.root) []).reverse }

/-- What there is under a name without pairs of dots in it. Whatever holds
an entry is a folder, and so are the folder where the program runs and those
that hold it. -/
def entryAt? (tree : FileTree) (k : Path) : Option FileEntry :=
  match tree.entries.find? (·.1 == k) with
  | some entry => some entry.2
  | none =>
    if k.parts.all (· == up) ||
        tree.entries.any fun e => e.1.root == k.root && k.parts.isPrefixOf e.1.parts then
      some .folder
    else none

/-- The tree with an entry put under a name. -/
def put (tree : FileTree) (p : Path) (entry : FileEntry) : FileTree :=
  let k := key p
  if tree.entries.any (·.1 == k) then
    { entries := tree.entries.map fun e => if e.1 == k then (k, entry) else e }
  else { entries := tree.entries ++ [(k, entry)] }

/-- The tree with an entry put under a name, and a folder under each name on
the way to it. -/
def putAlong (tree : FileTree) (p : Path) (entry : FileEntry) : FileTree :=
  let way := (List.range p.parts.length).map fun n => { p with parts := p.parts.take n }
  (way.foldl (fun tree folder => tree.put folder .folder) tree).put p entry

/-! ## Looking up -/

/-- What there is under a name `p`, of which the parts up to `done` are
behind and some are still to come. Every part but the last must lead to a
folder. -/
def walk (tree : FileTree) (p done : Path) : List Text → Except FileError FileEntry
  | [] =>
    match tree.entryAt? (key done) with
    | some entry => .ok entry
    | none => .error (.missing p)
  | part :: rest =>
    match tree.entryAt? (key done) with
    | none => .error (.missing p)
    | some (.file _) => .error (.inFile p)
    | some .folder =>
      if partLimit < byteCount part then .error (.tooLong p)
      else walk tree p (done.child part) rest

/-- What there is under a name. -/
def find (tree : FileTree) (p : Path) : Except FileError FileEntry :=
  if let some fault := NameFault.find? p.text then .error (.badName fault)
  else if nameLimit < byteCount p.text then .error (.tooLong p)
  else tree.walk p { p with parts := [] } p.parts

/-- Is there anything under a name? A name that is too long leads nowhere,
but that is an error. -/
def has (tree : FileTree) (p : Path) : Except FileError Bool :=
  match tree.find p with
  | .ok _ => .ok true
  | .error (.tooLong p) => .error (.tooLong p)
  | .error _ => .ok false

/-- Is there a folder under a name? -/
def hasFolder (tree : FileTree) (p : Path) : Bool :=
  match tree.find p with
  | .ok .folder => true
  | _ => false

/-! ## Reading and writing -/

/-- The text of a file. -/
def read (tree : FileTree) (p : Path) : Except FileError Text :=
  match tree.find p with
  | .ok (.file text) => .ok text
  | .ok .folder => .error (.isFolder p)
  | .error e => .error e

/-- The tree with an entry put under a name under which there is nothing
yet. The folder that it lies in must be there. -/
def create (tree : FileTree) (p : Path) (entry : FileEntry) : Except FileError FileTree :=
  if tree.hasFolder p.parent then .ok (tree.put p entry) else .error (.missing p)

/-- The tree with a text written to a file. -/
def write (tree : FileTree) (p : Path) (text : Text) : Except FileError FileTree :=
  match tree.find p with
  | .ok (.file _) => .ok (tree.put p (.file text))
  | .ok .folder => .error (.isFolder p)
  | .error (.missing _) => tree.create p (.file text)
  | .error e => .error e

/-- The tree with a new folder. -/
def makeFolder (tree : FileTree) (p : Path) : Except FileError FileTree :=
  match tree.find p with
  | .ok _ => .error (.present p)
  | .error (.missing _) => tree.create p .folder
  | .error e => .error e

/-- What comes of a new folder that need not be new. -/
def settle (tree : FileTree) (p : Path) : Except FileError FileTree → FileTree × Except FileError Unit
  | .ok changed => (changed, .ok ())
  | .error e => (tree, if !e.isBadName && tree.hasFolder p then .ok () else .error e)

/-- The tree with a folder whose parts are given backwards, and all folders
that it lies in; those that could be made stay even if the next one cannot
be. -/
def makeFoldersFrom (tree : FileTree) (root : Text) :
    List Text → FileTree × Except FileError Unit
  | [] => tree.settle ⟨root, []⟩ (tree.makeFolder ⟨root, []⟩)
  | part :: before =>
    let p : Path := ⟨root, (part :: before).reverse⟩
    match tree.makeFolder p with
    | .error (.missing _) =>
      match makeFoldersFrom tree root before with
      | (changed, .ok ()) => changed.settle p (changed.makeFolder p)
      | (changed, .error e) => (changed, .error e)
    | made => tree.settle p made

/-- The tree with a folder, and all folders that it lies in. -/
def makeFolders (tree : FileTree) (p : Path) : FileTree × Except FileError Unit :=
  tree.makeFoldersFrom p.root p.parts.reverse

/-- The files with their texts. -/
def files (tree : FileTree) : List (Path × Text) :=
  tree.entries.filterMap fun e =>
    match e.2 with
    | .file text => some (e.1, text)
    | .folder => none

end FileTree

end TaskList
