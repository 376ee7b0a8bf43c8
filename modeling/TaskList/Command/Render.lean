/-
TaskList.Command.Render — what is shown, as lines of plain text.

* `Style.strip` — a text without its style marks.
* `Display.lines` — the lines of something shown. A tree is indented by two
  columns for each level; the columns of a table are as wide as their widest
  cell.
* `Refusal.words`, `Crash.words` — what is said when a command line is not
  carried out, or cannot be carried on.
-/
import TaskList.Command.Run

namespace TaskList

/-! ## Style marks -/

namespace Style

/-- The names of the styles. -/
def names : List String :=
  ["blue", "bold", "cyan", "dim", "green", "magenta", "red", "strike", "yellow"]

/-- The marks that open and close styles. -/
def marks : List Text :=
  names.flatMap fun name => ['[' :: name.toList ++ [']'], '[' :: '/' :: name.toList ++ [']']]

/-- The text from a column on without style marks; the first `skip`
characters belong to a mark. -/
def stripFrom (skip : Nat) : Text → Text
  | [] => []
  | c :: rest =>
    match skip with
    | skip + 1 => stripFrom skip rest
    | 0 =>
      match marks.find? (·.isPrefixOf (c :: rest)) with
      | some mark => stripFrom (mark.length - 1) rest
      | none => c :: stripFrom 0 rest

/-- The text without style marks. -/
def strip (t : Text) : Text := stripFrom 0 t

end Style

/-! ## Lines -/

mutual

/-- The lines of a tree, `level` levels deep. -/
def LabelTree.lines (level : Nat) : LabelTree → List Text
  | .node label children =>
    (List.replicate (2 * level) ' ' ++ Style.strip label) :: LabelTree.allLines (level + 1) children

/-- The lines of some trees. -/
def LabelTree.allLines (level : Nat) : List LabelTree → List Text
  | [] => []
  | tree :: rest => tree.lines level ++ LabelTree.allLines level rest

end

namespace Display

/-- The larger of two widths at each place. -/
def widest : List Nat → List Nat → List Nat
  | a :: as, b :: bs => max a b :: widest as bs
  | [], bs => bs
  | as, [] => as

/-- The width of each column of a table. -/
def widths (rows : List (List Text)) : List Nat :=
  rows.foldl (fun done row => widest done (row.map List.length)) []

/-- One row of a table, two spaces between its cells. -/
def rowLine (columns : List Nat) (row : List Text) : Text :=
  Text.trimEnd (Text.joined [' ', ' ']
    (row.zipWith (fun cell width => List.rightpad width ' ' cell) columns))

/-- The lines of something shown. -/
def lines : Display → List Text
  | .line t => [Style.strip t]
  | .tree root => root.lines 0
  | .table title columns rows =>
    let cells := columns :: rows.map (·.map Style.strip)
    Style.strip title :: cells.map (rowLine (widths cells))

end Display

/-! ## Failures -/

/-- What is said when a command line is not carried out. -/
def Refusal.words : Refusal → List String
  | .usage => ["This is no command line of tasklist. Try tasklist --help."]
  | .help =>
    ["tasklist [--config FILE] [--verbose] COMMAND",
     "  show [FILE] [--all]                             the tree of tasks",
     "  due [FILE]                                      what is due today",
     "  groups [FILE] [-k tag|project|context]          the size of each group",
     "  check EXPRESSION [-d DATE]                      what an expression means",
     "  reset [FILE] -l DATE [--dry-run]                a new cycle of recurring tasks",
     "  done [FILE] -n LINE [--dry-run]                 complete, reopen or count up"]
  | .badName fault => [fault.message]

/-- What is said when a command line cannot be carried on. -/
def Crash.words : Crash → String
  | .file cause => cause.message
  | .settings cause => cause.message
  | .noHome => "Could not determine home directory."
  | .calendar cause => cause.message
  | .tooLong cause => cause.message
  | .reading cause => cause.message
  | .outline cause => cause.message
  | .edit cause => cause.message
  | .noBytes run => run.message
  | .display cause => cause.message

namespace Outcome

/-- What is said on standard error. -/
def complaints (o : Outcome) : List String :=
  o.warnings.map Warning.message ++
    match o.ending with
    | .crashed cause => [cause.words]
    | .refused .usage => Refusal.usage.words
    | .refused (.badName fault) => (Refusal.badName fault).words
    | .refused .help | .done | .failed => []

/-- What is written to standard output. -/
def report (o : Outcome) : List String :=
  (o.shown.flatMap Display.lines).map String.ofList ++
    match o.ending with
    | .refused .help => Refusal.help.words
    | .refused .usage | .refused (.badName _) | .crashed _ | .done | .failed => []

/-- The files that are not as they were. -/
def changed (o : Outcome) (before : FileTree) : List (Path × Text) :=
  o.files.files.filter fun file => !before.files.contains file

end Outcome

end TaskList
