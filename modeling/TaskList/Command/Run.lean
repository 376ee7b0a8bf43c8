/-
TaskList.Command.Run — a command line carried out on files at a moment.

* `World` — the files, the home directories, the clock and the terminal.
* `Outcome` — what is shown, the warnings, the files afterwards, and how it
  ended.
* `Errand` — the edits that a command carries out on the lines of a task file.
* `Command.run` — the outcome of a command line. A command line that asks
  for nothing there is ends before any setting is read; the settings are
  read before the words behind the command are looked at.

A command ends with `Ending.failed` where it tells the user what is wrong,
and with `Ending.crashed` where something goes wrong that it has no words
for. That the terminal does not show something is such a thing, whatever was
to be shown; what the command did before stays done.
-/
import TaskList.Action.Basic
import TaskList.Action.Reset
import TaskList.Command.Arguments
import TaskList.Command.Terminal
import TaskList.Settings.Reading
import TaskList.Settings.Store

namespace TaskList

/-- Where a command line is carried out. -/
structure World where
  /-- The files. -/
  files : FileTree
  /-- The home directories. -/
  home : Home
  /-- The clock. -/
  now : Instant
  /-- The terminal. -/
  terminal : Terminal

/-- Something that a command has no words for. -/
inductive Crash where
  | file (cause : FileError)
  | settings (cause : SettingsError)
  | noHome
  | calendar (cause : ShiftError)
  | tooLong (cause : Numeral.TooLong)
  | reading (cause : ReadingError)
  | outline (cause : OutlineError)
  | edit (cause : EditError)
  /-- A text that is to be written has no bytes. -/
  | noBytes (run : Surrogate.Run)
  /-- Something cannot be shown. -/
  | display (cause : DisplayFault)
  deriving Repr

/-- How a command ended. -/
inductive Ending where
  | done
  | failed
  | crashed (cause : Crash)
  | refused (refusal : Refusal)
  deriving Repr

/-- The exit code of an ending. -/
def Ending.code : Ending → Nat
  | .done => 0
  | .failed => 1
  | .crashed _ => 1
  | .refused .usage => 2
  | .refused .help => 0
  | .refused (.badName _) => 1

/-- What a command line led to. -/
structure Outcome where
  /-- How it ended. -/
  ending : Ending
  /-- What was shown. -/
  shown : List Display := []
  /-- The warnings. -/
  warnings : List Warning := []
  /-- The files afterwards. -/
  files : FileTree

namespace Command

/-! ## Steps that may end a command -/

/-- Why a command stops early: it failed, with words for the user, or it
crashed, perhaps after it had shown something or touched the files. -/
inductive Stop where
  | failed (words : Text)
  | crashed (cause : Crash) (shown : List Display := []) (files : Option FileTree := none)

/-- A step of a command. -/
abbrev Step := Except Stop

/-- A step that can crash. -/
def orCrash {ε α : Type} (cause : ε → Crash) : Except ε α → Step α
  | .ok a => .ok a
  | .error e => .error (.crashed (cause e))

/-- The words of a failed command. -/
def failure (words : Text) : Display := .line (styled "red" ('❌' :: ' ' :: words))

/-- The step that shows some displays, behind what was shown before and with
the files as they are by then. -/
def tell (terminal : Terminal) (before : List Display × FileTree) (displays : List Display) :
    Step (List Display × FileTree) :=
  match terminal.upToFault displays with
  | (shown, none) => .ok (before.1 ++ shown, before.2)
  | (shown, some fault) => .error (.crashed (.display fault) (before.1 ++ shown) (some before.2))

/-- The outcome of a command that shows something and may change the
files. -/
def Step.outcome (world : World) (step : Step (List Display × FileTree)) : Outcome :=
  match step with
  | .ok (shown, files) => { ending := .done, shown, files }
  | .error (.failed words) =>
    match world.terminal.fault? (failure words) with
    | none => { ending := .failed, shown := [failure words], files := world.files }
    | some fault => { ending := .crashed (.display fault), files := world.files }
  | .error (.crashed cause shown files) =>
    { ending := .crashed cause, shown, files := files.getD world.files }

/-! ## Documents -/

/-- The name of the file to work on: the one named, or else the default
one. An empty name names none. -/
def chosenFile (profile : Profile) : Option Text → Step Text
  | some (c :: rest) => .ok (c :: rest)
  | _ =>
    if Profile.isMark profile.defaultFile then .ok profile.settings.defaultFile
    else .error (.crashed (.settings .bytesAsPath))

/-- The file to work on. -/
def resolve (world : World) (profile : Profile) (file : Option Text) : Step Path := do
  let name ← chosenFile profile file
  if name.isEmpty then
    .error (.failed "No task file given and no default_file configured".toList)
  else match Home.userFault? (Path.ofText name).text with
    | some fault => .error (.crashed (.file (.badName fault)))
    | none =>
      match world.home.expandPath? (.ofText name) with
      | none => .error (.crashed .noHome)
      | some path =>
        match world.files.has path with
        | .ok true => .ok path
        | .ok false => .error (.failed ("Task file not found: ".toList ++ path.text))
        | .error e => .error (.crashed (.file e))

/-- The lines of a file. -/
def readLines (world : World) (path : Path) : Step (List Text) :=
  match world.files.read path with
  | .ok text => .ok text.unifyBreaks.lines
  | .error e => .error (.crashed (.file e))

/-- The document of some lines. -/
def readDocument (world : World) (profile : Profile) (lines : List Text) : Step Document :=
  orCrash .reading (profile.readDocument none world.now.day (Document.number lines))

/-- The document of a file. -/
def loadDocument (world : World) (profile : Profile) (file : Option Text) : Step Document := do
  readDocument world profile (← readLines world (← resolve world profile file))

/-! ## Commands -/

/-- The edits to carry out on the lines of a task file. -/
structure Errand where
  /-- The name of the file. -/
  path : Path
  /-- Its lines. -/
  lines : List Text
  /-- The edits. -/
  edits : List Edit

/-- The words for a date that is none. -/
def badDate : Text := "Invalid date format. Use YYYY-MM-DD".toList

/-- What there is to do for a new cycle of recurring tasks. -/
def resetErrand (world : World) (profile : Profile) (file : Option Text) (lastVisit : Text) :
    Step Errand := do
  let path ← resolve world profile file
  let some visit := Day.parse? lastVisit | .error (.failed badDate)
  let lines ← readLines world path
  let document ← readDocument world profile lines
  return ⟨path, lines,
    resetEdits (document.outline.nodes.map (·.task)) ⟨visit, some .midnight⟩ world.now⟩

/-- What there is to do for a task that is completed, reopened or counted
up. -/
def finishErrand (world : World) (profile : Profile) (file : Option Text) (line : Int) :
    Step Errand := do
  let path ← resolve world profile file
  let lines ← readLines world path
  let document ← readDocument world profile lines
  let some node := document.outline.get? (line - 1)
    | .error (.failed ("No task on line ".toList ++ Numeral.ofInt line))
  return ⟨path, lines, node.task.advance profile.settings world.now⟩

/-- The first halves of surrogate pairs in the text that an errand writes. They
come with its edits: no file holds any. -/
def Errand.halves? (errand : Errand) (text : Text) : Option Surrogate.Run :=
  if errand.edits.any fun e => (Surrogate.run? (fun _ => false) 0 e.text).isSome then
    Surrogate.run? (fun _ => false) 0 text
  else none

/-- The files with an errand done, or why it could not be done and the files
then. The file is empty before its text turns out to have no bytes. -/
def Errand.write (errand : Errand) (world : World) (profile : Profile) :
    Except (Crash × FileTree) FileTree :=
  match profile.applyEdits errand.lines errand.edits with
  | .error e => .error (.edit e, world.files)
  | .ok changed =>
    let text := Text.ofLines changed
    let halves := errand.halves? text
    match world.files.write errand.path (if halves.isNone then text else []) with
    | .error e => .error (.file e, world.files)
    | .ok files =>
      match halves with
      | none => .ok files
      | some run => .error (.noBytes run, files)

/-- The line that an edit is shown in. -/
def displayEdit (profile : Profile) (e : Edit) : Display := .ofEdit e (profile.shownText e)

/-- Show the edits of an errand, and do it, unless there is nothing to do or it
is only a dry run. It is not done before all its edits are shown. -/
def Errand.perform (errand : Errand) (world : World) (profile : Profile) (dryRun : Bool) :
    Step (List Display × FileTree) := do
  let (shown, files) ← tell world.terminal ([], world.files) (errand.edits.map (displayEdit profile))
  if dryRun || errand.edits.isEmpty then return (shown, files)
  match errand.write world profile with
  | .ok files => return (shown, files)
  | .error (cause, files) => .error (.crashed cause shown (some files))

/-- The line that says how many edits there are. -/
def Errand.summary (errand : Errand) (dryRun : Bool) : Display :=
  let dry : Text := if dryRun then " (dry run)".toList else []
  .line (styled "green" ('✅' :: ' ' :: Numeral.ofNat errand.edits.length ++ " edits".toList ++ dry))

/-- Start a new cycle of recurring tasks. -/
def reset (world : World) (profile : Profile) (file : Option Text) (lastVisit : Text)
    (dryRun : Bool) : Step (List Display × FileTree) := do
  let errand ← resetErrand world profile file lastVisit
  if errand.edits.isEmpty then
    tell world.terminal ([], world.files) [.note "green" "Nothing to reset."]
  else
    let done ← errand.perform world profile dryRun
    tell world.terminal done [errand.summary dryRun]

/-- Complete, reopen or count up a task. -/
def finish (world : World) (profile : Profile) (file : Option Text) (line : Int)
    (dryRun : Bool) : Step (List Display × FileTree) := do
  (← finishErrand world profile file line).perform world profile dryRun

/-- What a due expression means on a day, and how that ends: the search for
the next due day can leave the calendar. -/
def checkOn (expression : Due.Expression) (day : Day) : List Display × Ending :=
  let state := expression.stateOn day
  let shown : List Display :=
    [.line (styled state.style state.label ++ " on ".toList ++ day.padded)] ++
    (if expression.isRecurring then [.note "dim" "recurring"] else []) ++
    (if expression.isRange then [.note "dim" "range"] else [])
  match expression.nextDue day with
  | .ok none => (shown, .done)
  | .ok (some next) => (shown ++ [.line ("next due: ".toList ++ next.padded)], .done)
  | .error e => (shown, .crashed (.calendar e))

/-- The day that is asked about: the one named, or else today. -/
def dayAsked (world : World) : Option Text → Step Day
  | some (c :: rest) =>
    match Day.parse? (c :: rest) with
    | some day => .ok day
    | none => .error (.failed badDate)
  | _ => .ok world.now.day

/-- Say what a due expression means on a day. -/
def check (world : World) (text : Text) (date : Option Text) : Outcome :=
  let asked : Step (Due.Expression × Day) := do
    let day ← dayAsked world date
    return (← orCrash .tooLong (Due.Expression.read text), day)
  match asked with
  | .ok (expression, day) =>
    let (displays, ending) := checkOn expression day
    match world.terminal.upToFault displays with
    | (shown, none) => { ending, shown, files := world.files }
    | (shown, some fault) => { ending := .crashed (.display fault), shown, files := world.files }
  | .error stop => Step.outcome world (.error stop)

/-- A view of the document of a file. -/
def view (world : World) (profile : Profile) (file : Option Text)
    (display : Outline → Except OutlineError Display) : Outcome :=
  Step.outcome world do
    let document ← loadDocument world profile file
    tell world.terminal ([], world.files) [← orCrash .outline (display document.outline)]

/-- The order of a kind of groups. -/
def orderOf (profile : Profile) : Group → GroupOrder
  | .tag => profile.tagOrder
  | .project => profile.projectOrder
  | .context => profile.contextOrder

/-- The outcome of a request. -/
def perform (world : World) (profile : Profile) : Request → Outcome
  | .show file withHidden =>
    view world profile file fun outline => Display.ofOutline outline withHidden
  | .due file => view world profile file fun outline => .ok (Display.ofDueList outline)
  | .groups file group =>
    view world profile file fun outline =>
      .ok (Display.ofGroups outline group (orderOf profile group))
  | .check expression date => check world expression date
  | .reset file lastVisit dryRun =>
    Step.outcome world (reset world profile file lastVisit dryRun)
  | .done file line dryRun => Step.outcome world (finish world profile file line dryRun)

/-- The configuration document that is named; an empty name names none. -/
def configPath : Option Text → Option Path
  | some (c :: rest) => some (.ofText (c :: rest))
  | _ => none

/-- The outcome of a command line. -/
def run (world : World) (words : List Text) : Outcome :=
  match GlobalRequest.read words with
  | .error refusal => { ending := .refused refusal, files := world.files }
  | .ok request =>
    match Store.load world.home { files := world.files } (configPath request.config) with
    | (.error e, _, warnings) =>
      { ending := .crashed (.settings e), warnings, files := world.files }
    | (.ok profile, _, warnings) =>
      match Request.read request.command request.rest with
      | .error refusal => { ending := .refused refusal, warnings, files := world.files }
      | .ok request => { perform world profile request with warnings }

end Command

end TaskList
