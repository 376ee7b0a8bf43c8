/-
TaskList.Main — the program.

It reads the files that the command line looks at, lets `Command.run` say
what comes of it, and carries that out: the report and the complaints are
printed, and the files that changed are written. Style marks are left out of
what is printed, so everything can be shown.
-/
import Std.Time.Zoned
import TaskList.Command.Render
import TaskList.Command.Wanted

namespace TaskList

/-- The home directories: the user's own is in the environment, the others
are in the list of accounts. -/
def readHome : IO Home := do
  let own ← IO.getEnv "HOME"
  let accounts ← try IO.FS.readFile "/etc/passwd" catch _ => pure ""
  return ⟨(own.getD "").toList, Home.ofAccounts accounts.toList⟩

/-- The clock. -/
def readClock : IO Instant := do
  let now ← Std.Time.PlainDateTime.now
  let civil : Civil :=
    ⟨now.date.year.toInt.toNat, now.date.month.val.toNat, now.date.day.val.toNat⟩
  match Day.ofCivil? civil with
  | none => throw (IO.userError "the clock is outside the calendar")
  | some day =>
    return ⟨day, TimeOfDay.of? now.time.hour.val.toNat now.time.minute.val.toNat
      now.time.second.val.toNat⟩

/-- The number of the system's error for a folder that is read as a file. -/
def folderCode : UInt32 := 21

/-- The files together with what is found under a name. -/
def lookUpFile (files : FileTree) (path : Path) : IO FileTree := do
  try
    let text ← IO.FS.readFile (String.ofList path.text)
    return files.putAlong path (.file text.toList)
  catch
    | .noFileOrDirectory .. => return files
    | .inappropriateType _ code _ =>
      return if code == folderCode then files.putAlong path .folder else files
    | e => throw e

/-- Carries a command line out and gives the exit code. -/
def perform (words : List Text) : IO UInt32 := do
  let home ← readHome
  let now ← readClock
  let mut files : FileTree := {}
  if let some path := Command.settingsFile? home words then
    files ← lookUpFile files path
  if let some path := Command.taskFile? ⟨files, home, now, .plain⟩ words then
    files ← lookUpFile files path
  let outcome := Command.run ⟨files, home, now, .plain⟩ words
  for line in outcome.report do IO.println line
  for line in outcome.complaints do IO.eprintln line
  for (path, text) in outcome.changed files do
    IO.FS.writeFile (String.ofList path.text) (String.ofList text)
  return outcome.ending.code.toUInt32

end TaskList

def main (args : List String) : IO UInt32 := TaskList.perform (args.map String.toList)
