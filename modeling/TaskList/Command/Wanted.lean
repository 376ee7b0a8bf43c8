/-
TaskList.Command.Wanted — which files a command line looks at.

* `Command.settingsFile?` — the configuration document.
* `Command.taskFile?` — the task file, once the configuration document is
  known.

A command line looks at no other file, and writes to none but the task
file.
-/
import TaskList.Command.Run

namespace TaskList

/-- The task file that a request names; none if the request needs no task
file, and an empty name if it names none. -/
def Request.file? : Request → Option (Option Text)
  | .show file _ | .due file | .groups file _ | .reset file .. | .done file .. => some file
  | .check .. => none

namespace Command

/-- The configuration document that a command line looks at; none if it is
refused before that. -/
def settingsFile? (home : Home) (words : List Text) : Option Path :=
  match GlobalRequest.read words with
  | .error _ => none
  | .ok request => some ((configPath request.config).getD (Profile.usualPath home))

/-- The task file that a command line looks at, in a world that has its
configuration document. -/
def taskFile? (world : World) (words : List Text) : Option Path := do
  let request ← (GlobalRequest.read words).toOption
  let store : Store := { files := world.files }
  let profile ← (store.load world.home (configPath request.config)).1.toOption
  let file ← (← (Request.read request.command request.rest).toOption).file?
  world.home.expandPath? (.ofText (← (chosenFile profile file).toOption))

end Command

end TaskList
