/-
TaskList.Settings.Store — the settings in use, and the documents that they
are kept in.

* `Profile.ofDocument` — the profile of a configuration document.
* `Store` — the files and the profile in use, if there is one.
* `Store.load` — the profile of a document, which becomes the one in use.
  Without a name the one in use is given again, or the usual document is
  read if there is none. A document that cannot be used is replaced by the
  usual settings with a warning, save for the causes that are not
  `isForgiven`.
* `Store.get`, `Store.save`, `Store.reset` — the profile in use, a document
  written, and the profile in use forgotten.
-/
import TaskList.Settings.Profile
import TaskList.Text.LineBreak
import TaskList.Yaml.Read

namespace TaskList

open Yaml (Value)

/-! ## The names in a document -/

namespace Profile

/-- The values that stand for names in a document: the keys of a mapping, the
members of a set, the items of a list, the characters of a text, and the
numbers of bytes. -/
def namesIn : Value → Except SettingsError (List Value)
  | .map entries => .ok (entries.map (·.1))
  | .text t => .ok (t.map fun c => .text [c])
  | .bytes b => .ok (b.map fun byte => .int byte.toNat)
  | .set members => .ok members
  | .list items =>
    match items.findSome? (·.unhashable?) with
    | some kind => .error (.notName kind)
    | none => .ok items
  | value => .error (.noNames value.kind)

/-- The values, each once. -/
def distinct (values : List Value) : List Value :=
  (values.foldl (fun seen v => if seen.any (·.sameKey v) then seen else v :: seen) []).reverse

/-- Is the value the name of a setting? -/
def isKnown : Value → Bool
  | .text t => isName t
  | _ => false

/-- Why the first two neighbours that have no order have none. -/
def clash? : List Value → Option Yaml.Clash
  | a :: b :: rest => (b.clash? a).or (clash? (b :: rest))
  | _ => none

/-- The texts among values that must all be texts. -/
def allTexts (index : Nat) : List Value → Except SettingsError (List Text)
  | [] => .ok []
  | .text t :: rest =>
    match allTexts (index + 1) rest with
    | .ok more => .ok (t :: more)
    | .error e => .error e
  | value :: _ => .error (.notText index value.kind)

/-- The order in which values are compared: numbers first. -/
def numbersFirst (values : List Value) : List Value :=
  values.filter (·.kind.isNumber) ++ values.filter fun v => !v.kind.isNumber

/-- The warning about names that are no settings. -/
def unknownWarning (names : List Value) : Except SettingsError (List Warning) :=
  let unknown := (distinct names).filter fun v => !isKnown v
  match clash? (numbersFirst unknown) with
  | some cause => .error (.noOrder cause)
  | none =>
    match allTexts 0 (unknown.mergeSort Value.precedes) with
    | .error e => .error e
    | .ok [] => .ok []
    | .ok names => .ok [.unknownNames names]

/-- The entries of a mapping that are settings. -/
def knownEntries (entries : List (Value × Value)) : List (Text × Value) :=
  entries.filterMap fun e =>
    match e.1 with
    | .text t => if isName t then some (t, e.2) else none
    | _ => none

/-- The profile of the value of a document, with the warnings up to where
it fails. -/
def ofValue (home : Home) (value : Value) : Except SettingsError Profile × List Warning :=
  if !value.isTrue then (.ok (usual home), [])
  else
    match (namesIn value).bind unknownWarning with
    | .error e => (.error e, [])
    | .ok first =>
      match value with
      | .map entries =>
        match make home (knownEntries entries) with
        | .error e => (.error e, first)
        | .ok (profile, more) => (.ok profile, first ++ more)
      | other => (.error (.noValues other.kind), first)

/-- The profile of a configuration document, with the warnings up to where
it fails. -/
def ofDocument (home : Home) (document : Text) : Except SettingsError Profile × List Warning :=
  match Yaml.read document with
  | .error e => (.error (.unreadable e), [])
  | .ok value => ofValue home value

end Profile

/-- Are the usual settings used instead? A word with a shape but without a
value is not forgiven, nor is a name that there cannot be. -/
def SettingsError.isForgiven : SettingsError → Bool
  | .noValues _ => false
  | .unreadable cause => cause == .malformed || cause == .mappedDate
  | .file cause => !cause.isBadName
  | _ => true

/-! ## The settings in use -/

/-- The files and the profile in use. -/
structure Store where
  /-- The files. -/
  files : FileTree
  /-- The profile in use, if there is one. -/
  inUse : Option Profile := none

namespace Store

/-- What a step gives: a result or an error, the store after it, and the
warnings. -/
abbrev Step (α : Type) := Except SettingsError α × Store × List Warning

/-- The profile of a document in a file. -/
def readFile (home : Home) (files : FileTree) (path : Path) :
    Except SettingsError Profile × List Warning :=
  match files.read path with
  | .error e => (.error (.file e), [])
  | .ok text => Profile.ofDocument home text.unifyBreaks

/-- The profile of a document, which becomes the one in use. If there is no
such document, it is the usual one. -/
def read (home : Home) (store : Store) (path : Path) : Step Profile :=
  match store.files.has path with
  | .error e => (.error (.file e), store, [])
  | .ok false => (.ok (.usual home), { store with inUse := some (.usual home) }, [])
  | .ok true =>
    match readFile home store.files path with
    | (.ok profile, warnings) => (.ok profile, { store with inUse := some profile }, warnings)
    | (.error e, warnings) =>
      if e.isForgiven then
        (.ok (.usual home), { store with inUse := some (.usual home) },
          warnings ++ [.notLoaded path])
      else (.error e, store, warnings)

/-- The profile of a document that is named, or else the one in use, or
else that of the usual document. -/
def load (home : Home) (store : Store) (path : Option Path) : Step Profile :=
  match path, store.inUse with
  | some path, _ => store.read home path
  | none, some profile => (.ok profile, store, [])
  | none, none => store.read home (Profile.usualPath home)

/-- The profile in use; the usual document is read if there is none. -/
def get (home : Home) (store : Store) : Step Profile := store.load home none

/-- The store with a profile written to a document, and the folders that it
lies in. A document that is not named is the one of the profile. -/
def save (store : Store) (profile : Profile) (path : Option Path) : Step Unit :=
  match path.elim profile.path .ok with
  | .error e => (.error e, store, [])
  | .ok target =>
    match store.files.makeFolders target.parent with
    | (files, .error e) => (.error (.file e), { store with files }, [])
    | (files, .ok ()) =>
      match files.write target profile.document with
      | .error e => (.error (.file e), { store with files }, [])
      | .ok files => (.ok (), { store with files }, [])

/-- The store without a profile in use. -/
def reset (store : Store) : Store := { store with inUse := none }

end Store

end TaskList
