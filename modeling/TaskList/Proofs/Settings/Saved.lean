/-
TaskList.Proofs.Settings.Saved — a profile that is written to a document and read
again.

* `Profile.mapping` — the mapping that a profile is written as. That reading undoes
  the writing of it is assumed of the YAML format; all else is here.
* `Profile.ofValue_mapping` — the names in it are the settings, each once, and the
  values are those of the profile.
* `Profile.IsKept` — a profile that is made again by its own settings, by its document
  and by the file that it was saved to.
* `TypedSettings.settled_isKept` — typed settings make such a profile. Where a name
  starts with a user whose name there cannot be, they make none: `profile_nulUser`.
-/
import TaskList.Proofs.Files.Written
import TaskList.Proofs.Settings.Loaded
import TaskList.Proofs.Settings.Typed
import TaskList.Proofs.Yaml.Simple
import TaskList.Settings.Store

namespace TaskList

open Yaml (Value)

/-! ## The names in a document -/

namespace Profile

theorem isName_of_mem {name : String} (h : name ∈ names) : isName name.toList = true := by
  simpa [isName] using h

/-- The names of the entries are those of the settings. -/
theorem entries_names (p : Profile) : p.entries.map (·.1) = names.map (·.toList) := rfl

theorem isName_of_mem_entries {p : Profile} {e : Text × Value} (he : e ∈ p.entries) :
    isName e.1 = true := by
  have hmem : e.1 ∈ p.entries.map (·.1) := List.mem_map_of_mem he
  rw [entries_names] at hmem
  obtain ⟨name, hname, heq⟩ := List.mem_map.mp hmem
  exact heq ▸ isName_of_mem hname

/-- The mapping that a profile is written as. -/
def mapping (p : Profile) : Value := .map (p.entries.map fun e => (.text e.1, e.2))

theorem knownEntries_texts {entries : List (Text × Value)} (h : ∀ e ∈ entries, isName e.1 = true) :
    knownEntries (entries.map fun e => (.text e.1, e.2)) = entries := by
  induction entries with
  | nil => rfl
  | cons e rest ih =>
    have he := h e List.mem_cons_self
    have hrest := ih fun other hother => h other (List.mem_cons_of_mem e hother)
    rw [knownEntries, List.map_cons, List.filterMap_cons]
    simp only [he, if_true]
    exact congrArg (e :: ·) hrest

/-- The profile of a mapping whose names are all those of settings. -/
theorem ofValue_texts (home : Home) {entries : List (Text × Value)} (hne : entries ≠ [])
    (h : ∀ e ∈ entries, isName e.1 = true) :
    ofValue home (.map (entries.map fun e => (.text e.1, e.2))) =
      match (Given.ofEntries entries).profile home with
      | .error e => (.error e, [])
      | .ok (profile, warnings) => (.ok profile, warnings) := by
  have htrue : (Value.map (entries.map fun e => (.text e.1, e.2))).isTrue = true := by
    simpa [Value.isTrue] using hne
  have hknown : ∀ v ∈ (entries.map fun e => ((.text e.1, e.2) : Value × Value)).map (·.1),
      isKnown v = true := by
    intro v hv
    rw [List.map_map] at hv
    obtain ⟨e, he, rfl⟩ := List.mem_map.mp hv
    exact h e he
  have hnames : entries.find? (fun e => !isName e.1) = none :=
    List.find?_eq_none.mpr fun e he => by simp [h e he]
  rw [ofValue, htrue, namesIn, Except.bind, unknownWarning_known hknown]
  simp only [Bool.not_true, Bool.false_eq_true, if_false, knownEntries_texts h, make, hnames]
  cases (Given.ofEntries entries).profile home <;> rfl

end Profile

namespace TypedSettings

variable {home : Home} {typed : TypedSettings}

/-- What the entries of a profile give: its settings, with the names of the orders. -/
theorem ofEntries_settled : Given.ofEntries (typed.settled home).entries =
    (typed.again home fun o => .name o.name.toList).given := by
  rfl

/-- The document of typed settings holds texts, integers and truth values. -/
theorem isFlat_entries {e : Text × Value} (he : e ∈ (typed.settled home).entries) :
    e.2.IsFlat := by
  have hall : ∀ e ∈ (typed.settled home).entries, e.2.IsFlat := by
    simp [Profile.entries, Profile.names, settled, Value.IsFlat]
  exact hall e he

/-- The breaks in the document are line feeds. -/
theorem unifyBreaks_document :
    (typed.settled home).document.unifyBreaks = (typed.settled home).document :=
  Text.unifyBreaks_eq_self (Yaml.isSimple_write fun _ he => isFlat_entries he).not_mem_return

/-- The document of typed settings makes their profile again. -/
theorem ofDocument_settled (hhome : home.IsSpelledOut) (h : typed.HasUsers)
    (hread : Yaml.read (typed.settled home).document = .ok (typed.settled home).mapping) :
    Profile.ofDocument home (typed.settled home).document = (.ok (typed.settled home), []) := by
  have hne : (typed.settled home).entries ≠ [] := by simp [Profile.entries, Profile.names]
  have hagain := profile_again hhome h (fun o => .name o.name.toList)
    TypedOrder.settled_name TypedOrder.warnings_name
  rw [Profile.ofDocument, hread]
  dsimp only
  rw [Profile.mapping, Profile.ofValue_texts home hne fun _ he => Profile.isName_of_mem_entries he,
    ofEntries_settled, hagain]

end TypedSettings

/-! ## Documents in files -/

namespace Store

variable {store after : Store} {profile : Profile} {path : Path} {warnings : List Warning}

/-- What was saved is in its file. -/
theorem read_of_save (h : store.save profile (some path) = (.ok (), after, warnings)) :
    after.files.read path = .ok profile.document := by
  unfold save at h
  dsimp only [Option.elim_some] at h
  split at h
  · simp at h
  · split at h
    · simp at h
    · rename_i files hwrite
      obtain ⟨rfl, -⟩ := Prod.mk.inj (Prod.mk.inj h).2
      exact FileTree.read_write hwrite

end Store

/-! ## Profiles that are kept -/

/-- A profile that is made again by its own settings, by its document and by the file
that it was saved to, without a warning. Of the last two it is assumed that reading the
document undoes the writing of it. -/
structure Profile.IsKept (home : Home) (p : Profile) : Prop where
  /-- One level of indentation is at least one column wide. -/
  tabSize : ∃ n : Int, p.tabSize = .int n ∧ 1 ≤ n
  /-- Its own settings make it. -/
  again : p.given.profile home = .ok (p, [])
  /-- Its document makes it. -/
  reread : Yaml.read p.document = .ok p.mapping →
    Profile.ofDocument home p.document = (.ok p, [])
  /-- It is loaded from the file that it was saved to, and is then the one in use,
  whatever profile was in use before. -/
  reloaded : Yaml.read p.document = .ok p.mapping →
    ∀ (store after : Store) (path : Path) (warnings : List Warning),
      store.save p (some path) = (.ok (), after, warnings) →
        ∃ loaded, after.load home (some path) = (.ok p, loaded, []) ∧
          loaded.get home = (.ok p, loaded, [])

/-- **Typed settings make a profile that is kept.** -/
theorem TypedSettings.settled_isKept (home : Home) (hhome : home.IsSpelledOut)
    (typed : TypedSettings) (h : typed.HasUsers) :
    typed.given.profile home = .ok (typed.settled home, typed.warnings) ∧
      (typed.settled home).IsKept home where
  left := profile_given home h
  right :=
    { tabSize := ⟨typed.columns, rfl, typed.one_le_columns⟩
      again := profile_settled hhome h
      reread := ofDocument_settled hhome h
      reloaded := by
        intro hread store after path warnings hsave
        have hfile := Store.read_of_save hsave
        have hdocument := ofDocument_settled hhome h hread
        rw [← unifyBreaks_document] at hdocument
        exact ⟨_, Store.load_of_read hfile hdocument, rfl⟩ }

/-! ## Documents that are read back -/

namespace Yaml

/-- Are two texts, integers or truth values the same? -/
def Value.agrees : Value → Value → Bool
  | .text a, .text b => a == b
  | .int a, .int b => a == b
  | .bool a, .bool b => a == b
  | _, _ => false

theorem Value.eq_of_agrees {a b : Value} (h : a.agrees b = true) : a = b := by
  cases a <;> cases b <;> simp_all [agrees]

/-- Are the entries of two mappings the same, one by one? -/
def entriesAgree : List (Value × Value) → List (Value × Value) → Bool
  | [], [] => true
  | a :: rest, b :: others => a.1.agrees b.1 && a.2.agrees b.2 && entriesAgree rest others
  | _, _ => false

theorem eq_of_entriesAgree {found entries : List (Value × Value)}
    (h : entriesAgree found entries = true) : found = entries := by
  induction found generalizing entries with
  | nil => cases entries <;> simp_all [entriesAgree]
  | cons a rest ih =>
    cases entries with
    | nil => simp [entriesAgree] at h
    | cons b others =>
      simp only [entriesAgree, Bool.and_eq_true] at h
      obtain ⟨⟨hkey, hvalue⟩, hrest⟩ := h
      rw [ih hrest, Prod.ext (Value.eq_of_agrees hkey) (Value.eq_of_agrees hvalue)]

/-- Is a document that of a mapping? -/
def readsAs (document : Text) (entries : List (Value × Value)) : Bool :=
  match read document with
  | .ok (.map found) => entriesAgree found entries
  | _ => false

theorem read_of_readsAs {document : Text} {entries : List (Value × Value)}
    (h : readsAs document entries = true) : read document = .ok (.map entries) := by
  unfold readsAs at h
  split at h
  · rename_i found hfound
    rw [hfound, eq_of_entriesAgree h]
  · simp at h

end Yaml

/-- Settings of which a tab size and an order are put right, and whose files are in two
home directories. -/
def mixedSettings : TypedSettings where
  doneMark := "✓ ".toList
  tabSize := 0
  tagOrder := .name "count".toList
  projectOrder := .name "random".toList
  contextOrder := .order .count
  defaultFile := "~ann/todo.md".toList

/-- The home directories of two users. -/
def twoHomes : Home := ⟨"/home/bob".toList, [("ann".toList, "/home/ann/".toList)]⟩

/-- They are read back from a folder that is not there before, while other settings are
in use. -/
theorem TypedSettings.settled_isKept_mixed :
    twoHomes.IsSpelledOut ∧ mixedSettings.HasUsers ∧
      Yaml.read (mixedSettings.settled twoHomes).document =
        .ok (mixedSettings.settled twoHomes).mapping ∧
      mixedSettings.given.profile twoHomes =
        .ok (mixedSettings.settled twoHomes, mixedSettings.warnings) ∧
      Profile.ofDocument twoHomes (mixedSettings.settled twoHomes).document =
        (.ok (mixedSettings.settled twoHomes), []) ∧
      ∃ (after loaded : Store) (warnings : List Warning),
        Store.save ⟨{}, some (.usual twoHomes)⟩ (mixedSettings.settled twoHomes)
          (some ⟨[], ["folder".toList, "settings".toList]⟩) = (.ok (), after, warnings) ∧
        loaded.get twoHomes = (.ok (mixedSettings.settled twoHomes), loaded, []) := by
  have hhome : twoHomes.IsSpelledOut := by decide
  have husers : mixedSettings.HasUsers := ⟨by decide, by decide⟩
  have hread := Yaml.read_of_readsAs
    (show Yaml.readsAs (mixedSettings.settled twoHomes).document
      ((mixedSettings.settled twoHomes).entries.map fun e => (.text e.1, e.2)) = true by
        decide +kernel)
  obtain ⟨hmade, hkept⟩ := settled_isKept twoHomes hhome mixedSettings husers
  have hdone : (Store.save ⟨{}, some (.usual twoHomes)⟩ (mixedSettings.settled twoHomes)
      (some ⟨[], ["folder".toList, "settings".toList]⟩)).1 = .ok () := by decide +kernel
  generalize hsave : Store.save ⟨{}, some (.usual twoHomes)⟩ (mixedSettings.settled twoHomes)
    (some ⟨[], ["folder".toList, "settings".toList]⟩) = saved at hdone
  obtain ⟨result, after, warnings⟩ := saved
  obtain rfl : result = .ok () := hdone
  obtain ⟨loaded, -, hget⟩ := hkept.reloaded hread _ after _ warnings hsave
  exact ⟨hhome, husers, hread, hmade, hkept.reread hread, after, loaded, warnings, rfl, hget⟩

/-- **There is no profile** where the home directory of a user is asked for whose name
holds a NUL. -/
theorem TypedSettings.profile_nulUser :
    twoHomes.IsSpelledOut ∧
      ({ dataFolder := ['~', '\x00', '/', 'x'] } : TypedSettings).given.profile twoHomes =
        .error (.file (.badName .nul)) := by
  refine ⟨by decide, ?_⟩
  rfl

end TaskList
