/-
TaskList.Proofs.Settings.InUse — the profile in use, over a whole run of calls.

* `Store.Call` — what the settings are asked for, and `Turn` — a call that was made, with
  the store that it found and the one that it left.
* `history` — calls made one after the other. Only the profile in use goes from one to the
  next: before each of them the files may have changed in any way.
* `IsLastGiven` — the profile that was given last since the settings were last forgotten.
* `history_keeps` — it is the one in use, at every point of every history. `Turn.Keeps`
  says what follows from it for each kind of call, and `Turn.Reads` what a call gives that
  reads a document.
-/
import TaskList.Proofs.Reading
import TaskList.Settings.Store

namespace TaskList

/-! ## What is looked at -/

namespace FileTree

variable {tree other : FileTree} {path : Path}

theorem has_congr (h : other.find path = tree.find path) : other.has path = tree.has path := by
  rw [has, has, h]

theorem read_congr (h : other.find path = tree.find path) : other.read path = tree.read path := by
  rw [read, read, h]

end FileTree

namespace Store

/-! ## Single steps -/

section Steps

variable {home : Home} {store : Store} {path : Path} {files : FileTree}

/-- A reading gives a profile, which becomes the one in use, or it changes nothing. -/
theorem read_cases (home : Home) (store : Store) (path : Path) :
    (∃ profile warnings,
      store.read home path = (.ok profile, { store with inUse := some profile }, warnings)) ∨
    ∃ e warnings, store.read home path = (.error e, store, warnings) := by
  unfold read
  split
  · exact .inr ⟨_, _, rfl⟩
  · exact .inl ⟨_, _, rfl⟩
  · split
    · exact .inl ⟨_, _, rfl⟩
    · split
      · exact .inl ⟨_, _, rfl⟩
      · exact .inr ⟨_, _, rfl⟩

/-- What is loaded becomes the profile in use; a failure changes nothing. -/
theorem load_cases (home : Home) (store : Store) (path : Option Path) :
    (∃ profile warnings,
      store.load home path = (.ok profile, { store with inUse := some profile }, warnings)) ∨
    ∃ e warnings, store.load home path = (.error e, store, warnings) := by
  unfold load
  split
  · exact read_cases home store _
  · rename_i profile hinUse
    exact .inl ⟨profile, [], by rw [← hinUse]⟩
  · exact read_cases home store _

theorem load_inUse (home : Home) (store : Store) {profile : Profile}
    (h : store.inUse = some profile) :
    store.load home none = (.ok profile, store, []) := by
  simp only [load, h]

theorem load_usual (home : Home) (store : Store) (h : store.inUse = none) :
    store.load home none = store.read home (Profile.usualPath home) := by
  simp only [load, h]

/-- A profile that is written does not become the one in use. -/
theorem save_inUse (store : Store) (profile : Profile) (path : Option Path) :
    (store.save profile path).2.1.inUse = store.inUse := by
  unfold save
  split
  · rfl
  · split
    · rfl
    · split <;> rfl

/-- What a reading gives of a document that is there. -/
theorem read_of_has (h : store.files.has path = .ok true) : (store.read home path).1 =
    match (readFile home store.files path).1 with
    | .ok profile => .ok profile
    | .error e => if e.isForgiven then .ok (.usual home) else .error e := by
  rw [read, h]
  dsimp only
  rcases readFile home store.files path with ⟨profile | e, warnings⟩
  · dsimp only
    split <;> rfl
  · rfl

/-- What a reading gives depends on nothing but what there is under the path. -/
theorem read_congr (home : Home) (store : Store) (h : files.find path = store.files.find path)
    (inUse : Option Profile) : (Store.read home ⟨files, inUse⟩ path).1 = (store.read home path).1 := by
  unfold read readFile
  dsimp only
  rw [FileTree.has_congr h, FileTree.read_congr h]
  split
  · rfl
  · rfl
  · split
    · rfl
    · split <;> rfl

end Steps

/-! ## Calls -/

/-- What the settings are asked for. -/
inductive Call where
  /-- The profile of a document, or the one in use if no document is named. -/
  | load (path : Option Path)
  /-- The profile in use. -/
  | get
  /-- That a profile is written to a document. -/
  | save (profile : Profile) (path : Option Path)
  /-- That the profile in use is forgotten. -/
  | reset

/-- Is it a call for the profile in use? -/
def Call.IsUnnamed (call : Call) : Prop := call = .get ∨ call = .load none

/-- What a call gives, a profile if it is a call for one, with the store after it and the
warnings. -/
def call (home : Home) (store : Store) : Call → Step (Option Profile)
  | .load path =>
    let (profile, after, warnings) := store.load home path
    (profile.map some, after, warnings)
  | .get =>
    let (profile, after, warnings) := store.get home
    (profile.map some, after, warnings)
  | .save profile path =>
    let (done, after, warnings) := store.save profile path
    (done.map fun _ => none, after, warnings)
  | .reset => (.ok none, store.reset, [])

/-- A call that was made. -/
structure Turn where
  /-- The store that it found. -/
  found : Store
  /-- What was asked for. -/
  call : Call
  /-- What it gave: a profile if it was a call for one. -/
  given : Except SettingsError (Option Profile)
  /-- The store that it left. -/
  left : Store
  /-- The warnings. -/
  warnings : List Warning

/-- A call made to a store. -/
def Turn.of (home : Home) (store : Store) (call : Call) : Turn where
  found := store
  call := call
  given := (store.call home call).1
  left := (store.call home call).2.1
  warnings := (store.call home call).2.2

/-- Calls made one after the other, each with the files of its time. -/
def history (home : Home) (inUse : Option Profile) : List (FileTree × Call) → List Turn
  | [] => []
  | (files, call) :: rest =>
    let turn := Turn.of home ⟨files, inUse⟩ call
    turn :: history home turn.left.inUse rest

section Calls

variable {home : Home} {store : Store} {path : Path}

theorem call_load (path : Option Path) : store.call home (.load path) =
    ((store.load home path).1.map some, (store.load home path).2) := rfl

theorem call_save (profile : Profile) (path : Option Path) :
    store.call home (.save profile path) =
      ((store.save profile path).1.map fun _ => none, (store.save profile path).2) := rfl

theorem call_unnamed {call : Call} (h : call.IsUnnamed) :
    store.call home call = store.call home (.load none) := by
  rcases h with rfl | rfl <;> rfl

/-- A profile that is given becomes the one in use. A call that gives none leaves it as it
was, unless it is the one to forget it. -/
theorem call_cases (home : Home) (store : Store) (call : Call) :
    (∃ profile, call ≠ .reset ∧ (store.call home call).1 = .ok (some profile) ∧
      (store.call home call).2.1.inUse = some profile) ∨
    (call = .reset ∧ (store.call home call).1 = .ok none ∧
      (store.call home call).2.1.inUse = none) ∨
    (call ≠ .reset ∧ (∀ profile, (store.call home call).1 ≠ .ok (some profile)) ∧
      (store.call home call).2.1.inUse = store.inUse) := by
  have hload : ∀ path, (∃ profile, (store.call home (.load path)).1 = .ok (some profile) ∧
        (store.call home (.load path)).2.1.inUse = some profile) ∨
      (∀ profile, (store.call home (.load path)).1 ≠ .ok (some profile)) ∧
        (store.call home (.load path)).2.1.inUse = store.inUse := by
    intro path
    rw [call_load]
    rcases load_cases home store path with ⟨profile, warnings, h⟩ | ⟨e, warnings, h⟩
    · exact .inl ⟨profile, by rw [h]; rfl, by rw [h]⟩
    · exact .inr ⟨by simp [h, Except.map], by rw [h]⟩
  cases call with
  | load path =>
    rcases hload path with ⟨profile, hgiven⟩ | hnone
    · exact .inl ⟨profile, nofun, hgiven⟩
    · exact .inr (.inr ⟨nofun, hnone⟩)
  | get =>
    rcases hload none with ⟨profile, hgiven⟩ | hnone
    · exact .inl ⟨profile, nofun, hgiven⟩
    · exact .inr (.inr ⟨nofun, hnone⟩)
  | save profile path =>
    refine .inr (.inr ⟨nofun, fun other => ?_, save_inUse store profile path⟩)
    rw [call_save]
    cases (store.save profile path).1 <;> simp [Except.map]
  | reset => exact .inr (.inl ⟨rfl, rfl, rfl⟩)

theorem inUse_of_given {call : Call} {profile : Profile}
    (h : (store.call home call).1 = .ok (some profile)) :
    (store.call home call).2.1.inUse = some profile := by
  rcases call_cases home store call with
    ⟨given, -, hgiven, hleft⟩ | ⟨-, hgiven, -⟩ | ⟨-, hnone, -⟩
  · rw [hleft, ← Option.some.inj (Except.ok.inj (hgiven.symm.trans h))]
  · exact absurd (hgiven.symm.trans h) nofun
  · exact absurd h (hnone profile)

theorem inUse_of_error {call : Call} {e : SettingsError} (h : (store.call home call).1 = .error e) :
    (store.call home call).2.1.inUse = store.inUse := by
  rcases call_cases home store call with
    ⟨given, -, hgiven, -⟩ | ⟨-, hgiven, -⟩ | ⟨-, -, hleft⟩
  · exact absurd (hgiven.symm.trans h) nofun
  · exact absurd (hgiven.symm.trans h) nofun
  · exact hleft

end Calls

/-! ## The profile that was given last -/

/-- A profile is the one that was given last since the settings were last forgotten. -/
def IsLastGiven (turns : List Turn) (profile : Profile) : Prop :=
  ∃ before turn after, turns = before ++ turn :: after ∧ turn.given = .ok (some profile) ∧
    ∀ later ∈ after, later.call ≠ .reset ∧ ∀ other, later.given ≠ .ok (some other)

theorem not_isLastGiven_nil (profile : Profile) : ¬ IsLastGiven [] profile := by
  rintro ⟨before, turn, after, h, -⟩
  exact List.append_ne_nil_of_right_ne_nil before (List.cons_ne_nil turn after) h.symm

/-- With one more call, it is the profile that this one gave. If it gave none, it is the
one from before, unless the settings were forgotten. -/
theorem isLastGiven_append {turns : List Turn} {turn : Turn} {profile : Profile} :
    IsLastGiven (turns ++ [turn]) profile ↔ turn.given = .ok (some profile) ∨
      (turn.call ≠ .reset ∧ (∀ other, turn.given ≠ .ok (some other)) ∧
        IsLastGiven turns profile) := by
  constructor
  · rintro ⟨before, giving, after, hsplit, hgiven, hafter⟩
    -- the call that gave it is the new one, or it is among those before
    rcases List.eq_nil_or_concat after with rfl | ⟨after, last, rfl⟩
    · obtain ⟨-, hlast⟩ := List.append_inj' hsplit rfl
      rw [List.singleton_inj.mp hlast]
      exact .inl hgiven
    · rw [List.concat_eq_append, ← List.cons_append, ← List.append_assoc] at hsplit
      obtain ⟨hturns, hlast⟩ := List.append_inj' hsplit rfl
      rw [List.concat_eq_append] at hafter
      obtain ⟨hcall, hnone⟩ := hafter last (by simp)
      rw [List.singleton_inj.mp hlast]
      exact .inr ⟨hcall, hnone, before, giving, after, hturns, hgiven, fun later hlater =>
        hafter later (List.mem_append_left _ hlater)⟩
  · rintro (hgiven | ⟨hcall, hnone, before, giving, after, rfl, hgiven, hafter⟩)
    · exact ⟨turns, turn, [], rfl, hgiven, by simp⟩
    · refine ⟨before, giving, after ++ [turn], by simp, hgiven, fun later hlater => ?_⟩
      rcases List.mem_append.mp hlater with hlater | hlater
      · exact hafter later hlater
      · rw [List.mem_singleton.mp hlater]
        exact ⟨hcall, hnone⟩

section Histories

variable {home : Home} {turns : List Turn}

/-- **One call** keeps it so that the profile in use is the one that was given last. -/
theorem inUse_of (home : Home) (store : Store) (call : Call)
    (h : ∀ profile, store.inUse = some profile ↔ IsLastGiven turns profile)
    (profile : Profile) : (Turn.of home store call).left.inUse = some profile ↔
      IsLastGiven (turns ++ [Turn.of home store call]) profile := by
  rw [isLastGiven_append, ← h]
  simp only [Turn.of]
  rcases call_cases home store call with
    ⟨given, hcall, hgiven, hleft⟩ | ⟨rfl, hgiven, hleft⟩ | ⟨hcall, hnone, hleft⟩
  · simp [hgiven, hleft]
  · simp [hgiven, hleft]
  · simp [hcall, hnone, hleft]

/-- **A run of calls** keeps it so, at every call that is made. -/
theorem inUse_history {inUse : Option Profile} {calls : List (FileTree × Call)}
    (h : ∀ profile, inUse = some profile ↔ IsLastGiven turns profile)
    {before after : List Turn} {turn : Turn}
    (hsplit : history home inUse calls = before ++ turn :: after) :
    turn = .of home turn.found turn.call ∧
      ∀ profile, turn.found.inUse = some profile ↔ IsLastGiven (turns ++ before) profile := by
  induction calls generalizing inUse turns before with
  | nil => exact absurd hsplit.symm (by simp [history])
  | cons first rest ih =>
    rw [history] at hsplit
    cases before with
    | nil =>
      obtain ⟨rfl, -⟩ := List.cons.inj hsplit
      exact ⟨rfl, by rwa [List.append_nil]⟩
    | cons made before =>
      obtain ⟨rfl, hrest⟩ := List.cons.inj hsplit
      have hmade := ih (inUse_of home ⟨first.1, inUse⟩ first.2 h) hrest
      rwa [List.append_assoc, List.singleton_append] at hmade

/-- The calls of a history, with their files, are those that were to be made. -/
theorem history_calls (home : Home) (inUse : Option Profile) (calls : List (FileTree × Call)) :
    (history home inUse calls).map (fun turn => (turn.found.files, turn.call)) = calls := by
  induction calls generalizing inUse with
  | nil => rfl
  | cons first rest ih =>
    rw [history, List.map_cons, ih]
    rfl

end Histories

/-! ## What a call gives -/

/-- What a call gives that reads the document under a path: the profile of the document,
or the usual one if there is no document or if it cannot be used for a cause that is
forgiven. That profile is then in use, and nothing else is looked at. -/
structure Turn.Reads (home : Home) (path : Path) (turn : Turn) : Prop where
  missing : turn.found.files.has path = .ok false → turn.given = .ok (some (.usual home))
  used : turn.found.files.has path = .ok true → ∀ profile,
    (readFile home turn.found.files path).1 = .ok profile → turn.given = .ok (some profile)
  forgiven : turn.found.files.has path = .ok true → ∀ e,
    (readFile home turn.found.files path).1 = .error e → e.isForgiven = true →
      turn.given = .ok (some (.usual home))
  refused : turn.found.files.has path = .ok true → ∀ e,
    (readFile home turn.found.files path).1 = .error e → e.isForgiven = false →
      turn.given = .error e
  unknown : ∀ e, turn.found.files.has path = .error e → turn.given = .error (.file e)
  stays : ∀ profile, turn.given = .ok (some profile) → turn.left.inUse = some profile
  only : ∀ files : FileTree, files.find path = turn.found.files.find path →
    (Store.call home { turn.found with files } turn.call).1 = turn.given

/-- What a call keeps to, after those before it. -/
structure Turn.Keeps (home : Home) (before : List Turn) (turn : Turn) : Prop where
  /-- The profile in use is the one that was given last. -/
  found : ∀ profile, turn.found.inUse = some profile ↔ IsLastGiven before profile
  /-- So it is after the call. -/
  left : ∀ profile, turn.left.inUse = some profile ↔ IsLastGiven (before ++ [turn]) profile
  /-- A call for the profile in use gives the one that was given last, and would do so
  whatever the files were. -/
  again : turn.call.IsUnnamed → ∀ profile, IsLastGiven before profile →
    (turn.given, turn.left, turn.warnings) = (.ok (some profile), turn.found, []) ∧
    ∀ files : FileTree, Store.call home { turn.found with files } turn.call =
      (.ok (some profile), { turn.found with files }, [])
  /-- It reads the usual document if there is none. -/
  usual : turn.call.IsUnnamed → (∀ profile, ¬ IsLastGiven before profile) →
    turn.Reads home (Profile.usualPath home)
  /-- A document that is named is read, whatever profile is in use. -/
  named : ∀ path, turn.call = .load (some path) → turn.Reads home path ∧
    ∀ inUse, (Store.call home { turn.found with inUse } turn.call).1 = turn.given
  /-- A profile that is written does not become the one in use. -/
  saved : ∀ profile path, turn.call = .save profile path → turn.left.inUse = turn.found.inUse
  /-- The profile in use is forgotten. -/
  forgotten : turn.call = .reset → turn.given = .ok none ∧ turn.left.inUse = none
  /-- A call that fails leaves the profile in use. -/
  failed : ∀ e, turn.given = .error e → turn.left.inUse = turn.found.inUse

section Turns

variable {home : Home} {store : Store} {call : Call} {path : Path}

/-- A call gives what a reading gives if it loads by it, whatever the files are. -/
theorem reads_of (h : ∀ files : FileTree, (Store.call home { store with files } call).1 =
      (Store.read home { store with files } path).1.map some) :
    (Turn.of home store call).Reads home path := by
  have hgiven : (Turn.of home store call).given = (store.read home path).1.map some :=
    h store.files
  exact
    { missing := fun (hhas : store.files.has path = _) => by rw [hgiven, read, hhas]; rfl
      used := fun (hhas : store.files.has path = _) profile
          (hfile : (readFile home store.files path).1 = _) => by
        rw [hgiven, read_of_has hhas, hfile]
        rfl
      forgiven := fun (hhas : store.files.has path = _) e
          (hfile : (readFile home store.files path).1 = _) he => by
        simp [hgiven, read_of_has hhas, hfile, he, Except.map]
      refused := fun (hhas : store.files.has path = _) e
          (hfile : (readFile home store.files path).1 = _) he => by
        simp [hgiven, read_of_has hhas, hfile, he, Except.map]
      unknown := fun e (hhas : store.files.has path = _) => by rw [hgiven, read, hhas]; rfl
      stays := fun profile hprofile => inUse_of_given hprofile
      only := fun files hfiles =>
        (h files).trans ((congrArg (·.map some) (read_congr home store hfiles _)).trans hgiven.symm) }

/-- **What a call keeps to** if the profile in use is the one that was given last. -/
theorem keeps_of {before : List Turn}
    (h : ∀ profile, store.inUse = some profile ↔ IsLastGiven before profile) :
    (Turn.of home store call).Keeps home before where
  found := h
  left := inUse_of home store call h
  again := by
    intro (hcall : call.IsUnnamed) profile hlast
    have hinUse : store.inUse = some profile := (h profile).mpr hlast
    have hall : ∀ files : FileTree, Store.call home { store with files } call =
        (.ok (some profile), { store with files }, []) := by
      intro files
      rw [call_unnamed hcall, call_load, load_inUse home { store with files } hinUse]
      rfl
    exact ⟨hall store.files, hall⟩
  usual := by
    intro (hcall : call.IsUnnamed) hnone
    have hinUse : store.inUse = none :=
      Option.eq_none_iff_forall_ne_some.mpr fun profile hprofile =>
        hnone profile ((h profile).mp hprofile)
    refine reads_of fun files => ?_
    rw [call_unnamed hcall, call_load, load_usual home { store with files } hinUse]
  named := by
    rintro path rfl
    exact ⟨reads_of fun files => rfl, fun inUse =>
      congrArg (·.map some) (read_congr home store rfl inUse)⟩
  saved := by
    rintro profile path rfl
    exact save_inUse store profile path
  forgotten := by
    rintro rfl
    exact ⟨rfl, rfl⟩
  failed := fun e he => inUse_of_error he

end Turns

/-- **The profile in use is the one that was given last**, in every run of calls from the
start. -/
theorem history_keeps (home : Home) (calls : List (FileTree × Call)) :
    (history home none calls).map (fun turn => (turn.found.files, turn.call)) = calls ∧
    ∀ before turn after, history home none calls = before ++ turn :: after →
      turn.Keeps home before := by
  refine ⟨history_calls home none calls, fun before turn after hsplit => ?_⟩
  have hstart : ∀ profile, (none : Option Profile) = some profile ↔ IsLastGiven [] profile :=
    fun profile => iff_of_false nofun (not_isLastGiven_nil profile)
  obtain ⟨hmade, hinUse⟩ := inUse_history hstart hsplit
  rw [hmade]
  exact keeps_of hinUse

theorem given_eq {given : Except SettingsError (Option Profile)} {profile : Profile} :
    given = .ok (some profile) ↔ given.toOption.join = some profile := by
  rcases given with e | _ | found <;> simp [Except.toOption]

/-- A document with a tab size is loaded, then one with a list in it, and a profile is
written. -/
def fewCalls : List (FileTree × Call) :=
  let path : Path := ⟨[], ["c.yaml".toList]⟩
  [(⟨[(path, .file "tab_size: 2\n".toList)]⟩, .load (some path)),
   (⟨[(path, .file "- a\n".toList)]⟩, .load (some path)),
   ({}, .save {} (some path)),
   ({}, .get)]

/-- The list has no settings in it, so the first document's are still in use, when there
is no document any more. -/
theorem history_keeps_failure :
    ∃ first failed saved asked profile,
      history ⟨"/home/bob".toList, []⟩ none fewCalls = [first, failed, saved, asked] ∧
      first.given = .ok (some profile) ∧ profile.tabSize.quoted = ['2'] ∧
      failed.given = .error (.noValues .list) ∧
      (asked.given, asked.left, asked.warnings) = (.ok (some profile), asked.found, []) := by
  have hgiven : ((history ⟨"/home/bob".toList, []⟩ none fewCalls).take 3).map
      (fun turn => (turn.given.toOption.join.map (·.tabSize.quoted), error? turn.given)) =
        [(some ['2'], none), (none, some (.noValues .list)), (none, none)] := by
    decide +kernel
  obtain ⟨hcalls, hkeeps⟩ := history_keeps ⟨"/home/bob".toList, []⟩ fewCalls
  obtain ⟨first, failed, saved, asked, hturns⟩ : ∃ first failed saved asked,
      history ⟨"/home/bob".toList, []⟩ none fewCalls = [first, failed, saved, asked] :=
    ⟨_, _, _, _, rfl⟩
  rw [hturns] at hgiven hcalls
  simp only [List.take, List.map_cons, List.map_nil, List.cons.injEq, Prod.mk.injEq, fewCalls,
    Option.map_eq_some_iff, Option.map_eq_none_iff, error?_eq_some, and_true] at hgiven hcalls
  obtain ⟨⟨⟨profile, hprofile, htabSize⟩, -⟩, ⟨hnone, hfailed⟩, ⟨hnone', -⟩⟩ := hgiven
  have hlast : IsLastGiven [first, failed, saved] profile :=
    ⟨[], first, [failed, saved], rfl, given_eq.mpr hprofile, by
      simp [hcalls, given_eq, hnone, hnone']⟩
  exact ⟨first, failed, saved, asked, profile, hturns, given_eq.mpr hprofile, htabSize, hfailed,
    ((hkeeps _ _ _ hturns).again (.inl hcalls.2.2.2.2) profile hlast).1⟩

end Store

end TaskList
