/-
TaskList.Proofs.Files.Written — a text that is written to a file is there, and
the other files are as they were.

* `FileTree.Passes` — all that a name leads through is a folder.
  `FileTree.walk_eq_ok_iff` says that this, and an entry at its end, is what it takes
  for there to be something under a name.
* `FileTree.entryAt?_put_self`, `FileTree.entryAt?_put_of_ne` — a new entry is where
  it was put, and no other one is lost.
* `FileTree.read_write`, `FileTree.read_write_other` — from both, what is read after
  something was written.
-/
import TaskList.Files.Tree

namespace TaskList.FileTree

variable {tree after : FileTree} {p q k : Path} {entry other : FileEntry} {text : Text}

/-! ## Looking up -/

/-- Each name from `done` on, up to the one before the last part, is that of a
folder, and no part is too long. -/
def Passes (tree : FileTree) (done : Path) : List Text → Prop
  | [] => True
  | part :: rest => tree.entryAt? (key done) = some .folder ∧ byteCount part ≤ partLimit ∧
      Passes tree (done.child part) rest

theorem walk_eq_ok_iff {done : Path} {rest : List Text} : tree.walk p done rest = .ok entry ↔
    Passes tree done rest ∧ tree.entryAt? (key ⟨done.root, done.parts ++ rest⟩) = some entry := by
  induction rest generalizing done with
  | nil =>
    rw [walk, List.append_nil]
    cases tree.entryAt? (key done) <;> simp [Passes]
  | cons part rest ih =>
    rw [walk, Passes]
    cases tree.entryAt? (key done) with
    | none => simp
    | some found =>
      cases found with
      | file text => simp
      | folder =>
        dsimp only
        split
        · simp
          omega
        · rw [ih]
          simp [Path.child]
          omega

/-- A name leads where there is something under it. -/
theorem find_eq_ok_iff : tree.find p = .ok entry ↔
    NameFault.find? p.text = none ∧ byteCount p.text ≤ nameLimit ∧
      Passes tree ⟨p.root, []⟩ p.parts ∧ tree.entryAt? (key p) = some entry := by
  rw [find]
  cases NameFault.find? p.text with
  | some fault => simp
  | none =>
    dsimp only
    split
    · simp
      omega
    · rw [walk_eq_ok_iff]
      simp
      omega

theorem read_eq_ok_iff : tree.read p = .ok text ↔ tree.find p = .ok (.file text) := by
  unfold read
  split <;> simp_all

theorem has_of_read (h : tree.read p = .ok text) : tree.has p = .ok true := by
  rw [has, read_eq_ok_iff.mp h]

/-- The last part of a name under which nothing is. -/
theorem walk_concat_missing {done : Path} {rest : List Text} {last : Text} {e : Path}
    (hpasses : Passes tree done rest)
    (hfolder : tree.entryAt? (key ⟨done.root, done.parts ++ rest⟩) = some .folder)
    (h : tree.walk p done (rest ++ [last]) = .error (.missing e)) :
    byteCount last ≤ partLimit ∧
      tree.entryAt? (key ⟨done.root, done.parts ++ (rest ++ [last])⟩) = none := by
  induction rest generalizing done with
  | nil =>
    rw [List.append_nil] at hfolder
    rw [List.nil_append, walk, hfolder] at h
    dsimp only at h
    split at h
    · simp at h
    · rw [walk] at h
      split at h
      · simp at h
      · rename_i hlimit hnone
        exact ⟨by omega, hnone⟩
  | cons part rest ih =>
    obtain ⟨hhere, hlimit, hrest⟩ := hpasses
    rw [List.cons_append, walk, hhere] at h
    dsimp only at h
    rw [if_neg (by omega)] at h
    have hrest' := ih hrest (by simpa [Path.child] using hfolder) h
    simpa [Path.child] using hrest'

theorem passes_concat {done : Path} {rest : List Text} {last : Text} :
    Passes tree done (rest ++ [last]) ↔ Passes tree done rest ∧
      tree.entryAt? (key ⟨done.root, done.parts ++ rest⟩) = some .folder ∧
        byteCount last ≤ partLimit := by
  induction rest generalizing done with
  | nil => simp [Passes]
  | cons part rest ih =>
    rw [List.cons_append, Passes, Passes, ih]
    simp [Path.child, and_assoc]

/-! ## Entries -/

theorem find?_map_put (entries : List (Path × FileEntry)) (entry : FileEntry) (p k : Path) :
    (entries.map fun e => if e.1 == p then (p, entry) else e).find? (·.1 == k) =
      if k = p then (entries.find? (·.1 == k)).map fun _ => (p, entry)
      else entries.find? (·.1 == k) := by
  induction entries with
  | nil => split <;> rfl
  | cons e rest ih =>
    rw [List.map_cons, List.find?_cons, List.find?_cons, ih]
    by_cases hep : e.1 = p
    · by_cases hk : k = p
      · simp [hep, hk]
      · have hpk : (p == k) = false := beq_eq_false_iff_ne.mpr (Ne.symm hk)
        simp [hep, hk, hpk]
    · have hep' : (e.1 == p) = false := beq_eq_false_iff_ne.mpr hep
      rw [hep', if_neg Bool.false_ne_true]
      cases hek : e.1 == k with
      | false => rfl
      | true =>
        have hk : ¬ k = p := fun hk => hep ((beq_iff_eq.mp hek).trans hk)
        simp [hk]

/-- **A new entry is where it was put.** -/
theorem entryAt?_put_self : (tree.put p entry).entryAt? (key p) = some entry := by
  rw [put]
  split
  · rename_i hany
    have hsome : (tree.entries.find? (·.1 == key p)).isSome = true := by
      rwa [List.find?_isSome, ← List.any_eq_true]
    obtain ⟨found, hfound⟩ := Option.isSome_iff_exists.mp hsome
    rw [entryAt?, find?_map_put, if_pos rfl, hfound]
    rfl
  · rename_i hany
    have hnone : tree.entries.find? (·.1 == key p) = none :=
      List.find?_eq_none.mpr fun e he hkey => hany (List.any_eq_true.mpr ⟨e, he, hkey⟩)
    rw [entryAt?, List.find?_append, hnone]
    simp

/-- **No other entry is lost** where an entry is put. -/
theorem entryAt?_put_of_ne (hne : k ≠ key p) (h : tree.entryAt? k = some other) :
    (tree.put p entry).entryAt? k = some other := by
  rw [put]
  split
  · -- the names of the entries are the same
    have hnames : ∀ e : Path × FileEntry,
        (if e.1 == key p then (key p, entry) else e).1 = e.1 := fun e => by
      split
      · rename_i he
        exact (beq_iff_eq.mp he).symm
      · rfl
    rw [← h, entryAt?, entryAt?, find?_map_put, if_neg hne, List.any_map]
    simp only [Function.comp_def, hnames]
  · rw [entryAt?, List.find?_append]
    rw [entryAt?] at h
    split at h
    · rename_i found hfound
      rw [hfound]
      exact h
    · rename_i hnone
      have hlast : [(key p, entry)].find? (·.1 == k) = none := by
        rw [List.find?_singleton, if_neg (by simpa using hne.symm)]
      rw [hnone, hlast]
      dsimp only [Option.none_or]
      split at h
      · rename_i hfolder
        rw [if_pos]
        · exact h
        · rw [List.any_append]
          rcases Bool.or_eq_true_iff.mp hfolder with hup | hany
          · rw [hup]
            rfl
          · rw [hany]
            simp
      · simp at h

/-- Folders are still passed through after an entry was put under a name that is
not the name of a folder. -/
theorem passes_put (hp : tree.entryAt? (key p) ≠ some .folder) {done : Path} {rest : List Text}
    (h : Passes tree done rest) : Passes (tree.put p entry) done rest := by
  induction rest generalizing done with
  | nil => trivial
  | cons part rest ih =>
    obtain ⟨hhere, hlimit, hrest⟩ := h
    refine ⟨entryAt?_put_of_ne (fun hkey => hp ?_) hhere, hlimit, ih hrest⟩
    rw [← hkey, hhere]

/-! ## What is read after something was written -/

/-- What is found under the name under which something was put. -/
theorem find_put_self (hname : NameFault.find? p.text = none) (hlength : byteCount p.text ≤ nameLimit)
    (hpasses : Passes tree ⟨p.root, []⟩ p.parts) (hp : tree.entryAt? (key p) ≠ some .folder) :
    (tree.put p entry).find p = .ok entry :=
  find_eq_ok_iff.mpr ⟨hname, hlength, passes_put hp hpasses, entryAt?_put_self⟩

/-- What is found under another name stays there. -/
theorem find_put_other (hp : tree.entryAt? (key p) ≠ some .folder) (hne : key q ≠ key p)
    (h : tree.find q = .ok other) : (tree.put p entry).find q = .ok other := by
  obtain ⟨hname, hlength, hpasses, hentry⟩ := find_eq_ok_iff.mp h
  exact find_eq_ok_iff.mpr ⟨hname, hlength, passes_put hp hpasses, entryAt?_put_of_ne hne hentry⟩

/-- A file is written where there is one, or where its folder is; the name leads
there, and it is not that of a folder. -/
theorem write_cases (h : tree.write p text = .ok after) :
    after = tree.put p (.file text) ∧ NameFault.find? p.text = none ∧
      byteCount p.text ≤ nameLimit ∧ Passes tree ⟨p.root, []⟩ p.parts ∧
        tree.entryAt? (key p) ≠ some .folder := by
  unfold write at h
  split at h
  · rename_i old hfind
    obtain ⟨hname, hlength, hpasses, hentry⟩ := find_eq_ok_iff.mp hfind
    exact ⟨(Except.ok.inj h).symm, hname, hlength, hpasses, by simp [hentry]⟩
  · simp at h
  · rename_i missing hfind
    unfold create at h
    split at h
    · rename_i hparent
      refine ⟨(Except.ok.inj h).symm, ?_⟩
      have hfolder : tree.find p.parent = .ok .folder := by
        unfold hasFolder at hparent
        split at hparent
        · assumption
        · simp at hparent
      obtain ⟨-, -, hpasses, hentry⟩ := find_eq_ok_iff.mp hfolder
      rw [find] at hfind
      cases hname : NameFault.find? p.text with
      | some fault => simp [hname] at hfind
      | none =>
        rw [hname] at hfind
        dsimp only at hfind
        split at hfind
        · simp at hfind
        · rename_i hlength
          rcases List.eq_nil_or_concat p.parts with hnil | ⟨front, last, hparts⟩
          · -- there is a folder under a name without parts, so this one is not missing
            have hself : p.parent = p := by
              rw [Path.parent, hnil]
              cases p
              simp_all
            rw [hself] at hfolder
            have := (find_eq_ok_iff.mp hfolder).2.2
            rw [walk_eq_ok_iff.mpr (by simpa using this)] at hfind
            simp at hfind
          · rw [hparts, List.concat_eq_append] at hfind
            rw [Path.parent, hparts, List.concat_eq_append, List.dropLast_concat] at hpasses hentry
            have hlast := walk_concat_missing hpasses (by simpa using hentry) hfind
            have hkey : (⟨p.root, front ++ [last]⟩ : Path) = p := by
              rw [← List.concat_eq_append, ← hparts]
            refine ⟨rfl, by omega, ?_, ?_⟩
            · rw [hparts, List.concat_eq_append]
              exact passes_concat.mpr ⟨hpasses, by simpa using hentry, hlast.1⟩
            · have hnone := hlast.2
              rw [List.nil_append, hkey] at hnone
              simp [hnone]
    · simp at h
  · simp at h

/-- **What was written is read.** -/
theorem read_write (h : tree.write p text = .ok after) : after.read p = .ok text := by
  obtain ⟨rfl, hname, hlength, hpasses, hp⟩ := write_cases h
  exact read_eq_ok_iff.mpr (find_put_self hname hlength hpasses hp)

/-- **Other files keep their texts** when one is written. -/
theorem read_write_other {old : Text} (h : tree.write p text = .ok after) (hne : key q ≠ key p)
    (hread : tree.read q = .ok old) : after.read q = .ok old := by
  obtain ⟨rfl, -, -, -, hp⟩ := write_cases h
  exact read_eq_ok_iff.mpr (find_put_other hp hne (read_eq_ok_iff.mp hread))

/-- A file that can be read can be written. -/
theorem exists_write {old : Text} (h : tree.read p = .ok old) (text : Text) :
    ∃ after, tree.write p text = .ok after :=
  ⟨tree.put p (.file text), by rw [write, read_eq_ok_iff.mp h]⟩

end TaskList.FileTree
