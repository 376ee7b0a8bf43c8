/-
TaskList.Proofs.Settings.Typed — settings whose values have the kinds that they
should have.

* `TypedSettings` — texts, a number, truth values and orders, and
  `TypedSettings.given` — these as settings that are given.
* `TypedSettings.settled` — the profile that they make, field by field, and
  `TypedSettings.warnings` — what is put right in it. `profile_given` says so, and
  `exists_profile_iff` that they make none only where a name starts with a user whose
  name there cannot be.
* `Home.expand_expand` — a home directory is spelled out once. So the settings of a
  profile make it again, without a warning (`TypedSettings.profile_settled`).
-/
import TaskList.Proofs.Settings.Usable

namespace TaskList

open Profile (GivenOrder)

/-! ## Home directories -/

namespace Home

/-- No home directory starts with a tilde. -/
def IsSpelledOut (home : Home) : Prop :=
  home.own.head? ≠ some '~' ∧ ∀ account ∈ home.others, account.2.head? ≠ some '~'

instance (home : Home) : Decidable home.IsSpelledOut :=
  haveI := List.decidableBAll (fun account : Text × Text => account.2.head? ≠ some '~') home.others
  instDecidableAnd

variable {home : Home} {t : Text}

theorem dropSlashes_prefix (t : Text) : dropSlashes t <+: t := by
  have hsuffix : t.reverse.dropWhile (· == '/') <:+ t.reverse := List.dropWhile_suffix _
  simpa [dropSlashes] using List.reverse_prefix.mpr hsuffix

theorem head?_of_folder? (h : home.IsSpelledOut) {user folder : Text}
    (hfolder : home.folder? user = some folder) : folder.head? ≠ some '~' := by
  unfold folder? at hfolder
  split at hfolder
  · rw [← Option.some.inj hfolder]
    exact h.1
  · obtain ⟨account, hfound, rfl⟩ := Option.map_eq_some_iff.mp hfolder
    exact h.2 account (List.mem_of_find?_eq_some hfound)

/-- What stands behind the name of a user starts with a slash, if it starts at all. -/
theorem head?_dropWhile_ne (rest : Text) : (rest.dropWhile (· != '/')).head? ≠ some '~' := by
  intro h
  have hfirst := List.head?_dropWhile_not (· != '/') rest
  rw [h] at hfirst
  simp at hfirst

/-- A name is as it was, or it does not start with a tilde any more. -/
theorem expand_cases (h : home.IsSpelledOut) (t : Text) :
    home.expand t = t ∨ (home.expand t).head? ≠ some '~' := by
  unfold expand
  split
  · rename_i rest
    split
    · exact .inl rfl
    · rename_i folder hfolder
      refine .inr ?_
      split
      · decide
      · rename_i expanded hexpanded
        have hfirst := head?_of_folder? h hfolder
        have hrest := head?_dropWhile_ne rest
        obtain ⟨slashes, hslashes⟩ := dropSlashes_prefix folder
        rw [← hslashes, List.head?_append] at hfirst
        rw [List.head?_append]
        cases hhead : (dropSlashes folder).head? with
        | none => simpa using hrest
        | some c =>
          rw [hhead] at hfirst
          simpa using hfirst
  · exact .inl rfl

theorem expand_of_head? (h : t.head? ≠ some '~') : home.expand t = t := by
  unfold expand
  split
  · simp at h
  · rfl

theorem userFault?_of_head? (h : t.head? ≠ some '~') : userFault? t = none := by
  unfold userFault?
  split
  · simp at h
  · rfl

/-- **A home directory is spelled out once.** -/
theorem expand_expand (h : home.IsSpelledOut) (t : Text) :
    home.expand (home.expand t) = home.expand t := by
  rcases expand_cases h t with hsame | hhead
  · rw [hsame, hsame]
  · exact expand_of_head? hhead

theorem userFault?_expand (h : home.IsSpelledOut) (ht : userFault? t = none) :
    userFault? (home.expand t) = none := by
  rcases expand_cases h t with hsame | hhead
  · rw [hsame, ht]
  · exact userFault?_of_head? hhead

end Home

/-! ## Typed settings -/

/-- An order as it is given: itself, or a text that may name it. -/
inductive TypedOrder where
  | order (o : GroupOrder)
  | name (t : Text)

/-- The settings as they are given, each of the kind that it should have. -/
structure TypedSettings where
  /-- What stands in front of a done task. -/
  doneMark : Text := "x ".toList
  /-- What stands in front of a comment. -/
  commentMark : Text := "# ".toList
  /-- How many columns make one level of indentation. -/
  tabSize : Int := 4
  /-- Is a task completed by a completion tag, or by the done mark? -/
  stampsCompletion : Bool := true
  /-- Does a completion tag hold the time of day? -/
  stampsTime : Bool := false
  /-- The order of the tags. -/
  tagOrder : TypedOrder := .order .alphabetic
  /-- The order of the projects. -/
  projectOrder : TypedOrder := .order .alphabetic
  /-- The order of the contexts. -/
  contextOrder : TypedOrder := .order .alphabetic
  /-- The task file to use when none is named. -/
  defaultFile : Text := []
  /-- The folder of the configuration document. -/
  dataFolder : Text := "~/.todo-md".toList

namespace TypedOrder

/-- The order among those that are given. -/
def given : TypedOrder → GivenOrder
  | order o => .order o
  | name t => .value (.text t)

/-- The order that counts. -/
def settled : TypedOrder → GroupOrder
  | order o => o
  | name t => (GroupOrder.ofName? (String.ofList t)).getD .alphabetic

/-- What is said of a text that names no order. -/
def warnings (setting : String) : TypedOrder → List Warning
  | order _ => []
  | name t =>
    match GroupOrder.ofName? (String.ofList t) with
    | some _ => []
    | none => [.order setting (.text t)]

theorem orderOf_given (setting : String) (o : TypedOrder) :
    Profile.orderOf setting o.given = (o.settled, o.warnings setting) := by
  cases o with
  | order o => rfl
  | name t =>
    simp only [given, Profile.orderOf, Profile.order?, settled, warnings]
    cases GroupOrder.ofName? (String.ofList t) <;> rfl

/-- An order is found by its name. -/
theorem settled_name (o : GroupOrder) : (name o.name.toList).settled = o := by
  cases o <;> rfl

theorem warnings_name (setting : String) (o : GroupOrder) :
    (name o.name.toList).warnings setting = [] := by
  cases o <;> rfl

end TypedOrder

namespace TypedSettings

variable {home : Home} {typed : TypedSettings}

/-- The settings as they are given. -/
def given (typed : TypedSettings) : Given where
  doneMark := .text typed.doneMark
  commentMark := .text typed.commentMark
  tabSize := .int typed.tabSize
  stampsCompletion := .bool typed.stampsCompletion
  stampsTime := .bool typed.stampsTime
  tagOrder := typed.tagOrder.given
  projectOrder := typed.projectOrder.given
  contextOrder := typed.contextOrder.given
  defaultFile := .text typed.defaultFile
  dataFolder := .text typed.dataFolder

/-- The tab size that counts. -/
def columns (typed : TypedSettings) : Int := if typed.tabSize < 1 then 4 else typed.tabSize

/-- The profile that the settings make. -/
def settled (home : Home) (typed : TypedSettings) : Profile where
  doneMark := .text typed.doneMark
  commentMark := .text typed.commentMark
  tabSize := .int typed.columns
  stampsCompletion := .bool typed.stampsCompletion
  stampsTime := .bool typed.stampsTime
  tagOrder := typed.tagOrder.settled
  projectOrder := typed.projectOrder.settled
  contextOrder := typed.contextOrder.settled
  defaultFile := .text (home.expand typed.defaultFile)
  dataFolder := .text (home.expand typed.dataFolder)

/-- What is said of settings that are put right. -/
def warnings (typed : TypedSettings) : List Warning :=
  (if typed.tabSize < 1 then [.tabSize (.int typed.tabSize)] else []) ++
    typed.tagOrder.warnings "sort_tags_view" ++ typed.projectOrder.warnings "sort_projects_view" ++
    typed.contextOrder.warnings "sort_contexts_view"

/-- The names of files start with no user whose name there cannot be. -/
structure HasUsers (typed : TypedSettings) : Prop where
  dataFolder : Home.userFault? typed.dataFolder = none
  defaultFile : Home.userFault? typed.defaultFile = none

theorem one_le_columns (typed : TypedSettings) : 1 ≤ typed.columns := by
  unfold columns
  split <;> omega

theorem belowOne_exact (n : Int) : (Binary64.exact n).belowOne = decide (n < 1) := by
  have hsigned : ∀ n : Int, Binary64.signed (decide (n < 0)) n.natAbs = n := fun n => by
    by_cases h : n < 0
    · rw [decide_eq_true h, Binary64.signed, if_pos rfl, Int.ofNat_natAbs_of_nonpos (by omega),
        Int.neg_neg]
    · rw [decide_eq_false h, Binary64.signed, if_neg Bool.false_ne_true,
        Int.natAbs_of_nonneg (by omega)]
  simp only [Binary64.belowOne, Binary64.lt, Binary64.exact, Binary64.le, Binary64.shifted,
    Int.min_self, Int.sub_self, Int.toNat_zero, Nat.pow_eq, Nat.pow_zero, Nat.mul_one, hsigned]
  by_cases h : n < 1
  · simp only [h, decide_true, Bool.and_eq_true, decide_eq_true_eq, Bool.not_eq_true',
      decide_eq_false_iff_not]
    omega
  · simp only [h, decide_false, Bool.and_eq_false_iff, decide_eq_false_iff_not,
      Bool.not_eq_false', decide_eq_true_eq]
    omega

theorem tabSizeOf_int (n : Int) : Profile.tabSizeOf (.int n) =
    .ok (.int (if n < 1 then 4 else n), if n < 1 then [.tabSize (.int n)] else []) := by
  simp only [Profile.tabSizeOf, Yaml.Value.number?, belowOne_exact]
  by_cases h : n < 1 <;> simp [h]

theorem nameOf_text {t : Text} (h : Home.userFault? t = none) :
    Profile.nameOf home (.text t) = .ok (.text (home.expand t)) := by
  simp [Profile.nameOf, Profile.expanded, h, Except.map]

theorem fileOf_text {t : Text} (h : Home.userFault? t = none) :
    Profile.fileOf home (.text t) = .ok (.text (home.expand t)) := by
  unfold Profile.fileOf
  cases t with
  | nil => rfl
  | cons c rest => exact nameOf_text h

/-- **The profile that typed settings make.** -/
theorem profile_given (home : Home) (h : typed.HasUsers) :
    typed.given.profile home = .ok (typed.settled home, typed.warnings) := by
  simp only [Given.profile, given, nameOf_text h.dataFolder, fileOf_text h.defaultFile,
    tabSizeOf_int, TypedOrder.orderOf_given, bind, Except.bind, pure, Except.pure]
  rfl

/-- **Typed settings make a profile** unless a name starts with a user whose name there
cannot be. -/
theorem exists_profile_iff (home : Home) :
    (∃ made, typed.given.profile home = .ok made) ↔ typed.HasUsers := by
  constructor
  · rintro ⟨made, hmade⟩
    have hnone : ∀ fault, ¬ typed.given.HasFault fault := by
      intro fault hfault
      rw [Given.profile_hasFault hfault] at hmade
      cases hmade
    cases hfolder : Home.userFault? typed.dataFolder with
    | some fault => exact absurd (.inl ⟨_, rfl, hfolder⟩) (hnone fault)
    | none =>
      cases hfile : Home.userFault? typed.defaultFile with
      | some fault =>
        have htrue : typed.given.defaultFile.isTrue = true := by
          cases ht : typed.defaultFile <;> simp_all [Home.userFault?, given, Yaml.Value.isTrue]
        exact absurd (.inr ⟨⟨_, rfl, hfolder⟩, htrue, _, rfl, hfile⟩) (hnone fault)
      | none => exact ⟨hfolder, hfile⟩
  · exact fun h => ⟨_, profile_given home h⟩

/-! ## Settings of a profile -/

/-- The settings of the profile that settings make, with its orders written in some
way. -/
def again (home : Home) (typed : TypedSettings) (write : GroupOrder → TypedOrder) :
    TypedSettings where
  doneMark := typed.doneMark
  commentMark := typed.commentMark
  tabSize := typed.columns
  stampsCompletion := typed.stampsCompletion
  stampsTime := typed.stampsTime
  tagOrder := write typed.tagOrder.settled
  projectOrder := write typed.projectOrder.settled
  contextOrder := write typed.contextOrder.settled
  defaultFile := home.expand typed.defaultFile
  dataFolder := home.expand typed.dataFolder

theorem columns_again (write : GroupOrder → TypedOrder) :
    (typed.again home write).columns = typed.columns := by
  have := typed.one_le_columns
  change (if typed.columns < 1 then 4 else typed.columns) = typed.columns
  rw [if_neg (by omega)]

/-- The settings of a profile make it again, however its orders are written. -/
theorem profile_again (hhome : home.IsSpelledOut) (h : typed.HasUsers)
    (write : GroupOrder → TypedOrder) (hwrite : ∀ o, (write o).settled = o)
    (hquiet : ∀ setting o, (write o).warnings setting = []) :
    (typed.again home write).given.profile home = .ok (typed.settled home, []) := by
  have husers : (typed.again home write).HasUsers :=
    ⟨Home.userFault?_expand hhome h.dataFolder, Home.userFault?_expand hhome h.defaultFile⟩
  have hsettled : (typed.again home write).settled home = typed.settled home := by
    rw [settled, columns_again]
    simp only [again, hwrite, Home.expand_expand hhome]
    rfl
  have hcolumns : ¬ (typed.again home write).tabSize < 1 := Int.not_lt.mpr typed.one_le_columns
  have hwarnings : (typed.again home write).warnings = [] := by
    rw [warnings, if_neg hcolumns]
    simp only [again, hquiet, List.append_nil]
  rw [profile_given home husers, hsettled, hwarnings]

/-- **The settings of a profile make it again.** -/
theorem profile_settled (hhome : home.IsSpelledOut) (h : typed.HasUsers) :
    (typed.settled home).given.profile home = .ok (typed.settled home, []) :=
  profile_again hhome h .order (fun _ => rfl) fun _ _ => rfl

end TypedSettings

end TaskList
