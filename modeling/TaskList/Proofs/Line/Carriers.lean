/-
TaskList.Proofs.Line.Carriers — what a line says of a key.

* `Key.carriers` — of some tokens those that carry a key, from left to right. A key has
  a field if there is one (`Line.isSome_fieldOf?_iff`), and a line cannot be read if the
  first one of some key is too long (`Line.firstOverlong_iff`).
* `Line.tokensOf` — the tokens of parts. `Laid.map_tokens` — they are those of the line,
  wherever its start ends. `Laid.exists_read` — so they say whether the line can be read,
  and whether its task is open.
* `Laid.not_carries_front` — the tag that a field is read from is the first one that
  carries its key.
-/
import TaskList.Proofs.Document.Overlong
import TaskList.Proofs.Line.Leftmost
import TaskList.Proofs.Line.Whole

namespace TaskList

namespace Key

instance (key : Key) (value : Option Text) : Decidable (key.Takes value) :=
  decidable_of_iff ((Field.ofTag? ⟨1, by decide, by decide⟩ 0 key value).toOption ≠ some none) <| by
    constructor
    · intro hread
      refine Classical.byContradiction fun hnot => hread ?_
      rw [Field.ofTag?_of_not_takes hnot]
      rfl
    · intro htakes hread
      cases h : Field.ofTag? ⟨1, by decide, by decide⟩ 0 key value with
      | error e => simp [h, Except.toOption] at hread
      | ok found =>
        rw [h] at hread
        obtain rfl : found = none := Option.some.inj hread
        exact Field.not_takes_of_ofTag? h htakes

theorem carries_tag_iff {key : Key} {letters : Text} {value : Option Text} :
    key.Carries (.tag letters value) ↔ letters = key.text ∧ key.Takes value := by
  constructor
  · rintro ⟨_, htag, htakes⟩
    obtain ⟨rfl, rfl⟩ := Token.tag.inj htag
    exact ⟨rfl, htakes⟩
  · rintro ⟨rfl, htakes⟩
    exact ⟨value, rfl, htakes⟩

theorem not_carries_mention (key : Key) (group : Group) (name : Text) :
    ¬ key.Carries (.mention group name) := by
  rintro ⟨_, htag, -⟩
  exact Token.noConfusion htag

instance (key : Key) : (token : Token) → Decidable (key.Carries token)
  | .mention group name => .isFalse (key.not_carries_mention group name)
  | .tag _ _ => decidable_of_iff' _ carries_tag_iff

/-- A token carries one key at most. -/
theorem Carries.unique {key other : Key} {token : Token} (h : key.Carries token)
    (h' : other.Carries token) : key = other := by
  obtain ⟨_, rfl, -⟩ := h
  exact text_injective (carries_tag_iff.mp h').1

/-- The tokens that carry a key, from left to right. -/
def carriers (key : Key) (found : List Token) : List Token :=
  found.filter fun token => key.Carries token

@[simp] theorem carriers_append (key : Key) (found more : List Token) :
    key.carriers (found ++ more) = key.carriers found ++ key.carriers more :=
  List.filter_append found more

@[simp] theorem mem_carriers {key : Key} {found : List Token} {token : Token} :
    token ∈ key.carriers found ↔ token ∈ found ∧ key.Carries token := by
  simp [carriers]

theorem carriers_eq_nil_iff {key : Key} {found : List Token} :
    key.carriers found = [] ↔ ∀ token ∈ found, ¬ key.Carries token := by
  simp [carriers]

theorem carriers_cons_of_carries {key : Key} {token : Token} (h : key.Carries token)
    (found : List Token) : key.carriers (token :: found) = token :: key.carriers found :=
  List.filter_cons_of_pos (by simpa using h)

theorem carriers_cons_of_not {key : Key} {token : Token} (h : ¬ key.Carries token)
    (found : List Token) : key.carriers (token :: found) = key.carriers found :=
  List.filter_cons_of_neg (by simpa using h)

/-- Nothing is too long but a counter and a due expression. -/
theorem Overlong.eq_or {key : Key} {value : Option Text} {n : Nat} (h : key.Overlong value n) :
    key = .count ∨ key = .due := by
  cases key <;> cases value <;> first | exact h.elim | simp

end Key

namespace Line

/-! ## What the fields of a line say of its tokens -/

section Read

variable {settings : Settings} {unit : Option IndentUnit} {target : Day} {number : Int}
  {raw : Text} {task : Task}

theorem isSome_fieldOf?_iff (h : read settings unit target number raw = .ok task) (key : Key) :
    (task.fieldOf? key).isSome ↔
      key.carriers ((tokens raw (startOf settings unit raw)).map (·.value)) ≠ [] := by
  rw [(takesTags_of_read h).set_iff, Ne, Key.carriers_eq_nil_iff]
  simp

/-- **A line cannot be read** if the first tag that carries some key is too long. -/
theorem firstOverlong_iff {found : List (Located Token)} {n : Nat} :
    FirstOverlong [] found n ↔ ∃ (key : Key) (value : Option Text) (rest : List Token),
      key.carriers (found.map (·.value)) = .tag key.text value :: rest ∧
        key.Overlong value n := by
  constructor
  · rintro ⟨key, -, front, span, value, back, rfl, hfront, htakes, hlong⟩
    refine ⟨key, value, key.carriers (back.map (·.value)), ?_, hlong⟩
    have hnone : key.carriers (front.map (·.value)) = [] := by
      rw [Key.carriers_eq_nil_iff]
      simpa using fun x hx => hfront x hx
    rw [List.map_append, Key.carriers_append, hnone, List.nil_append]
    exact Key.carriers_cons_of_carries ⟨value, rfl, htakes⟩ _
  · rintro ⟨key, value, rest, hcarriers, hlong⟩
    obtain ⟨front, back, hsplit, hfront, hcarries, -⟩ := List.filter_eq_cons_iff.mp hcarriers
    obtain ⟨front, behind, rfl, rfl, hbehind⟩ := List.map_eq_append_iff.mp hsplit
    obtain ⟨⟨span, token⟩, back, rfl, rfl, rfl⟩ := List.map_eq_cons_iff.mp hbehind
    refine ⟨key, List.not_mem_nil, front, span, value, back, rfl, fun x hx => ?_, ?_, hlong⟩
    · simpa using hfront x.value (List.mem_map_of_mem hx)
    · exact (Key.carries_tag_iff.mp (of_decide_eq_true hcarries)).2

/-- The first tag of every key can be read, if the key asks for it. -/
def AreReadable (found : List Token) : Prop :=
  ∀ (key : Key) (value : Option Text) (rest : List Token),
    key.carriers found = .tag key.text value :: rest → ∀ n, ¬ key.Overlong value n

theorem areReadable_of_fields {used : List (Located Token)} {found : List (Located Field)}
    (h : fields target [] used = .ok found) : AreReadable (used.map (·.value)) := by
  intro key value rest hcarriers n hlong
  obtain ⟨e, he⟩ := (fields_failsOn target [] used).exists_error n
    (firstOverlong_iff.mpr ⟨key, value, rest, hcarriers, hlong⟩)
  rw [h] at he
  cases he

/-- A line that starts with the done mark behind its indentation is marked. -/
theorem isSome_marker_iff (h : read settings unit target number raw = .ok task)
    (hne : settings.doneMark ≠ []) :
    task.marker.isSome ↔ settings.doneMark <+: raw.dropWhile isIndent := by
  have hdrop : raw.drop (raw.takeWhile isIndent).length = raw.dropWhile isIndent := by
    conv_lhs => rw [← List.takeWhile_append_dropWhile (p := isIndent) (l := raw)]
    rw [List.drop_left' (by simp)]
  have hmarker : task.marker = marker? settings.doneMark (raw.takeWhile isIndent).length
      (raw.dropWhile isIndent) := by
    rw [← hdrop]
    exact congrArg Task.marker (read_eq_ok h).2
  rw [hmarker, marker?, ← List.isPrefixOf_iff_prefix]
  split <;> simp_all

/-- A task is done if it is marked, or a tag says so. -/
theorem isDone_iff (h : read settings unit target number raw = .ok task) :
    task.isDone = true ↔ task.marker.isSome ∨
      Key.completed.carriers ((tokens raw (startOf settings unit raw)).map (·.value)) ≠ [] := by
  rw [← isSome_fieldOf?_iff h .completed, Task.isDone, Bool.or_eq_true, Task.fieldOf?,
    Option.isSome_map]

end Read

/-! ## The tokens of parts -/

/-- The tokens of parts. -/
def tokensOf (parts : List Part) : List Token := parts.filterMap Part.token?

section Tokens

variable {settings : Settings} {target : Day} {before : Option Char} {used : List Key}
  {parts front behind : List Part} {after : Text}

@[simp] theorem tokensOf_append (parts rest : List Part) :
    tokensOf (parts ++ rest) = tokensOf parts ++ tokensOf rest := List.filterMap_append

@[simp] theorem tokensOf_plainParts (t : Text) : tokensOf (plainParts t) = [] := by
  simp [tokensOf, plainParts, Part.token?]

theorem map_tokensAt (column : Nat) (parts : List Part) :
    (tokensAt column parts).map (·.value) = tokensOf parts := by
  induction parts generalizing column with
  | nil => rfl
  | cons part parts ih =>
    rw [tokensAt, List.map_append, ih, tokensOf, tokensOf, List.filterMap_cons]
    cases part.token? <;> rfl

/-- **The tokens of a line are those of its parts**, wherever its start ends. -/
theorem Laid.map_tokens (h : Laid target none used parts [])
    (hmark : settings.doneMark = "x ".toList) (unit : Option IndentUnit) :
    (tokens (textOf parts) (startOf settings unit (textOf parts))).map (·.value) =
      tokensOf parts := by
  obtain ⟨blanks, mark, letter, rest, hcut⟩ :=
    head_cut settings (indentUnit settings unit) (textOf parts)
  have hplain := hcut.isPlain hmark
  obtain ⟨behind, hwhole, hbehind⟩ :=
    exists_plainParts (List.take_append_drop _ (textOf parts)).symm hplain
  rw [hwhole] at h
  have hlaid := (laid_plainParts_append hplain).mp h
  rw [Option.or_none] at hlaid
  have htokens : tokensOf parts = tokensOf behind := by
    rw [hwhole, tokensOf_append, tokensOf_plainParts, List.nil_append]
  rw [htokens, ← map_tokensAt (startOf settings unit (textOf parts)), ← hlaid.scan_eq, tokens,
    startOf, hbehind]

/-- The tokens of a line that is laid out. -/
theorem LaidOut.map_tokens {unit : Option IndentUnit} {raw : Text}
    (h : LaidOut settings unit target raw parts) (hmark : settings.doneMark = "x ".toList) :
    (tokens raw (startOf settings unit raw)).map (·.value) =
      tokensOf (wholeOf settings unit raw parts) := by
  have hwhole := (h.laid_whole hmark).map_tokens hmark unit
  rwa [h.textOf_whole] at hwhole

/-- **A line of parts can be read** if the first tag of every key can. Its task is open
if it is not marked and no tag says that it is done. -/
theorem Laid.exists_read (h : Laid target none used parts [])
    (hmark : settings.doneMark = "x ".toList) (hreadable : AreReadable (tokensOf parts))
    (unit : Option IndentUnit) (day : Day) (number : Int) :
    ∃ task, read settings unit day number (textOf parts) = .ok task ∧
      (task.isDone = false ↔ ¬ settings.doneMark <+: (textOf parts).dropWhile isIndent ∧
        Key.completed.carriers (tokensOf parts) = []) := by
  have htokens := h.map_tokens hmark unit
  rw [← htokens] at hreadable ⊢
  obtain ⟨task, htask⟩ := (read_failsOn settings unit day number (textOf parts)).exists_ok
    fun n hlong => by
      obtain ⟨key, front, span, value, back, hfound, hfront, htakes, hlong⟩ := hlong
      obtain ⟨key, value, rest, hcarriers, hlong⟩ := firstOverlong_iff.mp
        ⟨key, List.not_mem_nil, front, span, value, back, hfound, hfront, htakes, hlong⟩
      exact hreadable key value rest hcarriers n hlong
  refine ⟨task, htask, ?_⟩
  rw [← Bool.not_eq_true, isDone_iff htask, isSome_marker_iff htask (by rw [hmark]; decide),
    not_or, not_not]

/-- A part has the keys that its token carries. -/
theorem Part.Stands.carries_iff {part : Part} {token : Token}
    (h : part.Stands target before used after) (htoken : part.token? = some token) {key : Key}
    (hfree : key ∉ used) : key.Carries token ↔ key ∈ part.keys := by
  cases part with
  | plain c => exact absurd htoken.symm (Option.some_ne_none token)
  | kept other =>
    obtain rfl := Option.some.inj htoken
    exact carries_of_field? h.2.2 key hfree
  | taken other field =>
    obtain rfl := Option.some.inj htoken
    exact carries_of_field? h.2.2 key hfree

/-- **No tag in front of the one of a field** carries its key. -/
theorem Laid.not_carries_front (h : Laid target before used (front ++ behind) after) {part : Part}
    (hpart : part ∈ behind) {key : Key} (hkey : key ∈ part.keys) :
    ∀ token ∈ tokensOf front, ¬ key.Carries token := by
  induction front generalizing before used with
  | nil => simp [tokensOf]
  | cons first front ih =>
    intro token hmem hcarries
    obtain ⟨other, hother, htoken⟩ := List.mem_filterMap.mp hmem
    rcases List.mem_cons.mp hother with rfl | hother
    · -- the key would be used up in front of the part
      have hfree := h.keys_notMem (List.mem_append_right _ hpart) hkey
      have hused := (h.1.carries_iff htoken hfree).mp hcarries
      exact h.2.keys_notMem (List.mem_append_right _ hpart) hkey (List.mem_append_left _ hused)
    · exact ih h.2 token (List.mem_filterMap.mpr ⟨other, hother, htoken⟩) hcarries

end Tokens

end Line

end TaskList
