/-
TaskList.Proofs.Line.Fields — which tokens of a line become fields.

* `Key.Takes` — the values that a key asks for, said without the readers of
  the fields. `Field.Tells` — what a field says of the value it was read from.
* `Line.Reading` — how fields are read from tokens, as a relation with one
  rule for each thing that can happen to a token. `reading_of_fields` says
  that this is all that happens, and everything else here is an induction
  over the relation.
* `Reading.from_token`, `Reading.keys_apart`, `Reading.field_of_carries` —
  each field comes from a token at its columns, no two have one key, and a
  key with a fitting tag has a field no further right than that tag.
-/
import TaskList.Proofs.Text.Pieces
import TaskList.Line.Read

namespace TaskList

/-! ## Keys, and what they ask for -/

namespace Key

theorem text_injective {key other : Key} (h : key.text = other.text) : key = other := by
  cases key <;> cases other <;> first | rfl | (revert h; decide)

theorem ofText?_eq_some_iff {t : Text} {key : Key} : ofText? t = some key ↔ t = key.text := by
  constructor
  · intro h
    have := List.find?_some h
    simp only [beq_iff_eq] at this
    exact this.symm
  · rintro rfl
    cases key <;> decide

/-- The values that a key asks for. A counter may have a line feed behind
it. -/
def Takes : Key → Option Text → Prop
  | .due, some v => ∃ c ∈ v, isBlank c = false
  | .completed, none => True
  | .completed, some v => ∃ i, Instant.parse? v = some i
  | .created, some v => ∃ i, Instant.parse? v = some i
  | .count, some v => ∃ current needed tail, v = current ++ '/' :: (needed ++ tail) ∧
      current ≠ [] ∧ needed ≠ [] ∧ (∀ c ∈ current, Numeral.isDigit c = true) ∧
      (∀ c ∈ needed, Numeral.isDigit c = true) ∧ (tail = [] ∨ tail = ['\n'])
  | .overdue, some v => ∃ d, Day.parse? v = some d
  | .hidden, none => True
  | .collapsed, none => True
  | _, _ => False

/-- Is the token a tag with the key and a value that it asks for? -/
def Carries (key : Key) (token : Token) : Prop :=
  ∃ value, token = .tag key.text value ∧ key.Takes value

end Key

/-! ## Fields, and what they say -/

namespace Field

/-- The key of the tag that a field is read from; none for a mention. -/
def key? : Field → Option Key
  | .due _ => some .due
  | .completed _ => some .completed
  | .created _ => some .created
  | .count _ => some .count
  | .overdue _ => some .overdue
  | .hidden => some .hidden
  | .collapsed => some .collapsed
  | .mention _ _ => none

/-- What a field says of the value of a tag that starts at `column`, on a
day. -/
def Tells (target : Day) (column : Nat) : Field → Key → Option Text → Prop
  | .due tag, .due, some v => Due.Expression.read v = .ok tag.expression ∧
      tag.state = tag.expression.stateOn target
  | .completed none, .completed, none => True
  | .completed (some i), .completed, some v => Instant.parse? v = some i
  | .created i, .created, some v => Instant.parse? v = some i
  | .count c, .count, some v => ∃ current needed tail, v = current ++ '/' :: (needed ++ tail) ∧
      (tail = [] ∨ tail = ['\n']) ∧
      current ≠ [] ∧ (∀ d ∈ current, Numeral.isDigit d = true) ∧
      Numeral.value current = .ok c.current ∧ Numeral.value needed = .ok c.needed ∧
      c.digits = ⟨column + 7, column + 7 + current.length⟩
  | .overdue d, .overdue, some v => Day.parse? v = some d
  | .hidden, .hidden, none => True
  | .collapsed, .collapsed, none => True
  | _, _, _ => False

/-- Is the field, at a column, what the token says? -/
def ReadFrom (target : Day) (column : Nat) (field : Field) : Token → Prop
  | .mention group name => field = .mention group name
  | .tag letters value =>
    ∃ key : Key, letters = key.text ∧ field.Tells target column key value ∧ key.Takes value

theorem Tells.key?_eq {target : Day} {column : Nat} {field : Field} {key : Key}
    {value : Option Text} (h : field.Tells target column key value) : field.key? = some key := by
  cases field <;> cases key <;> first | rfl | simp [Tells] at h

/-- The two runs of digits in the value of a counter. -/
theorem countDigits?_eq_some_iff {v current needed : Text} :
    countDigits? v = some (current, needed) ↔
      v.chomp = current ++ '/' :: needed ∧ current ≠ [] ∧ needed ≠ [] ∧
      (∀ c ∈ current, Numeral.isDigit c = true) ∧ ∀ c ∈ needed, Numeral.isDigit c = true := by
  constructor
  · intro h
    have hcut : v.chomp.takeWhile Numeral.isDigit ++ v.chomp.dropWhile Numeral.isDigit = v.chomp :=
      List.takeWhile_append_dropWhile
    unfold countDigits? at h
    split at h
    · simp at h
    · rename_i rest hrest hne
      split at h
      · rename_i hneeded
        cases h
        rw [hrest] at hcut
        refine ⟨hcut.symm, hne, hneeded.1, fun c hc => ?_, fun c hc => ?_⟩
        · exact List.all_eq_true.mp List.all_takeWhile c hc
        · exact List.all_eq_true.mp hneeded.2 c hc
      · simp at h
    · simp at h
  · rintro ⟨hv, hne, hne', hcurrent, hneeded⟩
    obtain ⟨htake, hdrop⟩ := Text.takeWhile_run (p := Numeral.isDigit) ('/' :: needed) hcurrent
      (by simp [Numeral.isDigit])
    rw [countDigits?, hv, htake, hdrop]
    cases current with
    | nil => exact absurd rfl hne
    | cons c current => simp [hne', List.all_eq_true.mpr hneeded]

/-- A value that is a counter, but for a line feed behind it. -/
theorem exists_tail_of_chomp {v t : Text} (h : v.chomp = t) :
    ∃ tail, v = t ++ tail ∧ (tail = [] ∨ tail = ['\n']) := by
  rcases Text.chomp_cases v with hv | hv
  · exact ⟨[], by rw [List.append_nil, ← h, ← hv], .inl rfl⟩
  · exact ⟨['\n'], by rw [← h, ← hv], .inr rfl⟩

/-- Digits at the end of a text are no line feed. -/
theorem chomp_of_digits (front : Text) {digits tail : Text} (hne : digits ≠ [])
    (hdigits : ∀ c ∈ digits, Numeral.isDigit c = true) (htail : tail = [] ∨ tail = ['\n']) :
    Text.chomp (front ++ (digits ++ tail)) = front ++ digits := by
  rcases htail with rfl | rfl
  · rw [List.append_nil]
    refine Text.chomp_of_last fun hlast => ?_
    rw [List.getLast?_append, List.getLast?_eq_some_getLast hne, Option.some_or] at hlast
    have hmem := List.getLast_mem hne
    rw [Option.some.inj hlast] at hmem
    exact absurd (hdigits _ hmem) (by decide)
  · rw [← List.append_assoc, Text.chomp_append]

/-- What is read from the value of a counter. -/
theorem tells_of_count? {target : Day} {column : Nat} {v : Text} {field : Field}
    (h : count? v (column + 7) = .ok (some field)) :
    field.Tells target column .count (some v) ∧ Key.count.Takes (some v) := by
  unfold count? at h
  split at h
  · simp at h
  · rename_i current needed hdigits
    obtain ⟨hv, hne, hne', hcurrent, hneeded⟩ := countDigits?_eq_some_iff.mp hdigits
    obtain ⟨tail, rfl, htail⟩ := exists_tail_of_chomp hv
    split at h
    · simp at h
    · simp at h
    · rename_i c n hc hn
      cases h
      exact ⟨⟨current, needed, tail, by simp, htail, hne, hcurrent, hc, hn, rfl⟩,
        ⟨current, needed, tail, by simp, hne, hne', hcurrent, hneeded, htail⟩⟩

theorem not_takes_of_count? {column : Nat} {v : Text} (h : count? v column = .ok none) :
    ¬ Key.count.Takes (some v) := by
  rintro ⟨current, needed, tail, rfl, hne, hne', hcurrent, hneeded, htail⟩
  have hv : Text.chomp (current ++ '/' :: (needed ++ tail)) = current ++ '/' :: needed := by
    simpa using chomp_of_digits (current ++ ['/']) hne' hneeded htail
  have hdigits := countDigits?_eq_some_iff.mpr ⟨hv, hne, hne', hcurrent, hneeded⟩
  rw [count?, hdigits] at h
  dsimp only at h
  split at h <;> simp at h

/-- What is read from the value of a due tag. -/
theorem tells_of_due? {target : Day} {column : Nat} {v : Text} {field : Field}
    (h : due? v target = .ok (some field)) :
    field.Tells target column .due (some v) ∧ Key.due.Takes (some v) := by
  unfold due? at h
  split at h
  · simp at h
  · rename_i hblank
    split at h
    · simp at h
    · rename_i expression hread
      cases h
      exact ⟨⟨hread, rfl⟩, by simpa [Text.allBlank, Key.Takes] using hblank⟩

theorem not_takes_of_due? {target : Day} {v : Text} (h : due? v target = .ok none) :
    ¬ Key.due.Takes (some v) := by
  unfold due? at h
  split at h
  · rename_i hblank
    rintro ⟨c, hc, hc'⟩
    have := List.all_eq_true.mp hblank c hc
    simp [hc'] at this
  · split at h <;> simp at h

/-- What is read from a tag says what the tag says. -/
theorem tells_of_ofTag? {target : Day} {column : Nat} {key : Key} {value : Option Text}
    {field : Field} (h : ofTag? target column key value = .ok (some field)) :
    field.Tells target column key value ∧ key.Takes value := by
  cases key <;> cases value <;> simp only [ofTag?, Except.ok.injEq, Option.some.injEq,
    Option.map_eq_some_iff, reduceCtorEq] at h
  case due.some v => exact tells_of_due? h
  case count.some v => exact tells_of_count? h
  case completed.some v =>
    obtain ⟨i, hi, rfl⟩ := h
    exact ⟨hi, i, hi⟩
  case created.some v =>
    obtain ⟨i, hi, rfl⟩ := h
    exact ⟨hi, i, hi⟩
  case overdue.some v =>
    obtain ⟨d, hd, rfl⟩ := h
    exact ⟨hd, d, hd⟩
  all_goals
    subst h
    exact ⟨trivial, trivial⟩

/-- Nothing is read from a tag only if its key asks for another value. -/
theorem not_takes_of_ofTag? {target : Day} {column : Nat} {key : Key} {value : Option Text}
    (h : ofTag? target column key value = .ok none) : ¬ key.Takes value := by
  cases key <;> cases value <;> simp only [ofTag?, Except.ok.injEq, Option.map_eq_none_iff,
    reduceCtorEq] at h
  case due.some v => exact not_takes_of_due? h
  case count.some v => exact not_takes_of_count? h
  all_goals simp_all [Key.Takes]

/-- From a tag whose key asks for another value nothing is read. -/
theorem ofTag?_of_not_takes {key : Key} {value : Option Text} (h : ¬ key.Takes value)
    (target : Day) (column : Nat) : ofTag? target column key value = .ok none := by
  have hnone : ∀ {α : Type} {found : Option α}, ¬ (∃ x, found = some x) → found = none :=
    fun hnot => Option.eq_none_iff_forall_ne_some.mpr fun x hx => hnot ⟨x, hx⟩
  cases key <;> cases value
  case due.some v =>
    have hblank : v.allBlank = true := List.all_eq_true.mpr fun c hc =>
      Decidable.byContradiction fun hc' => h ⟨c, hc, by simpa using hc'⟩
    rw [ofTag?, due?, if_pos hblank]
  case count.some v =>
    have hdigits : countDigits? v = none := hnone fun ⟨⟨current, needed⟩, hcut⟩ => by
      obtain ⟨hv, hne, hne', hcurrent, hneeded⟩ := countDigits?_eq_some_iff.mp hcut
      obtain ⟨tail, rfl, htail⟩ := exists_tail_of_chomp hv
      exact h ⟨current, needed, tail, by simp, hne, hne', hcurrent, hneeded, htail⟩
    rw [ofTag?, count?, hdigits]
  case completed.some v => rw [ofTag?, hnone h, Option.map_none]
  case created.some v => rw [ofTag?, hnone h, Option.map_none]
  case overdue.some v => rw [ofTag?, hnone h, Option.map_none]
  case completed.none => exact absurd trivial h
  case hidden.none => exact absurd trivial h
  case collapsed.none => exact absurd trivial h
  all_goals rfl

end Field

/-! ## Reading fields from tokens -/

namespace Line

/-- How fields are read from tokens, `used` being the keys that are used up
already. -/
inductive Reading (target : Day) :
    List Key → List (Located Token) → List (Located Field) → Prop where
  /-- No tokens, no fields. -/
  | done {used : List Key} : Reading target used [] []
  /-- A mention is a field. -/
  | mention {used : List Key} {span : Span} {group : Group} {name : Text}
      {rest : List (Located Token)} {found : List (Located Field)} :
      Reading target used rest found →
      Reading target used (⟨span, .mention group name⟩ :: rest)
        (⟨span, .mention group name⟩ :: found)
  /-- A tag is a field if its key is new and takes the value. -/
  | tag {used : List Key} {span : Span} {key : Key} {value : Option Text} {field : Field}
      {rest : List (Located Token)} {found : List (Located Field)} :
      key ∉ used → field.Tells target span.start key value → key.Takes value →
      Reading target (key :: used) rest found →
      Reading target used (⟨span, .tag key.text value⟩ :: rest) (⟨span, field⟩ :: found)
  /-- Every other tag is text. -/
  | kept {used : List Key} {span : Span} {letters : Text} {value : Option Text}
      {rest : List (Located Token)} {found : List (Located Field)} :
      (∀ key ∉ used, ¬ key.Carries (.tag letters value)) →
      Reading target used rest found →
      Reading target used (⟨span, .tag letters value⟩ :: rest) found

/-- The fields have no key in common. -/
def KeysApart (a b : Located Field) : Prop :=
  ∀ key, a.value.key? = some key → b.value.key? ≠ some key

instance : Std.Symm KeysApart where
  symm _ _ h key hb ha := h key ha hb

theorem field?_eq_none {target : Day} {used : List Key} {token : Located Token}
    (h : field? target used token = .ok none) :
    ∃ letters value, token.value = .tag letters value ∧
      ∀ key ∉ used, ¬ key.Carries (.tag letters value) := by
  unfold field? at h
  split at h
  · simp at h
  · rename_i letters value hvalue
    refine ⟨letters, value, hvalue, ?_⟩
    rintro key hkey ⟨value', heq, htakes⟩
    cases heq
    rw [Key.ofText?_eq_some_iff.mpr rfl] at h
    simp only [hkey, if_false] at h
    split at h
    · simp at h
    · rename_i hnone
      exact Field.not_takes_of_ofTag? hnone htakes
    · simp at h

/-- A tag is text if it carries no key that is free. -/
theorem field?_of_not_carries {used : List Key} {letters : Text} {value : Option Text}
    (h : ∀ key ∉ used, ¬ key.Carries (.tag letters value)) (target : Day) (span : Span) :
    field? target used ⟨span, .tag letters value⟩ = .ok none := by
  unfold field?
  dsimp only
  split
  · rfl
  · rename_i key hkey
    split
    · rfl
    · rename_i hfree
      have hnot : ¬ key.Takes value := fun htakes =>
        h key hfree ⟨value, by rw [Key.ofText?_eq_some_iff.mp hkey], htakes⟩
      rw [Field.ofTag?_of_not_takes hnot]

theorem field?_eq_some {target : Day} {used : List Key} {token : Located Token} {field : Field}
    {keys : List Key} (h : field? target used token = .ok (some (field, keys))) :
    (∃ group name, token.value = .mention group name ∧ field = .mention group name ∧ keys = []) ∨
    (∃ key value, token.value = .tag key.text value ∧ key ∉ used ∧
      field.Tells target token.span.start key value ∧ key.Takes value ∧ keys = [key]) := by
  unfold field? at h
  split at h
  · rename_i group name hvalue
    cases h
    exact .inl ⟨group, name, hvalue, rfl, rfl⟩
  · rename_i letters value hvalue
    split at h
    · simp at h
    · rename_i key hkey
      rw [Key.ofText?_eq_some_iff] at hkey
      subst hkey
      split at h
      · simp at h
      · rename_i hused
        split at h
        · simp at h
        · simp at h
        · rename_i hfield
          cases h
          obtain ⟨htells, htakes⟩ := Field.tells_of_ofTag? hfield
          exact .inr ⟨key, value, hvalue, hused, htells, htakes, rfl⟩

/-- The fields of a line are read from its tokens. -/
theorem reading_of_fields {target : Day} {tokens : List (Located Token)} {used : List Key}
    {found : List (Located Field)} (h : fields target used tokens = .ok found) :
    Reading target used tokens found := by
  induction tokens generalizing used found with
  | nil =>
    cases h
    exact .done
  | cons token rest ih =>
    obtain ⟨span, value⟩ := token
    unfold fields at h
    split at h
    · simp at h
    · rename_i hnone
      obtain ⟨letters, v, hvalue, hkept⟩ := field?_eq_none hnone
      cases hvalue
      exact .kept hkept (ih h)
    · rename_i field keys hsome
      split at h
      · simp at h
      · rename_i more hmore
        cases h
        obtain ⟨group, name, hvalue, rfl, rfl⟩ | ⟨key, v, hvalue, hused, htells, htakes, rfl⟩ :=
          field?_eq_some hsome
        · cases hvalue
          exact .mention (ih hmore)
        · cases hvalue
          exact .tag hused htells htakes (ih hmore)

namespace Reading

variable {target : Day} {used : List Key} {tokens : List (Located Token)}
  {found : List (Located Field)}

/-- The fields stand where their tokens stand, in the same order. -/
theorem spans_sublist (h : Reading target used tokens found) :
    (found.map (·.span)).Sublist (tokens.map (·.span)) := by
  induction h with
  | done => exact .slnil
  | mention _ ih => exact ih.cons_cons _
  | tag _ _ _ _ ih => exact ih.cons_cons _
  | kept _ _ ih => exact ih.cons _

/-- Each field is read from a token at its columns. -/
theorem from_token (h : Reading target used tokens found) {x : Located Field} (hx : x ∈ found) :
    ∃ token ∈ tokens, token.span = x.span ∧
      x.value.ReadFrom target x.span.start token.value := by
  induction h with
  | done => simp at hx
  | mention _ ih =>
    rcases List.mem_cons.mp hx with rfl | hx
    · exact ⟨_, List.mem_cons_self, rfl, rfl⟩
    · obtain ⟨token, hmem, hfrom⟩ := ih hx
      exact ⟨token, by simp [hmem], hfrom⟩
  | tag _ htells htakes _ ih =>
    rcases List.mem_cons.mp hx with rfl | hx
    · exact ⟨_, List.mem_cons_self, rfl, _, rfl, htells, htakes⟩
    · obtain ⟨token, hmem, hfrom⟩ := ih hx
      exact ⟨token, by simp [hmem], hfrom⟩
  | kept _ _ ih =>
    obtain ⟨token, hmem, hfrom⟩ := ih hx
    exact ⟨token, by simp [hmem], hfrom⟩

/-- A key that is used up has no field. -/
theorem key?_not_used (h : Reading target used tokens found) {x : Located Field} (hx : x ∈ found)
    {key : Key} (hkey : x.value.key? = some key) : key ∉ used := by
  induction h with
  | done => simp at hx
  | mention _ ih =>
    rcases List.mem_cons.mp hx with rfl | hx
    · simp [Field.key?] at hkey
    · exact ih hx
  | tag hused htells _ _ ih =>
    rcases List.mem_cons.mp hx with rfl | hx
    · rw [htells.key?_eq] at hkey
      cases hkey
      exact hused
    · exact fun hmem => ih hx (by simp [hmem])
  | kept _ _ ih => exact ih hx

/-- No two fields have one key. -/
theorem keys_apart (h : Reading target used tokens found) : found.Pairwise KeysApart := by
  induction h with
  | done => exact .nil
  | mention _ ih =>
    refine List.pairwise_cons.mpr ⟨fun b _ key hkey => ?_, ih⟩
    simp [Field.key?] at hkey
  | tag _ htells _ hrest ih =>
    refine List.pairwise_cons.mpr ⟨fun b hb key hkey hkey' => ?_, ih⟩
    rw [htells.key?_eq] at hkey
    cases hkey
    exact hrest.key?_not_used hb hkey' (by simp)
  | kept _ _ ih => exact ih

/-- A tag with a value that its key asks for gives the key a field, from
there or from further left. -/
theorem field_of_carries (h : Reading target used tokens found)
    (horder : tokens.Pairwise fun a b => a.span.start ≤ b.span.start) {key : Key}
    (hkey : key ∉ used) {token : Located Token} (htoken : token ∈ tokens)
    (hcarries : key.Carries token.value) :
    ∃ x ∈ found, x.value.key? = some key ∧ x.span.start ≤ token.span.start := by
  induction h with
  | done => simp at htoken
  | mention _ ih =>
    obtain ⟨-, horder⟩ := List.pairwise_cons.mp horder
    rcases List.mem_cons.mp htoken with rfl | htoken
    · obtain ⟨value, heq, -⟩ := hcarries
      simp at heq
    · obtain ⟨x, hx, hx'⟩ := ih horder hkey htoken
      exact ⟨x, by simp [hx], hx'⟩
  | @tag used span key' value field rest found hused htells _ _ ih =>
    obtain ⟨hfirst, horder⟩ := List.pairwise_cons.mp horder
    -- a tag of the key itself is the field; any other key stays free behind it
    by_cases hsame : key' = key
    · subst hsame
      refine ⟨⟨span, field⟩, by simp, htells.key?_eq, ?_⟩
      rcases List.mem_cons.mp htoken with rfl | htoken
      · exact Nat.le_refl _
      · exact hfirst token htoken
    · rcases List.mem_cons.mp htoken with rfl | htoken
      · obtain ⟨value', heq, -⟩ := hcarries
        simp only [Token.tag.injEq] at heq
        exact absurd (Key.text_injective heq.1) hsame
      · have hkey' : key ∉ key' :: used := by simp [hkey, Ne.symm hsame]
        obtain ⟨x, hx, hx'⟩ := ih horder hkey' htoken
        exact ⟨x, by simp [hx], hx'⟩
  | kept hnone _ ih =>
    obtain ⟨-, horder⟩ := List.pairwise_cons.mp horder
    rcases List.mem_cons.mp htoken with rfl | htoken
    · exact absurd hcarries (hnone key hkey)
    · exact ih horder hkey htoken

end Reading

end Line

end TaskList
