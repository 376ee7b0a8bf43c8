/-
TaskList.Proofs.Line.Counter — another number in the counter of a line.

* `Field.count?_eq_some_iff` — the value of a counter, cut into the digits of
  what is done and what is behind them.
* `Line.Part.recount` — a part with another number of what is done, and any
  part that is no counter as it is. `Laid.counter_cases` says that a line has
  one counter at most, so that `Laid.recount` changes one part of a line.
* `Task.withCount` — the line with the digits of another number in place of
  those at the columns of the counter. `LaidOut.withCount_eq` — that is the line
  with its parts recounted.
-/
import Mathlib.Data.List.DropRight
import TaskList.Proofs.Line.Changed
import TaskList.Proofs.Text.Digits

namespace TaskList

/-! ## The value of a counter -/

namespace Field

/-- What is behind the digits of what is done: a slash and the digits of what
is needed, and perhaps a line feed. -/
def IsScale (needed : Nat) (behind : Text) : Prop :=
  ∃ digits tail, behind = '/' :: (digits ++ tail) ∧ digits ≠ [] ∧
    (∀ c ∈ digits, Numeral.isDigit c = true) ∧ Numeral.value digits = .ok needed ∧
    (tail = [] ∨ tail = ['\n'])

theorem count?_eq_some_iff {v : Text} {column : Nat} {field : Field} :
    count? v column = .ok (some field) ↔
      ∃ current behind done needed, v = current ++ behind ∧ current ≠ [] ∧
        (∀ c ∈ current, Numeral.isDigit c = true) ∧ Numeral.value current = .ok done ∧
        IsScale needed behind ∧
        field = .count ⟨done, needed, ⟨column, column + current.length⟩⟩ := by
  constructor
  · intro h
    unfold count? at h
    split at h
    · simp at h
    · rename_i current digits hcut
      obtain ⟨hv, hne, hne', hcurrent, hdigits⟩ := countDigits?_eq_some_iff.mp hcut
      obtain ⟨tail, rfl, htail⟩ := exists_tail_of_chomp hv
      split at h
      · simp at h
      · simp at h
      · rename_i done needed hdone hneeded
        refine ⟨current, '/' :: (digits ++ tail), done, needed, by simp, hne, hcurrent, hdone,
          ⟨digits, tail, rfl, hne', hdigits, hneeded, htail⟩, ?_⟩
        exact (Option.some.inj (Except.ok.inj h)).symm
  · rintro ⟨current, behind, done, needed, rfl, hne, hcurrent, hdone,
      ⟨digits, tail, rfl, hne', hdigits, hneeded, htail⟩, rfl⟩
    have hv : Text.chomp (current ++ '/' :: (digits ++ tail)) = current ++ '/' :: digits := by
      simpa using chomp_of_digits (current ++ ['/']) hne' hdigits htail
    rw [count?, countDigits?_eq_some_iff.mpr ⟨hv, hne, hne', hcurrent, hdigits⟩]
    dsimp only
    rw [hdone, hneeded]

/-- The field with another number of what is done. -/
def recount (done : Nat) : Field → Field
  | .count c => .count
    ⟨done, c.needed, ⟨c.digits.start, c.digits.start + (Numeral.ofNat done).length⟩⟩
  | field => field

end Field

/-- The token with another number in front of what is no digit. -/
def Token.recount (done : Nat) : Token → Token
  | .tag key (some v) => .tag key (some (Numeral.ofNat done ++ v.dropWhile Numeral.isDigit))
  | token => token

theorem Token.isValueChar_of_isDigit {c : Char} (h : Numeral.isDigit c = true) :
    Token.isValueChar c = true := by
  have hbrace : c ≠ '{' ∧ c ≠ '}' :=
    ⟨fun hc => absurd (hc ▸ h) (by decide), fun hc => absurd (hc ▸ h) (by decide)⟩
  simp [isValueChar, hbrace]

theorem Token.recount_recount (token : Token) (first second : Nat) :
    (token.recount first).recount second = token.recount second := by
  cases token with
  | mention group name => rfl
  | tag key value =>
    cases value with
    | none => rfl
    | some v =>
      rw [recount, recount, List.dropWhile_append_of_pos fun c hc =>
        Numeral.isDigit_of_mem_ofNat hc, List.dropWhile_idempotent]
      rfl

namespace Line

/-- The part with another number of what is done, if it is a counter. -/
def Part.recount (done : Nat) : Part → Part
  | .taken token (.count c) => .taken (token.recount done) (Field.recount done (.count c))
  | part => part

/-- A tag is a field if its key is not used up and takes the value. -/
theorem field?_tag_iff {target : Day} {used keys : List Key} {letters : Text}
    {value : Option Text} {field : Field} :
    field? target used ⟨⟨0, 0⟩, .tag letters value⟩ = .ok (some (field, keys)) ↔
      ∃ key : Key, letters = key.text ∧ key ∉ used ∧
        Field.ofTag? target 0 key value = .ok (some field) ∧ keys = [key] := by
  rw [field?]
  dsimp only
  constructor
  · intro h
    split at h
    · simp at h
    · rename_i key hkey
      split at h
      · simp at h
      · rename_i hused
        split at h
        · simp at h
        · simp at h
        · rename_i found hfound
          simp only [Except.ok.injEq, Option.some.injEq, Prod.mk.injEq] at h
          obtain ⟨rfl, rfl⟩ := h
          exact ⟨key, Key.ofText?_eq_some_iff.mp hkey, hused, hfound, rfl⟩
  · rintro ⟨key, rfl, hused, hfound, rfl⟩
    rw [Key.ofText?_eq_some_iff.mpr rfl]
    dsimp only
    rw [if_neg hused, hfound]

/-- How the token of a counter is written. -/
theorem counter_of_field? {target : Day} {used keys : List Key} {token : Token} {c : Count}
    (h : field? target used ⟨⟨0, 0⟩, token⟩ = .ok (some (.count c, keys))) :
    Key.count ∉ used ∧ ∃ current behind, token = .tag Key.count.text (some (current ++ behind)) ∧
      (∀ d ∈ current, Numeral.isDigit d = true) ∧ Field.IsScale c.needed behind ∧
      c.digits = ⟨7, 7 + current.length⟩ := by
  cases token with
  | mention group name => simp [field?] at h
  | tag letters value =>
    obtain ⟨key, rfl, hused, hfound, -⟩ := field?_tag_iff.mp h
    obtain rfl : key = .count := by
      have hkey := (Field.tells_of_ofTag? hfound).1.key?_eq
      exact (Option.some.inj hkey).symm
    refine ⟨hused, ?_⟩
    cases value with
    | none => simp [Field.ofTag?] at hfound
    | some v =>
      obtain ⟨current, behind, done, needed, rfl, -, hcurrent, -, hscale, hcount⟩ :=
        Field.count?_eq_some_iff.mp hfound
      cases hcount
      exact ⟨current, behind, rfl, hcurrent, hscale, rfl⟩

/-- Both numbers of a counter are read, so no number up to one of them is too
long. -/
theorem value_ofNat_of_field? {target : Day} {used keys : List Key} {token : Token} {c : Count}
    (h : field? target used ⟨⟨0, 0⟩, token⟩ = .ok (some (.count c, keys))) {done : Nat}
    (hle : done ≤ c.current ∨ done ≤ c.needed) :
    Numeral.value (Numeral.ofNat done) = .ok done := by
  obtain ⟨-, _, _, rfl, -⟩ := counter_of_field? h
  obtain ⟨key, hletters, -, hfound, -⟩ := field?_tag_iff.mp h
  obtain rfl := Key.text_injective hletters
  obtain ⟨current, behind, done', needed, -, hne, hcurrent, hdone,
    ⟨digits, tail, -, hne', hdigits, hneeded, -⟩, hcount⟩ := Field.count?_eq_some_iff.mp hfound
  cases hcount
  obtain hle | hle := hle
  · exact Numeral.value_ofNat_of_le hne hcurrent hdone hle
  · exact Numeral.value_ofNat_of_le hne' hdigits hneeded hle

/-- The digits of a counter end in front of the slash. -/
theorem dropWhile_isDigit {needed : Nat} {current behind : Text}
    (hcurrent : ∀ d ∈ current, Numeral.isDigit d = true) (hscale : Field.IsScale needed behind) :
    (current ++ behind).dropWhile Numeral.isDigit = behind := by
  obtain ⟨digits, tail, rfl, -⟩ := hscale
  exact (Text.takeWhile_run _ hcurrent (by simp [Numeral.isDigit])).2

section Counter

variable {target : Day} {before : Option Char} {used : List Key} {parts : List Part}
  {after : Text} {done : Nat}

theorem isShaped_recount {token : Token} (h : token.IsShaped) : (token.recount done).IsShaped := by
  cases token with
  | mention group name => exact h
  | tag key value =>
    cases value with
    | none => exact h
    | some v =>
      obtain ⟨hne, hkey, hvalue⟩ := h
      refine ⟨hne, hkey, fun w hw c hc => ?_⟩
      obtain rfl := Option.some.inj hw
      rcases List.mem_append.mp hc with hc | hc
      · exact Token.isValueChar_of_isDigit (Numeral.isDigit_of_mem_ofNat hc)
      · exact hvalue v rfl c ((List.dropWhile_suffix _).mem hc)

/-- A counter is read with the number that is written into it. -/
theorem field?_recount {token : Token} {c : Count} {keys : List Key}
    (h : field? target used ⟨⟨0, 0⟩, token⟩ = .ok (some (.count c, keys)))
    (hdone : Numeral.value (Numeral.ofNat done) = .ok done) :
    field? target used ⟨⟨0, 0⟩, token.recount done⟩ =
      .ok (some (Field.recount done (.count c), [.count])) := by
  obtain ⟨hused, current, behind, rfl, hcurrent, hscale, hdigits⟩ := counter_of_field? h
  have hofTag : Field.ofTag? target 0 .count (some (Numeral.ofNat done ++ behind)) =
      .ok (some (Field.recount done (.count c))) := by
    refine Field.count?_eq_some_iff.mpr ⟨Numeral.ofNat done, behind, done, c.needed, rfl,
      List.ne_nil_of_length_pos Nat.length_toDigits_pos, fun d hd =>
        Numeral.isDigit_of_mem_ofNat hd, hdone, hscale, ?_⟩
    rw [Field.recount, hdigits]
    rfl
  rw [Token.recount, dropWhile_isDigit hcurrent hscale]
  exact field?_tag_iff.mpr ⟨.count, rfl, hused, hofTag, rfl⟩

/-! ## The counter of a line -/

theorem Part.recount_eq_self {part : Part} (h : Key.count ∉ part.keys) :
    part.recount done = part := by
  cases part with
  | plain c => rfl
  | kept token => rfl
  | taken token field =>
    cases field with
    | count c => simp [Part.keys, Part.field?, Field.key?] at h
    | _ => rfl

theorem map_recount_eq_self (h : ∀ part ∈ parts, Key.count ∉ part.keys) :
    parts.map (Part.recount done) = parts :=
  (List.map_congr_left fun part hpart => Part.recount_eq_self (h part hpart)).trans
    (List.map_id' parts)

theorem mem_usedBehind {key : Key} :
    key ∈ usedBehind used parts ↔ key ∈ used ∨ ∃ part ∈ parts, key ∈ part.keys := by
  induction parts generalizing used with
  | nil => simp [usedBehind]
  | cons part parts ih =>
    rw [usedBehind, ih, List.mem_append]
    simp only [List.mem_cons, exists_eq_or_imp]
    tauto

/-- The key of a part is not used up in front of it. -/
theorem Laid.keys_notMem (h : Laid target before used parts after) {part : Part}
    (hpart : part ∈ parts) {key : Key} (hkey : key ∈ part.keys) : key ∉ used := by
  induction parts generalizing before used with
  | nil => simp at hpart
  | cons first parts ih =>
    obtain ⟨hfirst, hparts⟩ := h
    rcases List.mem_cons.mp hpart with rfl | hpart
    · cases part with
      | plain c => simp [Part.keys, Part.field?] at hkey
      | kept token => simp [Part.keys, Part.field?] at hkey
      | taken token field =>
        obtain ⟨-, -, hfield⟩ := hfirst
        change key ∈ field.key?.toList at hkey
        obtain ⟨_, _, -, rfl, -⟩ | ⟨_, _, -, hused, htells, -, -⟩ := field?_eq_some hfield
        · simp [Field.key?] at hkey
        · rw [htells.key?_eq, Option.toList_some, List.mem_singleton] at hkey
          rwa [hkey]
    · exact fun hused => ih hparts hpart (List.mem_append_right _ hused)

/-- A line has no counter, or one. -/
theorem Laid.counter_cases (h : Laid target before used parts after) :
    (∀ part ∈ parts, Key.count ∉ part.keys) ∨
      ∃ front token c back, parts = front ++ .taken token (.count c) :: back ∧
        (∀ part ∈ front, Key.count ∉ part.keys) ∧ ∀ part ∈ back, Key.count ∉ part.keys := by
  refine Classical.or_iff_not_imp_left.mpr fun hsome => ?_
  simp only [not_forall, not_not] at hsome
  obtain ⟨part, hpart, hkey⟩ := hsome
  obtain ⟨front, back, rfl⟩ := List.append_of_mem hpart
  obtain ⟨token, c, rfl⟩ : ∃ token c, part = .taken token (.count c) := by
    cases part with
    | plain c => simp [Part.keys, Part.field?] at hkey
    | kept token => simp [Part.keys, Part.field?] at hkey
    | taken token field =>
      cases field <;> simp_all [Part.keys, Part.field?, Field.key?]
  obtain ⟨-, hrest⟩ := laid_append.mp h
  refine ⟨front, token, c, back, rfl, fun other hother hother' => ?_,
    fun other hother hother' => ?_⟩
  -- a key in front of the counter, or behind it, would be used up
  · exact hrest.keys_notMem List.mem_cons_self hkey
      (mem_usedBehind.mpr (.inr ⟨other, hother, hother'⟩))
  · exact hrest.2.keys_notMem hother hother' (List.mem_append_left _ hkey)

/-- Parts stay parts when another number is written into the counter. -/
theorem Laid.recount (h : Laid target before used parts after)
    (hdone : Numeral.value (Numeral.ofNat done) = .ok done) :
    Laid target before used (parts.map (Part.recount done)) after := by
  obtain hnone | ⟨front, token, c, back, rfl, hfront, hback⟩ := h.counter_cases
  · rwa [map_recount_eq_self hnone]
  · rw [List.map_append, List.map_cons, map_recount_eq_self hfront, map_recount_eq_self hback]
    obtain ⟨-, ⟨hshape, -, hfield⟩, -⟩ := laid_append.mp h
    have hrecount := field?_recount hfield hdone
    obtain ⟨-, current, behind, rfl, -⟩ := counter_of_field? hfield
    exact h.replace (isShaped_recount hshape) hrecount rfl

end Counter

/-! ## The columns of the counter -/

theorem mem_fieldsAt {column : Nat} {parts : List Part} {x : Located Field}
    (hx : x ∈ fieldsAt column parts) : ∃ part ∈ parts, ∃ field, part.field? = some field ∧
      ∃ columns, x.value = field.moved columns := by
  induction parts generalizing column with
  | nil => simp [fieldsAt] at hx
  | cons part parts ih =>
    rw [fieldsAt, List.mem_append] at hx
    rcases hx with hx | hx
    · cases hfield : part.field? with
      | none => simp [hfield] at hx
      | some field =>
        rw [hfield] at hx
        obtain rfl := List.mem_singleton.mp hx
        exact ⟨part, List.mem_cons_self, field, hfield, column, rfl⟩
    · obtain ⟨other, hother, hfield⟩ := ih hx
      exact ⟨other, List.mem_cons_of_mem _ hother, hfield⟩

/-- The counter among fields. -/
def counter? (found : List (Located Field)) : Option (Located Count) :=
  found.findSome? fun field =>
    (match field.value with | .count count => some count | _ => none).map (⟨field.span, ·⟩)

theorem counter?_eq_none {column : Nat} {parts : List Part}
    (h : ∀ part ∈ parts, Key.count ∉ part.keys) : counter? (fieldsAt column parts) = none := by
  refine List.findSome?_eq_none_iff.mpr fun x hx => ?_
  obtain ⟨part, hpart, field, hfield, columns, hvalue⟩ := mem_fieldsAt hx
  have hnot := h part hpart
  rw [hvalue]
  cases field with
  | count c => simp [Part.keys, hfield, Field.key?] at hnot
  | _ => rfl

theorem counter?_eq_some {front : List Part} (h : ∀ part ∈ front, Key.count ∉ part.keys)
    (column : Nat) (token : Token) (c : Count) (back : List Part) :
    (counter? (fieldsAt column (front ++ .taken token (.count c) :: back))).map (·.value) =
      some { c with digits := c.digits.moved (column + (textOf front).length) } := by
  have hfront : counter? (fieldsAt column front) = none := counter?_eq_none h
  unfold counter? at hfront ⊢
  rw [fieldsAt_append, List.findSome?_append, hfront, Option.none_or]
  rfl

end Line

/-- The line with another number of what is done. -/
def Task.withCount (task : Task) (done : Nat) : Text :=
  match task.count? with
  | none => task.raw
  | some ⟨_, c⟩ =>
    task.raw.take c.digits.start ++ (Numeral.ofNat done ++ task.raw.drop c.digits.stop)

namespace Line

/-- What stands in front of the digits of a counter behind parts. -/
def upToDigits (front : List Part) : Text := textOf front ++ '{' :: (Key.count.text ++ [':'])

theorem length_upToDigits (front : List Part) :
    (upToDigits front).length = (textOf front).length + 7 := List.length_append

theorem textOf_counter (front back : List Part) (current behind : Text) (field : Field) :
    textOf (front ++ .taken (.tag Key.count.text (some (current ++ behind))) field :: back) =
      upToDigits front ++ (current ++ (behind ++ '}' :: textOf back)) := by
  simp [upToDigits, Part.text, Token.text]

section LaidOut

variable {settings : Settings} {unit : Option IndentUnit} {target : Day} {number : Int}
  {raw : Text} {parts : List Part}

/-- To write a number at the columns of the counter is to write it into the
part that is the counter. -/
theorem LaidOut.withCount_eq (h : LaidOut settings unit target raw parts) (done : Nat) :
    (taskOf settings unit number raw parts).withCount done =
      raw.take (startOf settings unit raw) ++ textOf (parts.map (Part.recount done)) := by
  have hcount : (taskOf settings unit number raw parts).count? =
      counter? (fieldsAt (startOf settings unit raw) parts) := rfl
  obtain hnone | ⟨front, token, c, back, rfl, hfront, hback⟩ := h.laid.counter_cases
  · rw [Task.withCount, hcount, counter?_eq_none hnone, map_recount_eq_self hnone, h.raw_eq]
    rfl
  · obtain ⟨-, ⟨-, -, hfield⟩, -⟩ := laid_append.mp h.laid
    obtain ⟨-, current, behind, rfl, hcurrent, hscale, hdigits⟩ := counter_of_field? hfield
    obtain ⟨⟨span, counted⟩, hfound, hcounted⟩ := Option.map_eq_some_iff.mp
      (counter?_eq_some hfront (startOf settings unit raw)
        (.tag Key.count.text (some (current ++ behind))) c back)
    obtain rfl : counted = _ := hcounted
    have hraw := h.raw_eq
    rw [textOf_counter, ← List.append_assoc] at hraw
    -- the columns of the digits cut the line where the digits of the part stand
    have hstart : (c.digits.moved (startOf settings unit raw + (textOf front).length)).start =
        (raw.take (startOf settings unit raw) ++ upToDigits front).length := by
      simp only [Span.moved, hdigits, List.length_append, h.length_start, length_upToDigits]
      omega
    have hstop : (c.digits.moved (startOf settings unit raw + (textOf front).length)).stop =
        (raw.take (startOf settings unit raw) ++ upToDigits front ++ current).length := by
      simp only [Span.moved, hdigits, List.length_append, h.length_start, length_upToDigits]
      omega
    have htake : raw.take (raw.take (startOf settings unit raw) ++ upToDigits front).length =
        raw.take (startOf settings unit raw) ++ upToDigits front :=
      (congrArg (List.take _) hraw.symm).trans List.take_left
    have hdrop : raw.drop
        (raw.take (startOf settings unit raw) ++ upToDigits front ++ current).length =
          behind ++ '}' :: textOf back := by
      rw [← List.append_assoc] at hraw
      exact (congrArg (List.drop _) hraw.symm).trans List.drop_left
    rw [List.map_append, List.map_cons, map_recount_eq_self hfront, map_recount_eq_self hback,
      Part.recount, Token.recount, dropWhile_isDigit hcurrent hscale, textOf_counter]
    rw [Task.withCount, hcount, hfound]
    dsimp only
    rw [hstart, hstop]
    change raw.take _ ++ (_ ++ raw.drop _) = _
    rw [htake, hdrop, List.append_assoc]

/-- **A line with another number in its counter is laid out in the same
parts**, but for that number. -/
theorem LaidOut.recount (h : LaidOut settings unit target raw parts)
    (hmark : '{' ∉ settings.doneMark) {done : Nat}
    (hdone : Numeral.value (Numeral.ofNat done) = .ok done) :
    Relaid settings unit target raw
      (raw.take (startOf settings unit raw) ++ textOf (parts.map (Part.recount done)))
      (parts.map (Part.recount done)) := by
  obtain hnone | ⟨front, token, c, back, rfl, hfront, hback⟩ := h.laid.counter_cases
  · rw [map_recount_eq_self hnone, h.raw_eq]
    exact h.relaid
  · refine h.changed hmark ?_ (h.laid.recount hdone)
    obtain ⟨-, ⟨-, -, hfield⟩, -⟩ := laid_append.mp h.laid
    obtain ⟨-, current, behind, rfl, hcurrent, hscale, -⟩ := counter_of_field? hfield
    rw [List.map_append, List.map_cons, map_recount_eq_self hfront, map_recount_eq_self hback,
      Part.recount, Token.recount, dropWhile_isDigit hcurrent hscale, textOf_counter,
      textOf_counter, upToDigits, List.append_assoc, List.append_assoc]
    exact ⟨textOf front, _, _, rfl, rfl⟩

/-- What is left for the title does not see the counter. -/
theorem leftoverOf_recount (parts : List Part) (done : Nat) :
    leftoverOf (parts.map (Part.recount done)) = leftoverOf parts := by
  rw [leftoverOf, leftoverOf, List.flatMap_map]
  refine congrArg (parts.flatMap ·) (funext fun part => ?_)
  cases part with
  | plain c => rfl
  | kept token => rfl
  | taken token field => cases field <;> rfl

/-- A number that is in the counter is written into it to no effect. -/
theorem recount_recount (parts : List Part) (first second : Nat) :
    (parts.map (Part.recount first)).map (Part.recount second) =
      parts.map (Part.recount second) := by
  rw [List.map_map]
  refine List.map_congr_left fun part _ => ?_
  cases part with
  | plain c => rfl
  | kept token => rfl
  | taken token field =>
    cases field with
    | count c => exact congrArg (Part.taken · _) (Token.recount_recount token first second)
    | _ => rfl

end LaidOut

end Line

end TaskList
