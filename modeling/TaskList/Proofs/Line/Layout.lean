/-
TaskList.Proofs.Line.Layout — a line as a sequence of parts.

* `Line.Part` — a character at which no token starts, a token that stays text,
  or a token that is a field. `Line.Laid` — parts that are what reading finds:
  what makes each of them a part is a condition on its neighbours, and no
  column is mentioned.
* `Laid.scan_eq`, `Laid.fields_eq`, `Laid.erase_eq` — the tokens, the fields
  and the title of parts, their columns counted along the parts.
* `Line.LaidOut` — the line with its parts. `Line.read_iff_laidOut` — a line is
  read by laying it out, and in no other way.

A changed line is read by changing its parts: where the conditions of the
parts hold still, nothing has to be said of columns.
-/
import TaskList.Proofs.Line.Columns
import TaskList.Proofs.Line.Fields
import TaskList.Proofs.Line.Partition
import TaskList.Proofs.Line.Tokens

namespace TaskList

/-! ## Fields in other places -/

/-- The columns further right. -/
def Span.moved (columns : Nat) (s : Span) : Span := ⟨columns + s.start, columns + s.stop⟩

/-- The field of a token that stands further right. Only a counter knows where
it stands. -/
def Field.moved (columns : Nat) : Field → Field
  | .count c => .count { c with digits := c.digits.moved columns }
  | field => field

@[simp] theorem Field.key?_moved (columns : Nat) (field : Field) :
    (field.moved columns).key? = field.key? := by
  cases field <;> rfl

namespace Line

theorem count?_moved (value : Text) (columns column : Nat) :
    Field.count? value (columns + column) =
      (Field.count? value column).map (Option.map (Field.moved columns)) := by
  unfold Field.count?
  split
  · rfl
  · split
    · rfl
    · rfl
    · simp [Except.map, Field.moved, Span.moved, Nat.add_assoc]

/-- Tags are read with a change of their fields if it is so for the two keys
whose fields know where and when they are read. -/
theorem ofTag?_map {target target' : Day} {column column' : Nat} {change : Field → Field}
    (hchange : ∀ field : Field, (∀ tag, field ≠ .due tag) → (∀ c, field ≠ .count c) →
      change field = field)
    (hdue : ∀ v, Field.due? v target' = (Field.due? v target).map (Option.map change))
    (hcount : ∀ v columns, Field.count? v (column' + columns) =
      (Field.count? v (column + columns)).map (Option.map change))
    (key : Key) (value : Option Text) :
    Field.ofTag? target' column' key value =
      (Field.ofTag? target column key value).map (Option.map change) := by
  cases key <;> cases value
  case due.some v => exact hdue v
  case count.some v =>
    have hcolumn : ∀ first : Nat, first + 1 + Key.count.text.length + 1 =
        first + (1 + Key.count.text.length + 1) := fun _ => by omega
    rw [Field.ofTag?, Field.ofTag?, hcolumn column', hcolumn column, hcount]
  case completed.some v =>
    cases h : Instant.parse? v <;> simp [Field.ofTag?, h, Except.map, hchange]
  case created.some v =>
    cases h : Instant.parse? v <;> simp [Field.ofTag?, h, Except.map, hchange]
  case overdue.some v =>
    cases h : Day.parse? v <;> simp [Field.ofTag?, h, Except.map, hchange]
  all_goals simp [Field.ofTag?, Except.map, hchange]

theorem ofTag?_moved (target : Day) (column : Nat) (key : Key) (value : Option Text) :
    Field.ofTag? target column key value =
      (Field.ofTag? target 0 key value).map (Option.map (Field.moved column)) := by
  refine ofTag?_map (fun field _ hcount => ?_) (fun v => ?_) (fun v columns => ?_) key value
  · cases field with
    | count c => exact absurd rfl (hcount c)
    | _ => rfl
  · rw [Field.due?]
    split
    · rfl
    · split <;> rfl
  · rw [count?_moved, Nat.zero_add]

/-- A token is read as it would be at column zero. -/
theorem field?_moved (target : Day) (used : List Key) (column stop : Nat) (token : Token) :
    field? target used ⟨⟨column, stop⟩, token⟩ =
      (field? target used ⟨⟨0, 0⟩, token⟩).map
        (Option.map fun found => (found.1.moved column, found.2)) := by
  unfold field?
  cases token with
  | mention group name => rfl
  | tag letters value =>
    dsimp only
    cases Key.ofText? letters with
    | none => rfl
    | some key =>
      dsimp only
      rw [ofTag?_moved target column]
      split
      · rfl
      · rcases Field.ofTag? target 0 key value with e | _ | field <;> rfl

/-- The key that is used up is that of the field. -/
theorem keys_of_field? {target : Day} {used keys : List Key} {token : Located Token}
    {field : Field} (h : field? target used token = .ok (some (field, keys))) :
    keys = field.key?.toList := by
  obtain ⟨group, name, -, rfl, rfl⟩ | ⟨key, value, -, -, htells, -, rfl⟩ := field?_eq_some h
  · rfl
  · rw [htells.key?_eq]
    rfl

/-! ## Parts -/

/-- A part of a line. -/
inductive Part where
  /-- A character at which no token starts. -/
  | plain (c : Char)
  /-- A token that stays text. -/
  | kept (token : Token)
  /-- A token that is a field, as it is read at column zero. -/
  | taken (token : Token) (field : Field)

namespace Part

/-- How the part is written. -/
def text : Part → Text
  | plain c => [c]
  | kept token => token.text
  | taken token _ => token.text

/-- The token of the part. -/
def token? : Part → Option Token
  | plain _ => none
  | kept token => some token
  | taken token _ => some token

/-- The field of the part. -/
def field? : Part → Option Field
  | plain _ | kept _ => none
  | taken _ field => some field

/-- The key that the part uses up. -/
def keys (part : Part) : List Key := (part.field?.bind (·.key?)).toList

/-- What the part leaves for the title. -/
def leftover : Part → Text
  | plain c => [c]
  | kept token => token.text
  | taken _ _ => []

/-- Is the part what reading finds between `before` and `after` when some keys
are used up? -/
def Stands (target : Day) (before : Option Char) (used : List Key) (after : Text) : Part → Prop
  | plain c => Token.at? before (c :: after) = none
  | kept token => token.IsShaped ∧ token.Fits before after ∧
      Line.field? target used ⟨⟨0, 0⟩, token⟩ = .ok none
  | taken token field => token.IsShaped ∧ token.Fits before after ∧
      Line.field? target used ⟨⟨0, 0⟩, token⟩ = .ok (some (field, field.key?.toList))

theorem text_ne_nil (part : Part) : part.text ≠ [] := by
  cases part with
  | plain c => exact List.cons_ne_nil c []
  | kept token => exact token.text_ne_nil
  | taken token _ => exact token.text_ne_nil

theorem leftover_of_field?_none {part : Part} (h : part.field? = none) :
    part.leftover = part.text := by
  cases part with
  | plain c => rfl
  | kept token => rfl
  | taken token field => exact absurd h (Option.some_ne_none field)

theorem leftover_of_field?_some {part : Part} {field : Field} (h : part.field? = some field) :
    part.leftover = [] := by
  cases part with
  | plain c => exact absurd h.symm (Option.some_ne_none field)
  | kept token => exact absurd h.symm (Option.some_ne_none field)
  | taken token field => rfl

end Part

/-- How parts are written. -/
def textOf (parts : List Part) : Text := parts.flatMap Part.text

/-- What parts leave for the title. -/
def leftoverOf (parts : List Part) : Text := parts.flatMap Part.leftover

/-- The keys that are used up behind parts. -/
def usedBehind (used : List Key) : List Part → List Key
  | [] => used
  | part :: rest => usedBehind (part.keys ++ used) rest

/-- The last character of parts, or else the one in front of them. -/
def lastBehind (before : Option Char) : List Part → Option Char
  | [] => before
  | part :: rest => lastBehind part.text.getLast? rest

/-- The parts are what reading finds between `before` and `after`. -/
def Laid (target : Day) (before : Option Char) (used : List Key) : List Part → Text → Prop
  | [], _ => True
  | part :: rest, after => part.Stands target before used (textOf rest ++ after) ∧
      Laid target part.text.getLast? (part.keys ++ used) rest after

/-- The tokens of parts that start at a column. -/
def tokensAt (column : Nat) : List Part → List (Located Token)
  | [] => []
  | part :: rest =>
    (part.token?.map fun token => ⟨⟨column, column + token.text.length⟩, token⟩).toList ++
      tokensAt (column + part.text.length) rest

/-- The fields of parts that start at a column. -/
def fieldsAt (column : Nat) : List Part → List (Located Field)
  | [] => []
  | part :: rest =>
    (part.field?.map fun field =>
      ⟨⟨column, column + part.text.length⟩, field.moved column⟩).toList ++
      fieldsAt (column + part.text.length) rest

@[simp] theorem textOf_nil : textOf [] = [] := rfl

@[simp] theorem textOf_cons (part : Part) (rest : List Part) :
    textOf (part :: rest) = part.text ++ textOf rest := rfl

@[simp] theorem textOf_append (parts rest : List Part) :
    textOf (parts ++ rest) = textOf parts ++ textOf rest := List.flatMap_append

@[simp] theorem leftoverOf_append (parts rest : List Part) :
    leftoverOf (parts ++ rest) = leftoverOf parts ++ leftoverOf rest := List.flatMap_append

theorem fieldsAt_append (column : Nat) (parts rest : List Part) :
    fieldsAt column (parts ++ rest) =
      fieldsAt column parts ++ fieldsAt (column + (textOf parts).length) rest := by
  induction parts generalizing column with
  | nil => rfl
  | cons part parts ih =>
    rw [List.cons_append, fieldsAt, fieldsAt, ih, textOf_cons, List.length_append,
      List.append_assoc, Nat.add_assoc]

theorem laid_append {target : Day} {before : Option Char} {used : List Key}
    {parts rest : List Part} {after : Text} :
    Laid target before used (parts ++ rest) after ↔
      Laid target before used parts (textOf rest ++ after) ∧
        Laid target (lastBehind before parts) (usedBehind used parts) rest after := by
  induction parts generalizing before used with
  | nil => simp [Laid, lastBehind, usedBehind]
  | cons part parts ih =>
    rw [List.cons_append, Laid, Laid, lastBehind, usedBehind, ih, textOf_append,
      List.append_assoc, and_assoc]

theorem usedBehind_append (used : List Key) (parts rest : List Part) :
    usedBehind used (parts ++ rest) = usedBehind (usedBehind used parts) rest := by
  induction parts generalizing used with
  | nil => rfl
  | cons part parts ih => rw [List.cons_append, usedBehind, ih, usedBehind]

/-! ## Scanning and reading parts -/

/-- What is skipped belongs to a token that is taken. -/
theorem scan_skip (column : Nat) (before : Option Char) (passed t : Text) :
    Token.scan column passed.length before (passed ++ t) =
      Token.scan (column + passed.length) 0 (passed.getLast?.or before) t := by
  induction passed generalizing column before with
  | nil => rfl
  | cons c passed ih =>
    rw [List.cons_append, List.length_cons, Token.scan, ih, List.getLast?_cons]
    cases passed.getLast? <;> simp [Nat.add_assoc, Nat.add_comm 1]

/-- The scan takes a token that stands at its start. -/
theorem scan_token {column : Nat} {before : Option Char} {token : Token} {after : Text}
    (h : Token.at? before (token.text ++ after) = some token) :
    Token.scan column 0 before (token.text ++ after) =
      ⟨⟨column, column + token.text.length⟩, token⟩ ::
        Token.scan (column + token.text.length) 0 token.text.getLast? after := by
  cases htext : token.text with
  | nil => exact absurd htext token.text_ne_nil
  | cons c passed =>
    rw [htext, List.cons_append] at h
    rw [List.cons_append, Token.scan, h]
    dsimp only
    rw [htext, List.length_cons, Nat.add_sub_cancel, scan_skip, List.getLast?_cons]
    cases passed.getLast? <;> simp [Nat.add_assoc, Nat.add_comm 1]

section Laid

variable {target : Day} {before : Option Char} {used : List Key} {parts : List Part}

theorem Laid.scan_eq (h : Laid target before used parts []) (column : Nat) :
    Token.scan column 0 before (textOf parts) = tokensAt column parts := by
  induction parts generalizing before used column with
  | nil => rfl
  | cons part rest ih =>
    obtain ⟨hpart, hrest⟩ := h
    rw [List.append_nil] at hpart
    rw [textOf_cons, tokensAt]
    cases part with
    | plain c =>
      change Token.at? before (c :: textOf rest) = none at hpart
      change Token.scan column 0 before (c :: textOf rest) = _
      rw [Token.scan, hpart]
      exact ih hrest (column + 1)
    | kept token =>
      obtain ⟨hshape, hfits, -⟩ := hpart
      exact (scan_token (Token.at?_eq_some_iff.mpr ⟨_, rfl, hshape, hfits⟩)).trans
        (congrArg _ (ih hrest _))
    | taken token field =>
      obtain ⟨hshape, hfits, -⟩ := hpart
      exact (scan_token (Token.at?_eq_some_iff.mpr ⟨_, rfl, hshape, hfits⟩)).trans
        (congrArg _ (ih hrest _))

theorem Laid.fields_eq (h : Laid target before used parts []) (column : Nat) :
    fields target used (tokensAt column parts) = .ok (fieldsAt column parts) := by
  induction parts generalizing before used column with
  | nil => rfl
  | cons part rest ih =>
    obtain ⟨hpart, hrest⟩ := h
    have hrest := ih hrest (column + part.text.length)
    cases part with
    | plain c => exact hrest
    | kept token =>
      obtain ⟨-, -, hnone⟩ := hpart
      have hnone := (field?_moved target used column (column + token.text.length) token).trans
        (congrArg _ hnone)
      change fields target used (⟨⟨column, column + token.text.length⟩, token⟩ :: _) = _
      rw [fields, hnone]
      exact hrest
    | taken token field =>
      obtain ⟨-, -, hsome⟩ := hpart
      have hsome := (field?_moved target used column (column + token.text.length) token).trans
        (congrArg _ hsome)
      have hrest' : fields target (field.key?.toList ++ used)
        (tokensAt (column + token.text.length) rest) =
          .ok (fieldsAt (column + token.text.length) rest) := hrest
      change fields target used (⟨⟨column, column + token.text.length⟩, token⟩ ::
        tokensAt (column + token.text.length) rest) = _
      rw [fields, hsome]
      simp only [Except.map, Option.map]
      rw [hrest']
      rfl

theorem spans_fieldsAt {column : Nat} {parts : List Part} {s : Span}
    (h : s ∈ (fieldsAt column parts).map (·.span)) :
    column ≤ s.start ∧ s.stop ≤ column + (textOf parts).length := by
  induction parts generalizing column with
  | nil => simp [fieldsAt] at h
  | cons part rest ih =>
    rw [fieldsAt, List.map_append, List.mem_append] at h
    rw [textOf_cons, List.length_append]
    rcases h with h | h
    · cases hfield : part.field? with
      | none => simp [hfield] at h
      | some field =>
        obtain rfl : s = ⟨column, column + part.text.length⟩ := by simpa [hfield] using h
        exact ⟨Nat.le_refl _, by dsimp only; omega⟩
    · obtain ⟨hstart, hstop⟩ := ih h
      omega

/-- What is left of parts when their fields are cut out. -/
theorem erase_fieldsAt (column : Nat) (parts : List Part) :
    Span.erase ((fieldsAt column parts).map (·.span)) column (textOf parts) = leftoverOf parts := by
  induction parts generalizing column with
  | nil => rfl
  | cons part rest ih =>
    -- the field of the part covers its columns, and the other fields none of them
    have hrest : Span.erase ((fieldsAt column (part :: rest)).map (·.span))
        (column + part.text.length) (textOf rest) = leftoverOf rest := by
      rw [← ih]
      refine Span.erase_congr fun i hi _ => ?_
      rw [fieldsAt, List.map_append, Span.anyCovers, Span.anyCovers, List.any_append]
      cases part.field? with
      | none => rfl
      | some field =>
        have hnot : (Span.mk column (column + part.text.length)).covers i = false := by
          rw [Bool.eq_false_iff, Ne, Span.covers_iff]
          exact fun h => Nat.not_lt_of_le hi h.2
        simp [hnot]
    have hpart : Span.erase ((fieldsAt column (part :: rest)).map (·.span)) column part.text =
        part.leftover := by
      cases hfield : part.field? with
      | none =>
        rw [Part.leftover_of_field?_none hfield]
        refine Span.erase_of_uncovered fun i _ hi => List.any_eq_false.mpr fun s hs => ?_
        rw [fieldsAt, hfield] at hs
        have := (spans_fieldsAt hs).1
        rw [Span.covers_iff]
        omega
      | some field =>
        rw [Part.leftover_of_field?_some hfield]
        refine Span.erase_of_covered fun i hi hi' => List.any_eq_true.mpr
          ⟨⟨column, column + part.text.length⟩, ?_, Span.covers_iff.mpr ⟨hi, hi'⟩⟩
        rw [fieldsAt, hfield]
        exact List.mem_cons_self
    rw [textOf_cons, Span.erase_append, hpart, hrest]
    rfl

/-- Every text whose fields can be read is laid out. -/
theorem exists_laid {t : Text} {column : Nat} {found : List (Located Field)}
    (h : fields target used (Token.scan column 0 before t) = .ok found) :
    ∃ parts, textOf parts = t ∧ Laid target before used parts [] := by
  -- a token takes many characters in one step, so the induction is on the length
  induction hlen : t.length using Nat.strongRecOn generalizing t column before used found with
  | ind n ih =>
    cases t with
    | nil => exact ⟨[], rfl, trivial⟩
    | cons c rest =>
      cases hat : Token.at? before (c :: rest) with
      | none =>
        rw [Token.scan, hat] at h
        obtain ⟨parts, rfl, hlaid⟩ := ih rest.length (by simp [← hlen]) h rfl
        exact ⟨.plain c :: parts, rfl, by rwa [List.append_nil], hlaid⟩
      | some token =>
        obtain ⟨after, htext, hshape, hfits⟩ := Token.at?_eq_some_iff.mp hat
        have hshorter : after.length < n := by
          have := congrArg List.length htext
          have := token.text_length_pos
          simp only [List.length_append] at *
          omega
        rw [htext] at hat h
        rw [scan_token hat, fields, field?_moved] at h
        rw [htext]
        -- what is read from the token at column zero decides what part it is
        cases hzero : field? target used ⟨⟨0, 0⟩, token⟩ with
        | error e => simp [hzero, Except.map] at h
        | ok found? =>
          cases found? with
          | none =>
            rw [hzero] at h
            obtain ⟨parts, rfl, hlaid⟩ := ih after.length hshorter h rfl
            exact ⟨.kept token :: parts, rfl, ⟨hshape, by rwa [List.append_nil], hzero⟩, hlaid⟩
          | some pair =>
            obtain ⟨field, keys⟩ := pair
            obtain rfl := keys_of_field? hzero
            rw [hzero] at h
            simp only [Except.map, Option.map] at h
            split at h
            · simp at h
            · rename_i more hmore
              obtain ⟨parts, rfl, hlaid⟩ := ih after.length hshorter hmore rfl
              exact ⟨.taken token field :: parts, rfl,
                ⟨hshape, by rwa [List.append_nil], hzero⟩, hlaid⟩

end Laid

/-! ## Reading a line -/

/-- The task of a line with parts behind its start. -/
def taskOf (settings : Settings) (unit : Option IndentUnit) (number : Int) (raw : Text)
    (parts : List Part) : Task where
  line := number
  raw := raw
  indent := (head settings (indentUnit settings unit) raw).indent
  marker := (head settings (indentUnit settings unit) raw).marker
  priority := (head settings (indentUnit settings unit) raw).priority
  fields := fieldsAt (startOf settings unit raw) parts
  title := Text.squeeze (leftoverOf parts)

/-- Behind its start the line is written as the parts, and they are what
reading finds there. -/
structure LaidOut (settings : Settings) (unit : Option IndentUnit) (target : Day) (raw : Text)
    (parts : List Part) : Prop where
  text_eq : raw.drop (startOf settings unit raw) = textOf parts
  laid : Laid target (raw.take (startOf settings unit raw)).getLast? [] parts []

/-- **A line is read by laying it out.** -/
theorem read_iff_laidOut {settings : Settings} {unit : Option IndentUnit} {target : Day}
    {number : Int} {raw : Text} {task : Task} :
    read settings unit target number raw = .ok task ↔
      ∃ parts, LaidOut settings unit target raw parts ∧
        task = taskOf settings unit number raw parts := by
  constructor
  · intro h
    obtain ⟨hfields, htask⟩ := read_eq_ok h
    obtain ⟨parts, hparts, hlaid⟩ := exists_laid hfields
    refine ⟨parts, ⟨hparts.symm, hlaid⟩, ?_⟩
    -- the parts have the fields that were read, as they are read from them too
    have hfound : task.fields = fieldsAt (startOf settings unit raw) parts := by
      refine Except.ok.inj (hfields.symm.trans ?_)
      rw [tokens, ← hparts]
      exact (congrArg _ (hlaid.scan_eq _)).trans (hlaid.fields_eq _)
    have htitle : title raw (startOf settings unit raw) task.fields =
        Text.squeeze (leftoverOf parts) := by
      rw [title, hfound]
      exact congrArg Text.squeeze ((congrArg _ hparts.symm).trans (erase_fieldsAt _ parts))
    rw [htask, taskOf, ← hfound, ← htitle]
    rfl
  · rintro ⟨parts, ⟨hparts, hlaid⟩, rfl⟩
    have hfields : fields target [] (tokens raw (startOf settings unit raw)) =
        .ok (fieldsAt (startOf settings unit raw) parts) := by
      rw [tokens, hparts, hlaid.scan_eq, hlaid.fields_eq]
    have htitle : title raw (startOf settings unit raw) (fieldsAt (startOf settings unit raw) parts)
        = Text.squeeze (leftoverOf parts) := by
      rw [title, hparts, erase_fieldsAt]
    unfold startOf at hfields htitle
    rw [read, hfields, taskOf, ← htitle]
    rfl

section LaidOut

variable {settings : Settings} {unit : Option IndentUnit} {target : Day} {raw : Text}
  {parts : List Part}

theorem LaidOut.raw_eq (h : LaidOut settings unit target raw parts) :
    raw.take (startOf settings unit raw) ++ textOf parts = raw := by
  rw [← h.text_eq, List.take_append_drop]

theorem LaidOut.read_eq (h : LaidOut settings unit target raw parts) (number : Int) :
    read settings unit target number raw = .ok (taskOf settings unit number raw parts) :=
  read_iff_laidOut.mpr ⟨parts, h, rfl⟩

theorem LaidOut.length_start (h : LaidOut settings unit target raw parts) :
    (raw.take (startOf settings unit raw)).length = startOf settings unit raw :=
  List.length_take_of_le (startOf_le (h.read_eq 0))

end LaidOut

end Line

end TaskList
