/-
TaskList.Proofs.Document.Overlong — when a document cannot be read.

* `Key.Overlong` — the values that a key asks for and that still cannot be
  read: a counter with too many digits, or a due expression with an alternative
  that `Due.Rule.Overlong` describes. `Field.ofTag?_failsOn` says that there are
  no others.
* `Line.Overlong` — the lines that cannot be read: the first tag of a key whose
  value it asks for, as the line is scanned, has such a value. Later ones do no
  harm, since the key is used up.
* `Document.read_fails_iff` — a document is read unless one of its task lines
  is such a line.
-/
import TaskList.Proofs.Document.Reading
import TaskList.Proofs.Due.Overlong
import TaskList.Proofs.Line.Partition

namespace TaskList

open Numeral (FailsOn)

/-! ## Tags -/

/-- The value of a tag has the shape that the key asks for, and a number in it
has `n` digits and so too many. -/
def Key.Overlong : Key → Option Text → Nat → Prop
  | .count, some v, n => ∃ current needed tail, v = current ++ '/' :: (needed ++ tail) ∧
      (∀ c ∈ current, Numeral.isDigit c = true) ∧ current ≠ [] ∧
      (∀ c ∈ needed, Numeral.isDigit c = true) ∧ needed ≠ [] ∧ (tail = [] ∨ tail = ['\n']) ∧
      (Numeral.Overlong current n ∨ Numeral.Overlong needed n)
  | .due, some v, n => (∃ c ∈ v, isBlank c = false) ∧
      ∃ piece ∈ Due.Expression.pieces v, Due.Rule.Overlong piece n
  | _, _, _ => False

/-- What cannot be read has the shape that the key asks for. -/
theorem Key.Overlong.takes {key : Key} {value : Option Text} {n : Nat}
    (h : key.Overlong value n) : key.Takes value := by
  cases key <;> cases value <;> try exact h.elim
  case due.some v => exact h.1
  case count.some v =>
    obtain ⟨current, needed, tail, hv, hcurrent, hne, hneeded, hne', htail, -⟩ := h
    exact ⟨current, needed, tail, hv, hne, hne', hcurrent, hneeded, htail⟩

namespace Field

theorem count?_failsOn (v : Text) (column : Nat) :
    FailsOn (count? v column) (Key.count.Overlong (some v)) := by
  constructor
  case of_error =>
    intro e he
    unfold count? at he
    split at he
    · simp at he
    · rename_i current needed hdigits
      obtain ⟨hv, hne, hne', hcurrent, hneeded⟩ := countDigits?_eq_some_iff.mp hdigits
      obtain ⟨tail, rfl, htail⟩ := exists_tail_of_chomp hv
      refine ⟨current, needed, tail, by simp, hcurrent, hne, hneeded, hne', htail, ?_⟩
      split at he
      · rename_i cause hcause
        cases he
        obtain ⟨hlong, hlength⟩ := Numeral.value_eq_error_iff.mp hcause
        exact .inl ⟨hcurrent, hlength, hlength ▸ hlong⟩
      · rename_i cause hcause _
        cases he
        obtain ⟨hlong, hlength⟩ := Numeral.value_eq_error_iff.mp hcause
        exact .inr ⟨hneeded, hlength, hlength ▸ hlong⟩
      · simp at he
  case exists_error =>
    rintro n ⟨current, needed, tail, rfl, hcurrent, hne, hneeded, hne', htail, hlong⟩
    have hv : Text.chomp (current ++ '/' :: (needed ++ tail)) = current ++ '/' :: needed := by
      simpa using chomp_of_digits (current ++ ['/']) hne' hneeded htail
    have hdigits := countDigits?_eq_some_iff.mpr ⟨hv, hne, hne', hcurrent, hneeded⟩
    rw [count?, hdigits]
    dsimp only
    split
    · exact ⟨_, rfl⟩
    · exact ⟨_, rfl⟩
    · rename_i c m hc hm
      -- neither run is too long then
      have hshort : ∀ run k, Numeral.value run = .ok k → ¬ Numeral.Overlong run n := by
        rintro run k hrun ⟨_, hlength, hlong⟩
        have herror : Numeral.value run = .error ⟨n⟩ :=
          Numeral.value_eq_error_iff.mpr ⟨hlength ▸ hlong, hlength⟩
        simp [hrun] at herror
      exact (hlong.elim (hshort _ _ hc) (hshort _ _ hm)).elim

theorem due?_failsOn (v : Text) (target : Day) :
    FailsOn (due? v target) (Key.due.Overlong (some v)) := by
  by_cases hblank : v.allBlank
  · have hnone : ∀ n, ¬ Key.due.Overlong (some v) n := by
      rintro n ⟨⟨c, hc, hc'⟩, -⟩
      have := List.all_eq_true.mp hblank c hc
      simp [hc'] at this
    exact .of_ok (by rw [due?, if_pos hblank]) hnone
  · have hwritten : ∃ c ∈ v, isBlank c = false := by simpa [Text.allBlank] using hblank
    have hread := (Due.Expression.read_failsOn v).congr fun n =>
      (and_iff_right hwritten : Key.due.Overlong (some v) n ↔ _).symm
    refine hread.of_error_iff fun e => ?_
    rw [due?, if_neg hblank]
    split <;> simp [*]

/-- **A tag fails to be read on too many digits only.** -/
theorem ofTag?_failsOn (target : Day) (column : Nat) (key : Key) (value : Option Text) :
    FailsOn (ofTag? target column key value) (key.Overlong value) := by
  cases key <;> cases value
  case due.some v => exact due?_failsOn v target
  case count.some v => exact count?_failsOn v _
  all_goals exact .of_ok rfl fun n => id

end Field

namespace Line

/-! ## The tokens of a line -/

/-- The first tag, as the tokens are gone through, that carries one of the keys
not used yet has a value that cannot be read. -/
def FirstOverlong (used : List Key) (tokens : List (Located Token)) (n : Nat) : Prop :=
  ∃ key ∉ used, ∃ front span value back, tokens = front ++ ⟨span, .tag key.text value⟩ :: back ∧
    (∀ token ∈ front, ¬ key.Carries token.value) ∧ key.Takes value ∧ key.Overlong value n

/-- The token in front is of no other matter than for its own keys. -/
theorem firstOverlong_cons_iff {used keys : List Key} {token : Located Token}
    {rest : List (Located Token)} {n : Nat}
    (hcarries : ∀ key ∉ used, key.Carries token.value ↔ key ∈ keys)
    (hreads : ∀ key ∉ used, ∀ value, token.value = .tag key.text value → ¬ key.Overlong value n) :
    FirstOverlong used (token :: rest) n ↔ FirstOverlong (keys ++ used) rest n := by
  constructor
  · rintro ⟨key, hused, front, span, value, back, heq, hfront, htakes, hlong⟩
    cases front with
    | nil =>
      rw [List.nil_append, List.cons.injEq] at heq
      exact absurd hlong (hreads key hused value (by rw [heq.1]))
    | cons first front =>
      rw [List.cons_append, List.cons.injEq] at heq
      obtain ⟨rfl, hrest⟩ := heq
      obtain ⟨hfirst, hfront⟩ := List.forall_mem_cons.mp hfront
      have hkeys : key ∉ keys := fun hkey => hfirst ((hcarries key hused).mpr hkey)
      exact ⟨key, by simp [hkeys, hused], front, span, value, back, hrest, hfront, htakes, hlong⟩
  · rintro ⟨key, hkey, front, span, value, back, rfl, hfront, htakes, hlong⟩
    obtain ⟨hkeys, hused⟩ := not_or.mp (mt List.mem_append.mpr hkey)
    refine ⟨key, hused, token :: front, span, value, back, rfl, ?_, htakes, hlong⟩
    exact List.forall_mem_cons.mpr ⟨mt (hcarries key hused).mp hkeys, hfront⟩

/-- What a token that is read has to do with the keys. -/
theorem carries_of_field? {target : Day} {used : List Key} {token : Located Token}
    {found : Option (Field × List Key)} (h : field? target used token = .ok found) :
    ∀ key ∉ used, key.Carries token.value ↔ key ∈ (found.map (·.2)).getD [] := by
  intro key hused
  cases found with
  | none =>
    obtain ⟨letters, value, hvalue, hnone⟩ := field?_eq_none h
    simpa [hvalue] using hnone key hused
  | some result =>
    obtain ⟨field, keys⟩ := result
    obtain ⟨group, name, hvalue, -, rfl⟩ | ⟨other, value, hvalue, -, -, htakes, rfl⟩ :=
      field?_eq_some h
    · simp [hvalue, Key.Carries]
    · simp only [hvalue, Option.map_some, Option.getD_some, List.mem_singleton]
      constructor
      · rintro ⟨_, heq, -⟩
        exact Key.text_injective (Token.tag.inj heq).1.symm
      · rintro rfl
        exact ⟨value, rfl, htakes⟩

/-- A token that is read can be read. -/
theorem not_overlong_of_field? {target : Day} {used : List Key} {token : Located Token}
    {found : Option (Field × List Key)} (h : field? target used token = .ok found) (n : Nat) :
    ∀ key ∉ used, ∀ value, token.value = .tag key.text value → ¬ key.Overlong value n := by
  intro key hused value hvalue hlong
  obtain ⟨e, he⟩ := (Field.ofTag?_failsOn target token.span.start key value).exists_error n hlong
  simp only [field?, hvalue, Key.ofText?_eq_some_iff.mpr rfl, if_neg hused, he] at h
  cases h

/-- A token that cannot be read has a value that its key asks for. -/
theorem field?_eq_error {target : Day} {used : List Key} {token : Located Token}
    {e : Numeral.TooLong} (h : field? target used token = .error e) :
    ∃ key ∉ used, ∃ value, token.value = .tag key.text value ∧ key.Overlong value e.digits := by
  unfold field? at h
  split at h
  · cases h
  · rename_i letters value hvalue
    split at h
    · cases h
    · rename_i key hkey
      rw [Key.ofText?_eq_some_iff] at hkey
      subst hkey
      split at h
      · cases h
      · rename_i hused
        split at h
        · rename_i cause hcause
          cases h
          exact ⟨key, hused, value, hvalue, (Field.ofTag?_failsOn ..).of_error _ hcause⟩
        · cases h
        · cases h

/-- **Only the first tag of a key decides** whether the fields of a line can be
read. -/
theorem fields_failsOn (target : Day) (used : List Key) (tokens : List (Located Token)) :
    FailsOn (fields target used tokens) (FirstOverlong used tokens) := by
  induction tokens generalizing used with
  | nil =>
    refine .of_ok rfl ?_
    rintro n ⟨key, -, front, span, value, back, heq, -⟩
    simp at heq
  | cons token rest ih =>
    cases hfield : field? target used token with
    | error e =>
      obtain ⟨key, hused, value, hvalue, hlong⟩ := field?_eq_error hfield
      have herror : fields target used (token :: rest) = .error e := by rw [fields, hfield]
      refine ⟨fun e' he' => ?_, fun n _ => ⟨e, herror⟩⟩
      rw [herror] at he'
      cases he'
      refine ⟨key, hused, [], token.span, value, rest, ?_, by simp, hlong.takes, hlong⟩
      rw [List.nil_append, ← hvalue]
    | ok found =>
      have hcons : ∀ n, FirstOverlong used (token :: rest) n ↔
          FirstOverlong ((found.map (·.2)).getD [] ++ used) rest n := fun n =>
        firstOverlong_cons_iff (carries_of_field? hfield) (not_overlong_of_field? hfield n)
      refine ((ih _).congr fun n => (hcons n).symm).of_error_iff fun e => ?_
      rw [fields, hfield]
      cases found with
      | none => simp
      | some result =>
        obtain ⟨field, keys⟩ := result
        simp only [Option.map_some, Option.getD_some]
        cases fields target (keys ++ used) rest <;> simp

/-! ## The line -/

/-- As the line is scanned, the first tag that has a key and a value with the
shape that the key asks for has a number with `n` digits in it, which are too
many. -/
def Overlong (settings : Settings) (unit : Option IndentUnit) (raw : Text) (n : Nat) : Prop :=
  ∃ (key : Key) (front : List (Located Token)) (span : Span) (value : Option Text)
    (back : List (Located Token)),
    tokens raw (startOf settings unit raw) = front ++ ⟨span, .tag key.text value⟩ :: back ∧
      (∀ token ∈ front, ¬ key.Carries token.value) ∧ key.Takes value ∧ key.Overlong value n

theorem read_failsOn (settings : Settings) (unit : Option IndentUnit) (target : Day)
    (number : Int) (raw : Text) :
    FailsOn (read settings unit target number raw) (Overlong settings unit raw) := by
  have hfields := fields_failsOn target [] (tokens raw (startOf settings unit raw))
  refine (hfields.congr fun n => by simp [FirstOverlong, Overlong]).of_error_iff fun e => ?_
  rw [read, ← startOf]
  cases fields target [] (tokens raw (startOf settings unit raw)) <;> simp

end Line

/-! ## The document -/

namespace Document

theorem read_failsOn (settings : Settings) (unit : Option IndentUnit) (target : Day)
    (lines : List NumberedLine) :
    FailsOn (read settings unit target lines) fun n =>
      ∃ line ∈ taskLines settings lines, Line.Overlong settings unit line.text n := by
  refine (FailsOn.mapM fun line _ => Line.read_failsOn settings unit target line.line
    line.text).of_error_iff fun e => ?_
  rw [read, ← taskLines]
  split <;> simp [*]

theorem mem_taskLines_iff {settings : Settings} {lines : List NumberedLine}
    {line : NumberedLine} : line ∈ taskLines settings lines ↔
      line ∈ lines ∧ isWritten line = true ∧ isComment settings line = false := by
  rw [taskLines, List.mem_filter, List.mem_filter, and_assoc]
  simp

/-- **Reading a document fails on too many digits only.** It does so exactly if
a line that holds more than white space and is no comment has, of the first
counter or of the first due expression as the line is scanned, a number with
more digits than can be read; and then it says how many there are. Every other
document is read. -/
theorem read_fails_iff (settings : Settings) (unit : Option IndentUnit) (target : Day)
    (lines : List NumberedLine) :
    (∀ e, read settings unit target lines = .error e →
      ∃ line ∈ lines, isWritten line = true ∧ isComment settings line = false ∧
        Line.Overlong settings unit line.text e.digits) ∧
    ((∃ e, read settings unit target lines = .error e) ↔
      ∃ line ∈ lines, isWritten line = true ∧ isComment settings line = false ∧
        ∃ n, Line.Overlong settings unit line.text n) ∧
    ((∃ doc, read settings unit target lines = .ok doc) ↔
      ∀ line ∈ lines, isWritten line = true → isComment settings line = false →
        ∀ n, ¬ Line.Overlong settings unit line.text n) := by
  have hfails := read_failsOn settings unit target lines
  simp only [mem_taskLines_iff] at hfails
  have herror : (∃ e, read settings unit target lines = .error e) ↔
      ∃ line ∈ lines, isWritten line = true ∧ isComment settings line = false ∧
        ∃ n, Line.Overlong settings unit line.text n := by
    constructor
    · rintro ⟨e, he⟩
      obtain ⟨line, ⟨hline, hwritten, hcomment⟩, hlong⟩ := hfails.of_error e he
      exact ⟨line, hline, hwritten, hcomment, _, hlong⟩
    · rintro ⟨line, hline, hwritten, hcomment, n, hlong⟩
      exact hfails.exists_error n ⟨line, ⟨hline, hwritten, hcomment⟩, hlong⟩
  refine ⟨fun e he => ?_, herror, ?_⟩
  · obtain ⟨line, ⟨hline, hwritten, hcomment⟩, hlong⟩ := hfails.of_error e he
    exact ⟨line, hline, hwritten, hcomment, hlong⟩
  · constructor
    · rintro ⟨doc, hdoc⟩ line hline hwritten hcomment n hlong
      obtain ⟨e, he⟩ := herror.mpr ⟨line, hline, hwritten, hcomment, n, hlong⟩
      simp [hdoc] at he
    · intro hnone
      refine hfails.exists_ok ?_
      rintro n ⟨line, ⟨hline, hwritten, hcomment⟩, hlong⟩
      exact hnone line hline hwritten hcomment n hlong

/-- A counter with too many digits behind another counter does no harm. Behind
a tag that only looks like a counter, it does. -/
theorem read_fails_iff_repeated :
    (∀ n, ¬ Line.Overlong {} none
      ("\x7bcount:1/2\x7d \x7bcount:1/".toList ++ (List.replicate 4301 '7' ++ ['\x7d'])) n) ∧
    Line.Overlong {} none
      ("\x7bcount:a\x7d \x7bcount:1/".toList ++ (List.replicate 4301 '7' ++ ['\x7d'])) 4301 := by
  constructor
  · have hread : (read {} none ⟨1, by decide, by decide⟩ [⟨0, "\x7bcount:1/2\x7d \x7bcount:1/".toList ++
        (List.replicate 4301 '7' ++ ['\x7d'])⟩]).toOption.isSome = true := by decide +kernel
    generalize hresult : read _ _ _ _ = result at hread
    cases result with
    | error e => cases hread
    | ok doc =>
      exact (read_fails_iff _ _ _ _).2.2.mp ⟨doc, hresult⟩ _ (List.mem_singleton.mpr rfl)
        (by decide +kernel) (by decide +kernel)
  · have hread : (match read {} none ⟨1, by decide, by decide⟩ [⟨0,
        "\x7bcount:a\x7d \x7bcount:1/".toList ++ (List.replicate 4301 '7' ++ ['\x7d'])⟩] with
      | .error e => e.digits
      | .ok _ => 0) = 4301 := by decide +kernel
    generalize hresult : read _ _ _ _ = result at hread
    cases result with
    | ok doc => cases hread
    | error e =>
      obtain ⟨line, hline, -, -, hlong⟩ := (read_fails_iff _ _ _ _).1 e hresult
      obtain rfl := List.mem_singleton.mp hline
      have hdigits : e.digits = 4301 := hread
      rwa [hdigits] at hlong

end Document

end TaskList
