/-
TaskList.Proofs.Due.Spelling — how rules are written.

* `Due.Rule.SpelledBy` — the texts that stand for a rule, said without the
  reader: no order of tests, and no text that is taken apart.
* `Due.Rule.read_eq_some_iff` — where the reader gives an answer, it gives the
  rule that the trimmed and lower-cased text spells, and none if it spells
  none. So no text spells two rules.

The reader tests for one kind of rule after the other. What keeps the kinds
apart is that a name has only letters, a date no letters and no dots, and a
range dots.
-/
import TaskList.Due.Rule
import TaskList.Proofs.Calendar.Spelling
import TaskList.Proofs.Text.Lower

namespace TaskList

open Numeral (isDigit)

namespace Due

/-- The texts that stand for a rule, white space around them and letter case
apart. -/
inductive Rule.SpelledBy : Rule → Text → Prop where
  /-- Any day is written as today. -/
  | today : SpelledBy .today "today".toList
  | everyDay : SpelledBy .everyDay "ed".toList
  /-- A day of the week has a name. -/
  | weekday (day : Weekday) : SpelledBy (.weekday day) day.name
  /-- The name may be cut to three letters. -/
  | shortWeekday (day : Weekday) : SpelledBy (.weekday day) (day.name.take 3)
  /-- Two dates with two dots between, and white space around each. -/
  | range {first last : Day} {a b : Text} : first.SpelledBy a.trim → last.SpelledBy b.trim →
      SpelledBy (.range first last) (a ++ '.' :: '.' :: b)
  | on {day : Day} {t : Text} : day.SpelledBy t → SpelledBy (.on day) t
  /-- A date, a bar or a hyphen, and a number of days between `e` and `d`. -/
  | every {start : Day} {t digits : Text} {mark : Char}
      (hstep : 0 < Nat.ofDigitChars 10 digits 0) :
      start.SpelledBy t → mark = '|' ∨ mark = '-' → (∀ c ∈ digits, isDigit c = true) →
      SpelledBy (.every start (Nat.ofDigitChars 10 digits 0) hstep)
        (t ++ mark :: 'e' :: (digits ++ ['d']))

end Due

/-! ## Names -/

namespace Weekday

theorem isSmallLetter_of_mem_name {day : Weekday} :
    ∀ c ∈ day.name, Text.isSmallLetter c = true := by
  refine List.all_eq_true.mp ?_
  cases day <;> decide

theorem isSmallLetter_of_mem_short {day : Weekday} {c : Char} (h : c ∈ day.name.take 3) :
    Text.isSmallLetter c = true :=
  isSmallLetter_of_mem_name c (List.mem_of_mem_take h)

/-- A text in lower case names the day whose name it is. -/
theorem ofName?_lower_eq_some_iff {t : Text} {day : Weekday} :
    ofName? (Text.lower t) = some day ↔
      Text.lower t = day.name ∨ Text.lower t = day.name.take 3 := by
  constructor
  · intro h
    have hname := List.find?_some (p := fun other : Weekday =>
      Text.lower (Text.lower t) == other.name || Text.lower (Text.lower t) == other.name.take 3) h
    rwa [Bool.or_eq_true, beq_iff_eq, beq_iff_eq, Text.lower_lower_eq_iff isSmallLetter_of_mem_name,
      Text.lower_lower_eq_iff fun c hc => isSmallLetter_of_mem_short hc] at hname
  · have hnames : ∀ day ∈ all, ofName? day.name = some day ∧
        ofName? (day.name.take 3) = some day := by decide +kernel
    have hday : day ∈ all := by cases day <;> decide
    rintro (h | h)
    · rw [h, (hnames day hday).1]
    · rw [h, (hnames day hday).2]

end Weekday

namespace Due

/-! ## Intervals -/

/-- The digits of an interval stand between `e` and `d`. -/
theorem intervalDigits?_eq_some_iff {t digits : Text} (hlast : t.getLast? ≠ some '\n') :
    intervalDigits? t = some digits ↔
      t = 'e' :: (digits ++ ['d']) ∧ digits ≠ [] ∧ ∀ c ∈ digits, isDigit c = true := by
  rw [intervalDigits?, Text.chomp_of_last hlast]
  constructor
  · intro h
    split at h
    · rename_i rest
      dsimp only at h
      split at h
      · rename_i hshape
        obtain ⟨hd, hne, hdigits⟩ := hshape
        cases h
        obtain ⟨front, rfl⟩ := List.getLast?_eq_some_iff.mp hd
        rw [List.dropLast_concat] at hne hdigits ⊢
        exact ⟨rfl, hne, List.all_eq_true.mp hdigits⟩
      · simp at h
    · simp at h
  · rintro ⟨rfl, hne, hdigits⟩
    have hshape : (digits ++ ['d']).getLast? = some 'd' ∧ (digits ++ ['d']).dropLast ≠ [] ∧
        (digits ++ ['d']).dropLast.all isDigit = true := by
      rw [List.getLast?_concat, List.dropLast_concat]
      exact ⟨rfl, hne, List.all_eq_true.mpr hdigits⟩
    exact (if_pos hshape).trans (congrArg some List.dropLast_concat)

/-- An interval of some days, or with too many digits. -/
theorem interval?_of_digits {digits : Text} (hdigits : ∀ c ∈ digits, isDigit c = true)
    (hpos : 0 < Nat.ofDigitChars 10 digits 0) :
    interval? ('e' :: (digits ++ ['d'])) = .ok (some (Nat.ofDigitChars 10 digits 0)) ∨
      ∃ e, interval? ('e' :: (digits ++ ['d'])) = .error e := by
  have hlast : ('e' :: (digits ++ ['d'])).getLast? ≠ some '\n' := by
    rw [← List.cons_append, List.getLast?_concat]
    decide
  have hne : digits ≠ [] := by
    rintro rfl
    simp at hpos
  rw [interval?, (intervalDigits?_eq_some_iff hlast).mpr ⟨rfl, hne, hdigits⟩]
  dsimp only
  unfold Numeral.value
  split
  · rename_i e _
    exact .inr ⟨e, rfl⟩
  · rename_i n heq
    split at heq
    · simp at heq
    · cases heq
      rw [if_neg (by omega)]
      exact .inl rfl

theorem interval?_eq_some {t : Text} {n : Nat} (hlast : t.getLast? ≠ some '\n')
    (h : interval? t = .ok (some n)) :
    0 < n ∧ ∃ digits : Text, t = 'e' :: (digits ++ ['d']) ∧ (∀ c ∈ digits, isDigit c = true) ∧
      n = Nat.ofDigitChars 10 digits 0 := by
  unfold interval? Numeral.value at h
  split at h
  · simp at h
  · rename_i digits hshape
    obtain ⟨rfl, -, hdigits⟩ := (intervalDigits?_eq_some_iff hlast).mp hshape
    split at h
    · simp at h
    · rename_i m heq
      split at heq
      · simp at heq
      · cases heq
        split at h
        · simp at h
        · rename_i hne
          cases h
          exact ⟨Nat.pos_of_ne_zero hne, digits, rfl, hdigits, rfl⟩

/-! ## Dates -/

/-- A text that starts with a date, and is no name and no range. -/
theorem readDated_eq_some {t : Text} {rule : Rule} (hlast : t.getLast? ≠ some '\n')
    (h : Rule.readDated t = .ok (some rule)) : rule.SpelledBy t := by
  have ht : t.take 10 ++ t.drop 10 = t := List.take_append_drop 10 t
  unfold Rule.readDated at h
  split at h
  · rename_i day hday hdrop
    cases h
    rw [hdrop, List.append_nil] at ht
    rw [ht] at hday
    exact .on (Calendar.day?_eq_some_iff.mp hday)
  · rename_i day mark interval hday hdrop
    rw [hdrop] at ht
    split at h
    · rename_i hmark
      split at h
      · simp at h
      · simp at h
      · rename_i n hinterval
        have hlast' : interval.getLast? ≠ some '\n' := by
          intro hfeed
          refine hlast ?_
          rw [← ht, List.getLast?_append, List.getLast?_cons, hfeed]
          rfl
        obtain ⟨hpos, digits, rfl, hdigits, rfl⟩ := interval?_eq_some hlast' hinterval
        rw [dif_pos hpos] at h
        cases h
        rw [← ht]
        exact .every hpos (Calendar.day?_eq_some_iff.mp hday) hmark hdigits
    · simp at h
  · simp at h

/-- No date with an interval behind it is a range. -/
theorem dot_notMem_interval {start : Day} {date digits : Text} {mark : Char}
    (hstart : start.SpelledBy date) (hmark : mark = '|' ∨ mark = '-')
    (hdigits : ∀ c ∈ digits, isDigit c = true) :
    '.' ∉ date ++ mark :: 'e' :: (digits ++ ['d']) := by
  have hmark' : '.' ≠ mark := by rcases hmark with rfl | rfl <;> decide
  have hdigits' : '.' ∉ digits := fun hdot => absurd (hdigits '.' hdot) (by decide)
  simp [hstart.dot_notMem, hmark', hdigits']

/-- A date is read, and so is a date with an interval, unless the interval
has too many digits. -/
theorem readDated_of_date {day : Day} {t : Text} (h : day.SpelledBy t) :
    Rule.readDated t = .ok (some (.on day)) := by
  rw [Rule.readDated, List.take_of_length_le (Nat.le_of_eq h.length_eq),
    List.drop_eq_nil_of_le (Nat.le_of_eq h.length_eq), Calendar.day?_eq_some_iff.mpr h]

theorem readDated_of_interval {start : Day} {t digits : Text} {mark : Char}
    (hpos : 0 < Nat.ofDigitChars 10 digits 0) (h : start.SpelledBy t)
    (hmark : mark = '|' ∨ mark = '-') (hdigits : ∀ c ∈ digits, isDigit c = true) :
    Rule.readDated (t ++ mark :: 'e' :: (digits ++ ['d'])) =
        .ok (some (.every start (Nat.ofDigitChars 10 digits 0) hpos)) ∨
      ∃ e, Rule.readDated (t ++ mark :: 'e' :: (digits ++ ['d'])) = .error e := by
  rw [Rule.readDated, List.take_left' h.length_eq, List.drop_left' h.length_eq,
    Calendar.day?_eq_some_iff.mpr h]
  dsimp only
  rw [if_pos hmark]
  rcases interval?_of_digits hdigits hpos with hinterval | ⟨e, hinterval⟩
  · rw [hinterval]
    dsimp only
    rw [dif_pos hpos]
    exact .inl rfl
  · rw [hinterval]
    exact .inr ⟨e, rfl⟩

/-! ## The whole reader -/

/-- A text with a digit in it is no word of letters. -/
theorem ne_of_digit {t word : Text} {c : Char} (hc : c ∈ t) (hdigit : isDigit c = true)
    (hword : ∀ c ∈ word, Text.isSmallLetter c = true) : t ≠ word := by
  rintro rfl
  obtain ⟨n, hn, rfl⟩ := Numeral.isDigit_iff.mp hdigit
  have hall : ∀ n, n < 10 → Text.isSmallLetter n.digitChar = false := by decide
  have hletter := hword _ hc
  rw [hall n hn] at hletter
  exact Bool.noConfusion hletter

/-- What is read from a text without dots that is no word for today or for
every day. -/
theorem read_of_plain {text : Text} (htoday : text.trim.lower ≠ "today".toList)
    (hed : text.trim.lower ≠ "ed".toList) (hdots : '.' ∉ text.trim.lower) :
    Rule.read text = match Weekday.ofName? text.trim.lower with
      | some day => .ok (some (.weekday day))
      | none => Rule.readDated text.trim.lower := by
  cases hname : Weekday.ofName? text.trim.lower <;>
    simp only [Rule.read, if_neg htoday, if_neg hed, Text.cutAtDots_of_notMem hdots, hname]

/-- A text with a date in front is read as such. -/
theorem read_of_dated {text : Text} {c : Char} (hc : c ∈ text.trim.lower)
    (hdigit : isDigit c = true) (hdots : '.' ∉ text.trim.lower) :
    Rule.read text = Rule.readDated text.trim.lower := by
  have hnone : Weekday.ofName? text.trim.lower = none := by
    refine Option.eq_none_iff_forall_ne_some.mpr fun day hday => ?_
    rcases Weekday.ofName?_lower_eq_some_iff.mp hday with hname | hname
    · exact ne_of_digit hc hdigit Weekday.isSmallLetter_of_mem_name hname
    · exact ne_of_digit hc hdigit (fun c hc => Weekday.isSmallLetter_of_mem_short hc) hname
  have htoday := ne_of_digit hc hdigit (List.all_eq_true.mp (by decide : "today".toList.all _ = _))
  have hed := ne_of_digit hc hdigit (List.all_eq_true.mp (by decide : "ed".toList.all _ = _))
  rw [read_of_plain htoday hed hdots, hnone]

/-- A name is read as such. -/
theorem read_of_name {text : Text} {day : Weekday}
    (h : text.trim.lower = day.name ∨ text.trim.lower = day.name.take 3) :
    Rule.read text = .ok (some (.weekday day)) := by
  have hnames : ∀ name, name = day.name ∨ name = day.name.take 3 → name ≠ "today".toList ∧
      name ≠ "ed".toList ∧ '.' ∉ name := by
    rintro name (rfl | rfl) <;> cases day <;> decide
  obtain ⟨htoday, hed, hdots⟩ := hnames _ h
  rw [read_of_plain htoday hed hdots, Weekday.ofName?_lower_eq_some_iff.mpr h]

/-- What is read from the pieces between dots. -/
theorem spelledBy_of_ofRange? {t : Text} {rule : Rule}
    (h : Rule.ofRange? t.cutAtDots = some rule) : rule.SpelledBy t := by
  unfold Rule.ofRange? at h
  split at h
  · rename_i a b hcut
    simp only [bind, Option.bind_eq_some_iff, pure, Option.some.injEq] at h
    obtain ⟨first, hfirst, last, hlast, rfl⟩ := h
    have ht := Text.joined_cutAtDots t
    rw [hcut] at ht
    change a ++ ['.', '.'] ++ b = t at ht
    rw [← ht, List.append_assoc]
    exact .range ((Day.parse?_eq_some_iff (Text.getLast?_trim_ne_lineFeed a)).mp hfirst)
      ((Day.parse?_eq_some_iff (Text.getLast?_trim_ne_lineFeed b)).mp hlast)
  · simp at h

/-- A range is read as such. -/
theorem read_of_range {text a b : Text} {first last : Day}
    (ht : text.trim.lower = a ++ '.' :: '.' :: b) (ha : first.SpelledBy a.trim)
    (hb : last.SpelledBy b.trim) : Rule.read text = .ok (some (.range first last)) := by
  have hdot : ∀ {d : Day} {t : Text}, d.SpelledBy t.trim → '.' ∉ t := by
    intro d t hd hmem
    exact hd.dot_notMem (Text.mem_trim_of_mem hmem (by decide))
  have hword : ∀ word : Text, '.' ∉ word → text.trim.lower ≠ word := by
    rintro word hnone rfl
    exact hnone (by simp [ht])
  have hrange : Rule.ofRange? [a, b] = some (.range first last) := by
    rw [Rule.ofRange?, (Day.parse?_eq_some_iff (Text.getLast?_trim_ne_lineFeed a)).mpr ha,
      (Day.parse?_eq_some_iff (Text.getLast?_trim_ne_lineFeed b)).mpr hb]
    rfl
  rw [Rule.read, if_neg (hword _ (by decide)), if_neg (hword _ (by decide)), ht,
    Text.cutAtDots_append (hdot ha) (hdot hb), hrange]

/-- What the reader gives is a rule that the text spells. -/
theorem spelledBy_of_read {text : Text} {rule : Rule} (h : Rule.read text = .ok (some rule)) :
    rule.SpelledBy text.trim.lower := by
  have hlast := Text.getLast?_lower (Text.getLast?_trim_ne_lineFeed text)
  unfold Rule.read at h
  dsimp only at h
  split at h
  · rename_i htoday
    cases h
    rw [htoday]
    exact .today
  · split at h
    · rename_i hed
      cases h
      rw [hed]
      exact .everyDay
    · split at h
      · exact spelledBy_of_ofRange? (Except.ok.inj h)
      · split at h
        · rename_i day hday
          cases h
          rcases Weekday.ofName?_lower_eq_some_iff.mp hday with hname | hname
          · rw [hname]
            exact .weekday day
          · rw [hname]
            exact .shortWeekday day
        · exact readDated_eq_some hlast h

/-- A text that spells a rule is read as that rule, unless it has too many
digits. -/
theorem read_of_spelledBy {text : Text} {rule : Rule} (h : rule.SpelledBy text.trim.lower) :
    Rule.read text = .ok (some rule) ∨ ∃ e, Rule.read text = .error e := by
  generalize ht : text.trim.lower = t at h
  cases h with
  | today => exact .inl (by rw [Rule.read, if_pos ht])
  | everyDay => exact .inl (by rw [Rule.read, ht]; rfl)
  | weekday day => exact .inl (read_of_name (.inl ht))
  | shortWeekday day => exact .inl (read_of_name (.inr ht))
  | range ha hb => exact .inl (read_of_range ht ha hb)
  | on hday =>
    obtain ⟨c, hc, hdigit⟩ := hday.exists_digit
    subst ht
    rw [read_of_dated hc hdigit hday.dot_notMem]
    exact .inl (readDated_of_date hday)
  | @every start date digits mark hpos hstart hmark hdigits =>
    obtain ⟨c, hc, hdigit⟩ := hstart.exists_digit
    have hdots := dot_notMem_interval hstart hmark hdigits
    have hmem : c ∈ date ++ mark :: 'e' :: (digits ++ ['d']) := List.mem_append_left _ hc
    rw [← ht] at hdots hmem
    rw [read_of_dated hmem hdigit hdots, ht]
    exact readDated_of_interval hpos hstart hmark hdigits

/-- **Where a rule is read from a text, it is the one that the text spells.** -/
theorem Rule.read_eq_some_iff {text : Text} {rule? : Option Rule} (h : Rule.read text = .ok rule?)
    (rule : Rule) : rule? = some rule ↔ rule.SpelledBy text.trim.lower := by
  constructor
  · rintro rfl
    exact spelledBy_of_read h
  · intro hspelled
    rcases read_of_spelledBy hspelled with hread | ⟨e, hread⟩
    · exact Except.ok.inj (h.symm.trans hread)
    · simp [hread] at h

end Due

end TaskList
