/-
TaskList.Proofs.Text.Lower — what lower-casing a text comes to.

* `LowerCase.forms_behind` — the lower-case forms of the table stand behind
  the capital letters, and only these and the sign of Kelvin have one of the
  letters from `a` to `z`.
* `Text.lower_lower_eq_iff` — lower-casing a second time makes no word of such
  letters that was not there before.
* `Text.getLast?_lower` — lower-casing brings no line feed to the end.
-/
import TaskList.Text.LowerCase

namespace TaskList

namespace LowerCase

/-! ## The table -/

/-- The code points of a run with their lower-case forms. -/
def formsOf (run : Nat × Nat × Nat × Int) : List (Nat × Nat) :=
  (List.range ((run.2.1 - run.1) / run.2.2.1 + 1)).map fun k =>
    (run.1 + run.2.2.1 * k, ((run.1 + run.2.2.1 * k : Nat) + run.2.2.2).toNat)

/-- Is the sign of Kelvin, or a capital letter from `A` to `Z`? -/
def isCapital (n : Nat) : Bool := (65 ≤ n && n ≤ 90) || n == 0x212A

/-- Is the character, with a lower-case form, as in the table? The form is a
character behind the capital letters, and a letter from `a` to `z` only if the
character is a capital. -/
def isRegular (n form : Nat) : Bool :=
  decide form.isValidChar && decide (96 < form) && !isCapital form &&
    (decide (122 < form) || isCapital n)

theorem forms_behind :
    lowerRuns.all (fun run => decide (0 < run.2.2.1) && (formsOf run).all fun form =>
      isRegular form.1 form.2) = true := by
  decide +kernel

/-- A character has no lower-case form of its own, or one of the table. -/
theorem distance_cases (n : Nat) :
    distance n = 0 ∨ isRegular n ((n : Int) + distance n).toNat = true := by
  unfold distance
  split
  · rename_i first last stride d hfind
    split
    · rename_i hhit
      simp only [Bool.and_eq_true, decide_eq_true_eq, beq_iff_eq] at hhit
      have hmem := List.all_eq_true.mp forms_behind _ (List.mem_of_find?_eq_some hfind)
      have hlast : n ≤ last := by simpa using List.find?_some hfind
      simp only [Bool.and_eq_true, decide_eq_true_eq, List.all_eq_true] at hmem
      -- the code point is the first of the run and some strides
      have hn : first + stride * ((n - first) / stride) = n := by
        rw [Nat.mul_div_cancel' (Nat.dvd_of_mod_eq_zero hhit.2)]
        exact Nat.add_sub_cancel' hhit.1
      refine .inr (hmem.2 (n, _) (List.mem_map.mpr ⟨(n - first) / stride, ?_, ?_⟩))
      · rw [List.mem_range, Nat.lt_add_one_iff]
        exact Nat.div_le_div_right (Nat.sub_le_sub_right hlast first)
      · exact congrArg (fun m : Nat => (m, ((m : Int) + d).toNat)) hn
    · exact .inl rfl
  · exact .inl rfl

end LowerCase

open LowerCase

/-- A character stays when lower-cased, or is replaced by one behind the
capital letters, which is a letter only if the character is a capital. -/
theorem lowerChar_cases (c : Char) :
    (lowerChar c = c ∧ distance c.toNat = 0) ∨
      96 < (lowerChar c).toNat ∧ isCapital (lowerChar c).toNat = false ∧
        (122 < (lowerChar c).toNat ∨ isCapital c.toNat = true) := by
  rcases distance_cases c.toNat with hzero | hregular
  · refine .inl ⟨?_, hzero⟩
    rw [lowerChar, hzero, Int.add_zero, Int.toNat_natCast, Char.ofNat_toNat]
  · right
    simp only [isRegular, Bool.and_eq_true, Bool.or_eq_true, Bool.not_eq_true', decide_eq_true_eq]
      at hregular
    obtain ⟨⟨⟨hvalid, hbehind⟩, hcapital⟩, hletter⟩ := hregular
    have hform : (lowerChar c).toNat = ((c.toNat : Int) + distance c.toNat).toNat := by
      rw [lowerChar, Char.ofNat, dif_pos hvalid]
      rfl
    rw [hform]
    exact ⟨hbehind, hcapital, hletter⟩

/-- The capitals do not stay. -/
theorem distance_ne_zero_of_isCapital {n : Nat} (h : isCapital n = true) : distance n ≠ 0 := by
  have hletters : ∀ n, n ≤ 90 → 65 ≤ n → distance n ≠ 0 := by decide +kernel
  simp only [isCapital, Bool.or_eq_true, Bool.and_eq_true, decide_eq_true_eq, beq_iff_eq] at h
  rcases h with h | rfl
  · exact hletters n h.2 h.1
  · decide +kernel

theorem isCapital_lowerChar (c : Char) : isCapital (lowerChar c).toNat = false := by
  rcases lowerChar_cases c with ⟨hsame, hzero⟩ | ⟨-, hcapital, -⟩
  · rw [hsame, Bool.eq_false_iff]
    exact fun h => distance_ne_zero_of_isCapital h hzero
  · exact hcapital

namespace Text

/-- The signs that need more than a table, in lower case. -/
def signs : List Text := [['ς'], ['σ'], ['i', '\u0307']]

/-- What the first character of a text becomes: a sign, or its one-character
form. -/
theorem lowerAfter_cons (before : Text) (c : Char) (rest : Text) :
    ∃ here, lowerAfter before (c :: rest) = here ++ lowerAfter (c :: before) rest ∧ here ≠ [] ∧
      (here = [lowerChar c] ∨ (c = 'Σ' ∨ c = 'İ') ∧ here ∈ signs) := by
  refine ⟨_, rfl, ?_⟩
  split
  · rename_i hsigma
    split <;> exact ⟨List.cons_ne_nil _ _, .inr ⟨.inl (beq_iff_eq.mp hsigma), by decide⟩⟩
  · split
    · rename_i hdotted
      exact ⟨List.cons_ne_nil _ _, .inr ⟨.inr (beq_iff_eq.mp hdotted), by decide⟩⟩
    · exact ⟨List.cons_ne_nil _ _, .inl rfl⟩

/-- What a character of a text becomes. -/
theorem mem_lowerAfter {before t : Text} {c : Char} (h : c ∈ lowerAfter before t) :
    (∃ sign ∈ signs, c ∈ sign) ∨ ∃ d ∈ t, c = lowerChar d := by
  induction t generalizing before with
  | nil => simp [lowerAfter] at h
  | cons d rest ih =>
    obtain ⟨here, heq, -, hhere⟩ := lowerAfter_cons before d rest
    rw [heq, List.mem_append] at h
    rcases h with h | h
    · rcases hhere with rfl | ⟨-, hsign⟩
      · exact .inr ⟨d, List.mem_cons_self, List.mem_singleton.mp h⟩
      · exact .inl ⟨here, hsign, h⟩
    · exact (ih h).imp_right fun ⟨d', hd', heq⟩ => ⟨d', List.mem_cons_of_mem d hd', heq⟩

/-- There are no capitals in a text in lower case. -/
theorem isCapital_of_mem_lower {t : Text} {c : Char} (h : c ∈ lower t) :
    isCapital c.toNat = false := by
  rcases mem_lowerAfter h with ⟨sign, hsign, hc⟩ | ⟨d, -, rfl⟩
  · have hall : (signs.all fun sign => sign.all fun c => !isCapital c.toNat) = true := by decide
    have hsign := List.all_eq_true.mp (List.all_eq_true.mp hall sign hsign) c hc
    rwa [Bool.not_eq_true'] at hsign
  · exact isCapital_lowerChar d

/-- A letter from `a` to `z`. -/
def isSmallLetter (c : Char) : Bool := decide (96 < c.toNat) && decide (c.toNat ≤ 122)

theorem lowerChar_of_isSmallLetter {c : Char} (h : isSmallLetter c = true) : lowerChar c = c := by
  have hall : ∀ n, n ≤ 122 → 96 < n → lowerChar (Char.ofNat n) = Char.ofNat n := by decide +kernel
  simp only [isSmallLetter, Bool.and_eq_true, decide_eq_true_eq] at h
  have hc := hall c.toNat h.2 h.1
  rwa [Char.ofNat_toNat] at hc

/-- Only a capital becomes another letter. -/
theorem eq_of_lowerChar {c d : Char} (hc : isCapital c.toNat = false)
    (hd : isSmallLetter d = true) (h : lowerChar c = d) : c = d := by
  subst h
  simp only [isSmallLetter, Bool.and_eq_true, decide_eq_true_eq] at hd
  rcases lowerChar_cases c with ⟨hsame, -⟩ | ⟨-, -, hlarge | hcapital⟩
  · exact hsame.symm
  · omega
  · simp [hc] at hcapital

/-- A letter stays. -/
theorem lowerAfter_cons_of_letter {before rest : Text} {c : Char} (h : isSmallLetter c = true) :
    lowerAfter before (c :: rest) = c :: lowerAfter (c :: before) rest := by
  obtain ⟨here, heq, -, rfl | ⟨hsign, -⟩⟩ := lowerAfter_cons before c rest
  · rw [heq, lowerChar_of_isSmallLetter h]
    rfl
  · rcases hsign with rfl | rfl <;> exact absurd h (by decide)

/-- What becomes a word of letters is no sign. -/
theorem lowerAfter_cons_eq {before rest word : Text} {c : Char}
    (hword : ∀ c ∈ word, isSmallLetter c = true) (h : lowerAfter before (c :: rest) = word) :
    lowerChar c :: lowerAfter (c :: before) rest = word := by
  obtain ⟨here, heq, -, rfl | ⟨-, hsign⟩⟩ := lowerAfter_cons before c rest
  · exact heq.symm.trans h
  · have hall : (signs.all fun sign => sign.any fun c => !isSmallLetter c) = true := by decide
    obtain ⟨x, hx, hnot⟩ := List.any_eq_true.mp (List.all_eq_true.mp hall here hsign)
    rw [Bool.not_eq_true'] at hnot
    have hletter := hword x (h ▸ heq ▸ List.mem_append_left _ hx)
    simp [hnot] at hletter

/-- A text without capitals becomes a word of letters only if it is that
word. -/
theorem lowerAfter_eq_iff {before t word : Text} (ht : ∀ c ∈ t, isCapital c.toNat = false)
    (hword : ∀ c ∈ word, isSmallLetter c = true) : lowerAfter before t = word ↔ t = word := by
  induction t generalizing before word with
  | nil => rfl
  | cons c rest ih =>
    obtain ⟨hc, hrest⟩ := List.forall_mem_cons.mp ht
    constructor
    · intro h
      obtain rfl := lowerAfter_cons_eq hword h
      obtain ⟨hletter, hletters⟩ := List.forall_mem_cons.mp hword
      rw [← eq_of_lowerChar hc hletter rfl, ← (ih hrest hletters).mp rfl]
    · rintro rfl
      obtain ⟨hletter, hletters⟩ := List.forall_mem_cons.mp hword
      rw [lowerAfter_cons_of_letter hletter, (ih hrest hletters).mpr rfl]

/-- A text in lower case is a word of letters if it is that word when
lower-cased again. -/
theorem lower_lower_eq_iff {t word : Text} (hword : ∀ c ∈ word, isSmallLetter c = true) :
    lower (lower t) = word ↔ lower t = word :=
  lowerAfter_eq_iff (fun _ hc => isCapital_of_mem_lower hc) hword

/-- Lower-casing brings no line feed to the end. -/
theorem getLast?_lowerAfter {before t : Text} (h : t.getLast? ≠ some '\n') :
    (lowerAfter before t).getLast? ≠ some '\n' := by
  induction t generalizing before with
  | nil => simp [lowerAfter]
  | cons c rest ih =>
    obtain ⟨here, heq, -, hhere⟩ := lowerAfter_cons before c rest
    rw [heq, List.getLast?_append]
    cases rest with
    | cons next rest =>
      have hlast := @ih (c :: before) (by rwa [List.getLast?_cons_cons] at h)
      cases hsome : (lowerAfter (c :: before) (next :: rest)).getLast? with
      | some x => rwa [hsome] at hlast
      | none =>
        obtain ⟨here', heq', hne, -⟩ := lowerAfter_cons (c :: before) next rest
        rw [List.getLast?_eq_none_iff, heq', List.append_eq_nil_iff] at hsome
        exact absurd hsome.1 hne
    | nil =>
      rw [lowerAfter, List.getLast?_nil, Option.none_or]
      rcases hhere with rfl | ⟨-, hsign⟩
      · rw [List.getLast?_singleton] at h ⊢
        intro hfeed
        rcases lowerChar_cases c with ⟨hsame, -⟩ | ⟨hbehind, -⟩
        · exact h (hsame ▸ hfeed)
        · rw [Option.some.inj hfeed] at hbehind
          exact absurd hbehind (by decide)
      · have hall : ∀ sign ∈ signs, sign.getLast? ≠ some '\n' := by decide
        exact hall here hsign

theorem getLast?_lower {t : Text} (h : t.getLast? ≠ some '\n') :
    (lower t).getLast? ≠ some '\n' := getLast?_lowerAfter h

end Text

end TaskList
