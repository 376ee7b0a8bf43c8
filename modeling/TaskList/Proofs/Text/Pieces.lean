/-
TaskList.Proofs.Text.Pieces — runs, ends and words of a text.

* `Text.takeWhile_run` — a run of characters ends at the first one that does
  not belong to it.
* `Text.chomp_cases` and `Text.chomp_append` — a text is what is left
  without the line feed at its end, or that with the line feed.
* `Text.squeeze_blank_append` and `Text.squeeze_append_blank` — white space in
  front or behind does not matter to the words of a text,
  `Text.words_append_cons` — white space keeps words apart, and
  `Text.filter_squeeze` — nothing but white space is changed when words are put
  next to each other.
* `Text.getLast?_trim` and `Text.mem_trim_of_mem` — trimming takes white space
  away at the ends, and nothing else.
* `Text.joined_cutAtDots` and `Text.cutAtDots_append` — the pieces between
  pairs of dots.
-/
import TaskList.Text.Blank

namespace TaskList.Text

/-! ## Runs and ends -/

/-- A run of characters is taken whole, and what does not belong to it
ends it. -/
theorem takeWhile_run {p : Char → Bool} {run : Text} (rest : Text)
    (hrun : ∀ c ∈ run, p c = true) (hrest : ∀ c ∈ rest.head?, p c = false) :
    (run ++ rest).takeWhile p = run ∧ (run ++ rest).dropWhile p = rest := by
  rw [List.takeWhile_append_of_pos hrun, List.dropWhile_append_of_pos hrun]
  cases rest with
  | nil => simp
  | cons c rest => simp [hrest c (by simp)]

theorem chomp_cases (t : Text) : t = t.chomp ∨ t = t.chomp ++ ['\n'] := by
  unfold chomp
  split
  · rename_i h
    right
    obtain ⟨front, rfl⟩ := List.getLast?_eq_some_iff.mp h
    simp
  · exact .inl rfl

theorem chomp_append (t : Text) : chomp (t ++ ['\n']) = t := by
  simp [chomp]

theorem chomp_of_last {t : Text} (h : t.getLast? ≠ some '\n') : t.chomp = t := by
  simp [chomp, h]

theorem slice_append (before middle after : Text) :
    slice before.length (before.length + middle.length) (before ++ (middle ++ after)) = middle := by
  rw [slice, ← List.length_append, ← List.append_assoc, List.take_left, List.drop_left]

/-! ## Words -/

theorem words_cons_blank {c : Char} (hc : isBlank c = true) (t : Text) :
    words (c :: t) = words t := by
  simp [words, cut, hc]

/-- White space in front of a text does not matter to its words. -/
theorem words_blank_append {blanks : Text} (h : ∀ c ∈ blanks, isBlank c = true) (t : Text) :
    words (blanks ++ t) = words t := by
  induction blanks with
  | nil => rfl
  | cons c blanks ih =>
    rw [List.cons_append, words_cons_blank (h c List.mem_cons_self),
      ih fun d hd => h d (List.mem_cons_of_mem c hd)]

theorem squeeze_blank_append {blanks : Text} (h : ∀ c ∈ blanks, isBlank c = true) (t : Text) :
    squeeze (blanks ++ t) = squeeze t := congrArg (joined [' ']) (words_blank_append h t)

/-- A separator ends one piece and begins the next. -/
theorem cut_append_cons {sep : Char → Bool} {c : Char} (hc : sep c = true) (s t : Text) :
    cut sep (s ++ c :: t) = cut sep s ++ cut sep t := by
  induction s with
  | nil => simp [cut, hc]
  | cons d s ih =>
    rw [List.cons_append, cut, cut, ih]
    split
    · rfl
    · cases hpieces : cut sep s with
      | nil => exact absurd hpieces (cut_ne_nil sep s)
      | cons piece pieces => rfl

/-- White space keeps words apart. -/
theorem words_append_cons {c : Char} (hc : isBlank c = true) (s t : Text) :
    words (s ++ c :: t) = words s ++ words t := by
  rw [words, cut_append_cons hc, List.filter_append, words, words]

/-- White space behind a text does not matter to its words. -/
theorem squeeze_append_blank {c : Char} (hc : isBlank c = true) (t : Text) :
    squeeze (t ++ [c]) = squeeze t := by
  rw [squeeze, squeeze, words_append_cons hc]
  simp [words, cut]

/-- What is not white space stays when words are put together. -/
theorem filter_joined (pieces : List Text) :
    (joined [' '] pieces).filter (!isBlank ·) = pieces.flatten.filter (!isBlank ·) := by
  induction pieces with
  | nil => rfl
  | cons piece pieces ih =>
    cases pieces with
    | nil => simp [joined]
    | cons next pieces =>
      have hblank : isBlank ' ' = true := by decide
      simp only [joined, List.filter_append, ih, List.flatten_cons, List.append_assoc]
      simp [hblank]

/-- No separator is in a piece. -/
theorem notMem_of_mem_cut {sep : Char → Bool} {t piece : Text} (h : piece ∈ cut sep t) :
    ∀ c ∈ piece, sep c = false := by
  induction t generalizing piece with
  | nil => simp_all [cut]
  | cons d t ih =>
    unfold cut at h
    split at h
    · rcases List.mem_cons.mp h with rfl | h
      · simp
      · exact ih h
    · rename_i hd
      cases hcut : cut sep t with
      | nil => exact absurd hcut (cut_ne_nil _ _)
      | cons first pieces =>
        rw [hcut, List.modifyHead_cons] at h
        rcases List.mem_cons.mp h with rfl | h
        · have hfirst := @ih first (by simp [hcut])
          simpa [hd] using hfirst
        · exact ih (by simp [hcut, h])

/-- The pieces between separators hold all that is no separator. -/
theorem flatten_cut (sep : Char → Bool) (t : Text) : (cut sep t).flatten = t.filter (!sep ·) := by
  induction t with
  | nil => rfl
  | cons c t ih =>
    unfold cut
    split
    · rename_i hc
      simp [hc, ih]
    · rename_i hc
      cases hcut : cut sep t with
      | nil => exact absurd hcut (cut_ne_nil _ _)
      | cons piece pieces =>
        rw [hcut, List.flatten_cons] at ih
        simp [hc, ← ih]

/-- A text without separators is one piece. -/
theorem cut_of_forall {sep : Char → Bool} {t : Text} (h : ∀ c ∈ t, sep c = false) :
    cut sep t = [t] := by
  induction t with
  | nil => rfl
  | cons c t ih =>
    obtain ⟨hc, ht⟩ := List.forall_mem_cons.mp h
    simp [cut, hc, ih ht]

/-- A text with no white space in it is one word. -/
theorem words_of_forall {t : Text} (hne : t ≠ []) (h : ∀ c ∈ t, isBlank c = false) :
    words t = [t] := by
  rw [words, cut_of_forall h]
  simp [hne]

/-- Words that are put together are the words of what comes out. -/
theorem words_joined {pieces : List Text}
    (h : ∀ piece ∈ pieces, piece ≠ [] ∧ ∀ c ∈ piece, isBlank c = false) :
    words (joined [' '] pieces) = pieces := by
  induction pieces with
  | nil => rfl
  | cons piece pieces ih =>
    obtain ⟨⟨hne, hpiece⟩, hpieces⟩ := List.forall_mem_cons.mp h
    cases pieces with
    | nil => exact words_of_forall hne hpiece
    | cons next pieces =>
      have hblank : isBlank ' ' = true := by decide
      rw [joined, List.append_assoc, List.singleton_append, words_append_cons hblank,
        words_of_forall hne hpiece, ih hpieces, List.singleton_append]
      exact List.cons_ne_nil _ _

/-- Squeezing a text keeps its words. -/
theorem words_squeeze (t : Text) : words (squeeze t) = words t := by
  refine words_joined fun piece hpiece => ?_
  obtain ⟨hcut, hne⟩ := List.mem_filter.mp hpiece
  exact ⟨by simpa using hne, notMem_of_mem_cut hcut⟩

theorem squeeze_eq_iff {s t : Text} : squeeze s = squeeze t ↔ words s = words t :=
  ⟨fun h => by rw [← words_squeeze s, h, words_squeeze], congrArg (joined [' '])⟩

theorem flatten_words (t : Text) : (words t).flatten = t.filter (!isBlank ·) := by
  unfold words
  rw [List.flatten_filter_not_isEmpty, flatten_cut]

/-- Squeezing a text changes nothing but its white space. -/
theorem filter_squeeze (t : Text) : (squeeze t).filter (!isBlank ·) = t.filter (!isBlank ·) := by
  unfold squeeze
  rw [filter_joined, flatten_words, List.filter_filter]
  simp

/-! ## Trimming -/

/-- There is no white space at the end of a trimmed text. -/
theorem getLast?_trim (t : Text) : ∀ c ∈ t.trim.getLast?, isBlank c = false := by
  intro c hc
  rw [trim, trimEnd, List.getLast?_reverse] at hc
  have hnot := List.head?_dropWhile_not isBlank (trimStart t).reverse
  rw [Option.mem_def.mp hc] at hnot
  simpa using hnot

theorem getLast?_trim_ne_lineFeed (t : Text) : t.trim.getLast? ≠ some '\n' :=
  fun hlast => absurd (getLast?_trim t '\n' hlast) (by decide)

theorem mem_dropWhile_isBlank {t : Text} {c : Char} (h : c ∈ t) (hc : isBlank c = false) :
    c ∈ t.dropWhile isBlank := by
  rw [← List.takeWhile_append_dropWhile (p := isBlank) (l := t), List.mem_append] at h
  refine h.resolve_left fun hblank => ?_
  have := List.all_eq_true.mp List.all_takeWhile c hblank
  simp [hc] at this

/-- What is trimmed away is white space. -/
theorem mem_trim_of_mem {t : Text} {c : Char} (h : c ∈ t) (hc : isBlank c = false) :
    c ∈ t.trim := by
  rw [trim, trimEnd, List.mem_reverse]
  exact mem_dropWhile_isBlank (List.mem_reverse.mpr (mem_dropWhile_isBlank h hc)) hc

/-! ## Dots -/

theorem cutAtDots_ne_nil (t : Text) : cutAtDots t ≠ [] := by
  induction t using cutAtDots.induct with
  | case1 rest ih => simp [cutAtDots]
  | case2 c rest hdots ih =>
    rw [cutAtDots]
    · cases h : cutAtDots rest with
      | nil => exact absurd h ih
      | cons piece pieces => simp
    · exact hdots
  | case3 => simp [cutAtDots]

/-- Cutting at dots and joining with them gives the text back. -/
theorem joined_cutAtDots (t : Text) : joined ['.', '.'] (cutAtDots t) = t := by
  induction t using cutAtDots.induct with
  | case1 rest ih =>
    rw [cutAtDots]
    cases h : cutAtDots rest with
    | nil => exact absurd h (cutAtDots_ne_nil rest)
    | cons piece pieces =>
      rw [h] at ih
      simp [joined, ih]
  | case2 c rest hdots ih =>
    rw [cutAtDots]
    · cases h : cutAtDots rest with
      | nil => exact absurd h (cutAtDots_ne_nil rest)
      | cons piece pieces =>
        rw [h] at ih
        cases pieces <;> simp_all [joined]
    · exact hdots
  | case3 => rfl

/-- A text without dots is one piece. -/
theorem cutAtDots_of_notMem {t : Text} (h : '.' ∉ t) : cutAtDots t = [t] := by
  induction t with
  | nil => rfl
  | cons c rest ih =>
    obtain ⟨hc, hrest⟩ := not_or.mp (mt List.mem_cons.mpr h)
    rw [cutAtDots, ih hrest]
    · rfl
    · rintro more rfl
      exact absurd rfl hc

/-- A text with two dots between others without dots. -/
theorem cutAtDots_append {a b : Text} (ha : '.' ∉ a) (hb : '.' ∉ b) :
    cutAtDots (a ++ '.' :: '.' :: b) = [a, b] := by
  induction a with
  | nil => rw [List.nil_append, cutAtDots, cutAtDots_of_notMem hb]
  | cons c rest ih =>
    obtain ⟨hc, hrest⟩ := not_or.mp (mt List.mem_cons.mpr ha)
    rw [List.cons_append, cutAtDots, ih hrest]
    · rfl
    · intro more hmore
      exact absurd hmore.symm hc

end TaskList.Text
