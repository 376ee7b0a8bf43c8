/-
TaskList.Proofs.Action.Front — what a deed does to the start of a line.

* `Line.StaysInPlace` — a line that is a task as another one is: not blank, no
  comment, and as deep.
* `Edit.Exposes` — in front of the columns of the edit is nothing but white space,
  or a mark with nothing behind it, and the edit puts no other character there.
* `Edit.foldr_front` — edits leave what is in front of all of them.
* `Deed.staysInPlace` — a line stays in place if no edit of the deed exposes its
  start. This holds too where the edits of a deed collide, since only what the
  leftmost of them does is seen from the start of the line.
-/
import TaskList.Proofs.Action.Own

namespace TaskList

/-- The text is as deep a task as the line was. -/
structure Line.StaysInPlace (settings : Settings) (unit : Option IndentUnit) (raw text : Text) :
    Prop where
  /-- It holds more than white space. -/
  written : text.allBlank = false
  /-- It does not start with the mark of a comment. -/
  not_comment : settings.commentMark.isPrefixOf text = false
  /-- It is as deep. -/
  depth_eq : (indentUnit settings unit).depthOf (text.takeWhile isIndent) =
    (indentUnit settings unit).depthOf (raw.takeWhile isIndent)

/-- In front of the columns of the edit is only white space, or the first character
of the mark of a comment, and what the edit puts in is nothing or starts with white
space. -/
def Edit.Exposes (raw : Text) (e : Edit) : Prop :=
  e.text.StartsBlank ∧
    (Text.allBlank (raw.take e.start.toNat) = true ∨ raw.take e.start.toNat = ['#'])

/-! ## What edits leave in front of them -/

namespace Edit

variable {t : Text} {edits : List Edit} {e : Edit}

/-- What is in front of all edits stays, also where the edits overlap. -/
theorem foldr_front (hsorted : edits.Pairwise fun a b => leftOf a b = true)
    (hinside : ∀ e ∈ edits, e.Inside t) {k : Nat} (hk : ∀ e ∈ edits, k ≤ e.start.toNat)
    (hlength : k ≤ t.length) : (edits.foldr applyTo t).take k = t.take k := by
  induction edits generalizing k with
  | nil => rfl
  | cons e rest ih =>
    obtain ⟨hfirst, hrest⟩ := List.pairwise_cons.mp hsorted
    obtain ⟨hstart, hle, hstop⟩ := hinside e List.mem_cons_self
    -- the edits further right have left what is in front of this one
    have hbehind : (rest.foldr applyTo t).take e.start.toNat = t.take e.start.toNat := by
      refine ih hrest (fun x hx => hinside x (List.mem_cons_of_mem e hx)) (fun x hx => ?_)
        (by omega)
      have hleft := leftOf_iff.mp (hfirst x hx)
      omega
    have hke := hk e List.mem_cons_self
    rw [List.foldr_cons, applyTo, place_of_nonneg hstart, hbehind, List.append_assoc,
      List.take_append_of_le_length (by rw [List.length_take]; omega), List.take_take,
      Nat.min_eq_left hke]

/-- The leftmost edit decides how the text starts. -/
theorem foldr_cons_front (hsorted : (e :: edits).Pairwise fun a b => leftOf a b = true)
    (hinside : ∀ x ∈ e :: edits, x.Inside t) :
    ∃ behind, (e :: edits).foldr applyTo t = t.take e.start.toNat ++ (e.text ++ behind) := by
  obtain ⟨hfirst, hrest⟩ := List.pairwise_cons.mp hsorted
  obtain ⟨hstart, hle, hstop⟩ := hinside e List.mem_cons_self
  have hbehind : (edits.foldr applyTo t).take e.start.toNat = t.take e.start.toNat := by
    refine foldr_front hrest (fun x hx => hinside x (List.mem_cons_of_mem e hx)) (fun x hx => ?_)
      (by omega)
    have hleft := leftOf_iff.mp (hfirst x hx)
    omega
  refine ⟨(edits.foldr applyTo t).drop (place (edits.foldr applyTo t).length e.stop), ?_⟩
  rw [List.foldr_cons, applyTo, place_of_nonneg hstart, hbehind, List.append_assoc]

end Edit

/-! ## How the edits of deeds start -/

namespace Task

variable {settings : Settings} {unit : Option IndentUnit} {target : Day} {number : Int}
  {raw : Text} {task : Task} {e : Edit}

/-- What an edit puts in starts with white space, if with anything, or else it
starts with no mark of a comment and stands behind the indentation. -/
def Begins (task : Task) (e : Edit) : Prop :=
  e.text.StartsBlank ∨ task.contentStart ≤ e.start.toNat ∧ e.text.head? ≠ some '#'

theorem contentStart_le_field (h : Line.read settings unit target number raw = .ok task)
    {x : Located Field} (hx : x ∈ task.fields) : task.contentStart ≤ x.span.start :=
  Nat.le_trans (Line.contentStart_front h).1 (Line.field_stands h hx).1

theorem head?_ofNat (value : Nat) : (Numeral.ofNat value).head? ≠ some '#' := by
  intro hhead
  have hdigit := Numeral.isDigit_of_mem_ofNat (List.mem_of_mem_head? hhead)
  exact absurd hdigit (by decide)

theorem head?_tag (key : Text) (value : Option Text) :
    (Token.tag key value).text.head? = some '{' := by
  cases value <;> rfl

theorem begins_tag (task : Task) (key : Text) (value : Option Text) (kind : EditKind)
    (payload : Payload) {space : Text} (hspace : space = [] ∨ space = [' ']) :
    task.Begins (.insert task.line task.raw.length (space ++ (Token.tag key value).text) kind
      payload) := by
  rcases hspace with rfl | rfl
  · refine .inr ⟨task.contentStart_le, ?_⟩
    change (Token.tag key value).text.head? ≠ some '#'
    rw [head?_tag]
    decide
  · refine .inl fun c hc => ?_
    obtain rfl : ' ' = c := Option.some.inj hc
    decide

theorem Makes.begins (h : Line.read settings unit target number raw = .ok task)
    (hmark : settings.doneMark.head? ≠ some '#') (he : task.Makes settings e) :
    task.Begins e := by
  obtain ⟨-, hmarker, hpriority⟩ := Line.contentStart_front h
  have hnothing : Text.StartsBlank [] := fun c hc => by simp at hc
  cases he with
  | takeOverdue _ | takeMarker _ | takeStamp _ | takeCollapsed _ => exact .inl hnothing
  | @writeCount x hx value kind =>
    have hstart := (digits_within h hx).1
    have hcontent := contentStart_le_field h (mem_fields_of_count? hx)
    refine .inr ⟨?_, head?_ofNat value⟩
    change task.contentStart ≤ x.value.digits.start
    dsimp only at hcontent
    omega
  | @writeDue x hx value =>
    refine .inr ⟨contentStart_le_field h (mem_fields_of_due? hx), ?_⟩
    change (tagText "due".toList value).head? ≠ some '#'
    rw [tagText, head?_tag]
    decide
  | @writeLetter p hp letter => exact .inr ⟨hpriority p hp, by simp [Edit.replace]⟩
  | putLetter letter =>
    refine .inr ⟨?_, by simp [Edit.insert]⟩
    change _ ≤ (task.marker.map (·.stop)).getD task.contentStart
    cases hm : task.marker with
    | none => exact Nat.le_refl _
    | some m => exact hmarker m hm
  | putMarker => exact .inr ⟨Nat.le_refl _, hmark⟩
  | putTag key value hkind payload =>
    refine begins_tag task key value _ payload ?_
    split <;> simp
  | markOverdue day =>
    refine begins_tag task "overdue".toList (some day.written) _ _ ?_
    split <;> simp

end Task

/-! ## The start of a line -/

namespace Line

/-- The same run of characters at the start, if what is behind the front does not go
on with it. -/
theorem takeWhile_front {p : Char → Bool} {front rest behind : Text}
    (h : (front.takeWhile p).length = front.length →
      rest.takeWhile p = [] ∧ behind.takeWhile p = []) :
    (front ++ behind).takeWhile p = (front ++ rest).takeWhile p := by
  rw [List.takeWhile_append, List.takeWhile_append]
  split
  · rename_i hall
    rw [(h hall).1, (h hall).2]
  · rfl

theorem allBlank_eq_false_iff {t : Text} : t.allBlank = false ↔ ∃ c ∈ t, isBlank c = false := by
  simp [Text.allBlank]

section StaysInPlace

variable {settings : Settings} {unit : Option IndentUnit} {front rest text behind : Text}

/-- What is in front of a change holds something of its own. -/
theorem staysInPlace_of_written (hmark : settings.commentMark = "# ".toList)
    (hcomment : settings.commentMark.isPrefixOf (front ++ rest) = false)
    (hwritten : Text.allBlank front = false) (halone : front ≠ ['#']) :
    StaysInPlace settings unit (front ++ rest) (front ++ behind) where
  written := by
    obtain ⟨c, hc, hblank⟩ := allBlank_eq_false_iff.mp hwritten
    exact allBlank_eq_false_iff.mpr ⟨c, List.mem_append_left _ hc, hblank⟩
  not_comment := by
    rw [hmark] at hcomment ⊢
    match front with
    | [] => simp [Text.allBlank] at hwritten
    | [c] =>
      have hne : c ≠ '#' := fun hc => halone (congrArg (· :: []) hc)
      simp [List.isPrefixOf, hne.symm]
    | c :: d :: front => simpa [List.isPrefixOf] using hcomment
  depth_eq := by
    refine congrArg _ (takeWhile_front fun hall => ?_)
    -- not all of the front is indentation
    obtain ⟨c, hc, hblank⟩ := allBlank_eq_false_iff.mp hwritten
    have hself : front.takeWhile isIndent = front :=
      (List.takeWhile_prefix isIndent).eq_of_length hall
    have hindent : isIndent c = true :=
      List.all_eq_true.mp (hself ▸ List.all_takeWhile) c hc
    rw [isBlank_of_isIndent hindent] at hblank
    exact Bool.noConfusion hblank

/-- What is put in holds something of its own, behind the indentation. -/
theorem staysInPlace_of_put (hmark : settings.commentMark = "# ".toList)
    (hcomment : settings.commentMark.isPrefixOf (front ++ rest) = false)
    (hindent : ((front ++ rest).takeWhile isIndent).length ≤ front.length) {c : Char}
    (hblank : isBlank c = false) (hne : c ≠ '#') :
    StaysInPlace settings unit (front ++ rest) (front ++ c :: behind) where
  written := allBlank_eq_false_iff.mpr ⟨c, by simp, hblank⟩
  not_comment := by
    rw [hmark] at hcomment ⊢
    have hspace : c ≠ ' ' := fun hc => by rw [hc] at hblank; exact absurd hblank (by decide)
    match front with
    | [] => simp [List.isPrefixOf, hne.symm]
    | [d] => simp [List.isPrefixOf, hspace.symm]
    | d :: d' :: front => simpa [List.isPrefixOf] using hcomment
  depth_eq := by
    refine congrArg _ (takeWhile_front fun hall => ⟨?_, ?_⟩)
    · rw [List.takeWhile_append, if_pos hall, List.length_append] at hindent
      exact List.length_eq_zero_iff.mp (by omega)
    · refine List.takeWhile_cons_of_neg fun hc => ?_
      rw [isBlank_of_isIndent hc] at hblank
      exact Bool.noConfusion hblank

end StaysInPlace

end Line

/-- **A line stays in place if no edit of the deed exposes its start.** -/
theorem Deed.staysInPlace {settings : Settings} {unit : Option IndentUnit} {target : Day}
    {number : Int} {raw : Text} {task : Task} {deed : Deed}
    (h : Line.read settings unit target number raw = .ok task)
    (hmark : settings.doneMark.head? ≠ some '#')
    (hcommentMark : settings.commentMark = "# ".toList) (hwritten : raw.allBlank = false)
    (hcomment : settings.commentMark.isPrefixOf raw = false)
    (hnot : ∀ e ∈ deed.edits settings task, ¬ e.Exposes raw) :
    Line.StaysInPlace settings unit raw
      (((deed.edits settings task).mergeSort Edit.leftOf).foldr Edit.applyTo raw) := by
  have hmem : ∀ e ∈ (deed.edits settings task).mergeSort Edit.leftOf,
      e ∈ deed.edits settings task := fun e he => List.mem_mergeSort.mp he
  have hsorted : ((deed.edits settings task).mergeSort Edit.leftOf).Pairwise
      fun a b => Edit.leftOf a b = true :=
    List.pairwise_mergeSort Edit.leftOf_trans Edit.leftOf_total _
  generalize (deed.edits settings task).mergeSort Edit.leftOf = sorted at hmem hsorted
  cases sorted with
  | nil => exact ⟨hwritten, hcomment, rfl⟩
  | cons e rest =>
    have hinside : ∀ x ∈ e :: rest, x.Inside raw := fun x hx => by
      rw [← Line.raw_of_read h]
      exact ((makes (hmem x hx)).owns h).inside
    obtain ⟨behind, hfold⟩ := Edit.foldr_cons_front hsorted hinside
    have hfirst := hmem e List.mem_cons_self
    have hbegins := (makes hfirst).begins h hmark
    have hexposes := hnot e hfirst
    rw [hfold]
    have hraw : raw = raw.take e.start.toNat ++ raw.drop e.start.toNat :=
      (List.take_append_drop _ _).symm
    by_cases hblank : e.text.StartsBlank
    · have hfront : Text.allBlank (raw.take e.start.toNat) = false := by
        cases hall : Text.allBlank (raw.take e.start.toNat) with
        | false => rfl
        | true => exact absurd ⟨hblank, .inl hall⟩ hexposes
      have hplace : Line.StaysInPlace settings unit
          (raw.take e.start.toNat ++ raw.drop e.start.toNat)
          (raw.take e.start.toNat ++ (e.text ++ behind)) :=
        Line.staysInPlace_of_written hcommentMark (by rwa [← hraw]) hfront
          fun halone => hexposes ⟨hblank, .inr halone⟩
      rwa [← hraw] at hplace
    · obtain ⟨hcontent, hhead⟩ := hbegins.resolve_left hblank
      obtain ⟨c, more, htext, hc⟩ : ∃ c more, e.text = c :: more ∧ isBlank c = false := by
        cases htext : e.text with
        | nil => exact absurd (fun c hc => by simp [htext] at hc) hblank
        | cons c more =>
          refine ⟨c, more, rfl, Bool.eq_false_iff.mpr fun hc => hblank fun d hd => ?_⟩
          rw [htext] at hd
          rwa [← Option.some.inj hd]
      have hindent : (raw.takeWhile Line.isIndent).length ≤ (raw.take e.start.toNat).length := by
        have hstop := (hinside e List.mem_cons_self).stop_le
        have hle := (hinside e List.mem_cons_self).start_le
        rw [Task.contentStart, Line.raw_of_read h] at hcontent
        change (raw.takeWhile Line.isIndent).length ≤ _ at hcontent
        rw [List.length_take]
        omega
      have hplace : Line.StaysInPlace settings unit
          (raw.take e.start.toNat ++ raw.drop e.start.toNat)
          (raw.take e.start.toNat ++ c :: (more ++ behind)) :=
        Line.staysInPlace_of_put hcommentMark (by rwa [← hraw]) (by rwa [← hraw]) hc
          fun hcomment => hhead (by rw [htext, hcomment]; rfl)
      rw [← hraw] at hplace
      rwa [htext]

end TaskList
