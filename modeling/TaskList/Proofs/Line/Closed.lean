/-
TaskList.Proofs.Line.Closed — a line that closes up where a tag is taken out.

* `Text.ClosesUp` — what keeps the words of a line when a text in the middle of it
  is taken out: no tag comes together at the seam, white space that goes leaves
  white space there, and no mark of a mention comes to stand at the start of a word.
  `Line.closesUp_of_startsBlank` — white space behind the tag is enough, but for braces.
* `Laid.reopen`, `Laid.free` — parts stay parts behind another character, and when
  keys are free again that no tag among them asks for.
* `Laid.close` — what is in front of a text that goes and what is behind it stay
  parts. `Laid.cut` — so a tag can be taken out of the parts of a line, with a space
  next to it or without, and `Laid.words_cut` — the same words are left for the title.
-/
import TaskList.Proofs.Line.Counter

namespace TaskList

namespace Text

/-- Where a text is taken out between two others, the words at the seam are read
as they were. -/
structure ClosesUp (front cut behind : Text) : Prop where
  /-- No tag comes together, -/
  apart : ¬ TagAcross front behind
  /-- a space that goes was not all that kept two words apart, -/
  blank : cut.head? = some ' ' ∨ cut.getLast? = some ' ' → front.EndsBlank ∨ behind.StartsBlank
  /-- and no mark starts a word that did not. -/
  unmarked : (∀ c ∈ behind.head?, Group.ofMark? c = none) ∨ cut.getLast? = some ' ' ∨
    ¬ front.EndsBlank

/-- Words stay apart at white space. -/
theorem words_append {u v : Text} (h : u.EndsBlank ∨ v.StartsBlank) :
    words (u ++ v) = words u ++ words v := by
  obtain hend | hstart := h
  · rcases List.eq_nil_or_concat u with rfl | ⟨u, c, rfl⟩
    · rfl
    · rw [List.concat_eq_append] at hend ⊢
      have hc : isBlank c = true := hend c List.getLast?_concat
      rw [List.append_assoc, List.singleton_append, words_append_cons hc, words_append_cons hc]
      simp [words, cut]
  · cases v with
    | nil => simp [words, cut]
    | cons c v =>
      have hc : isBlank c = true := hstart c rfl
      rw [words_append_cons hc, words_cons_blank hc]

end Text

/-! ## Another character in front, and keys that are free again -/

namespace Token

/-- What stands in front of a text matters to a mention only, and there only whether
it is white space. -/
theorem at?_before {before before' : Option Char} {t : Text}
    (h : (∀ c ∈ t.head?, Group.ofMark? c = none) ∨
      ((∀ c ∈ before, isBlank c = true) ↔ ∀ c ∈ before', isBlank c = true)) :
    at? before t = at? before' t := by
  have hopens : ∀ b : Option Char, opensMention b = true ↔ ∀ c ∈ b, isBlank c = true := by
    intro b
    cases b <;> simp [opensMention]
  cases t with
  | nil => rfl
  | cons c t =>
    unfold at?
    split
    · rfl
    · rfl
    · rename_i d rest _ heq
      obtain ⟨rfl, rfl⟩ := List.cons.inj heq
      obtain hnone | hsame := h
      · rw [hnone c rfl]
      · rw [← hopens, ← hopens, ← Bool.eq_iff_iff] at hsame
        rw [hsame]

end Token

namespace Line

variable {target : Day} {before before' : Option Char} {used used' : List Key}
  {parts front gone behind : List Part} {after : Text}

theorem lastBehind_eq (before : Option Char) (parts : List Part) :
    lastBehind before parts = (textOf parts).getLast?.or before := by
  induction parts generalizing before with
  | nil => rfl
  | cons part parts ih =>
    rw [lastBehind, ih, textOf_cons, List.getLast?_append, Option.or_assoc,
      List.getLast?_eq_some_getLast part.text_ne_nil]
    rfl

/-- Of two starts of a line the shorter one is a start of the other. -/
theorem exists_append_of_length {first rest back : List Part} (h : first ++ rest = front ++ back)
    (hle : (textOf first).length ≤ (textOf front).length) : ∃ more, front = first ++ more := by
  rcases List.append_eq_append_iff.mp h with ⟨more, hmore, -⟩ | ⟨more, rfl, -⟩
  · exact ⟨more, hmore⟩
  · cases more with
    | nil => exact ⟨[], by rw [List.append_nil, List.append_nil]⟩
    | cons part more =>
      have hpos := List.length_pos_iff.mpr part.text_ne_nil
      simp only [textOf_append, textOf_cons, List.length_append] at hle
      omega

/-- A token starts with a brace or a mark, and is where it is for what is in front
of it. -/
theorem Part.Stands.reopen {part : Part} (h : part.Stands target before used after)
    (hsame : (∀ c ∈ part.text.head?, Group.ofMark? c = none) ∨
      ((∀ c ∈ before, isBlank c = true) ↔ ∀ c ∈ before', isBlank c = true)) :
    part.Stands target before' used after := by
  have hfits : ∀ {token : Token}, part.text = token.text → token.Fits before after →
      token.Fits before' after := by
    intro token htext hfits
    cases token with
    | tag key value => trivial
    | mention group name =>
      obtain hnone | hsame := hsame
      · have hmark := hnone group.mark (by rw [htext]; rfl)
        rw [Token.ofMark?_eq_some_iff.mpr rfl] at hmark
        exact absurd hmark (Option.some_ne_none group)
      · exact ⟨hsame.mp hfits.1, hfits.2⟩
  cases part with
  | plain c => exact (Token.at?_before (t := c :: after) hsame).symm.trans h
  | kept token => exact ⟨h.1, hfits rfl h.2.1, h.2.2⟩
  | taken token field => exact ⟨h.1, hfits rfl h.2.1, h.2.2⟩

/-- Parts stay parts behind another character, if white space is in its place or
no mark comes first. -/
theorem Laid.reopen (h : Laid target before used parts after)
    (hsame : (∀ c ∈ (textOf parts).head?, Group.ofMark? c = none) ∨
      ((∀ c ∈ before, isBlank c = true) ↔ ∀ c ∈ before', isBlank c = true)) :
    Laid target before' used parts after := by
  cases parts with
  | nil => trivial
  | cons part parts =>
    refine ⟨h.1.reopen (hsame.imp_left fun hnone c hc => hnone c ?_), h.2⟩
    rw [textOf_cons, List.head?_append, Option.mem_def.mp hc]
    rfl

/-- Parts stay parts when keys are free again that no tag asks for that is
text. -/
theorem Laid.free (h : Laid target before used parts after) (hless : ∀ key ∈ used', key ∈ used)
    (hkept : ∀ token, .kept token ∈ parts → ∀ key ∈ used, key ∉ used' → ¬ key.Carries token) :
    Laid target before used' parts after := by
  induction parts generalizing before used used' with
  | nil => trivial
  | cons part parts ih =>
    obtain ⟨hpart, hparts⟩ := h
    constructor
    · cases part with
      | plain c => exact hpart
      | kept token =>
        obtain ⟨hshape, hfits, hnone⟩ := hpart
        obtain ⟨letters, value, rfl, hnot⟩ := field?_eq_none hnone
        refine ⟨hshape, hfits, field?_of_not_carries (fun key hfree => ?_) target _⟩
        by_cases hkey : key ∈ used
        · exact hkept _ List.mem_cons_self key hkey hfree
        · exact hnot key hkey
      | taken token field =>
        obtain ⟨hshape, hfits, hfield⟩ := hpart
        refine ⟨hshape, hfits, ?_⟩
        cases token with
        | mention group name => exact hfield
        | tag letters value =>
          obtain ⟨key, hletters, hkey, hread⟩ := field?_tag_iff.mp hfield
          exact field?_tag_iff.mpr ⟨key, hletters, mt (hless key) hkey, hread⟩
    · refine ih hparts (fun key hkey => ?_) fun token htoken key hkey hnot => ?_
      · exact List.mem_append.mpr ((List.mem_append.mp hkey).imp_right (hless key))
      · have hnot := not_or.mp (mt List.mem_append.mpr hnot)
        exact hkept token (List.mem_cons_of_mem _ htoken) key
          ((List.mem_append.mp hkey).resolve_left hnot.1) hnot.2

/-! ## Taking a tag out -/

theorem ofMark?_of_isBlank {c : Char} (h : isBlank c = true) : Group.ofMark? c = none := by
  refine Option.eq_none_iff_forall_ne_some.mpr fun group hgroup => ?_
  rw [← Token.ofMark?_eq_some_iff.mp hgroup] at h
  cases group <;> exact absurd h (by decide)

/-- A line closes up in front of white space, if no brace is there to make a tag of
what comes together. -/
theorem closesUp_of_startsBlank {front behind : Text} (gone : Text)
    (hbrace : '{' ∉ front ∨ '}' ∉ behind) (hspace : behind.StartsBlank) :
    Text.ClosesUp front gone behind where
  apart := by
    rintro ⟨key, value, u, v, hshape, htext, hu, hv, hfront, hbehind⟩
    obtain ⟨body, hbody, -⟩ := Token.tag_text hshape
    obtain hopen | hclose := hbrace
    · obtain ⟨c, u, rfl⟩ := List.exists_cons_of_ne_nil hu
      obtain rfl : '{' = c := (List.cons.inj (hbody.symm.trans htext)).1
      exact hopen (hfront.mem List.mem_cons_self)
    · have hlast := congrArg List.getLast? (hbody.symm.trans htext)
      rw [List.getLast?_append_of_ne_nil _ hv, ← List.cons_append, List.getLast?_concat] at hlast
      exact hclose (hbehind.mem (List.mem_of_getLast? hlast.symm))
  blank _ := .inr hspace
  unmarked := .inl fun c hc => ofMark?_of_isBlank (hspace c hc)

/-- The parts that go with a tag: it alone, or with a space next to it. -/
inductive IsCut (token : Token) (field : Field) : List Part → Prop
  | alone : IsCut token field [.taken token field]
  | left : IsCut token field [.plain ' ', .taken token field]
  | right : IsCut token field [.taken token field, .plain ' ']

section Cut

variable {letters : Text} {value : Option Text} {field : Field}

theorem IsCut.keys (h : IsCut (.tag letters value) field gone) {key : Key} :
    (∃ part ∈ gone, key ∈ part.keys) ↔ field.key? = some key := by
  cases h <;> simp [Part.keys, Part.field?]

/-- What is left for the title of what goes is a space, which stood at an end of
it, or nothing. -/
theorem IsCut.leftover (h : IsCut (.tag letters value) field gone) :
    leftoverOf gone = [] ∨ leftoverOf gone = [' '] ∧
      ((textOf gone).head? = some ' ' ∨ (textOf gone).getLast? = some ' ') := by
  cases h with
  | alone => exact .inl rfl
  | left => exact .inr ⟨rfl, .inl rfl⟩
  | right => exact .inr ⟨rfl, .inr List.getLast?_concat⟩

theorem IsCut.isShaped (h : IsCut (.tag letters value) field gone)
    (hlaid : Laid target before used gone after) : (Token.tag letters value).IsShaped := by
  cases h with
  | alone => exact hlaid.1.1
  | left => exact hlaid.2.1.1
  | right => exact hlaid.1.1

/-- What goes ends with a space or a brace. -/
theorem IsCut.getLast? (h : IsCut (.tag letters value) field gone)
    (hshape : (Token.tag letters value).IsShaped) :
    (textOf gone).getLast? = some ' ' ∨ (textOf gone).getLast? = some '}' := by
  cases h with
  | alone => exact .inr ((congrArg _ (List.append_nil _)).trans (Token.tag_getLast? hshape))
  | left =>
    have hlast : (Part.taken (.tag letters value) field).text.getLast? = some '}' :=
      Token.tag_getLast? hshape
    refine .inr ?_
    rw [textOf_cons, textOf_cons, textOf_nil, List.append_nil, List.getLast?_append, hlast]
    rfl
  | right => exact .inl List.getLast?_concat

theorem IsCut.head? (h : IsCut (.tag letters value) field gone)
    (hshape : (Token.tag letters value).IsShaped) :
    (textOf gone).head? = some ' ' ∨ (textOf gone).head? = some '{' := by
  obtain ⟨body, hbody⟩ := Token.tag_head hshape
  cases h <;> simp [Part.text, hbody]

/-- White space at the end of parts is a part of its own. -/
theorem Laid.leftover_endsBlank (h : Laid target before used parts after)
    (hend : (textOf parts).EndsBlank) : (leftoverOf parts).EndsBlank := by
  rcases List.eq_nil_or_concat parts with rfl | ⟨parts, part, rfl⟩
  · exact hend
  · rw [List.concat_eq_append] at h hend ⊢
    obtain ⟨-, hpart, -⟩ := laid_append.mp h
    have hlast : part.text.EndsBlank := by
      rw [textOf_append] at hend
      simpa using hend.right
    cases part with
    | plain c =>
      have hleft : leftoverOf [.plain c] = [c] := rfl
      intro d hd
      rw [leftoverOf_append, hleft, List.getLast?_concat] at hd
      exact hlast d hd
    | kept token => exact absurd hlast (Token.not_endsBlank hpart.1)
    | taken token field => exact absurd hlast (Token.not_endsBlank hpart.1)

theorem Token.not_startsBlank (token : Token) (after : Text) :
    ¬ Text.StartsBlank (token.text ++ after) := by
  intro hblank
  cases token with
  | tag key value =>
    have hbrace : isBlank '{' = true := hblank '{' (by cases value <;> rfl)
    exact absurd hbrace (by decide)
  | mention group name =>
    have hmark : isBlank group.mark = true := hblank _ rfl
    cases group <;> exact absurd hmark (by decide)

theorem leftover_startsBlank (hstart : (textOf parts).StartsBlank) :
    (leftoverOf parts).StartsBlank := by
  cases parts with
  | nil => exact hstart
  | cons part parts =>
    cases part with
    | plain c => exact hstart
    | kept token => exact absurd hstart (Token.not_startsBlank token _)
    | taken token field => exact absurd hstart (Token.not_startsBlank token _)

/-- What is in front of a text that goes and what is behind it stay parts where the
line closes up. The text starts and ends with a space, or with the braces of a tag. -/
theorem Laid.close (h : Laid target none used (front ++ (gone ++ behind)) [])
    (hhead : (textOf gone).head? = some ' ' ∨ (textOf gone).head? = some '{')
    (hlast : (textOf gone).getLast? = some ' ' ∨ (textOf gone).getLast? = some '}')
    (hcloses : Text.ClosesUp (textOf front) (textOf gone) (textOf behind)) :
    Laid target none used front (textOf behind ++ []) ∧
      Laid target (lastBehind none front) (usedBehind (usedBehind used front) gone) behind [] := by
  obtain ⟨hfront, hrest⟩ := laid_append.mp h
  obtain ⟨-, hbehind⟩ := laid_append.mp hrest
  refine ⟨hfront.join ?_ ?_, hbehind.reopen ?_⟩
  · rw [List.append_nil]
    exact hcloses.apart
  · obtain hspace | hbrace := hhead
    · simp only [List.append_nil]
      exact (hcloses.blank (.inl hspace)).imp_right fun hstart _ => hstart
    · refine .inr fun hstart => absurd (hstart '{' ?_) (by decide)
      rw [textOf_append, List.append_assoc, List.head?_append, hbrace]
      rfl
  · rw [lastBehind_eq, lastBehind_eq, Option.or_none]
    obtain hspace | hbrace := hlast
    · rw [hspace]
      obtain hend | hstart := hcloses.blank (.inr hspace)
      · exact .inr ⟨fun _ => hend, fun _ c hc => by obtain rfl := Option.some.inj hc; decide⟩
      · exact .inl fun c hc => ofMark?_of_isBlank (hstart c hc)
    · rw [hbrace]
      obtain hnone | hspace | hend := hcloses.unmarked
      · exact .inl hnone
      · exact absurd (hbrace.symm.trans hspace) (by decide)
      · exact .inr ⟨fun hblank => absurd (hblank '}' rfl) (by decide), fun h => absurd h hend⟩

/-- **A tag is taken out of the parts of a line**, and the others are parts of what
is left of it. -/
theorem Laid.cut (h : Laid target none [] (front ++ (gone ++ behind)) [])
    (hcut : IsCut (.tag letters value) field gone)
    (hcloses : Text.ClosesUp (textOf front) (textOf gone) (textOf behind))
    (honly : ∀ token, .kept token ∈ behind → ∀ key ∈ field.key?, ¬ key.Carries token) :
    Laid target none [] (front ++ behind) [] := by
  have hshape := hcut.isShaped (laid_append.mp (laid_append.mp h).2).1
  obtain ⟨hfront, hbehind⟩ := h.close (hcut.head? hshape) (hcut.getLast? hshape) hcloses
  refine laid_append.mpr ⟨hfront, hbehind.free (fun key hkey => ?_) ?_⟩
  · exact mem_usedBehind.mpr (.inl hkey)
  · intro token htoken key hkey hfree
    have hgoes := hcut.keys.mp ((mem_usedBehind.mp hkey).resolve_left hfree)
    exact honly token htoken key hgoes

theorem Laid.words_cut (h : Laid target none [] (front ++ (gone ++ behind)) [])
    (hcut : IsCut (.tag letters value) field gone)
    (hcloses : Text.ClosesUp (textOf front) (textOf gone) (textOf behind)) :
    Text.words (leftoverOf (front ++ behind)) =
      Text.words (leftoverOf (front ++ (gone ++ behind))) := by
  rw [leftoverOf_append, leftoverOf_append, leftoverOf_append]
  obtain hnone | ⟨hspace, hedge⟩ := hcut.leftover
  · rw [hnone, List.nil_append]
  · have hblank := (hcloses.blank hedge).imp (laid_append.mp h).1.leftover_endsBlank
      leftover_startsBlank
    rw [hspace, List.singleton_append, Text.words_append_cons (by decide),
      Text.words_append hblank]

end Cut

end Line

end TaskList
