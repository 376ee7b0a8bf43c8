/-
TaskList.Proofs.Line.Thinned — a line from which tags go, and the tags that are left.

* `Part.unread` — a part of which no field is read. `Laid.unread` — parts are parts
  still when no tag is read, since all keys are used up. It does not matter to them then
  which tag of a key is the first, and a tag may go while others carry its key.
* `Line.Thinned` — the unread parts of a line of which tags behind a column are taken
  out, or hold another number. `Thinned.cut`, `Thinned.recount` — the same is done in
  front of the column.
* `Line.exists_read_withTag` — a tag at the end does not keep a line from being read.
-/
import TaskList.Proofs.Line.Appended
import TaskList.Proofs.Line.Carriers

namespace TaskList

namespace Line

/-! ## Unread parts -/

namespace Part

/-- The part when no tag is read. -/
def unread : Part → Part
  | plain c => plain c
  | kept token => kept token
  | taken (.tag letters value) _ => kept (.tag letters value)
  | taken (.mention group name) _ => taken (.mention group name) (.mention group name)

@[simp] theorem text_unread (part : Part) : part.unread.text = part.text := by
  rcases part with c | token | ⟨_ | _, field⟩ <;> rfl

@[simp] theorem token?_unread (part : Part) : part.unread.token? = part.token? := by
  rcases part with c | token | ⟨_ | _, field⟩ <;> rfl

@[simp] theorem keys_unread (part : Part) : part.unread.keys = [] := by
  rcases part with c | token | ⟨_ | _, field⟩ <;> rfl

end Part

/-- Parts of which no tag is read. -/
def unreadParts (parts : List Part) : List Part := parts.map Part.unread

section Unread

variable {target : Day} {before : Option Char} {used : List Key} {parts : List Part}
  {after : Text}

@[simp] theorem unreadParts_append (parts rest : List Part) :
    unreadParts (parts ++ rest) = unreadParts parts ++ unreadParts rest := List.map_append

@[simp] theorem textOf_unreadParts (parts : List Part) :
    textOf (unreadParts parts) = textOf parts := by
  simp [unreadParts, textOf, List.flatMap_map]

@[simp] theorem tokensOf_unreadParts (parts : List Part) :
    tokensOf (unreadParts parts) = tokensOf parts := by
  simp [unreadParts, tokensOf, List.filterMap_map]

@[simp] theorem unreadParts_plainParts (t : Text) :
    unreadParts (plainParts t) = plainParts t := by
  simp [unreadParts, plainParts, Part.unread]

theorem usedBehind_unreadParts (used : List Key) (parts : List Part) :
    usedBehind used (unreadParts parts) = used := by
  induction parts generalizing used with
  | nil => rfl
  | cons part parts ih =>
    rw [unreadParts, List.map_cons, usedBehind, Part.keys_unread, List.nil_append]
    exact ih used

/-- No tag is read when all keys are used up. -/
theorem field?_all (target : Day) (letters : Text) (value : Option Text) :
    field? target Key.all ⟨⟨0, 0⟩, .tag letters value⟩ = .ok none :=
  field?_of_not_carries (fun key hfree => absurd (Task.mem_allKeys key) hfree) target _

theorem Part.Stands.unread {part : Part} (h : part.Stands target before used after) :
    part.unread.Stands target before Key.all after := by
  cases part with
  | plain c => exact h
  | kept token =>
    obtain ⟨hshape, hfits, hnone⟩ := h
    obtain ⟨letters, value, rfl, -⟩ := field?_eq_none hnone
    exact ⟨hshape, hfits, field?_all target letters value⟩
  | taken token field =>
    obtain ⟨hshape, hfits, -⟩ := h
    cases token with
    | tag letters value => exact ⟨hshape, hfits, field?_all target letters value⟩
    | mention group name => exact ⟨hshape, hfits, rfl⟩

/-- **Parts stay parts when no tag is read.** -/
theorem Laid.unread (h : Laid target before used parts after) :
    Laid target before Key.all (unreadParts parts) after := by
  induction parts generalizing before used with
  | nil => trivial
  | cons part parts ih =>
    obtain ⟨hpart, hparts⟩ := h
    rw [unreadParts, List.map_cons, Laid, Part.text_unread, Part.keys_unread]
    change part.unread.Stands target before Key.all (textOf (unreadParts parts) ++ after) ∧ _
    rw [textOf_unreadParts]
    exact ⟨hpart.unread, ih hparts⟩

/-- The fields of a line are read from it, so the first tag of every key can be read. -/
theorem Laid.areReadable (h : Laid target before [] parts []) : AreReadable (tokensOf parts) := by
  rw [← map_tokensAt 0]
  exact areReadable_of_fields (h.fields_eq 0)

end Unread

/-! ## From right to left -/

/-- The unread parts of a line of which tags behind a column are taken out, or hold
another number. -/
structure Thinned (target : Day) (whole : List Part) (gone : List Key) (column : Nat)
    (parts : List Part) : Prop where
  laid : Laid target none Key.all parts []
  /-- In front of the column nothing is changed, -/
  front : ∀ first rest, whole = first ++ rest → (textOf first).length ≤ column →
    ∃ rest', parts = unreadParts first ++ rest'
  /-- the first tag of every key can be read, -/
  readable : AreReadable (tokensOf parts)
  /-- the tag that goes is the first one of its key, -/
  less : ∀ key ∈ gone, ∃ token,
    key.carriers (tokensOf whole) = token :: key.carriers (tokensOf parts)
  /-- and where none goes, the tags of a key are the same, but for the counter. -/
  same : ∀ key ∉ gone, key ≠ .count →
    key.carriers (tokensOf parts) = key.carriers (tokensOf whole)

section Thinned

variable {target : Day} {whole parts front hole back : List Part} {gone : List Key}
  {column : Nat} {letters : Text} {value : Option Text} {field : Field} {key : Key}

theorem Laid.thinned (h : Laid target none [] whole []) (column : Nat) :
    Thinned target whole [] column (unreadParts whole) where
  laid := h.unread
  front first rest hwhole _ := ⟨unreadParts rest, by rw [hwhole, unreadParts_append]⟩
  readable := by
    rw [tokensOf_unreadParts]
    exact h.areReadable
  less _ hgone := absurd hgone List.not_mem_nil
  same key _ _ := by rw [tokensOf_unreadParts]

theorem Thinned.mono {low : Nat} (h : Thinned target whole gone column parts)
    (hle : low ≤ column) : Thinned target whole gone low parts :=
  { h with front := fun first rest hfirst hlow =>
      h.front first rest hfirst (Nat.le_trans hlow hle) }

/-- Plain characters in front of the column stay. -/
theorem Thinned.exists_front (h : Thinned target whole gone column parts) {t : Text}
    {rest : List Part} (hwhole : whole = plainParts t ++ rest) (hle : t.length ≤ column) :
    ∃ behind, parts = plainParts t ++ behind := by
  obtain ⟨behind, hparts⟩ := h.front (plainParts t) rest hwhole (by simpa using hle)
  exact ⟨behind, by rw [hparts, unreadParts_plainParts]⟩

theorem IsCut.tokensOf_eq (h : IsCut (.tag letters value) field hole) :
    tokensOf hole = [.tag letters value] := by
  cases h <;> rfl

/-- The tag that a field is read from carries its key, and none in front of it does. -/
theorem Laid.carries_of_isCut (h : Laid target none [] (front ++ (hole ++ back)) [])
    (hcut : IsCut (.tag letters value) field hole) (hkey : field.key? = some key) :
    key.Carries (.tag letters value) ∧ key.carriers (tokensOf front) = [] := by
  obtain ⟨part, hpart, hkeys⟩ := hcut.keys.mpr hkey
  refine ⟨?_, Key.carriers_eq_nil_iff.mpr
    (h.not_carries_front (List.mem_append_left back hpart) hkeys)⟩
  obtain ⟨before, used, after, -, -, hread⟩ : ∃ before used after,
      (Part.taken (.tag letters value) field).Stands target before used after := by
    obtain ⟨-, hrest⟩ := laid_append.mp h
    cases hcut with
    | alone => exact ⟨_, _, _, hrest.1⟩
    | left => exact ⟨_, _, _, hrest.2.1⟩
    | right => exact ⟨_, _, _, hrest.1⟩
  obtain ⟨_, _, htoken, -⟩ | ⟨other, value', htoken, -, -, htakes, hused⟩ := field?_eq_some hread
  · exact Token.noConfusion htoken
  · rw [hkey] at hused
    obtain rfl : key = other := List.singleton_injective hused
    exact ⟨value', htoken, htakes⟩

/-- The tags of the keys when a tag is one of the parts. -/
theorem carriers_hole (hole : List Part) {key : Key}
    (htokens : tokensOf hole = [.tag letters value])
    (hfirst : key.Carries (.tag letters value) ∧ key.carriers (tokensOf front) = [])
    (behind : List Part) :
    key.carriers (tokensOf (front ++ (hole ++ behind))) =
        .tag letters value :: key.carriers (tokensOf (front ++ behind)) ∧
      ∀ other ≠ key, other.carriers (tokensOf (front ++ (hole ++ behind))) =
        other.carriers (tokensOf (front ++ behind)) := by
  simp only [tokensOf_append, htokens, Key.carriers_append, List.singleton_append]
  constructor
  · rw [hfirst.2, List.nil_append, List.nil_append, Key.carriers_cons_of_carries hfirst.1]
  · intro other hne
    rw [Key.carriers_cons_of_not fun hcarries => hne (hcarries.unique hfirst.1)]

/-- **Taking a tag out** in front of the column. -/
theorem Thinned.cut (h : Thinned target whole gone column parts)
    (hlaid : Laid target none [] whole []) (hwhole : whole = front ++ (hole ++ back))
    (hle : (textOf (front ++ hole)).length ≤ column)
    (hcut : IsCut (.tag letters value) field hole) (hkey : field.key? = some key)
    (hnew : key ∉ gone) (hcount : key ≠ .count) (hdue : key ≠ .due)
    (hcloses : Text.ClosesUp (textOf front) (textOf hole)
      ((textOf parts).drop (textOf (front ++ hole)).length)) :
    ∃ behind, parts = unreadParts front ++ (unreadParts hole ++ behind) ∧
      Thinned target whole (key :: gone) (textOf front).length (unreadParts front ++ behind) := by
  obtain ⟨behind, hparts⟩ := h.front (front ++ hole) back (by rw [hwhole, List.append_assoc]) hle
  have hbehind : (textOf parts).drop (textOf (front ++ hole)).length = textOf behind := by
    rw [hparts, textOf_append _ behind, textOf_unreadParts, List.drop_left]
  rw [hbehind] at hcloses
  rw [unreadParts_append, List.append_assoc] at hparts
  refine ⟨behind, hparts, ?_⟩
  have hlaid' := h.laid
  rw [hparts] at hlaid'
  rw [hwhole] at hlaid
  have hshape := hcut.isShaped (laid_append.mp (laid_append.mp hlaid).2).1
  -- the tag carries its key and no other one, and no tag in front of it does
  have hfirst := hlaid.carries_of_isCut hcut hkey
  rw [← tokensOf_unreadParts front] at hfirst
  obtain ⟨hown, hother⟩ := carriers_hole (unreadParts hole)
    ((tokensOf_unreadParts hole).trans hcut.tokensOf_eq) hfirst behind
  rw [← hparts] at hown hother
  constructor
  case laid =>
    obtain ⟨hfront, hback⟩ := hlaid'.close (by simpa using hcut.head? hshape)
      (by simpa using hcut.getLast? hshape) (by simpa using hcloses)
    rw [usedBehind_unreadParts] at hback
    refine laid_append.mpr ⟨hfront, ?_⟩
    rwa [usedBehind_unreadParts] at hback ⊢
  case front =>
    intro first rest hsplit hle'
    obtain ⟨more, rfl⟩ := exists_append_of_length (hsplit.symm.trans hwhole) hle'
    exact ⟨unreadParts more ++ behind, by rw [unreadParts_append, List.append_assoc]⟩
  case readable =>
    intro other value' rest hcarriers n hlong
    by_cases hsame : other = key
    · rcases hlong.eq_or with hlong | hlong
      · exact hcount (hsame.symm.trans hlong)
      · exact hdue (hsame.symm.trans hlong)
    · exact h.readable other value' rest ((hother other hsame).trans hcarriers) n hlong
  case less =>
    intro other hgone
    rcases List.mem_cons.mp hgone with rfl | hgone
    · exact ⟨_, (h.same other hnew hcount).symm.trans hown⟩
    · rw [← hother other fun heq => hnew (heq ▸ hgone)]
      exact h.less other hgone
  case same =>
    intro other hgone hne
    obtain ⟨hother', hgone⟩ := not_or.mp (mt List.mem_cons.mpr hgone)
    rw [← hother other hother', h.same other hgone hne]

/-- **Writing a number** into a counter in front of the column. -/
theorem Thinned.recount {c : Count} {done : Nat} (h : Thinned target whole gone column parts)
    (hlaid : Laid target none [] whole [])
    (hwhole : whole = front ++ .taken (.tag letters value) (.count c) :: back)
    (hle : (textOf (front ++ [.taken (.tag letters value) (.count c)])).length ≤ column)
    (hgone : Key.count ∉ gone) (hdone : Numeral.value (Numeral.ofNat done) = .ok done) :
    ∃ behind, parts = unreadParts front ++ .kept (.tag letters value) :: behind ∧
      Thinned target whole gone (textOf front).length
        (unreadParts front ++ .kept ((Token.tag letters value).recount done) :: behind) := by
  obtain ⟨behind, hparts⟩ := h.front (front ++ [.taken (.tag letters value) (.count c)]) back
    (by rw [hwhole, List.append_assoc, List.singleton_append]) hle
  rw [unreadParts_append, List.append_assoc] at hparts
  change parts = unreadParts front ++ .kept (.tag letters value) :: behind at hparts
  refine ⟨behind, hparts, ?_⟩
  have hlaid' := h.laid
  rw [hparts] at hlaid'
  rw [hwhole] at hlaid
  have hfirst := hlaid.carries_of_isCut .alone rfl
  obtain ⟨-, ⟨hshape, -, hread⟩, -⟩ := laid_append.mp hlaid
  obtain ⟨hfree, current, scale, htag, -⟩ := counter_of_field? hread
  obtain ⟨rfl, rfl⟩ := Token.tag.inj htag
  have hwritten := field?_recount hread hdone
  rw [Token.recount] at hwritten ⊢
  generalize hvalue : Numeral.ofNat done ++ (current ++ scale).dropWhile Numeral.isDigit = number
    at hwritten ⊢
  have hfirst' : Key.count.Carries (.tag Key.count.text (some number)) ∧
      Key.count.carriers (tokensOf front) = [] :=
    ⟨(carries_of_field? hwritten .count hfree).mpr List.mem_cons_self, hfirst.2⟩
  rw [← tokensOf_unreadParts front] at hfirst hfirst'
  obtain ⟨hown, hother⟩ :=
    carriers_hole [.kept (.tag Key.count.text (some (current ++ scale)))] rfl hfirst behind
  obtain ⟨hown', hother'⟩ :=
    carriers_hole [.kept (.tag Key.count.text (some number))] rfl hfirst' behind
  rw [List.singleton_append, ← hparts] at hother
  rw [List.singleton_append] at hown' hother'
  constructor
  case laid =>
    have hshape' : ((Token.tag Key.count.text (some (current ++ scale))).recount done).IsShaped :=
      isShaped_recount hshape
    rw [Token.recount, hvalue] at hshape'
    refine hlaid'.swap rfl rfl ⟨hshape', trivial, ?_⟩ rfl
    rw [usedBehind_unreadParts]
    exact field?_all target _ _
  case front =>
    intro first rest hsplit hle'
    obtain ⟨more, rfl⟩ := exists_append_of_length (hsplit.symm.trans hwhole) hle'
    exact ⟨unreadParts more ++ _, by rw [unreadParts_append, List.append_assoc]⟩
  case readable =>
    intro other value' rest hcarriers n
    by_cases hsame : other = .count
    · subst hsame
      obtain ⟨htag, -⟩ := List.cons.inj (hown'.symm.trans hcarriers)
      exact not_overlong_of_field? hwritten n .count hfree value' htag
    · rw [hother' other hsame, ← hother other hsame] at hcarriers
      exact h.readable other value' rest hcarriers n
  case less =>
    intro other hmem
    have hne : other ≠ .count := fun heq => hgone (heq ▸ hmem)
    rw [hother' other hne, ← hother other hne]
    exact h.less other hmem
  case same =>
    intro other hnot hne
    rw [hother' other hne, ← hother other hne, h.same other hnot hne]

end Thinned

/-! ## A tag at the end -/

section WithTag

variable {settings : Settings} {unit : Option IndentUnit} {target : Day} {number : Int}
  {raw : Text} {task : Task} {parts base : List Part} {key : Key} {value : Option Text}

theorem IsBase.tokensOf_eq (h : IsBase base parts) : tokensOf base = tokensOf parts := by
  rcases h with rfl | rfl
  · rfl
  · rw [tokensOf_append]
    exact (List.append_nil _).symm

/-- A tag that cannot be too long may come last. -/
theorem AreReadable.concat {found : List Token} (h : AreReadable found) (hcount : key ≠ .count)
    (hdue : key ≠ .due) : AreReadable (found ++ [.tag key.text value]) := by
  intro other value' rest hcarriers n hlong
  rw [Key.carriers_append] at hcarriers
  cases hfound : other.carriers found with
  | cons first more =>
    rw [hfound, List.cons_append] at hcarriers
    obtain ⟨rfl, -⟩ := List.cons.inj hcarriers
    exact h other value' more hfound n hlong
  | nil =>
    rw [hfound, List.nil_append] at hcarriers
    have hmem : .tag other.text value' ∈ other.carriers [.tag key.text value] := by simp [hcarriers]
    obtain ⟨htext, -⟩ := Token.tag.inj (List.mem_singleton.mp (Key.mem_carriers.mp hmem).1)
    obtain rfl := Key.text_injective htext
    exact hlong.eq_or.elim hcount hdue

/-- With a tag at its end a line has that token behind its own, when no tag is read. -/
theorem LaidOut.exists_unread_withTag (h : LaidOut settings unit target raw parts)
    (hmark : settings.doneMark = "x ".toList) {letters : Text}
    (hshape : (Token.tag letters value).IsShaped) :
    ∃ base, Laid target none Key.all (base ++ [.plain ' ', .kept (.tag letters value)]) [] ∧
      textOf (base ++ [.plain ' ', .kept (.tag letters value)]) =
        raw.withTag (Token.tag letters value).text ∧
      tokensOf base = tokensOf (wholeOf settings unit raw parts) := by
  obtain ⟨base, after, hbase, hfront, hused, htext⟩ := (h.laid_whole hmark).unread.exists_isBase
  have hwritten := textOf_put htext (.kept (.tag letters value))
  rw [textOf_unreadParts, h.textOf_whole] at hwritten
  have hstands : (Part.kept (.tag letters value)).Stands target (some ' ')
      (usedBehind Key.all base) [] := by
    rw [hused, usedBehind_unreadParts]
    exact ⟨hshape, trivial, field?_all target _ _⟩
  exact ⟨base, hfront.put rfl hstands, hwritten, by rw [hbase.tokensOf_eq, tokensOf_unreadParts]⟩

/-- **A line can be read with another tag at its end**, whether or not a field is read from
the tag. -/
theorem exists_read_withTag (hread : read settings unit target number raw = .ok task)
    (hmark : settings.doneMark = "x ".toList) (hcount : key ≠ .count) (hdue : key ≠ .due)
    (hshape : (Token.tag key.text value).IsShaped) (day : Day) :
    ∃ after, read settings unit day number (raw.withTag (Token.tag key.text value).text) =
      .ok after := by
  obtain ⟨parts, hlaidOut, -⟩ := read_iff_laidOut.mp hread
  obtain ⟨base, hlaid, hwritten, htokens⟩ := hlaidOut.exists_unread_withTag hmark hshape
  have hreadable : AreReadable (tokensOf base ++ [.tag key.text value]) := by
    rw [htokens]
    exact (hlaidOut.laid_whole hmark).areReadable.concat hcount hdue
  obtain ⟨found, hfound, -⟩ := hlaid.exists_read hmark (by rwa [tokensOf_append]) unit day number
  rw [hwritten] at hfound
  exact ⟨found, hfound⟩

end WithTag

end Line

end TaskList
