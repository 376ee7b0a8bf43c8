/-
TaskList.Proofs.Line.Changed — what a change of a line leaves as it was.

* `Text.TagAcross` — a tag starts in one text and ends in another one behind it.
  `Laid.join` — parts stay parts when another text comes behind them, if no tag
  comes together with it and no word ends other than it did.
* `Text.Opens` — a text that no tag in front of it can reach into: nothing, a
  brace, or a space and a brace. `Laid.follow` — parts stay parts in front of it.
* `Laid.swap`, `Laid.replace` — a tag in place of another one with the same key.
  `Laid.put`, `Laid.append` — a tag at the end, read as a field or not.
* `Line.head_brace` — the start of a line ends in front of its first brace.
* `Line.Relaid` — a line that starts as another one, with its parts.
  `LaidOut.changed` — the line with other parts behind the same start.
-/
import TaskList.Proofs.Line.Layout

namespace TaskList

/-- Nothing, a brace, or a space and a brace: no tag in front reaches into
such a text. -/
def Text.Opens (t : Text) : Prop :=
  t = [] ∨ (∃ rest, t = '{' :: rest) ∨ ∃ rest, t = ' ' :: '{' :: rest

/-- A tag starts in the one text and ends in the other one behind it. -/
def Text.TagAcross (front behind : Text) : Prop :=
  ∃ key value u v, (Token.tag key value).IsShaped ∧ (Token.tag key value).text = u ++ v ∧
    u ≠ [] ∧ v ≠ [] ∧ u <:+ front ∧ v <+: behind

/-- White space or nothing. -/
def Text.StartsBlank (t : Text) : Prop := ∀ c ∈ t.head?, isBlank c = true

/-- Nothing, or a text with white space at its end. -/
def Text.EndsBlank (t : Text) : Prop := ∀ c ∈ t.getLast?, isBlank c = true

theorem Text.TagAcross.right {u v behind : Text} (h : Text.TagAcross v behind) :
    Text.TagAcross (u ++ v) behind := by
  obtain ⟨key, value, s, t, hshape, htext, hs, ht, hfront, hbehind⟩ := h
  exact ⟨key, value, s, t, hshape, htext, hs, ht, hfront.trans (List.suffix_append u v), hbehind⟩

theorem Text.EndsBlank.right {u v : Text} (h : Text.EndsBlank (u ++ v)) : v.EndsBlank := by
  intro c hc
  refine h c ?_
  rw [List.getLast?_append, Option.mem_def.mp hc]
  rfl

/-- The texts are the same up to a brace in both. -/
def Text.SameToBrace (t t' : Text) : Prop :=
  ∃ u v v', t = u ++ '{' :: v ∧ t' = u ++ '{' :: v'

namespace Token

/-- A tag has no braces but those around it. -/
theorem tag_text {key : Text} {value : Option Text} (h : (Token.tag key value).IsShaped) :
    ∃ body, (Token.tag key value).text = '{' :: (body ++ ['}']) ∧ '{' ∉ body ∧ '}' ∉ body := by
  obtain ⟨-, hkey, hvalue⟩ := h
  have hkey' : '{' ∉ key ∧ '}' ∉ key :=
    ⟨fun hmem => absurd (hkey _ hmem) (by decide), fun hmem => absurd (hkey _ hmem) (by decide)⟩
  cases value with
  | none => exact ⟨key, rfl, hkey'⟩
  | some v =>
    have hvalue' : '{' ∉ v ∧ '}' ∉ v :=
      ⟨fun hmem => absurd (hvalue v rfl _ hmem) (by decide),
        fun hmem => absurd (hvalue v rfl _ hmem) (by decide)⟩
    exact ⟨key ++ ':' :: v, by simp [text], by simp [hkey', hvalue'], by simp [hkey', hvalue']⟩

theorem tag_head {key : Text} {value : Option Text} (h : (Token.tag key value).IsShaped) :
    ∃ rest, (Token.tag key value).text = '{' :: rest := by
  obtain ⟨body, htext, -⟩ := tag_text h
  exact ⟨_, htext⟩

theorem tag_getLast? {key : Text} {value : Option Text} (h : (Token.tag key value).IsShaped) :
    (Token.tag key value).text.getLast? = some '}' := by
  obtain ⟨body, htext, -⟩ := tag_text h
  rw [htext, ← List.cons_append, List.getLast?_concat]

/-- No token ends with white space. -/
theorem not_endsBlank {token : Token} (h : token.IsShaped) : ¬ token.text.EndsBlank := by
  intro hblank
  cases token with
  | tag key value => exact absurd (hblank '}' (tag_getLast? h)) (by decide)
  | mention group name =>
    obtain ⟨hne, hname⟩ := h
    have hlast : (mention group name).text.getLast? = some (name.getLast hne) := by
      rw [text, List.getLast?_cons_of_ne_nil hne, List.getLast?_eq_some_getLast hne]
    have hend := hblank _ hlast
    rw [hname _ (List.getLast_mem hne)] at hend
    exact Bool.noConfusion hend

theorem getLast?_ne_space {token : Token} (h : token.IsShaped) :
    token.text.getLast? ≠ some ' ' := by
  intro hlast
  refine not_endsBlank h fun c hc => ?_
  obtain rfl : ' ' = c := Option.some.inj (hlast.symm.trans hc)
  decide

/-- A tag does not reach into a text that opens anew. -/
theorem not_tagAcross {front behind : Text} (hopens : behind.Opens) :
    ¬ Text.TagAcross front behind := by
  rintro ⟨key, value, u, v, hshape, htext, hu, hv, -, hbehind⟩
  obtain ⟨body, hbody, hopen, -⟩ := tag_text hshape
  cases u with
  | nil => exact hu rfl
  | cons c u =>
    -- the tag would have a brace inside of it, or end with a space
    have hinside : body ++ ['}'] = u ++ v := (List.cons.inj (hbody.symm.trans htext)).2
    have hbrace : '{' ∉ v := fun hmem => by
      have hmem : '{' ∈ body ++ ['}'] := hinside ▸ List.mem_append_right u hmem
      simp [hopen] at hmem
    obtain ⟨rest, hrest⟩ := hbehind
    cases v with
    | nil => exact hv rfl
    | cons d v =>
      rcases hopens with rfl | ⟨more, rfl⟩ | ⟨more, rfl⟩
      · simp at hrest
      · obtain rfl : d = '{' := (List.cons.inj hrest).1
        exact hbrace List.mem_cons_self
      · obtain ⟨rfl, hbehind⟩ : d = ' ' ∧ v ++ rest = '{' :: more := List.cons.inj hrest
        cases v with
        | nil =>
          have hlast := congrArg List.getLast? hinside
          rw [List.getLast?_concat, List.getLast?_concat] at hlast
          exact absurd hlast (by decide)
        | cons d v =>
          obtain rfl : d = '{' := (List.cons.inj hbehind).1
          exact hbrace (by simp)

/-- A mark with a name behind it starts a mention, if nothing stands in front
of it. -/
theorem at?_mark_ne_none {before : Option Char} (hbefore : ∀ c ∈ before, isBlank c = true)
    (group : Group) {t : Text} (ht : ¬ t.StartsBlank) : at? before (group.mark :: t) ≠ none := by
  have hname : t.takeWhile (!isBlank ·) ≠ [] := by
    cases t with
    | nil => exact absurd (fun c hc => by simp at hc) ht
    | cons c rest =>
      have hc : isBlank c = false := by
        cases hblank : isBlank c with
        | false => rfl
        | true => exact absurd (fun d hd => by simp at hd; rwa [← hd]) ht
      rw [List.takeWhile_cons_of_pos (by simp [hc])]
      exact List.cons_ne_nil _ _
  have hmention : (Token.mention group (t.takeWhile (!isBlank ·))).IsShaped :=
    ⟨hname, fun c hc => by simpa using List.all_eq_true.mp List.all_takeWhile c hc⟩
  have hfits : (Token.mention group (t.takeWhile (!isBlank ·))).Fits before
      (t.dropWhile (!isBlank ·)) := by
    refine ⟨hbefore, fun c hc => ?_⟩
    have hnot := List.head?_dropWhile_not (!isBlank ·) t
    rw [Option.mem_def.mp hc] at hnot
    simpa using hnot
  have hsome : at? before (group.mark :: t) = some (.mention group (t.takeWhile (!isBlank ·))) :=
    at?_eq_some_iff.mpr ⟨t.dropWhile (!isBlank ·), by simp [text], hmention, hfits⟩
  rw [hsome]
  exact Option.some_ne_none _

/-- Where no token starts, none starts when another text comes further behind,
unless a tag comes together with it, or a mark gets a name. -/
theorem at?_join {before : Option Char} {c : Char} {u v v' : Text}
    (h : at? before (c :: (u ++ v)) = none) (hacross : ¬ Text.TagAcross (c :: u) v')
    (hblank : Text.EndsBlank (c :: u) ∨ (v.StartsBlank → v'.StartsBlank)) :
    at? before (c :: (u ++ v')) = none := by
  refine Option.eq_none_iff_forall_ne_some.mpr fun token hsome => ?_
  obtain ⟨after, htext, hshape, hfits⟩ := at?_eq_some_iff.mp hsome
  cases token with
  | tag key value =>
    -- a tag that ends in the part that stays was there before
    have hthere : ∀ after', c :: u ≠ (tag key value).text ++ after' := fun after' hinside => by
      have hat : at? before (c :: (u ++ v)) = some (.tag key value) :=
        at?_eq_some_iff.mpr ⟨after' ++ v, by rw [← List.cons_append, hinside, List.append_assoc],
          hshape, trivial⟩
      simp [hat] at h
    rcases List.append_eq_append_iff.mp ((List.cons_append ..).trans htext) with
      ⟨more, hmore, hv'⟩ | ⟨after', hafter, -⟩
    · cases more with
      | nil => exact hthere [] (by rw [hmore, List.append_nil, List.append_nil])
      | cons d more =>
        exact hacross ⟨key, value, c :: u, d :: more, hshape, hmore, List.cons_ne_nil _ _,
          List.cons_ne_nil _ _, List.suffix_rfl, ⟨after, hv'.symm⟩⟩
    · exact hthere after' hafter
  | mention group name =>
    obtain ⟨hbefore, -⟩ := hfits
    obtain ⟨hne, hname⟩ := hshape
    obtain ⟨rfl, hrest⟩ : c = group.mark ∧ u ++ v' = name ++ after := List.cons.inj htext
    -- the name starts in the part that stays, or else in what comes behind
    refine at?_mark_ne_none hbefore group (fun hstarts => ?_) h
    cases name with
    | nil => exact absurd rfl hne
    | cons d name =>
      have hd := hname d List.mem_cons_self
      cases u with
      | cons c u =>
        have hc : isBlank c = true := hstarts c rfl
        rw [(List.cons.inj hrest).1, hd] at hc
        exact Bool.noConfusion hc
      | nil =>
        obtain hmark | himp := hblank
        · have hmark : isBlank group.mark = true := hmark _ rfl
          cases group <;> exact absurd hmark (by decide)
        · have hc : isBlank d = true := himp hstarts d (by
            rw [show v' = d :: (name ++ after) from hrest]
            rfl)
          rw [hd] at hc
          exact Bool.noConfusion hc

theorem Fits.join {token : Token} {before : Option Char} {u v v' : Text}
    (h : token.Fits before (u ++ v)) (hshape : token.IsShaped)
    (hblank : Text.EndsBlank (token.text ++ u) ∨ (v.StartsBlank → v'.StartsBlank)) :
    token.Fits before (u ++ v') := by
  cases token with
  | tag key value => trivial
  | mention group name =>
    refine ⟨h.1, ?_⟩
    cases u with
    | nil =>
      refine hblank.resolve_left (fun hend => ?_) h.2
      rw [List.append_nil] at hend
      exact not_endsBlank hshape hend
    | cons c u => exact h.2

end Token

namespace Line

variable {target : Day} {before : Option Char} {used : List Key} {parts rest : List Part}

/-- **Parts stay parts when another text comes behind them**, unless a tag comes
together with it, or a word ends where it did not. -/
theorem Laid.join {after after' : Text} (h : Laid target before used parts after)
    (hacross : ¬ Text.TagAcross (textOf parts) after')
    (hblank : (textOf parts).EndsBlank ∨ (after.StartsBlank → after'.StartsBlank)) :
    Laid target before used parts after' := by
  induction parts generalizing before used with
  | nil => trivial
  | cons part parts ih =>
    obtain ⟨hpart, hparts⟩ := h
    rw [textOf_cons] at hacross hblank
    have hrest : (textOf parts).EndsBlank ∨ (after.StartsBlank → after'.StartsBlank) :=
      hblank.imp_left Text.EndsBlank.right
    refine ⟨?_, ih hparts (fun h => hacross h.right) hrest⟩
    cases part with
    | plain c => exact Token.at?_join hpart hacross hblank
    | kept token => exact ⟨hpart.1, hpart.2.1.join hpart.1 hblank, hpart.2.2⟩
    | taken token field => exact ⟨hpart.1, hpart.2.1.join hpart.1 hblank, hpart.2.2⟩

/-- Parts stay parts when a text comes behind them that opens anew. -/
theorem Laid.follow {after after' : Text} (h : Laid target before used parts after)
    (hopens : after'.Opens) (hblank : after.StartsBlank → after'.StartsBlank) :
    Laid target before used parts after' :=
  h.join (Token.not_tagAcross hopens) (.inr hblank)

theorem Part.text_of_token? {part : Part} {token : Token} (h : part.token? = some token) :
    part.text = token.text := by
  cases part with
  | plain c => exact absurd h.symm (Option.some_ne_none token)
  | kept other => exact congrArg Token.text (Option.some.inj h)
  | taken other field => exact congrArg Token.text (Option.some.inj h)

theorem Part.Stands.isShaped {part : Part} {token : Token} {after : Text}
    (h : part.Stands target before used after) (htoken : part.token? = some token) :
    token.IsShaped := by
  cases part with
  | plain c => exact absurd htoken.symm (Option.some_ne_none token)
  | kept other => exact Option.some.inj htoken ▸ h.1
  | taken other field => exact Option.some.inj htoken ▸ h.1

/-- A tag in the place of another one, if the same keys are used up behind it. -/
theorem Laid.swap {key key' : Text} {value value' : Option Text} {part part' : Part} {after : Text}
    (h : Laid target before used (parts ++ part :: rest) after)
    (htoken : part.token? = some (.tag key value))
    (htoken' : part'.token? = some (.tag key' value'))
    (hstands : part'.Stands target (lastBehind before parts) (usedBehind used parts)
      (textOf rest ++ after))
    (hkeys : part'.keys = part.keys) : Laid target before used (parts ++ part' :: rest) after := by
  obtain ⟨hparts, hpart, hrest⟩ := laid_append.mp h
  obtain ⟨body, hbody⟩ := Token.tag_head (hpart.isShaped htoken)
  obtain ⟨body', hbody'⟩ := Token.tag_head (hstands.isShaped htoken')
  rw [← Part.text_of_token? htoken] at hbody
  rw [← Part.text_of_token? htoken'] at hbody'
  have hlast : part'.text.getLast? = part.text.getLast? := by
    rw [Part.text_of_token? htoken, Part.text_of_token? htoken',
      Token.tag_getLast? (hpart.isShaped htoken), Token.tag_getLast? (hstands.isShaped htoken')]
  refine laid_append.mpr ⟨hparts.follow (.inr (.inl ?_)) fun hblank => ?_, hstands, ?_⟩
  · exact ⟨body' ++ textOf rest ++ after, by simp [hbody']⟩
  · have hbrace := hblank '{' (by simp [hbody])
    exact absurd hbrace (by decide)
  · rwa [hlast, hkeys]

/-- Another tag in the place of a tag, its field of the same key. -/
theorem Laid.replace {key key' : Text} {value value' : Option Text} {field field' : Field}
    {after : Text}
    (h : Laid target before used (parts ++ .taken (.tag key value) field :: rest) after)
    (hshape : (Token.tag key' value').IsShaped)
    (hfield : field? target (usedBehind used parts) ⟨⟨0, 0⟩, .tag key' value'⟩ =
      .ok (some (field', field'.key?.toList)))
    (hkey : field'.key? = field.key?) :
    Laid target before used (parts ++ .taken (.tag key' value') field' :: rest) after :=
  h.swap rfl rfl ⟨hshape, trivial, hfield⟩ (congrArg Option.toList hkey)

/-- A tag at the end, behind a space. -/
theorem Laid.put {key : Text} {value : Option Text} {part : Part} {after : Text}
    (h : Laid target before used parts after) (htoken : part.token? = some (.tag key value))
    (hstands : part.Stands target (some ' ') (usedBehind used parts) []) :
    Laid target before used (parts ++ [.plain ' ', part]) [] := by
  obtain ⟨body, hbody⟩ := Token.tag_head (hstands.isShaped htoken)
  rw [← Part.text_of_token? htoken] at hbody
  have htext : textOf [.plain ' ', part] ++ [] = ' ' :: '{' :: body := by
    rw [textOf_cons, textOf_cons, hbody]
    simp [Part.text]
  rw [laid_append, htext]
  refine ⟨h.follow (.inr (.inr ⟨body, rfl⟩)) fun _ => ?_, ?_, hstands, trivial⟩
  · intro c hc
    obtain rfl : ' ' = c := Option.some.inj hc
    decide
  · -- no token starts with a space
    rfl

/-- A tag at the end, that is read as a field. -/
theorem Laid.append {key : Text} {value : Option Text} {field : Field} {after : Text}
    (h : Laid target before used parts after) (hshape : (Token.tag key value).IsShaped)
    (hfield : field? target (usedBehind used parts) ⟨⟨0, 0⟩, .tag key value⟩ =
      .ok (some (field, field.key?.toList))) :
    Laid target before used (parts ++ [.plain ' ', .taken (.tag key value) field]) [] :=
  h.put rfl ⟨hshape, trivial, hfield⟩

/-- A line that ends with a space ends with a part that is one. -/
theorem Laid.exists_base {after : Text} (h : Laid target before used parts after)
    (hlast : (textOf parts).getLast? = some ' ') : ∃ base, parts = base ++ [.plain ' '] := by
  rcases List.eq_nil_or_concat parts with rfl | ⟨base, part, rfl⟩
  · simp at hlast
  · rw [List.concat_eq_append] at h hlast ⊢
    obtain ⟨-, hpart, -⟩ := laid_append.mp h
    have hlast : part.text.getLast? = some ' ' := by
      rw [textOf_append, textOf_cons, textOf_nil, List.append_nil, List.getLast?_append,
        List.getLast?_eq_some_getLast part.text_ne_nil, Option.some_or] at hlast
      rw [List.getLast?_eq_some_getLast part.text_ne_nil, hlast]
    refine ⟨base, congrArg (base ++ [·]) ?_⟩
    cases part with
    | plain c =>
      obtain rfl : c = ' ' := Option.some.inj hlast
      rfl
    | kept token => exact absurd hlast (Token.getLast?_ne_space hpart.1)
    | taken token field => exact absurd hlast (Token.getLast?_ne_space hpart.1)

/-! ## The start of a changed line -/

section Brace

theorem takeWhile_brace {p : Char → Bool} (hp : p '{' = false) (u v : Text) :
    (u ++ '{' :: v).takeWhile p = u.takeWhile p := by
  induction u with
  | nil => simp [hp]
  | cons c u ih => rw [List.cons_append, List.takeWhile_cons, List.takeWhile_cons, ih]

/-- A mark without braces stands in front of the first brace. -/
theorem isPrefixOf_brace {mark : Text} (h : '{' ∉ mark) (u v : Text) :
    mark.isPrefixOf (u ++ '{' :: v) = mark.isPrefixOf u := by
  induction mark generalizing u with
  | nil => simp
  | cons c mark ih =>
    obtain ⟨hc, hmark⟩ := not_or.mp (mt List.mem_cons.mpr h)
    cases u with
    | nil => simp [List.isPrefixOf, Ne.symm hc]
    | cons d u =>
      rw [List.cons_append, List.isPrefixOf_cons_cons, List.isPrefixOf_cons_cons, ih hmark]

theorem marker?_brace {mark : Text} (h : '{' ∉ mark) (column : Nat) (u v : Text) :
    marker? mark column (u ++ '{' :: v) = marker? mark column u := by
  rw [marker?, marker?, isPrefixOf_brace h]

theorem priority?_eq_some_iff {column : Nat} {t : Text} {p : Located Char} :
    priority? column t = some p ↔ ∃ letter rest, t = '(' :: letter :: ')' :: rest ∧
      ('A' ≤ letter ∧ letter ≤ 'Z' ∧ rest.head?.all isBlank) ∧
      p = ⟨⟨column, column + 3⟩, letter⟩ := by
  constructor
  · intro h
    unfold priority? at h
    split at h
    · rename_i letter rest
      split at h
      · rename_i hletter
        exact ⟨letter, rest, rfl, hletter, (Option.some.inj h).symm⟩
      · simp at h
    · simp at h
  · rintro ⟨letter, rest, rfl, hletter, rfl⟩
    exact if_pos hletter

/-- A priority stands in front of the first brace. -/
theorem priority?_follow {column : Nat} {u v : Text} {p : Located Char}
    (h : priority? column (u ++ '{' :: v) = some p) (v' : Text) :
    priority? column (u ++ '{' :: v') = some p := by
  rw [priority?_eq_some_iff] at *
  obtain ⟨letter, rest, htext, hletter, rfl⟩ := h
  match u, htext with
  -- three characters of the start are a priority, and none of them is a brace
  | [], htext => simp at htext
  | [_], htext =>
    obtain ⟨-, rfl, -⟩ : _ ∧ '{' = letter ∧ _ := by simpa using htext
    exact absurd hletter.2.1 (by decide)
  | [_, _], htext => simp at htext
  | c :: d :: e :: u, htext =>
    obtain ⟨rfl, rfl, rfl, rfl⟩ : c = '(' ∧ d = letter ∧ e = ')' ∧ u ++ '{' :: v = rest := by
      simpa using htext
    refine ⟨d, u ++ '{' :: v', rfl, ⟨hletter.1, hletter.2.1, ?_⟩, rfl⟩
    cases u with
    | nil => exact hletter.2.2
    | cons c u => exact hletter.2.2

theorem priority?_brace (column : Nat) (u v v' : Text) :
    priority? column (u ++ '{' :: v) = priority? column (u ++ '{' :: v') :=
  Option.ext fun _ => ⟨fun h => priority?_follow h v', fun h => priority?_follow h v⟩

/-- The done mark does not reach over the end of the line. -/
theorem past_marker?_le (mark raw : Text) :
    past (marker? mark (raw.takeWhile isIndent).length
      (raw.drop (raw.takeWhile isIndent).length)) (raw.takeWhile isIndent).length ≤ raw.length := by
  have hle : (raw.takeWhile isIndent).length ≤ raw.length := (List.takeWhile_sublist _).length_le
  obtain ⟨marker, rest, hcut, hpast, -⟩ := marker?_cases mark
    (raw.drop (raw.takeWhile isIndent).length) (raw.takeWhile isIndent).length
  have hlength := congrArg List.length hcut
  simp only [List.length_drop, List.length_append] at hlength
  omega

/-- **The start of a line ends in front of its first brace.** -/
theorem head_brace {settings : Settings} (hmark : '{' ∉ settings.doneMark) (unit : IndentUnit)
    (u v v' : Text) :
    head settings unit (u ++ '{' :: v) = head settings unit (u ++ '{' :: v') := by
  have hindent : isIndent '{' = false := by decide
  have hle : (u.takeWhile isIndent).length ≤ u.length := (List.takeWhile_sublist _).length_le
  simp only [head, takeWhile_brace hindent, List.drop_append_of_le_length hle,
    marker?_brace hmark, List.drop_append_of_le_length (past_marker?_le settings.doneMark u)]
  rw [priority?_brace _ _ v v']

end Brace

/-- A line that starts as another one, and is laid out in some parts. -/
structure Relaid (settings : Settings) (unit : Option IndentUnit) (target : Day) (raw raw' : Text)
    (parts' : List Part) : Prop where
  /-- Indentation, done mark and priority are the same. -/
  head_eq : head settings (indentUnit settings unit) raw' =
    head settings (indentUnit settings unit) raw
  /-- Both start with a mark, or none. -/
  mark_eq : ∀ mark : Text, '{' ∉ mark → mark.isPrefixOf raw' = mark.isPrefixOf raw
  /-- The other line is laid out. -/
  laidOut : LaidOut settings unit target raw' parts'

section Relaid

variable {settings : Settings} {unit : Option IndentUnit} {raw raw' raw'' : Text}
  {parts' parts'' : List Part}

theorem LaidOut.relaid (h : LaidOut settings unit target raw parts) :
    Relaid settings unit target raw raw parts := ⟨rfl, fun _ _ => rfl, h⟩

theorem Relaid.trans (h : Relaid settings unit target raw raw' parts')
    (h' : Relaid settings unit target raw' raw'' parts'') :
    Relaid settings unit target raw raw'' parts'' where
  head_eq := h'.head_eq.trans h.head_eq
  mark_eq mark hmark := (h'.mark_eq mark hmark).trans (h.mark_eq mark hmark)
  laidOut := h'.laidOut

/-- Other parts behind the same start, the same up to a brace. -/
theorem LaidOut.changed (h : LaidOut settings unit target raw parts)
    (hmark : '{' ∉ settings.doneMark) (hsame : Text.SameToBrace (textOf parts) (textOf parts'))
    (hlaid : Laid target (raw.take (startOf settings unit raw)).getLast? [] parts' []) :
    Relaid settings unit target raw (raw.take (startOf settings unit raw) ++ textOf parts')
      parts' := by
  obtain ⟨u, v, v', hv, hv'⟩ := hsame
  have hraw : raw = (raw.take (startOf settings unit raw) ++ u) ++ '{' :: v := by
    rw [List.append_assoc, ← hv, h.raw_eq]
  have hraw' : raw.take (startOf settings unit raw) ++ textOf parts' =
      (raw.take (startOf settings unit raw) ++ u) ++ '{' :: v' := by
    rw [hv', List.append_assoc]
  have hhead : head settings (indentUnit settings unit)
      (raw.take (startOf settings unit raw) ++ textOf parts') =
        head settings (indentUnit settings unit) raw := by
    rw [hraw', head_brace hmark _ _ v' v, ← hraw]
  have hstart : startOf settings unit (raw.take (startOf settings unit raw) ++ textOf parts') =
      startOf settings unit raw := congrArg Head.start hhead
  refine ⟨hhead, fun mark hmark => ?_, ⟨?_, ?_⟩⟩
  · rw [hraw', isPrefixOf_brace hmark, ← isPrefixOf_brace hmark _ v, ← hraw]
  · rw [hstart, List.drop_left' h.length_start]
  · rwa [hstart, List.take_left' h.length_start]

end Relaid

end Line

end TaskList
