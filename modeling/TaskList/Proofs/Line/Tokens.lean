/-
TaskList.Proofs.Line.Tokens — the scan finds the leftmost tokens of a line.

* `Token.StandsAt` — where a token is written in a line, said without the
  scanner: its text is there, its parts have the right characters, and a
  mention is cut off by white space or an end of the line on both sides.
* `Token.at?_eq_some_iff` — the step of the scan takes a token exactly where
  one stands. So at most one token stands at a column (`StandsAt.unique`).
* `Line.IsLeftmost` — tokens in order, each standing at its columns, and no
  token starts outside of them. `Line.tokens_isLeftmost` says it of the
  scan, and `IsLeftmost.unique` that no other list of tokens is like that.

The scan carries the number of characters that the last token still covers.
So the induction is on the text, for every such number, and the line is cut
into what was passed and what is left.
-/
import TaskList.Line.Read
import TaskList.Proofs.Line.Columns
import TaskList.Proofs.Text.Pieces

namespace TaskList

/-! ## Where a token stands -/

namespace Token

/-- Could the token be written? A key is a run of letters, a value has no
brace in it, and a name is a run of characters that are not white space. -/
def IsShaped : Token → Prop
  | .tag key value =>
    key ≠ [] ∧ (∀ c ∈ key, isKeyLetter c = true) ∧ ∀ v ∈ value, ∀ c ∈ v, isValueChar c = true
  | .mention _ name => name ≠ [] ∧ ∀ c ∈ name, isBlank c = false

/-- May the token stand behind `before` and in front of `after`? A mention
takes the whole run of characters, from white space to white space. -/
def Fits (before : Option Char) (after : Text) : Token → Prop
  | .tag _ _ => True
  | .mention _ _ => (∀ c ∈ before, isBlank c = true) ∧ ∀ c ∈ after.head?, isBlank c = true

/-- The token starts at a column of a line. -/
def StandsAt (raw : Text) (column : Nat) (token : Token) : Prop :=
  ∃ before after, raw = before ++ (token.text ++ after) ∧ before.length = column ∧
    token.IsShaped ∧ token.Fits before.getLast? after

theorem text_ne_nil (token : Token) : token.text ≠ [] := by
  cases token with
  | tag key value => cases value <;> simp [text]
  | mention group name => simp [text]

/-- A tag of a key could be written if its value could. -/
theorem isShaped_tag (key : Key) {value : Option Text}
    (h : ∀ v ∈ value, ∀ c ∈ v, isValueChar c = true) : (Token.tag key.text value).IsShaped := by
  cases key <;> exact ⟨by decide, List.all_eq_true.mp (by decide), h⟩

theorem text_length_pos (token : Token) : 0 < token.text.length :=
  List.length_pos_iff.mpr token.text_ne_nil

/-! ## One step of the scan -/

/-- What the brace of a tag is followed by. -/
theorem tag?_eq_some_iff {t : Text} {token : Token} :
    tag? t = some token ↔
      ∃ key value after, token = .tag key value ∧ '{' :: t = token.text ++ after ∧
        token.IsShaped := by
  constructor
  · intro h
    have hkey : ∀ c ∈ t.takeWhile isKeyLetter, isKeyLetter c = true :=
      fun c hc => List.all_eq_true.mp (List.all_takeWhile) c hc
    have hcut : t.takeWhile isKeyLetter ++ t.dropWhile isKeyLetter = t :=
      List.takeWhile_append_dropWhile
    unfold tag? at h
    split at h
    · simp at h
    · rename_i after hd hne
      cases h
      rw [hd] at hcut
      exact ⟨_, _, after, rfl, by simp [text, hcut], hne, hkey, by simp⟩
    · rename_i rest hd hne
      split at h
      · rename_i after hclose
        cases h
        have hvalue : rest.takeWhile isValueChar ++ rest.dropWhile isValueChar = rest :=
          List.takeWhile_append_dropWhile
        rw [hclose] at hvalue
        rw [hd] at hcut
        refine ⟨_, _, after, rfl, by simp [text, hvalue, hcut], hne, hkey, ?_⟩
        intro v hv c hc
        cases hv
        exact List.all_eq_true.mp (List.all_takeWhile) c hc
      · simp at h
    · simp at h
  · rintro ⟨key, value, after, rfl, ht, hne, hkey, hvalue⟩
    cases value with
    | none =>
      have ht : t = key ++ '}' :: after := by simpa [text] using ht
      obtain ⟨htake, hdrop⟩ := Text.takeWhile_run (p := isKeyLetter) ('}' :: after) hkey
        (by simp [isKeyLetter])
      rw [tag?, ht, htake, hdrop]
      cases key with
      | nil => exact absurd rfl hne
      | cons c key => rfl
    | some v =>
      have ht : t = key ++ ':' :: (v ++ '}' :: after) := by simpa [text] using ht
      obtain ⟨htake, hdrop⟩ := Text.takeWhile_run (p := isKeyLetter)
        (':' :: (v ++ '}' :: after)) hkey (by simp [isKeyLetter])
      obtain ⟨htake', hdrop'⟩ := Text.takeWhile_run (p := isValueChar) ('}' :: after)
        (hvalue v rfl) (by simp [isValueChar])
      rw [tag?, ht, htake, hdrop]
      cases key with
      | nil => exact absurd rfl hne
      | cons c key => simp only [htake', hdrop']

/-- What the mark of a mention is followed by. -/
theorem mention?_eq_some_iff {group : Group} {t : Text} {token : Token} :
    mention? group t = some token ↔
      ∃ name after, token = .mention group name ∧ t = name ++ after ∧ token.IsShaped ∧
        ∀ c ∈ after.head?, isBlank c = true := by
  constructor
  · intro h
    unfold mention? at h
    split at h
    · simp at h
    · rename_i name hne
      cases h
      refine ⟨_, t.dropWhile (!isBlank ·), rfl, by simp, ⟨hne, ?_⟩, ?_⟩
      · intro c hc
        simpa using List.all_eq_true.mp (List.all_takeWhile (p := (!isBlank ·)) (l := t)) c hc
      · intro c hc
        have := List.head?_dropWhile_not (!isBlank ·) t
        rw [Option.mem_def.mp hc] at this
        simpa using this
  · rintro ⟨name, after, rfl, rfl, ⟨hne, hname⟩, hafter⟩
    obtain ⟨htake, -⟩ := Text.takeWhile_run (p := (!isBlank ·)) after
      (by simpa using hname) (by simpa using hafter)
    rw [mention?, htake]
    cases name with
    | nil => exact absurd rfl hne
    | cons c name => rfl

theorem ofMark?_eq_some_iff {c : Char} {group : Group} :
    Group.ofMark? c = some group ↔ group.mark = c := by
  constructor
  · intro h
    simpa using List.find?_some h
  · rintro rfl
    cases group <;> decide

theorem mark_ne_brace (group : Group) : group.mark ≠ '{' := by
  cases group <;> decide

/-- The step of the scan takes a token exactly where one stands. -/
theorem at?_eq_some_iff {before : Option Char} {t : Text} {token : Token} :
    at? before t = some token ↔
      ∃ after, t = token.text ++ after ∧ token.IsShaped ∧ token.Fits before after := by
  constructor
  · intro h
    unfold at? at h
    split at h
    · simp at h
    · obtain ⟨key, value, after, rfl, ht, hshape⟩ := tag?_eq_some_iff.mp h
      exact ⟨after, ht, hshape, trivial⟩
    · split at h
      · rename_i c rest _ group hmark
        split at h
        · rename_i hopen
          obtain ⟨name, after, rfl, rfl, hshape, hafter⟩ := mention?_eq_some_iff.mp h
          refine ⟨after, by simp [text, ofMark?_eq_some_iff.mp hmark], hshape, ?_, hafter⟩
          intro c hc
          cases hc
          simpa [opensMention] using hopen
        · simp at h
      · simp at h
  · rintro ⟨after, rfl, hshape, hfits⟩
    cases token with
    | tag key value =>
      have : ∃ rest, (Token.tag key value).text = '{' :: rest := by
        cases value <;> exact ⟨_, rfl⟩
      obtain ⟨rest, hrest⟩ := this
      rw [hrest, List.cons_append, at?]
      exact tag?_eq_some_iff.mpr ⟨key, value, after, rfl, by rw [hrest, List.cons_append], hshape⟩
    | mention group name =>
      obtain ⟨hbefore, hafter⟩ := hfits
      have hopen : opensMention before = true := by
        cases before with
        | none => rfl
        | some c => simpa [opensMention] using hbefore c rfl
      have hm : mention? group (name ++ after) = some (.mention group name) :=
        mention?_eq_some_iff.mpr ⟨name, after, rfl, rfl, hshape, hafter⟩
      rw [text, List.cons_append, at?]
      · simp [ofMark?_eq_some_iff.mpr rfl, hopen, hm]
      · intro h
        exact mark_ne_brace group h

/-! ## At most one token at a column -/

theorem StandsAt.bound {raw : Text} {column : Nat} {token : Token}
    (h : token.StandsAt raw column) : column + token.text.length ≤ raw.length := by
  obtain ⟨before, after, rfl, rfl, -, -⟩ := h
  simp only [List.length_append]
  omega

/-- The text at the columns of a token. -/
theorem StandsAt.slice_eq {raw : Text} {column : Nat} {token : Token}
    (h : token.StandsAt raw column) :
    raw.slice column (column + token.text.length) = token.text := by
  obtain ⟨before, after, rfl, rfl, -, -⟩ := h
  simp [Text.slice, List.take_append]

/-- The scan reads the line from a column on and knows the character in
front of it. -/
theorem standsAt_append_iff {passed t : Text} {token : Token} :
    token.StandsAt (passed ++ t) passed.length ↔ at? passed.getLast? t = some token := by
  rw [at?_eq_some_iff]
  constructor
  · rintro ⟨before, after, hraw, hlen, hshape, hfits⟩
    obtain ⟨rfl, rfl⟩ := List.append_inj hraw hlen.symm
    exact ⟨after, rfl, hshape, hfits⟩
  · rintro ⟨after, rfl, hshape, hfits⟩
    exact ⟨passed, after, rfl, rfl, hshape, hfits⟩

theorem StandsAt.unique {raw : Text} {column : Nat} {token other : Token}
    (h : token.StandsAt raw column) (h' : other.StandsAt raw column) : token = other := by
  obtain ⟨before, after, rfl, rfl, hshape, hfits⟩ := h
  have h : at? before.getLast? (token.text ++ after) = some token :=
    at?_eq_some_iff.mpr ⟨after, rfl, hshape, hfits⟩
  rw [standsAt_append_iff, h] at h'
  exact Option.some.inj h'

end Token

/-! ## The whole scan -/

namespace Line

/-- The leftmost tokens of a line from a column on: in order and without
overlap, each one written at its columns, and every place where a token
starts is inside of one of them. -/
structure IsLeftmost (raw : Text) (start : Nat) (found : List (Located Token)) : Prop where
  /-- Each token is written at its columns. -/
  stands : ∀ x ∈ found, start ≤ x.span.start ∧ x.value.StandsAt raw x.span.start ∧
    x.span.stop = x.span.start + x.value.text.length
  /-- Each token ends before the next one starts. -/
  ordered : found.Pairwise fun a b => a.span.stop ≤ b.span.start
  /-- No token starts at a column that none of them covers. -/
  covered : ∀ column token, start ≤ column → Token.StandsAt raw column token →
    ∃ x ∈ found, x.span.covers column = true

namespace IsLeftmost

variable {raw : Text} {start : Nat} {found : List (Located Token)}

/-- A token that stands right at the start is the first one. -/
theorem cons {x : Located Token} (hx : x.value.StandsAt raw start)
    (hspan : x.span = ⟨start, start + x.value.text.length⟩)
    (h : IsLeftmost raw (start + x.value.text.length) found) :
    IsLeftmost raw start (x :: found) where
  stands := by
    intro y hy
    rcases List.mem_cons.mp hy with rfl | hy
    · rw [hspan]
      exact ⟨Nat.le_refl _, hx, rfl⟩
    · obtain ⟨hle, hstands⟩ := h.stands y hy
      exact ⟨by omega, hstands⟩
  ordered := by
    refine List.pairwise_cons.mpr ⟨fun y hy => ?_, h.ordered⟩
    rw [hspan]
    exact (h.stands y hy).1
  covered := by
    intro column token hle hstands
    rcases Nat.lt_or_ge column (start + x.value.text.length) with hlt | hge
    · exact ⟨x, by simp, by rw [hspan, Span.covers_iff]; exact ⟨hle, hlt⟩⟩
    · obtain ⟨y, hy, hcovers⟩ := h.covered column token hge hstands
      exact ⟨y, by simp [hy], hcovers⟩

/-- A column where no token stands may be passed over. -/
theorem pass (hnone : ∀ token, ¬ Token.StandsAt raw start token)
    (h : IsLeftmost raw (start + 1) found) : IsLeftmost raw start found where
  stands := by
    intro x hx
    obtain ⟨hle, hstands⟩ := h.stands x hx
    exact ⟨by omega, hstands⟩
  ordered := h.ordered
  covered := by
    intro column token hle hstands
    rcases Nat.eq_or_lt_of_le hle with rfl | hlt
    · exact absurd hstands (hnone token)
    · exact h.covered column token hlt hstands

/-- Without its first token, the list is leftmost behind it. -/
theorem tail {x : Located Token} (h : IsLeftmost raw start (x :: found)) :
    IsLeftmost raw x.span.stop found where
  stands := by
    intro y hy
    exact ⟨(List.pairwise_cons.mp h.ordered).1 y hy, (h.stands y (by simp [hy])).2⟩
  ordered := (List.pairwise_cons.mp h.ordered).2
  covered := by
    intro column token hle hstands
    obtain ⟨hstart, -, hstop⟩ := h.stands x (by simp)
    obtain ⟨y, hy, hcovers⟩ := h.covered column token (by omega) hstands
    rcases List.mem_cons.mp hy with rfl | hy
    · have := Span.covers_iff.mp hcovers
      omega
    · exact ⟨y, hy, hcovers⟩

/-- The first token starts no later than a token that stands in the line. -/
theorem first_le {x : Located Token} (h : IsLeftmost raw start (x :: found)) {column : Nat}
    {token : Token} (hle : start ≤ column) (hstands : token.StandsAt raw column) :
    x.span.start ≤ column := by
  obtain ⟨y, hy, hcovers⟩ := h.covered column token hle hstands
  have hy' := Span.covers_iff.mp hcovers
  rcases List.mem_cons.mp hy with rfl | hy
  · exact hy'.1
  · have horder := (List.pairwise_cons.mp h.ordered).1 y hy
    have hstop := (h.stands x (by simp)).2.2
    omega

/-- There is only one list of leftmost tokens. -/
theorem unique {other : List (Located Token)} (h : IsLeftmost raw start found)
    (h' : IsLeftmost raw start other) : found = other := by
  induction found generalizing start other with
  | nil =>
    cases other with
    | nil => rfl
    | cons y other =>
      obtain ⟨hle, hstands, -⟩ := h'.stands y (by simp)
      obtain ⟨x, hx, -⟩ := h.covered _ _ hle hstands
      simp at hx
  | cons x found ih =>
    obtain ⟨hle, hstands, hstop⟩ := h.stands x (by simp)
    cases other with
    | nil =>
      obtain ⟨y, hy, -⟩ := h'.covered _ _ hle hstands
      simp at hy
    | cons y other =>
      obtain ⟨hle', hstands', hstop'⟩ := h'.stands y (by simp)
      -- each list has a token over the start of the other's first one
      have hxy : x.span.start = y.span.start :=
        Nat.le_antisymm (h.first_le hle' hstands') (h'.first_le hle hstands)
      rw [← hxy] at hstands'
      have hvalue := hstands.unique hstands'
      have hx : x = y := by
        obtain ⟨⟨xs, xe⟩, xv⟩ := x
        obtain ⟨⟨ys, ye⟩, yv⟩ := y
        simp_all
      subst hx
      rw [ih h.tail h'.tail]

end IsLeftmost

/-- What the scan finds when `passed` is behind it and `skip` characters
belong to a token that is already taken. -/
theorem scan_isLeftmost (passed t : Text) (skip : Nat) :
    IsLeftmost (passed ++ t) (passed.length + skip)
      (Token.scan passed.length skip passed.getLast? t) := by
  induction t generalizing passed skip with
  | nil =>
    refine ⟨by simp [Token.scan], by simp [Token.scan], ?_⟩
    intro column token hle hstands
    have hbound := hstands.bound
    have hpos := token.text_length_pos
    rw [List.append_nil] at hbound
    omega
  | cons c rest ih =>
    have hstep : ∀ skip, IsLeftmost (passed ++ c :: rest) (passed.length + 1 + skip)
        (Token.scan (passed.length + 1) skip (some c) rest) := by
      intro skip
      simpa using ih (passed ++ [c]) skip
    cases skip with
    | succ skip =>
      rw [Token.scan, show passed.length + (skip + 1) = passed.length + 1 + skip by omega]
      exact hstep skip
    | zero =>
      rw [Token.scan, Nat.add_zero]
      split
      · rename_i token hat
        have hpos := token.text_length_pos
        -- the rest of the token is skipped, one character of it is passed already
        refine .cons (Token.standsAt_append_iff.mpr hat) rfl ?_
        dsimp only
        rw [show passed.length + token.text.length
          = passed.length + 1 + (token.text.length - 1) by omega]
        exact hstep _
      · rename_i hat
        refine .pass (fun token hstands => ?_) (hstep 0)
        rw [Token.standsAt_append_iff, hat] at hstands
        simp at hstands

/-- **The scan finds the leftmost tokens** of a line from any column on. -/
theorem tokens_isLeftmost (raw : Text) (start : Nat) : IsLeftmost raw start (tokens raw start) := by
  unfold tokens
  rcases Nat.le_total start raw.length with hle | hge
  · have h := scan_isLeftmost (raw.take start) (raw.drop start) 0
    rwa [List.take_append_drop, List.length_take, Nat.min_eq_left hle] at h
  · rw [List.drop_eq_nil_of_le hge]
    refine ⟨by simp [Token.scan], by simp [Token.scan], ?_⟩
    intro column token hle hstands
    have hbound := hstands.bound
    have hpos := token.text_length_pos
    omega

end Line

end TaskList
