/-
TaskList.Proofs.Action.Reopened — a done task is reopened, and what its line still says.

* `LaidOut.thin_tag`, `LaidOut.thin_count` — one edit inside of a line takes a tag out of
  its unread parts, or writes another number. `LaidOut.exists_thinned` — edits of both
  kinds, from right to left.
* `Task.Clears.exists_unread` — with the done mark they leave parts in which the first tag
  of each key that is taken out is gone, and every other tag is there still.
* `Deed.Reopens` — the deeds that reopen a done task. `Task.IsClearedIn` — nothing that
  is left of its line says that it is done. `Deed.exists_reopened` — then it is open, and
  else it is not.
-/
import TaskList.Proofs.Action.Retitled
import TaskList.Proofs.Line.Thinned

namespace TaskList

/-! ## Edits inside of a line -/

namespace Line

section Thin

variable {settings : Settings} {unit : Option IndentUnit} {target : Day} {number : Int}
  {raw : Text} {base parts : List Part} {gone : List Key} {column : Nat} {task : Task}
  {taken : List (Located Field)} {items : List (Located Edit)}

/-- **A tag is taken out** of the unread parts, where the line closes up. -/
theorem LaidOut.thin_tag (h : LaidOut settings unit target raw base)
    (hmark : settings.doneMark = "x ".toList) (htask : task = taskOf settings unit number raw base)
    {x : Located Field} (hx : x ∈ task.fields) {key : Key} (hkey : x.value.key? = some key)
    (hnew : key ∉ gone) (hcount : key ≠ .count) (hdue : key ≠ .due)
    (hthinned : Thinned target (wholeOf settings unit raw base) gone column parts)
    (hle : (task.tagSpan x.span).stop ≤ column)
    (hcloses : Text.ClosesUp (raw.take (task.tagSpan x.span).start)
      ((task.tagSpan x.span).textIn raw) ((textOf parts).drop (task.tagSpan x.span).stop))
    (kind : EditKind) (payload : Payload) :
    ∃ parts', Thinned target (wholeOf settings unit raw base) (key :: gone)
        (task.tagSpan x.span).start parts' ∧
      textOf parts' = (Edit.delete task.line (task.tagSpan x.span) kind payload).applyTo
        (textOf parts) := by
  obtain ⟨front, hole, back, letters, value, field, hwhole, hcut, hfield, hstart, hstop, hfront,
    hhole⟩ := h.exists_cut hmark htask hx (by rw [hkey]; rfl)
  rw [hfront, hhole, ← hstop] at hcloses
  rw [← hstop] at hle
  obtain ⟨behind, rfl, hthinned'⟩ := hthinned.cut (h.laid_whole hmark) hwhole hle hcut
    (hfield.trans hkey) hnew hcount hdue hcloses
  rw [hstart] at hthinned'
  refine ⟨_, hthinned', ?_⟩
  rw [textOf_append, List.length_append] at hstop
  rw [textOf_append, textOf_append, textOf_append, textOf_unreadParts, textOf_unreadParts]
  exact (Edit.applyTo_replace task.line hstart.symm hstop.symm _ [] kind payload).symm

/-- **A number is written** into the counter among the unread parts. -/
theorem LaidOut.thin_count (h : LaidOut settings unit target raw base)
    (hmark : settings.doneMark = "x ".toList) (htask : task = taskOf settings unit number raw base)
    {x : Located Count} (hx : task.count? = some x) {done : Nat}
    (hdone : done ≤ x.value.current ∨ done ≤ x.value.needed) (hgone : Key.count ∉ gone)
    (hthinned : Thinned target (wholeOf settings unit raw base) gone column parts)
    (hle : x.span.stop ≤ column) (kind : EditKind) :
    ∃ parts', Thinned target (wholeOf settings unit raw base) gone x.span.start parts' ∧
      textOf parts' = (task.writeCount x.value done kind).applyTo (textOf parts) := by
  obtain ⟨front, current, scale, c, back, hwhole, hspan, hvalue, hfield, hcurrent, hscale,
    hdigits⟩ := h.exists_counter hmark htask hx
  have hdone' : Numeral.value (Numeral.ofNat done) = .ok done :=
    value_ofNat_of_field? hfield (by rwa [hvalue] at hdone)
  rw [hspan] at hle ⊢
  obtain ⟨behind, rfl, hthinned'⟩ :=
    hthinned.recount (h.laid_whole hmark) hwhole hle hgone hdone'
  refine ⟨_, hthinned', textOf_recount ?_ hcurrent hscale hdigits rfl rfl kind⟩
  rwa [textOf_unreadParts]

/-- A tag is found by the columns that it is taken out with. -/
theorem tagSpan_injective (h : read settings unit target number raw = .ok task)
    {x y : Located Field} (hx : x ∈ task.fields) (hy : y ∈ task.fields)
    (heq : task.tagSpan x.span = task.tagSpan y.span) : x = y := by
  refine Classical.byContradiction fun hne => ?_
  have hdisjoint := tagSpan_disjoint_field h hx hy hne
  have hbounds := tagSpan_bounds h hy
  have hlt := (field_edges h hy).1
  rw [heq, Span.Disjoint] at hdisjoint
  omega

/-- A key has one field. -/
theorem eq_of_key?_eq (h : read settings unit target number raw = .ok task) {x y : Located Field}
    (hx : x ∈ task.fields) (hy : y ∈ task.fields) {key : Key} (hkey : x.value.key? = some key)
    (hkey' : y.value.key? = some key) : x = y := by
  have hkeys := keys_apart_of_read h
  exact Option.some.inj (((Task.fieldOf?_eq_some_iff hkeys).mpr ⟨hx, hkey⟩).symm.trans
    ((Task.fieldOf?_eq_some_iff hkeys).mpr ⟨hy, hkey'⟩))

/-- **Edits inside of a line**, from right to left, leave the unread parts without the
tags that go, where the line closes up. -/
theorem LaidOut.exists_thinned (h : LaidOut settings unit target raw base)
    (hmark : settings.doneMark = "x ".toList) (htask : task = taskOf settings unit number raw base)
    (htaken : task.AreTags taken) (hdue : ∀ x ∈ taken, x.value.key? ≠ some .due)
    (hitems : ∀ item ∈ items, task.Trims taken item)
    (hchain : items.Pairwise fun a b => a.span.stop ≤ b.span.start)
    (hcloses : ∀ front item behind, items = front ++ item :: behind →
      ∀ x ∈ taken, ∀ kind payload, item = task.takeOut kind payload x →
        Text.ClosesUp (raw.take item.span.start) (item.span.textIn raw)
          (((behind.map (·.value)).foldr Edit.applyTo raw).drop item.span.stop))
    {low : Nat} (hlow : ∀ item ∈ items, low ≤ item.span.start) :
    ∃ gone parts, Thinned target (wholeOf settings unit raw base) gone low parts ∧
      textOf parts = (items.map (·.value)).foldr Edit.applyTo raw ∧
      (∀ key ∈ gone, ∃ x ∈ taken, x.value.key? = some key ∧
        ∃ kind payload, task.takeOut kind payload x ∈ items) ∧
      ∀ x ∈ taken, (∃ kind payload, task.takeOut kind payload x ∈ items) →
        ∀ key, x.value.key? = some key → key ∈ gone := by
  have hread : read settings unit target number raw = .ok task := htask ▸ h.read_eq number
  induction items generalizing low with
  | nil =>
    refine ⟨[], unreadParts (wholeOf settings unit raw base), (h.laid_whole hmark).thinned low,
      ?_, by simp, by simp⟩
    rw [textOf_unreadParts, h.textOf_whole]
    rfl
  | cons item items ih =>
    obtain ⟨hbehind, hchain⟩ := List.pairwise_cons.mp hchain
    obtain ⟨gone, parts, hthinned, htext, hgone, hall⟩ :=
      ih (fun x hx => hitems x (List.mem_cons_of_mem item hx)) hchain
        (fun front x behind hitems => hcloses (item :: front) x behind (by rw [hitems]; rfl))
        hbehind
    have hfirst := hlow item List.mem_cons_self
    have hclose := hcloses [] item items rfl
    have hwithin := (hitems item List.mem_cons_self).within htaken hread
    rw [← htext] at hclose
    rw [List.map_cons, List.foldr_cons, ← htext]
    cases hitems item List.mem_cons_self with
    | @take x hx kind payload =>
      obtain ⟨hfield, hsome, hcount⟩ := htaken x hx
      obtain ⟨key, hkey⟩ := Option.isSome_iff_exists.mp hsome
      have hnew : key ∉ gone := by
        intro hmem
        obtain ⟨y, hy, hkey', kind', payload', hitem⟩ := hgone key hmem
        obtain rfl := eq_of_key?_eq hread hfield (htaken y hy).1 hkey hkey'
        have hle := hbehind _ hitem
        simp only [Task.takeOut] at hle hwithin
        omega
      obtain ⟨parts', hthinned', htext'⟩ := h.thin_tag hmark htask hfield hkey hnew
        (fun heq => hcount (hkey.trans (congrArg some heq)))
        (fun heq => hdue x hx (hkey.trans (congrArg some heq))) hthinned (Nat.le_refl _)
        (hclose x hx kind payload rfl) kind payload
      refine ⟨key :: gone, parts', hthinned'.mono hfirst, htext', fun other hother => ?_,
        fun y hy hitem other hother => ?_⟩
      · rcases List.mem_cons.mp hother with rfl | hother
        · exact ⟨x, hx, hkey, kind, payload, List.mem_cons_self⟩
        · obtain ⟨y, hy, hkey', kind', payload', hitem⟩ := hgone other hother
          exact ⟨y, hy, hkey', kind', payload', List.mem_cons_of_mem _ hitem⟩
      · obtain ⟨kind', payload', hitem⟩ := hitem
        rcases List.mem_cons.mp hitem with heq | hitem
        · obtain rfl := tagSpan_injective hread (htaken y hy).1 hfield
            (congrArg Located.span heq)
          exact List.mem_cons.mpr (.inl (Option.some.inj (hother.symm.trans hkey)))
        · exact List.mem_cons_of_mem key (hall y hy ⟨kind', payload', hitem⟩ other hother)
    | @recount x hx done hdone kind =>
      have hnone : Key.count ∉ gone := fun hmem => by
        obtain ⟨y, hy, hkey, -⟩ := hgone .count hmem
        exact (htaken y hy).2.2 hkey
      obtain ⟨parts', hthinned', htext'⟩ := h.thin_count hmark htask hx hdone hnone hthinned
        (Nat.le_refl _) kind
      refine ⟨gone, parts', hthinned'.mono hfirst, htext', fun other hother => ?_,
        fun y hy hitem => hall y hy ?_⟩
      · obtain ⟨y, hy, hkey', kind', payload', hitem⟩ := hgone other hother
        exact ⟨y, hy, hkey', kind', payload', List.mem_cons_of_mem _ hitem⟩
      · obtain ⟨kind', payload', hitem⟩ := hitem
        refine ⟨kind', payload', (List.mem_cons.mp hitem).resolve_left fun heq => ?_⟩
        -- a number is put in, and nothing where a tag is taken out
        have hdigits : [] = Numeral.ofNat done := congrArg (fun item => item.value.text) heq
        exact List.ne_nil_of_length_pos Nat.length_toDigits_pos hdigits.symm

/-- The done mark is taken out in front of what goes in the line, if there is one. -/
theorem LaidOut.exists_unmarked (h : LaidOut settings unit target raw base)
    (hmark : settings.doneMark = "x ".toList) (htask : task = taskOf settings unit number raw base)
    {mark : List Edit} (hmarks : task.Marks settings false mark)
    (hlow : ∀ e ∈ mark, e.stop ≤ column)
    (hthinned : Thinned target (wholeOf settings unit raw base) gone column parts) :
    ∃ parts', Laid target none Key.all parts' [] ∧ tokensOf parts' = tokensOf parts ∧
      textOf parts' = mark.foldr Edit.applyTo (textOf parts) := by
  have hread : read settings unit target number raw = .ok task := htask ▸ h.read_eq number
  generalize hmarked : false = marked at hmarks
  cases hmarks with
  | keep => exact ⟨parts, hthinned.laid, rfl, rfl⟩
  | put => exact absurd hmarked Bool.false_ne_true
  | @take m hm =>
    obtain ⟨blanks, more, hblank, hstart, hstop, htext⟩ := Line.exists_unmarked hmark hread hm
    have hwhole : wholeOf settings unit raw base =
        plainParts (blanks ++ "x ".toList) ++ (plainParts more ++ base) := by
      rw [wholeOf, hstart]
      simp [plainParts]
    obtain ⟨behind, rfl⟩ := hthinned.exists_front hwhole
      (hstop ▸ Int.ofNat_le.mp (hlow _ List.mem_cons_self))
    refine ⟨plainParts blanks ++ behind, (laid_mark_iff hblank).mp hthinned.laid, ?_,
      htext behind _ _⟩
    rw [tokensOf_append, tokensOf_append, tokensOf_plainParts, tokensOf_plainParts]

end Thin

end Line

/-! ## All edits of a deed -/

section Clears

variable {settings : Settings} {unit : Option IndentUnit} {target : Day} {number : Int}
  {raw : Text} {task : Task} {taken : List (Located Field)} {edits mark : List Edit}
  {items : List (Located Edit)} {base : List Line.Part}

/-- The edit that takes a tag out is one of those inside of the line. -/
theorem Task.Marks.exists_takeOut (hmarks : task.Marks settings false mark)
    (h : Line.read settings unit target number raw = .ok task) (htaken : task.AreTags taken)
    (hitems : ∀ item ∈ items, task.Trims taken item) {x : Located Field} (hx : x ∈ taken)
    {kind : EditKind} {payload : Payload} (hpayload : payload ≠ .text "done".toList)
    (he : (task.takeOut kind payload x).value ∈ mark ++ items.map (·.value)) :
    ∃ kind payload, task.takeOut kind payload x ∈ items := by
  rcases List.mem_append.mp he with he | he
  · generalize hmarked : false = marked at hmarks
    cases hmarks with
    | keep => simp at he
    | take => exact absurd (congrArg Edit.payload (List.mem_singleton.mp he)) hpayload
    | put => exact absurd hmarked Bool.false_ne_true
  · obtain ⟨item, hitem, heq⟩ := List.mem_map.mp he
    cases hitems item hitem with
    | @take y hy kind' payload' =>
      have hspan : task.tagSpan y.span = task.tagSpan x.span := congrArg Edit.span heq
      obtain rfl := Line.tagSpan_injective h (htaken y hy).1 (htaken x hx).1 hspan
      exact ⟨kind', payload', hitem⟩
    | @recount y hy done hdone kind' =>
      have hdigits : Numeral.ofNat done = [] := congrArg Edit.text heq
      exact absurd hdigits (List.ne_nil_of_length_pos Nat.length_toDigits_pos)

/-- **What the edits leave of a line** when its mark and some tags go and it closes up at
every tag: of a key that a tag goes of the first tag is gone, and the tags of all other keys
are there, but for the number of the counter. -/
theorem Task.Clears.exists_unread (hclears : task.Clears settings false taken none edits)
    (hlaid : Line.LaidOut settings unit target raw base)
    (hmark : settings.doneMark = "x ".toList)
    (htask : task = Line.taskOf settings unit number raw base) (htaken : task.AreTags taken)
    (hdue : ∀ x ∈ taken, x.value.key? ≠ some .due) (hinside : ∀ e ∈ edits, e.Inside raw)
    (happart : edits.Pairwise Edit.Apart)
    (hdeleted : ∀ x ∈ taken, ∃ kind payload, payload ≠ .text "done".toList ∧
      (task.takeOut kind payload x).value ∈ edits)
    (hcloses : ∀ x ∈ taken, Text.ClosesUp (raw.take (task.tagSpan x.span).start)
      ((task.tagSpan x.span).textIn raw)
      (Text.rewrite (edits.map Edit.change) (task.tagSpan x.span).stop
        (raw.drop (task.tagSpan x.span).stop))) :
    ∃ parts, Line.Laid target none Key.all parts [] ∧
      Line.textOf parts = Text.rewritten (edits.map Edit.change) raw ∧
      Line.AreReadable (Line.tokensOf parts) ∧
      (∀ x ∈ taken, ∀ key, x.value.key? = some key → ∃ token,
        key.carriers (Line.tokensOf (Line.wholeOf settings unit raw base)) =
          token :: key.carriers (Line.tokensOf parts)) ∧
      ∀ key, (∀ x ∈ taken, x.value.key? ≠ some key) → key ≠ .count →
        key.carriers (Line.tokensOf parts) =
          key.carriers (Line.tokensOf (Line.wholeOf settings unit raw base)) := by
  have hread : Line.read settings unit target number raw = .ok task :=
    htask ▸ hlaid.read_eq number
  have hraw := Line.raw_of_read hread
  obtain ⟨mark, items, column, hperm, hmarks, hitems, hchain, hspans, hlow, hhigh⟩ :=
    hclears.exists_chain hread htaken (by rwa [hraw]) happart
  have hclosed := Task.closesUp_behind hread htaken hperm hinside happart hchain hcloses
  obtain ⟨gone, parts, hthinned, htext, hgone, hall⟩ := hlaid.exists_thinned hmark htask htaken
    hdue hitems hspans hclosed hhigh
  obtain ⟨parts', hlaid', htokens, htext'⟩ := hlaid.exists_unmarked hmark htask hmarks hlow hthinned
  refine ⟨parts', hlaid', ?_, htokens ▸ hthinned.readable, fun x hx key hkey => ?_,
    fun key hnone hcount => ?_⟩
  · rw [htext', htext]
    exact Edit.foldr_chain hperm hinside happart hchain
  · obtain ⟨kind, payload, hpayload, he⟩ := hdeleted x hx
    rw [Option.toList_none, List.map_nil, List.append_nil] at hperm
    rw [htokens]
    exact hthinned.less key (hall x hx (hmarks.exists_takeOut hread htaken hitems hx hpayload
      (hperm.mem_iff.mp he)) key hkey)
  · rw [htokens]
    refine hthinned.same key (fun hmem => ?_) hcount
    obtain ⟨x, hx, hkey, -⟩ := hgone key hmem
    exact hnone x hx hkey

end Clears

/-! ## Reopening -/

/-- A tag is the only one of its key if the line has no other one that carries it. -/
theorem Line.isSole_iff {settings : Settings} {unit : Option IndentUnit} {target : Day}
    {number : Int} {raw : Text} {task : Task}
    (h : read settings unit target number raw = .ok task) {key : Key} {x : Located Field}
    (hx : task.fieldOf? key = some x) :
    IsSole settings unit raw x ↔ ∃ token,
      key.carriers ((tokens raw (startOf settings unit raw)).map (·.value)) = [token] := by
  have hkey := ((Task.fieldOf?_eq_some_iff (keys_apart_of_read h)).mp hx).2
  obtain ⟨t, ht, hspan, hcarries, -⟩ := (takesTags_of_read h).leftmost key x hx
  have hleft := tokens_isLeftmost raw (startOf settings unit raw)
  rw [IsSole]
  generalize tokens raw (startOf settings unit raw) = found at ht hleft ⊢
  -- the tags that carry the key, where they stand
  have hmap : key.carriers (found.map (·.value)) =
      (found.filter fun t => key.Carries t.value).map (·.value) := List.filter_map
  have hmem : t ∈ found.filter fun t => key.Carries t.value :=
    List.mem_filter.mpr ⟨ht, decide_eq_true hcarries⟩
  rw [hmap]
  constructor
  · intro hsole
    have hspans : ∀ s ∈ found.filter fun t => key.Carries t.value, s.span = x.span := by
      intro s hs
      obtain ⟨hfound, hcarries⟩ := List.mem_filter.mp hs
      exact hsole key hkey s hfound (of_decide_eq_true hcarries)
    have hordered : (found.filter fun t => key.Carries t.value).Pairwise
        fun a b => a.span.stop ≤ b.span.start := hleft.ordered.filter _
    have hpos : ∀ s ∈ found.filter fun t => key.Carries t.value, s.span.start < s.span.stop := by
      intro s hs
      obtain ⟨-, -, hstop⟩ := hleft.stands s (List.mem_of_mem_filter hs)
      have := s.value.text_length_pos
      omega
    generalize found.filter (fun t => key.Carries t.value) = carrying
      at hmem hspans hordered hpos ⊢
    match carrying with
    | [] => exact absurd hmem List.not_mem_nil
    | [s] => exact ⟨s.value, rfl⟩
    | s :: s' :: _ =>
      -- two of them would stand at the same columns
      have hle := (List.pairwise_cons.mp hordered).1 s' List.mem_cons_self
      have hlt := hpos s List.mem_cons_self
      rw [hspans s List.mem_cons_self] at hle hlt
      rw [hspans s' (List.mem_cons_of_mem s List.mem_cons_self)] at hle
      omega
  · rintro ⟨token, htoken⟩ other hother s hs hcarries'
    obtain rfl : key = other := Option.some.inj (hkey.symm.trans hother)
    obtain ⟨only, honly, -⟩ := List.map_eq_singleton_iff.mp htoken
    rw [honly, List.mem_singleton] at hmem
    have hsame : s ∈ found.filter fun t => key.Carries t.value :=
      List.mem_filter.mpr ⟨hs, decide_eq_true hcarries'⟩
    rw [honly, List.mem_singleton] at hsame
    rw [hsame, ← hmem, hspan]

/-- The deeds that reopen a done task: it is toggled, or a new cycle of it starts. -/
def Deed.Reopens (task : Task) : Deed → Prop
  | toggleDone _ => task.isDone = true
  | reset _ _ => task.isRecurring = true ∧ task.isDone = true
  | _ => False

/-- Nothing in the text says that the task is done: no other mark has come to its start,
and the completion tag was the only one of the line. -/
def Task.IsClearedIn (settings : Settings) (unit : Option IndentUnit) (task : Task) (text : Text) :
    Prop :=
  ¬ settings.doneMark <+: text.dropWhile Line.isIndent ∧
    ∀ x, task.fieldOf? .completed = some x → Line.IsSole settings unit task.raw x

namespace Deed

variable {settings : Settings} {unit : Option IndentUnit} {target : Day} {number : Int}
  {raw : Text} {task : Task} {deed : Deed} {x : Located Field} {key : Key}

theorem Reopens.clears (h : deed.Reopens task) (settings : Settings) :
    task.Clears settings false (deed.taken task) none (deed.edits settings task) := by
  cases deed with
  | toggleDone now =>
    have hclears := clears_toggleDone settings task now
    rwa [leavesMark, stampedAt?, show task.isDone = true from h] at hclears
  | reset lastVisit now =>
    have hclears := clears_reset settings task lastVisit now h
    rwa [leavesMark, h.1, h.2] at hclears
  | _ => exact absurd h id

theorem takenKeys_toggleDone {now : Instant} (h : (toggleDone now).Reopens task) :
    (toggleDone now).takenKeys task = [.overdue, .completed] := by
  rw [takenKeys, if_pos (show task.isDone = true from h)]

theorem takenKeys_reset {lastVisit now : Instant} (h : (reset lastVisit now).Reopens task) :
    (reset lastVisit now).takenKeys task = [.completed] := if_pos h

/-- The tags that go say since when the task is overdue, or that it is done. -/
theorem Reopens.key_cases (h : deed.Reopens task) (hkey : key ∈ deed.takenKeys task) :
    key = .overdue ∨ key = .completed := by
  cases deed with
  | toggleDone now => simpa [takenKeys_toggleDone h] using hkey
  | reset lastVisit now => exact .inr (by simpa [takenKeys_reset h] using hkey)
  | _ => exact absurd h id

theorem Reopens.completed_mem (h : deed.Reopens task) : Key.completed ∈ deed.takenKeys task := by
  cases deed with
  | toggleDone now => simp [takenKeys_toggleDone h]
  | reset lastVisit now => simp [takenKeys_reset h]
  | _ => exact absurd h id

/-- Every tag that goes is taken out by an edit. -/
theorem Reopens.exists_edit (h : deed.Reopens task) (hx : x ∈ deed.taken task) :
    ∃ kind payload, payload ≠ .text "done".toList ∧
      (task.takeOut kind payload x).value ∈ deed.edits settings task := by
  obtain ⟨key, hkey, hfield⟩ := List.mem_filterMap.mp hx
  have hstamp : key = .completed → (task.takeOut .clearCompletion (.text "cm".toList) x).value ∈
      task.clearStamp := by
    rintro rfl
    rw [clearStamp_eq, hfield]
    exact List.mem_singleton_self _
  cases deed with
  | toggleDone now =>
    have hdone : task.isDone = true := h
    rw [edits, Task.toggleDone, if_pos hdone]
    rcases h.key_cases hkey with rfl | hkey
    · refine ⟨.removeOverdue, .none, by decide, List.mem_append_left _ ?_⟩
      rw [removeOverdue_eq, hfield]
      exact List.mem_singleton_self _
    · exact ⟨_, _, by decide, List.mem_append_right _ (List.mem_append_right _ (hstamp hkey))⟩
  | reset lastVisit now =>
    rw [edits, Task.reset, if_pos h.1, Task.resetState, if_pos h.2]
    have hkey : key = .completed := by simpa [takenKeys_reset h] using hkey
    exact ⟨_, _, by decide, List.mem_append_left _ (List.mem_append_right _ (hstamp hkey))⟩
  | _ => exact absurd h id

/-- A field of a key is among the tags that go if its key is. -/
theorem key_of_mem_taken (hx : x ∈ deed.taken task) :
    ∃ key ∈ deed.takenKeys task, x.value.key? = some key := by
  obtain ⟨key, hkey, hfield⟩ := List.mem_filterMap.mp hx
  obtain ⟨y, -, hvalue, hsome⟩ | ⟨-, hnone⟩ := task.fieldOf?_cases key
  · obtain rfl := Option.some.inj (hfield.symm.trans hsome)
    exact ⟨key, hkey, hvalue⟩
  · rw [hnone] at hfield
    exact absurd hfield.symm (Option.some_ne_none x)

/-- **The line of a done task that is reopened** can be read, where it closes up at every
tag that goes, and its task is open exactly if nothing that is left says that it is done. It
is due if it was. -/
theorem exists_reopened (hmark : settings.doneMark = "x ".toList)
    (hread : Line.read settings unit target number raw = .ok task) (hdeed : deed.Reopens task)
    (hnot : ¬ deed.Collides settings task)
    (hcloses : ∀ x ∈ deed.taken task, deed.ClosesUp settings task x) {text : Text}
    (htext : text = ((deed.edits settings task).mergeSort Edit.leftOf).foldr Edit.applyTo raw)
    (day : Day) (other : Int) :
    ∃ after, Line.read settings unit day other text = .ok after ∧
      (after.isDone = false ↔ task.IsClearedIn settings unit text) ∧
      (task.due?.isSome = true → after.due?.isSome = true) := by
  obtain ⟨base, hlaid, htask⟩ := Line.read_iff_laidOut.mp hread
  have hraw := Line.raw_of_read hread
  have hinside : ∀ e ∈ deed.edits settings task, e.Inside raw := fun e he => by
    rw [← hraw]
    exact ((makes he).owns hread).inside
  have hkeys : ∀ x ∈ deed.taken task, x.value.key? ≠ some .due := fun x hx hdue => by
    obtain ⟨key, hkey, hvalue⟩ := key_of_mem_taken hx
    obtain rfl := Option.some.inj (hvalue.symm.trans hdue)
    simpa using hdeed.key_cases hkey
  unfold ClosesUp leftBehind at hcloses
  rw [hraw] at hcloses
  obtain ⟨parts, hparts, hwritten, hreadable, hless, hsame⟩ :=
    (hdeed.clears settings).exists_unread hlaid hmark htask (areTags_taken deed task) hkeys
      hinside (pairwise_apart hread hnot) (fun x hx => hdeed.exists_edit hx) hcloses
  rw [foldr_edits hread hnot, ← hwritten] at htext
  subst htext
  -- the tokens of the line are those of its parts
  have htokens : (Line.tokens raw (Line.startOf settings unit raw)).map (·.value) =
      Line.tokensOf (Line.wholeOf settings unit raw base) := hlaid.map_tokens hmark
  have htokens' := hparts.map_tokens hmark unit
  obtain ⟨after, hafter, hopen⟩ := hparts.exists_read hmark hreadable unit day other
  refine ⟨after, hafter, ?_, fun hdue => ?_⟩
  · rw [hopen, Task.IsClearedIn, hraw]
    refine and_congr_right fun _ => ?_
    have hsome := Line.isSome_fieldOf?_iff hread .completed
    rw [htokens] at hsome
    cases hfield : task.fieldOf? .completed with
    | none =>
      have hnone : ∀ x ∈ deed.taken task, x.value.key? ≠ some .completed := fun x hx hkey => by
        have hx' := (Task.fieldOf?_eq_some_iff (Line.keys_apart_of_read hread)).mpr
          ⟨(areTags_taken deed task x hx).1, hkey⟩
        rw [hfield] at hx'
        exact absurd hx'.symm (Option.some_ne_none x)
      rw [hsame .completed hnone (by decide)]
      simpa [hfield] using hsome
    | some x =>
      have hx : x ∈ deed.taken task := List.mem_filterMap.mpr ⟨_, hdeed.completed_mem, hfield⟩
      have hkey := ((Task.fieldOf?_eq_some_iff (Line.keys_apart_of_read hread)).mp hfield).2
      obtain ⟨token, hwhole⟩ := hless x hx .completed hkey
      have hsole := Line.isSole_iff hread hfield
      rw [htokens, hwhole] at hsole
      simp only [Option.some.injEq, forall_eq', hsole, List.cons.injEq]
      exact ⟨fun hnil => ⟨token, rfl, hnil⟩, fun ⟨_, _, hnil⟩ => hnil⟩
  · have hfound := Line.isSome_fieldOf?_iff hread .due
    have hfound' := Line.isSome_fieldOf?_iff hafter .due
    rw [htokens, Task.fieldOf?, Option.isSome_map] at hfound
    rw [htokens', hsame .due hkeys (by decide), Task.fieldOf?, Option.isSome_map] at hfound'
    exact hfound'.mpr (hfound.mp hdue)

end Deed

end TaskList
