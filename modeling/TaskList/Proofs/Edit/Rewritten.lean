/-
TaskList.Proofs.Edit.Rewritten — a text with changes of its columns, column by
column.

* `Text.rewritten` — at each column stands what the changes put in there, and
  behind it the character of the text, unless a change takes it out. No order in
  which changes are carried out is in it: `Text.rewritten_perm`.
* `Text.outside_sublist` — the characters that no change takes out are all there,
  in their order.
* `Edit.foldr_mergeSort_eq` — edits of one line that are in it and have no column in
  common make the rewritten line of it.
-/
import TaskList.Proofs.Edit.Carried
import TaskList.Proofs.Line.Columns

namespace TaskList

/-! ## Changes of a text -/

namespace Text

/-- What changes put in at a column, in the order in which they come. -/
def putIn (changes : List (Located Text)) (column : Nat) : Text :=
  changes.flatMap fun change => if change.span.start = column then change.value else []

/-- Does a change take the character of the column out? -/
def takesOut (changes : List (Located Text)) (column : Nat) : Bool :=
  Span.anyCovers (changes.map (·.span)) column

/-- A text that starts at a column with changes of its columns. -/
def rewrite (changes : List (Located Text)) : Nat → Text → Text
  | column, [] => putIn changes column
  | column, c :: rest =>
    putIn changes column ++
      ((if takesOut changes column then [] else [c]) ++ rewrite changes (column + 1) rest)

/-- A text with changes of its columns. -/
def rewritten (changes : List (Located Text)) (t : Text) : Text := rewrite changes 0 t

section Rewrite

variable {changes others : List (Located Text)} {change : Located Text} {column : Nat}

theorem rewrite_congr {t : Text}
    (hput : ∀ i, column ≤ i → putIn changes i = putIn others i)
    (htake : ∀ i, column ≤ i → takesOut changes i = takesOut others i) :
    rewrite changes column t = rewrite others column t := by
  induction t generalizing column with
  | nil => exact hput column (Nat.le_refl _)
  | cons c t ih =>
    rw [rewrite, rewrite, hput column (Nat.le_refl _), htake column (Nat.le_refl _),
      ih (fun i hi => hput i (by omega)) fun i hi => htake i (by omega)]

theorem erase_sublist (column : Nat) (t : Text) :
    (Span.erase (changes.map (·.span)) column t).Sublist (rewrite changes column t) := by
  induction t generalizing column with
  | nil => exact List.nil_sublist _
  | cons c t ih =>
    change (if takesOut changes column = true then _ else _ : Text).Sublist _
    rw [rewrite]
    refine List.Sublist.trans ?_ (List.sublist_append_right _ _)
    split
    · exact ih (column + 1)
    · exact (ih (column + 1)).cons_cons c

/-- **What no change takes out is still there**, in its order. -/
theorem outside_sublist (changes : List (Located Text)) (t : Text) :
    (Span.outside (changes.map (·.span)) t).Sublist (rewritten changes t) := by
  rw [← Span.erase_zero]
  exact erase_sublist 0 t

/-! ## The order of the changes -/

/-- Two changes do not both put something in at one column. -/
def PutApart (a b : Located Text) : Prop :=
  a.value = [] ∨ b.value = [] ∨ a.span.start ≠ b.span.start

theorem PutApart.symm {a b : Located Text} (h : PutApart a b) : PutApart b a := by
  obtain h | h | h := h
  · exact .inr (.inl h)
  · exact .inl h
  · exact .inr (.inr h.symm)

theorem putIn_perm (hperm : changes.Perm others) (happart : changes.Pairwise PutApart) :
    putIn changes column = putIn others column := by
  induction hperm with
  | nil => rfl
  | cons change _ ih =>
    exact congrArg (_ ++ ·) (ih (List.pairwise_cons.mp happart).2)
  | swap a b rest =>
    obtain ⟨hb, -⟩ := List.pairwise_cons.mp happart
    have hone : PutApart b a := hb a List.mem_cons_self
    simp only [putIn, List.flatMap_cons, ← List.append_assoc]
    refine congrArg (· ++ _) ?_
    obtain h | h | h := hone
    · simp [h]
    · simp [h]
    · by_cases hcolumn : b.span.start = column
      · have hother : a.span.start ≠ column := fun ha => h (hcolumn.trans ha.symm)
        rw [if_neg hother, List.append_nil, List.nil_append]
      · rw [if_neg hcolumn, List.append_nil, List.nil_append]
  | trans hfirst _ ih ih' =>
    exact (ih happart).trans (ih' ((hfirst.pairwise_iff PutApart.symm).mp happart))

/-- **The order of the changes does not matter** if no two of them put something
in at one column. -/
theorem rewrite_perm (hperm : changes.Perm others) (happart : changes.Pairwise PutApart)
    (column : Nat) (t : Text) : rewrite changes column t = rewrite others column t :=
  rewrite_congr (fun _ _ => putIn_perm hperm happart) fun _ _ => (hperm.map _).any_eq

theorem rewritten_perm (hperm : changes.Perm others) (happart : changes.Pairwise PutApart)
    (t : Text) : rewritten changes t = rewritten others t := rewrite_perm hperm happart 0 t

/-! ## Changes from left to right -/

theorem putIn_eq_nil {i : Nat} (h : ∀ change ∈ changes, change.span.start ≠ i) :
    putIn changes i = [] := by
  refine List.flatMap_eq_nil_iff.mpr fun change hchange => ?_
  rw [if_neg (h change hchange)]

theorem takesOut_eq_false {i : Nat} (h : ∀ change ∈ changes, i < change.span.start) :
    takesOut changes i = false := by
  refine List.any_eq_false.mpr fun s hs => ?_
  obtain ⟨change, hchange, rfl⟩ := List.mem_map.mp hs
  have := h change hchange
  rw [Span.covers_iff]
  omega

/-- Nothing happens in front of all changes. -/
theorem rewrite_untouched {u : Text} (v : Text)
    (h : ∀ change ∈ changes, column + u.length ≤ change.span.start) :
    rewrite changes column (u ++ v) = u ++ rewrite changes (column + u.length) v := by
  induction u generalizing column with
  | nil => rfl
  | cons c u ih =>
    have hfront : ∀ change ∈ changes, column < change.span.start := fun change hchange => by
      have := h change hchange
      rw [List.length_cons] at this
      omega
    have hput : putIn changes column = [] :=
      putIn_eq_nil fun change hchange => (hfront change hchange).ne'
    rw [List.cons_append, rewrite, hput, takesOut_eq_false hfront,
      ih fun change hchange => by have := h change hchange; rw [List.length_cons] at this; omega]
    simp [Nat.add_assoc, Nat.add_comm 1]

/-- Columns that are taken out, and nothing is put in at them. -/
theorem rewrite_takenOut {u : Text} (v : Text)
    (h : ∀ i, column ≤ i → i < column + u.length →
      takesOut changes i = true ∧ putIn changes i = []) :
    rewrite changes column (u ++ v) = rewrite changes (column + u.length) v := by
  induction u generalizing column with
  | nil => rfl
  | cons c u ih =>
    obtain ⟨htake, hput⟩ := h column (Nat.le_refl _) (by rw [List.length_cons]; omega)
    rw [List.cons_append, rewrite, hput, htake, if_pos rfl, List.nil_append, List.nil_append,
      ih fun i hi hi' => h i (by omega) (by rw [List.length_cons]; omega), List.length_cons,
      Nat.add_assoc, Nat.add_comm 1]

theorem putIn_cons_of_ne {i : Nat} (h : change.span.start ≠ i) :
    putIn (change :: changes) i = putIn changes i := by
  rw [putIn, List.flatMap_cons, if_neg h]
  rfl

theorem takesOut_cons_of_le {i : Nat} (h : change.span.stop ≤ i) :
    takesOut (change :: changes) i = takesOut changes i := by
  have hnot : change.span.covers i = false := by
    rw [Bool.eq_false_iff, Ne, Span.covers_iff]
    omega
  simp [takesOut, Span.anyCovers, hnot]

/-- Changes that end in front of a column change nothing behind it. -/
theorem rewrite_behind {front : List (Located Text)} {t : Text}
    (h : ∀ change ∈ front, change.span.start < column ∧ change.span.stop ≤ column) :
    rewrite (front ++ changes) column t = rewrite changes column t := by
  refine rewrite_congr (fun i hi => ?_) fun i hi => ?_
  · have hnone : putIn front i = [] := putIn_eq_nil fun change hchange => by
      have := (h change hchange).1
      omega
    rw [putIn, List.flatMap_append]
    exact congrArg (· ++ putIn changes i) hnone
  · have hnone : takesOut front i = false := List.any_eq_false.mpr fun s hs => by
      obtain ⟨change, hchange, rfl⟩ := List.mem_map.mp hs
      have := (h change hchange).2
      rw [Span.covers_iff]
      omega
    rw [takesOut, Span.anyCovers, List.map_append, List.any_append]
    exact (congrArg (· || takesOut changes i) hnone).trans (Bool.false_or _)

/-- A change with the others behind it. -/
theorem rewrite_change {u : Text} (v : Text) (hstart : change.span.start = column)
    (hstop : change.span.stop = column + u.length)
    (hbehind : ∀ other ∈ changes, change.span.stop ≤ other.span.start) :
    rewrite (change :: changes) column (u ++ v) =
      change.value ++ rewrite changes (column + u.length) v := by
  have hhere : putIn (change :: changes) column = change.value ++ putIn changes column := by
    rw [putIn, List.flatMap_cons, if_pos hstart]
    rfl
  cases u with
  | nil =>
    have hstop' : change.span.stop = column := hstop
    have hcongr : ∀ t : Text, rewrite (change :: changes) (column + 1) t =
        rewrite changes (column + 1) t := fun t =>
      rewrite_congr (fun i hi => putIn_cons_of_ne (by omega))
        fun i hi => takesOut_cons_of_le (by omega)
    cases v with
    | nil => exact hhere
    | cons c v =>
      rw [List.nil_append, rewrite, hhere, takesOut_cons_of_le (Nat.le_of_eq hstop'), hcongr,
        List.append_assoc]
      rfl
  | cons c u =>
    rw [List.length_cons] at hstop
    -- the others start behind the first column that is taken out
    have hput : putIn changes column = [] := putIn_eq_nil fun other hother => by
      have := hbehind other hother
      omega
    have htake : ∀ i, column ≤ i → i < change.span.stop →
        takesOut (change :: changes) i = true := fun i hi hi' => by
      have hcovers : change.span.covers i = true := Span.covers_iff.mpr ⟨by omega, hi'⟩
      simp [takesOut, Span.anyCovers, hcovers]
    rw [List.cons_append, rewrite, hhere, hput, List.append_nil,
      htake column (Nat.le_refl _) (by omega), if_pos rfl, List.nil_append,
      rewrite_takenOut v fun i hi hi' => ⟨htake i (by omega) (by omega), ?_⟩]
    · have hcolumn : column + 1 + u.length = column + (c :: u).length := by
        rw [List.length_cons]
        omega
      rw [hcolumn]
      refine congrArg (change.value ++ ·) (rewrite_congr (fun i hi => putIn_cons_of_ne ?_)
        fun i hi => takesOut_cons_of_le ?_)
      · rw [List.length_cons] at hi
        omega
      · rw [List.length_cons] at hi
        omega
    · rw [putIn_cons_of_ne (by omega)]
      exact putIn_eq_nil fun other hother => by
        have := hbehind other hother
        omega

/-- A change behind the last character comes behind everything else. -/
theorem rewrite_end {t : Text} (hstart : change.span.start = column + t.length)
    (hstop : change.span.stop = column + t.length) :
    rewrite (changes ++ [change]) column t = rewrite changes column t ++ change.value := by
  induction t generalizing column with
  | nil =>
    have hhere : change.span.start = column := hstart
    rw [rewrite, rewrite, putIn, List.flatMap_append, List.flatMap_singleton, if_pos hhere]
    rfl
  | cons c t ih =>
    rw [List.length_cons] at hstart hstop
    have hput : putIn (changes ++ [change]) column = putIn changes column := by
      rw [putIn, List.flatMap_append, List.flatMap_singleton, if_neg (by omega), List.append_nil]
      rfl
    have htake : takesOut (changes ++ [change]) column = takesOut changes column := by
      have hnot : change.span.covers column = false := by
        rw [Bool.eq_false_iff, Ne, Span.covers_iff]
        omega
      simp [takesOut, Span.anyCovers, hnot]
    rw [rewrite, rewrite, hput, htake, ih (by omega) (by omega), List.append_assoc,
      List.append_assoc]

end Rewrite

end Text

/-! ## Edits as changes -/

namespace Edit

/-- The columns of the edit. -/
def span (e : Edit) : Span := ⟨e.start.toNat, e.stop.toNat⟩

/-- The edit as a change of a text. -/
def change (e : Edit) : Located Text := ⟨e.span, e.text⟩

/-- The columns of the edit are in the text. -/
structure Inside (t : Text) (e : Edit) : Prop where
  start_nonneg : 0 ≤ e.start
  start_le : e.start ≤ e.stop
  stop_le : e.stop ≤ t.length

/-- Two edits have no column in common, and do not both put something in at one
column. -/
def Apart (a b : Edit) : Prop := a.span.Disjoint b.span ∧ Text.PutApart a.change b.change

theorem Apart.symm {a b : Edit} (h : a.Apart b) : b.Apart a := ⟨Or.symm h.1, h.2.symm⟩

section OneLine

variable {t : Text} {edits : List Edit}

/-- Edits from left to right make what their changes make. -/
theorem fill_eq_rewrite {column : Nat} (hinside : ∀ e ∈ edits, e.Inside t)
    (hchain : edits.Pairwise fun a b => a.stop ≤ b.start)
    (hfirst : ∀ e ∈ edits, column ≤ e.start.toNat) :
    fill t column edits = Text.rewrite (edits.map change) column (t.drop column) := by
  induction edits generalizing column with
  | nil =>
    have huntouched : Text.rewrite [] column (t.drop column ++ []) = t.drop column ++ [] :=
      Text.rewrite_untouched [] (by simp)
    rw [List.append_nil] at huntouched
    rw [fill, List.map_nil, huntouched]
  | cons e rest ih =>
    obtain ⟨hstart, hle, hstop⟩ := hinside e List.mem_cons_self
    obtain ⟨hbehind, hrest⟩ := List.pairwise_cons.mp hchain
    have hcolumn := hfirst e List.mem_cons_self
    -- the text is cut in front of the columns of the edit and behind them
    have hcut : t.drop column = t.slice column e.start.toNat ++
        (t.slice e.start.toNat e.stop.toNat ++ t.drop e.stop.toNat) := by
      have htake : ∀ {i j : Nat}, i ≤ j → t.slice i j ++ t.drop j = t.drop i := fun {i j} hij => by
        rw [Text.slice, List.drop_take, ← Nat.add_sub_of_le hij, ← List.drop_drop,
          Nat.add_sub_cancel_left, List.take_append_drop]
      rw [htake (by omega), htake hcolumn]
    have hlength : ∀ {i j : Nat}, i ≤ j → j ≤ t.length → (t.slice i j).length = j - i :=
      fun {i j} hij hj => by rw [Text.slice, List.length_drop, List.length_take]; omega
    have hfront : column + (t.slice column e.start.toNat).length = e.start.toNat := by
      rw [hlength hcolumn (by omega)]
      omega
    have htaken : e.start.toNat + (t.slice e.start.toNat e.stop.toNat).length =
        e.stop.toNat := by
      rw [hlength (by omega) (by omega)]
      omega
    have hothers : ∀ other ∈ rest.map change, e.change.span.stop ≤ other.span.start := by
      intro other hother
      obtain ⟨x, hx, rfl⟩ := List.mem_map.mp hother
      exact Int.toNat_le_toNat (hbehind x hx)
    have hchange : Text.rewrite (e.change :: rest.map change) e.start.toNat
        (t.slice e.start.toNat e.stop.toNat ++ t.drop e.stop.toNat) = e.text ++
          Text.rewrite (rest.map change) _ (t.drop e.stop.toNat) :=
      Text.rewrite_change _ rfl htaken.symm hothers
    rw [fill, hcut, Text.rewrite_untouched, hfront, List.map_cons, hchange, htaken,
      ih (fun x hx => hinside x (List.mem_cons_of_mem e hx)) hrest fun x hx =>
        Int.toNat_le_toNat (hbehind x hx)]
    rw [hfront]
    intro other hother
    obtain ⟨x, hx, rfl⟩ := List.mem_map.mp hother
    rcases List.mem_cons.mp hx with rfl | hx
    · exact Nat.le_refl _
    · exact Int.toNat_le_toNat (Int.le_trans hle (hbehind x hx))

/-- Edits with no column in common end where the next one starts or before, once
they are sorted. -/
theorem sorted_apart (hinside : ∀ e ∈ edits, e.Inside t)
    (hdisjoint : edits.Pairwise fun a b => a.span.Disjoint b.span) :
    (edits.mergeSort leftOf).Pairwise fun a b => a.stop ≤ b.start := by
  have hperm := List.mergeSort_perm edits leftOf
  have hdisjoint' : (edits.mergeSort leftOf).Pairwise fun a b => a.span.Disjoint b.span :=
    (hperm.pairwise_iff Or.symm).mpr hdisjoint
  refine ((List.pairwise_mergeSort leftOf_trans leftOf_total edits).and hdisjoint').imp_of_mem ?_
  rintro a b ha hb ⟨hleft, hab⟩
  have ha := hinside a (hperm.mem_iff.mp ha)
  have hb := hinside b (hperm.mem_iff.mp hb)
  have := ha.start_nonneg
  have := ha.start_le
  have := hb.start_nonneg
  have := hb.start_le
  rw [leftOf_iff] at hleft
  unfold Span.Disjoint span at hab
  dsimp only at hab
  omega

/-- Edits from left to right make the rewritten text. -/
theorem foldr_eq_rewritten (hinside : ∀ e ∈ edits, e.Inside t)
    (hchain : edits.Pairwise fun a b => a.stop ≤ b.start) :
    edits.foldr applyTo t = Text.rewritten (edits.map change) t := by
  rw [foldr_applyTo (Nat.zero_le _) (fun e he => ⟨(hinside e he).1, (hinside e he).2,
    (hinside e he).3⟩) hchain.isChain fun e _ => Nat.zero_le _,
    fill_eq_rewrite hinside hchain fun e _ => Nat.zero_le _]
  rfl

/-- What edits make of a text behind the columns of one that takes some out is
the same before that one is carried out. -/
theorem drop_foldr {front rest : List Edit} {e : Edit}
    (hinside : ∀ x ∈ front ++ e :: rest, x.Inside t)
    (hchain : (front ++ e :: rest).Pairwise fun a b => a.stop ≤ b.start)
    (hlt : e.start < e.stop) :
    (rest.foldr applyTo t).drop e.stop.toNat =
      Text.rewrite ((front ++ e :: rest).map change) e.stop.toNat (t.drop e.stop.toNat) := by
  obtain ⟨-, hchain', hfront⟩ := List.pairwise_append.mp hchain
  obtain ⟨hbehind, hrest⟩ := List.pairwise_cons.mp hchain'
  have he := hinside e (by simp)
  have hinside' : ∀ x ∈ rest, x.Inside t := fun x hx => hinside x (by simp [hx])
  have hcolumn : e.stop.toNat ≤ t.length := by
    have := he.stop_le
    omega
  have hfirst : ∀ x ∈ rest, e.stop.toNat ≤ x.start.toNat := fun x hx =>
    Int.toNat_le_toNat (hbehind x hx)
  rw [foldr_applyTo hcolumn (fun x hx => ⟨(hinside' x hx).1, (hinside' x hx).2,
    (hinside' x hx).3⟩) hrest.isChain fun x hx => hfirst x (List.mem_of_mem_head? hx),
    List.drop_left' (List.length_take_of_le hcolumn), fill_eq_rewrite hinside' hrest hfirst]
  have hsplit : (front ++ e :: rest).map change =
      (front ++ [e]).map change ++ rest.map change := by simp
  rw [hsplit]
  -- the edits further left, and the edit itself, end where the text starts
  refine (Text.rewrite_behind fun c hc => ?_).symm
  obtain ⟨x, hx, rfl⟩ := List.mem_map.mp hc
  have hstart := he.start_nonneg
  simp only [change, span]
  rcases List.mem_append.mp hx with hx | hx
  · have hle := hfront x hx e List.mem_cons_self
    have hinside := hinside x (List.mem_append_left _ hx)
    have := hinside.start_nonneg
    have := hinside.start_le
    omega
  · obtain rfl := List.mem_singleton.mp hx
    omega

/-- **Edits with no column in common make the rewritten text.** -/
theorem foldr_mergeSort_eq (hinside : ∀ e ∈ edits, e.Inside t)
    (happart : edits.Pairwise Apart) :
    (edits.mergeSort leftOf).foldr applyTo t = Text.rewritten (edits.map change) t := by
  have hperm := List.mergeSort_perm edits leftOf
  have hput : (edits.map change).Pairwise Text.PutApart :=
    List.pairwise_map.mpr (happart.imp And.right)
  rw [foldr_eq_rewritten (fun e he => hinside e (hperm.mem_iff.mp he))
    (sorted_apart hinside (happart.imp And.left))]
  exact (Text.rewritten_perm (hperm.symm.map change) hput t).symm

end OneLine

end Edit

end TaskList
