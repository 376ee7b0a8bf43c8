/-
TaskList.Proofs.Edit.Substitution — edits are carried out as if all at once.

* `Edit.fill` — a line with edits put in all at once, every column meaning
  the line as it was. `Edit.substituted` — all lines, filled like that, and
  without those that are dropped.
* `Edit.Fits` — the columns are in their lines, and no two edits of one line
  overlap.
* `Edit.applyAll_substitutes` — carrying out edits that fit one after the
  other comes to the same. So the order of the edits does not matter but for
  texts that are put in at one column.

Two things are shown apart: the schedule holds the edits of each line from
right to left (`schedule_onLine`, by what a stable sort leaves open), and an
edit left of what is changed already still means its own columns
(`foldr_applyTo`, by induction on the edits from left to right).
-/
import Mathlib.Data.List.Chain
import TaskList.Edit.Basic
import TaskList.Proofs.Sorting

namespace TaskList.Edit

/-! ## All edits at once -/

/-- A line from a column on with edits put in all at once: what is between
the edits stays, and their texts take the place of their columns. -/
def fill (t : Text) : Nat → List Edit → Text
  | column, [] => t.drop column
  | column, e :: rest => t.slice column e.start.toNat ++ (e.text ++ fill t e.stop.toNat rest)

/-- May one edit of a line stand in front of another? -/
def leftOf (a b : Edit) : Bool :=
  decide (a.start < b.start) || (a.start == b.start && decide (a.stop ≤ b.stop))

/-- The edits of a line from left to right, those of the same columns in
the order in which they come. -/
def onLine (edits : List Edit) (i : Nat) : List Edit :=
  ((edits.filter isColumnEdit).filter fun e => e.line == (i : Int)).mergeSort leftOf

/-- Is there an edit that drops the line? -/
def drops (edits : List Edit) (i : Nat) : Bool :=
  edits.any fun e => e.kind == .deleteLine && e.line == (i : Int)

/-- The lines with their edits put in all at once, and without those that
are dropped. -/
def substituted (lines : List Text) (edits : List Edit) : List Text :=
  lines.zipIdx.filterMap fun p =>
    if drops edits p.2 then none else some (fill p.1 0 (onLine edits p.2))

/-- Does the edit put a text in at a column of a line? -/
def insertsAt (line column : Int) (e : Edit) : Bool :=
  e.isColumnEdit && e.line == line && e.start == column && e.stop == column

/-- Edits that can be carried out all at once. -/
structure Fits (lines : List Text) (edits : List Edit) : Prop where
  /-- The columns are in a line that there is. -/
  inside : ∀ e ∈ edits, e.isColumnEdit = true → ∃ (i : Nat) (t : Text), e.line = i ∧
    lines[i]? = some t ∧ 0 ≤ e.start ∧ e.start ≤ e.stop ∧ e.stop ≤ t.length
  /-- Each edit of a line ends where the next one starts or before. -/
  apart : ∀ i, (onLine edits i).IsChain fun a b => a.stop ≤ b.start

/-! ## The orders -/

theorem leftOf_iff {a b : Edit} :
    leftOf a b = true ↔ a.start < b.start ∨ a.start = b.start ∧ a.stop ≤ b.stop := by
  simp [leftOf]

theorem leftOf_trans (a b c : Edit) (hab : leftOf a b = true) (hbc : leftOf b c = true) :
    leftOf a c = true := by
  rw [leftOf_iff] at *
  omega

theorem leftOf_total (a b : Edit) : (leftOf a b || leftOf b a) = true := by
  rw [Bool.or_eq_true, leftOf_iff, leftOf_iff]
  omega

theorem tied_leftOf {a b : Edit} :
    Sorting.tied leftOf a b = true ↔ a.start = b.start ∧ a.stop = b.stop := by
  rw [Sorting.tied, Bool.and_eq_true, leftOf_iff, leftOf_iff]
  omega

theorem goesFirst_iff {a b : Edit} :
    goesFirst a b = true ↔ b.line < a.line ∨ a.line = b.line ∧ leftOf b a = true := by
  rw [leftOf_iff]
  simp only [goesFirst, Bool.or_eq_true, Bool.and_eq_true, decide_eq_true_eq, beq_iff_eq]
  omega

theorem goesFirst_trans (a b c : Edit) (hab : goesFirst a b = true) (hbc : goesFirst b c = true) :
    goesFirst a c = true := by
  rw [goesFirst_iff, leftOf_iff] at *
  omega

theorem goesFirst_total (a b : Edit) : (goesFirst a b || goesFirst b a) = true := by
  rw [Bool.or_eq_true, goesFirst_iff, goesFirst_iff, leftOf_iff, leftOf_iff]
  omega

theorem tied_goesFirst {a b : Edit} :
    Sorting.tied goesFirst a b = true ↔ a.line = b.line ∧ Sorting.tied leftOf a b = true := by
  rw [Sorting.tied, Bool.and_eq_true, goesFirst_iff, goesFirst_iff, tied_leftOf, leftOf_iff,
    leftOf_iff]
  omega

/-! ## The edits of one line -/

theorem mem_onLine {edits : List Edit} {i : Nat} {e : Edit} :
    e ∈ onLine edits i ↔ e ∈ edits ∧ e.isColumnEdit = true ∧ e.line = i := by
  simp only [onLine, List.mem_mergeSort, List.mem_filter, beq_iff_eq, and_assoc]

theorem onLine_sorted (edits : List Edit) (i : Nat) :
    (onLine edits i).Pairwise fun a b => leftOf a b = true :=
  List.pairwise_mergeSort leftOf_trans leftOf_total _

/-- Edits of the same columns keep their order. -/
theorem filter_onLine {p : Edit → Bool}
    (hp : ∀ a b, p a = true → p b = true → a.start = b.start ∧ a.stop = b.stop)
    (edits : List Edit) (i : Nat) :
    (onLine edits i).filter p =
      ((edits.filter isColumnEdit).filter fun e => e.line == (i : Int)).filter p := by
  refine Sorting.filter_mergeSort leftOf_trans leftOf_total (fun a b ha hb => ?_) _
  have := hp a b ha hb
  rw [leftOf_iff]
  omega

theorem filter_schedule (edits : List Edit) (a : Edit) :
    (schedule edits).filter (Sorting.tied goesFirst a) =
      (edits.filter isColumnEdit).reverse.filter (Sorting.tied goesFirst a) := by
  refine Sorting.filter_mergeSort goesFirst_trans goesFirst_total (fun b c hb hc => ?_) _
  rw [tied_goesFirst, tied_leftOf] at hb hc
  rw [goesFirst_iff, leftOf_iff]
  omega

/-- The edits of a line are carried out from right to left. -/
theorem schedule_onLine (edits : List Edit) (i : Nat) :
    (schedule edits).filter (fun e => e.line == (i : Int)) = (onLine edits i).reverse := by
  refine Sorting.eq_of_ties goesFirst_total ?_ ?_ ?_ fun a => ?_
  · exact (List.pairwise_mergeSort goesFirst_trans goesFirst_total _).filter _
  · rw [List.pairwise_reverse]
    refine (onLine_sorted edits i).imp_of_mem fun {a b} ha hb hab => ?_
    rw [goesFirst_iff, (mem_onLine.mp ha).2.2, (mem_onLine.mp hb).2.2]
    exact .inr ⟨rfl, hab⟩
  · have hschedule := (List.mergeSort_perm (edits.filter isColumnEdit).reverse goesFirst).filter
      fun e => e.line == (i : Int)
    refine hschedule.trans ?_
    rw [List.filter_reverse]
    exact (List.reverse_perm _).trans
      ((List.mergeSort_perm _ _).symm.trans (List.reverse_perm _).symm)
  · have hcolumns : ∀ b c, Sorting.tied goesFirst a b = true → Sorting.tied goesFirst a c = true →
        b.start = c.start ∧ b.stop = c.stop := by
      intro b c hb hc
      rw [tied_goesFirst, tied_leftOf] at hb hc
      omega
    rw [List.filter_comm, filter_schedule, List.filter_reverse, List.filter_reverse,
      List.filter_reverse, filter_onLine hcolumns, List.filter_comm]

/-! ## One line -/

theorem place_of_nonneg {i : Int} (h : 0 ≤ i) (length : Nat) : place length i = i.toNat := by
  rw [place, if_neg (by omega)]

theorem take_slice {t : Text} {column start : Nat} (h : column ≤ start) :
    t.take column ++ t.slice column start = t.take start := by
  have htake : t.take column = (t.take start).take column := by
    rw [List.take_take, Nat.min_eq_left h]
  rw [htake, Text.slice, List.take_append_drop]

/-- An edit in front of a column that changes nothing from there on. -/
theorem applyTo_front {e : Edit} {t behind : Text} (hstart : 0 ≤ e.start)
    (hle : e.start ≤ e.stop) (hstop : e.stop ≤ t.length) :
    e.applyTo (t.take e.stop.toNat ++ behind) = t.take e.start.toNat ++ (e.text ++ behind) := by
  have hlen : (t.take e.stop.toNat).length = e.stop.toNat := by
    rw [List.length_take]
    omega
  rw [applyTo, place_of_nonneg hstart, place_of_nonneg (by omega), List.append_assoc,
    List.take_append_of_le_length (by omega), List.take_take, Nat.min_eq_left (by omega),
    List.drop_left' hlen]

/-- From right to left, each edit finds its columns where they were. -/
theorem foldr_applyTo {t : Text} {edits : List Edit} {column : Nat} (hcolumn : column ≤ t.length)
    (hinside : ∀ e ∈ edits, 0 ≤ e.start ∧ e.start ≤ e.stop ∧ e.stop ≤ t.length)
    (hchain : edits.IsChain fun a b => a.stop ≤ b.start)
    (hfirst : ∀ e ∈ edits.head?, column ≤ e.start.toNat) :
    edits.foldr applyTo t = t.take column ++ fill t column edits := by
  induction edits generalizing column with
  | nil => rw [List.foldr_nil, fill, List.take_append_drop]
  | cons e rest ih =>
    obtain ⟨hstart, hle, hstop⟩ := hinside e List.mem_cons_self
    -- the edits further right have left everything in front of them as it was
    have hbehind : rest.foldr applyTo t = t.take e.stop.toNat ++ fill t e.stop.toNat rest := by
      refine ih (by omega) (fun x hx => hinside x (List.mem_cons_of_mem e hx)) hchain.tail ?_
      intro x hx
      have := hchain.rel_head? hx
      omega
    rw [List.foldr_cons, hbehind, applyTo_front hstart hle hstop, fill, ← List.append_assoc,
      ← List.append_assoc, take_slice (hfirst e (by simp)), List.append_assoc]

/-! ## All lines -/

theorem lineIndex?_ofNat {count i : Nat} (h : i < count) : lineIndex? count i = some i := by
  rw [lineIndex?, if_pos (by omega), place_of_nonneg (by omega), Int.toNat_natCast]

/-- Edits of lines that there are: each line gets its own. -/
theorem applyInOrder_eq {lines : List Text} {edits : List Edit}
    (h : ∀ e ∈ edits, ∃ i : Nat, e.line = i ∧ i < lines.length) :
    applyInOrder lines edits = .ok (lines.mapIdx fun i t =>
      (edits.filter fun e => e.line == (i : Int)).foldl (fun t e => e.applyTo t) t) := by
  induction edits generalizing lines with
  | nil =>
    refine congrArg Except.ok (List.ext_getElem? fun j => ?_)
    simp
  | cons e rest ih =>
    obtain ⟨i, hline, hi⟩ := h e List.mem_cons_self
    have hrest : ∀ x ∈ rest, ∃ j : Nat, x.line = j ∧ j < (lines.modify i e.applyTo).length := by
      intro x hx
      rw [List.length_modify]
      exact h x (List.mem_cons_of_mem e hx)
    have hone : applyOne lines e = .ok (lines.modify i e.applyTo) := by
      rw [applyOne, hline, lineIndex?_ofNat hi]
    rw [applyInOrder, hone]
    dsimp only
    rw [ih hrest]
    congr 1
    refine List.ext_getElem? fun j => ?_
    rw [List.getElem?_mapIdx, List.getElem?_mapIdx, List.getElem?_modify, List.filter_cons]
    by_cases hij : i = j
    · subst hij
      cases lines[i]? <;> simp [hline]
    · have hne : (e.line == (j : Int)) = false := by
        rw [hline, beq_eq_false_iff_ne]
        omega
      cases lines[j]? <;> simp [hij, hne]

theorem dropLines_eq (gone : List Int) (number : Nat) (lines : List Text) :
    dropLines gone number lines = (lines.zipIdx number).filterMap fun p =>
      if gone.contains (p.2 : Int) then none else some p.1 := by
  induction lines generalizing number with
  | nil => rfl
  | cons t rest ih =>
    rw [dropLines, List.zipIdx_cons, List.filterMap_cons]
    split <;> simp_all

theorem zipIdx_mapIdx (f : Nat → Text → Text) (lines : List Text) :
    (lines.mapIdx f).zipIdx = lines.zipIdx.map fun p => (f p.2 p.1, p.2) := by
  refine List.ext_getElem? fun i => ?_
  rw [List.getElem?_zipIdx, List.getElem?_mapIdx, List.getElem?_map, List.getElem?_zipIdx]
  cases lines[i]? <;> simp

theorem contains_dropped (edits : List Edit) (i : Nat) :
    (dropped edits).contains (i : Int) = drops edits i := by
  rw [Bool.eq_iff_iff]
  simp [dropped, drops, isColumnEdit, and_assoc]

theorem Fits.in_lines {lines : List Text} {edits : List Edit} (h : Fits lines edits) :
    ∀ e ∈ schedule edits, ∃ i : Nat, e.line = i ∧ i < lines.length := by
  intro e he
  simp only [schedule, List.mem_mergeSort, List.mem_reverse, List.mem_filter] at he
  obtain ⟨i, t, hline, hi, -⟩ := h.inside e he.1 he.2
  exact ⟨i, hline, (List.getElem?_eq_some_iff.mp hi).1⟩

/-- The edits of one line, carried out in the order of the schedule. -/
theorem Fits.foldl_schedule {lines : List Text} {edits : List Edit} (h : Fits lines edits)
    {i : Nat} {t : Text} (hi : lines[i]? = some t) :
    ((schedule edits).filter fun e => e.line == (i : Int)).foldl (fun t e => e.applyTo t) t =
      fill t 0 (onLine edits i) := by
  rw [schedule_onLine, List.foldl_reverse]
  have hinside : ∀ e ∈ onLine edits i, 0 ≤ e.start ∧ e.start ≤ e.stop ∧ e.stop ≤ t.length := by
    intro e he
    obtain ⟨hmem, hcolumn, hline⟩ := mem_onLine.mp he
    obtain ⟨j, s, hline', hj, hbounds⟩ := h.inside e hmem hcolumn
    have hij : i = j := by omega
    subst hij
    rw [hi] at hj
    cases hj
    exact hbounds
  have hfirst : ∀ e ∈ (onLine edits i).head?, 0 ≤ e.start.toNat := fun e _ => Nat.zero_le _
  have hfold := foldr_applyTo (Nat.zero_le _) hinside (h.apart i) hfirst
  rwa [List.take_zero, List.nil_append] at hfold

theorem Fits.applyAll_eq {lines : List Text} {edits : List Edit} (h : Fits lines edits) :
    applyAll lines edits = .ok (substituted lines edits) := by
  rw [applyAll, applyInOrder_eq h.in_lines]
  dsimp only
  rw [dropLines_eq, zipIdx_mapIdx, List.filterMap_map, substituted]
  refine congrArg Except.ok (List.filterMap_congr fun p hp => ?_)
  have hline : lines[p.2]? = some p.1 := List.mem_zipIdx_iff_getElem?.mp hp
  rw [Function.comp_apply, contains_dropped, h.foldl_schedule hline]

/-! ## The order of the edits -/

theorem insertsAt_iff {i column : Int} {e : Edit} :
    insertsAt i column e = true ↔
      e.isColumnEdit = true ∧ e.line = i ∧ e.start = column ∧ e.stop = column := by
  simp only [insertsAt, Bool.and_eq_true, beq_iff_eq, and_assoc]

/-- Texts that are put in at one column keep their order. -/
theorem filter_insertsAt (edits : List Edit) (i : Nat) (column : Int) :
    (onLine edits i).filter (insertsAt i column) = edits.filter (insertsAt i column) := by
  rw [filter_onLine, List.filter_filter, List.filter_filter]
  · refine List.filter_congr fun e _ => ?_
    rw [insertsAt]
    cases e.isColumnEdit <;> cases e.line == (i : Int) <;> simp
  · intro a b ha hb
    rw [insertsAt_iff] at ha hb
    omega

theorem pairwise_of_isChain {edits : List Edit} (hle : ∀ e ∈ edits, e.start ≤ e.stop)
    (hchain : edits.IsChain fun a b => a.stop ≤ b.start) :
    edits.Pairwise fun a b => a.stop ≤ b.start := by
  induction edits with
  | nil => exact .nil
  | cons e rest ih =>
    have hrest := ih (fun x hx => hle x (List.mem_cons_of_mem e hx)) hchain.tail
    refine List.pairwise_cons.mpr ⟨fun x hx => ?_, hrest⟩
    cases rest with
    | nil => simp at hx
    | cons y rest =>
      have hy := hchain.rel_head? (y := y) (by simp)
      have hle' := hle y (by simp)
      rcases List.mem_cons.mp hx with rfl | hx
      · exact hy
      · have := (List.pairwise_cons.mp hrest).1 x hx
        omega

theorem Fits.start_le_stop {lines : List Text} {edits : List Edit} (h : Fits lines edits)
    {i : Nat} {e : Edit} (he : e ∈ onLine edits i) : e.start ≤ e.stop := by
  obtain ⟨hmem, hcolumn, -⟩ := mem_onLine.mp he
  obtain ⟨-, -, -, -, -, hle, -⟩ := h.inside e hmem hcolumn
  exact hle

/-- No columns are taken out twice. -/
theorem Fits.length_tied_le {lines : List Text} {edits : List Edit} (h : Fits lines edits)
    (i : Nat) {a : Edit} (ha : a.start ≠ a.stop) :
    ((onLine edits i).filter (Sorting.tied leftOf a)).length ≤ 1 := by
  have hpairwise := (pairwise_of_isChain (fun e he => h.start_le_stop he) (h.apart i)).filter
    (Sorting.tied leftOf a)
  have htied : ∀ e ∈ (onLine edits i).filter (Sorting.tied leftOf a),
      a.start = e.start ∧ a.stop = e.stop ∧ e.start ≤ e.stop := by
    intro e he
    obtain ⟨hmem, hties⟩ := List.mem_filter.mp he
    obtain ⟨hstart, hstop⟩ := tied_leftOf.mp hties
    exact ⟨hstart, hstop, h.start_le_stop hmem⟩
  generalize (onLine edits i).filter (Sorting.tied leftOf a) = tied at hpairwise htied
  match tied with
  | [] => simp
  | [_] => simp
  | x :: y :: rest =>
    have hxy := (List.pairwise_cons.mp hpairwise).1 y (by simp)
    have hx := htied x (by simp)
    have hy := htied y (by simp)
    omega

theorem onLine_perm_of_perm {edits other : List Edit} (hperm : edits.Perm other) (i : Nat) :
    (onLine other i).Perm (onLine edits i) :=
  (List.mergeSort_perm _ _).trans
    (((hperm.symm.filter _).filter _).trans (List.mergeSort_perm _ _).symm)

theorem filter_tied_of_insert (edits : List Edit) (i : Nat) {a : Edit} (ha : a.start = a.stop) :
    (onLine edits i).filter (Sorting.tied leftOf a) = edits.filter (insertsAt i a.start) := by
  rw [← filter_insertsAt]
  refine List.filter_congr fun e he => ?_
  obtain ⟨-, hcolumn, hline⟩ := mem_onLine.mp he
  rw [Bool.eq_iff_iff, tied_leftOf, insertsAt_iff]
  constructor
  · rintro ⟨hstart, hstop⟩
    exact ⟨hcolumn, hline, hstart.symm, by omega⟩
  · rintro ⟨-, -, hstart, hstop⟩
    exact ⟨hstart.symm, by omega⟩

/-- Edits that fit are put in one order, however they come, but for those
that are put in at one column. -/
theorem Fits.onLine_eq {lines : List Text} {edits other : List Edit} (h : Fits lines edits)
    (hperm : edits.Perm other) (hinsert : ∀ i column,
      other.filter (insertsAt i column) = edits.filter (insertsAt i column)) (i : Nat) :
    onLine other i = onLine edits i := by
  refine Sorting.eq_of_ties leftOf_total (onLine_sorted _ _) (onLine_sorted _ _)
    (onLine_perm_of_perm hperm i) fun a => ?_
  -- edits of the same columns: texts put in, whose order is given, or just one edit
  by_cases ha : a.start = a.stop
  · rw [filter_tied_of_insert _ _ ha, filter_tied_of_insert _ _ ha, hinsert]
  · have hlen := h.length_tied_le i ha
    have hties := (onLine_perm_of_perm hperm i).filter (Sorting.tied leftOf a)
    generalize (onLine edits i).filter (Sorting.tied leftOf a) = tied at hlen hties
    match tied with
    | [] => exact hties.eq_nil
    | [x] => exact List.perm_singleton.mp hties
    | x :: y :: rest => simp at hlen

theorem Fits.substituted_eq {lines : List Text} {edits other : List Edit} (h : Fits lines edits)
    (hperm : edits.Perm other) (hinsert : ∀ i column,
      other.filter (insertsAt i column) = edits.filter (insertsAt i column)) :
    Fits lines other ∧ substituted lines other = substituted lines edits := by
  have honLine := h.onLine_eq hperm hinsert
  refine ⟨⟨fun e he => h.inside e (hperm.symm.subset he), fun i => ?_⟩, ?_⟩
  · rw [honLine]
    exact h.apart i
  · refine List.filterMap_congr fun p _ => ?_
    rw [honLine, drops, drops, hperm.any_eq]

/-- **Edits are carried out as if all at once**, the texts that are put in
at one column in the order in which they come. -/
theorem applyAll_substitutes {lines : List Text} {edits : List Edit} (h : Fits lines edits) :
    applyAll lines edits = .ok (substituted lines edits) ∧
    (∀ (i : Nat) t, (∀ e ∈ edits, e.isColumnEdit = true → e.line ≠ i) →
      fill t 0 (onLine edits i) = t) ∧
    (∀ (i : Nat) column, (onLine edits i).filter (insertsAt i column) =
      edits.filter (insertsAt i column)) ∧
    ∀ other, edits.Perm other →
      (∀ i column, other.filter (insertsAt i column) = edits.filter (insertsAt i column)) →
        applyAll lines other = applyAll lines edits := by
  refine ⟨h.applyAll_eq, fun i t hnone => ?_, fun i column => filter_insertsAt edits i column, ?_⟩
  · have hnil : onLine edits i = [] := by
      refine List.eq_nil_iff_forall_not_mem.mpr fun e he => ?_
      obtain ⟨hmem, hcolumn, hline⟩ := mem_onLine.mp he
      exact hnone e hmem hcolumn hline
    rw [hnil, fill, List.drop_zero]
  · intro other hperm hinsert
    obtain ⟨hfits, heq⟩ := h.substituted_eq hperm hinsert
    rw [h.applyAll_eq, hfits.applyAll_eq, heq]

/-- A text in front of a replacement, two texts behind it, and a line that
goes. -/
theorem applyAll_substitutes_touching :
    Fits ["(A) b".toList, "c".toList]
      [⟨0, .setPriority, 0, 3, "(B)".toList, .none⟩, ⟨0, .hide, 5, 5, "1".toList, .none⟩,
       ⟨0, .insertMarker, 0, 0, "x ".toList, .none⟩, ⟨1, .deleteLine, 0, 0, [], .none⟩,
       ⟨0, .setDue, 5, 5, "2".toList, .none⟩] ∧
    applyAll ["(A) b".toList, "c".toList]
      [⟨0, .setPriority, 0, 3, "(B)".toList, .none⟩, ⟨0, .hide, 5, 5, "1".toList, .none⟩,
       ⟨0, .insertMarker, 0, 0, "x ".toList, .none⟩, ⟨1, .deleteLine, 0, 0, [], .none⟩,
       ⟨0, .setDue, 5, 5, "2".toList, .none⟩] = .ok ["x (B) b12".toList] := by
  have hfits : Fits ["(A) b".toList, "c".toList]
      [⟨0, .setPriority, 0, 3, "(B)".toList, .none⟩, ⟨0, .hide, 5, 5, "1".toList, .none⟩,
       ⟨0, .insertMarker, 0, 0, "x ".toList, .none⟩, ⟨1, .deleteLine, 0, 0, [], .none⟩,
       ⟨0, .setDue, 5, 5, "2".toList, .none⟩] := by
    constructor
    case inside =>
      intro e he hcolumn
      simp only [List.mem_cons, List.not_mem_nil, or_false] at he
      rcases he with rfl | rfl | rfl | rfl | rfl
      case inr.inr.inr.inl => exact absurd hcolumn (by decide)
      all_goals exact ⟨0, "(A) b".toList, rfl, rfl, by decide⟩
    case apart =>
      intro i
      cases i with
      | zero => simp [onLine, isColumnEdit, List.mergeSort, leftOf]
      | succ i =>
        have hother : ¬ (0 : Int) = i + 1 := by omega
        simp [onLine, isColumnEdit, hother]
  refine ⟨hfits, (applyAll_substitutes hfits).1.trans ?_⟩
  simp [substituted, drops, onLine, isColumnEdit, List.mergeSort, leftOf, fill, Text.slice]

end TaskList.Edit
