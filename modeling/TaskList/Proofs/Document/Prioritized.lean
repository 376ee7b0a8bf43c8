/-
TaskList.Proofs.Document.Prioritized — a priority that is raised and lowered.

* `Direction.walk` — one step of a walk from A to Z that stays where the letters end. A
  task without a letter stands at Z, but gets one only when it is raised.
* `Task.stepped` — the task after a step. `Task.foldr_changePriority` — the edit of the
  line, if there is one, makes the line of that task.
* `Document.prioritize` — the line of a task is read, and the edit of a step is carried
  out in the document. `Document.prioritizeAll` — the same again and again.
* `Task.Walked` — what the task of such a line has in common with the one before.
* `Document.prioritizeAll_walks` — what the steps make of the line is read as the task
  of a walk.
-/
import TaskList.Document
import TaskList.Proofs.Action.Own
import TaskList.Proofs.Line.OnDay
import TaskList.Proofs.Line.Prioritized

namespace TaskList

/-! ## The walk -/

/-- The letter at a place, A being at zero. -/
def letterAt (place : Nat) : Char := Char.ofNat ('A'.toNat + place)

/-- A step of a walk from A to Z. Without a letter it starts at Z, and down from there
is nowhere to go. -/
def Direction.walk : Direction → Option Nat → Option Nat
  | .raise, place => some (place.getD 25 - 1)
  | .lower, place => place.map fun n => min (n + 1) 25

/-- The place of the letter of the task's priority. -/
def Task.place? (task : Task) : Option Nat := task.letter?.map fun c => c.toNat - 'A'.toNat

/-- The letters are those from A to Z. -/
theorem exists_place_of_letter {c : Char} (hA : 'A' ≤ c) (hZ : c ≤ 'Z') :
    ∃ n < 26, c = letterAt n := by
  rw [Char.le_def, UInt32.le_iff_toNat_le] at hA hZ
  have hA : 65 ≤ c.toNat := hA
  have hZ : c.toNat ≤ 90 := hZ
  refine ⟨c.toNat - 65, by omega, ?_⟩
  have hsum : 'A'.toNat + (c.toNat - 65) = c.toNat := Nat.add_sub_of_le hA
  rw [letterAt, hsum, Char.ofNat_toNat]

theorem letterAt_place {n : Nat} (h : n < 26) :
    (letterAt n).toNat - 'A'.toNat = n ∧ 'A' ≤ letterAt n ∧ letterAt n ≤ 'Z' := by
  have hall : ∀ m : Fin 26, (letterAt m).toNat - 'A'.toNat = m ∧ 'A' ≤ letterAt m ∧
      letterAt m ≤ 'Z' := by decide
  exact hall ⟨n, h⟩

theorem next?_letterAt {n : Nat} (h : n < 26) :
    Direction.raise.next? (letterAt n) = (if n = 0 then none else some (letterAt (n - 1))) ∧
      Direction.lower.next? (letterAt n) =
        if n = 25 then none else some (letterAt (n + 1)) := by
  have hall : ∀ m : Fin 26,
      Direction.raise.next? (letterAt m) = (if m.val = 0 then none else some (letterAt (m - 1))) ∧
        Direction.lower.next? (letterAt m) =
          if m.val = 25 then none else some (letterAt (m + 1)) := by decide
  exact hall ⟨n, h⟩

namespace Direction

/-- A step comes to a letter, or nowhere where the walk stays. -/
theorem next?_cases (direction : Direction) {place : Option Nat} (h : ∀ n ∈ place, n < 26) :
    direction.next? ((place.map letterAt).getD 'Z') = none ∧ direction.walk place = place ∨
      ∃ n < 26, direction.next? ((place.map letterAt).getD 'Z') = some (letterAt n) ∧
        direction.walk place = some n ∧ place ≠ some n := by
  cases place with
  | none =>
    cases direction with
    | raise => exact .inr ⟨24, by decide, by decide, rfl, nofun⟩
    | lower => exact .inl ⟨by decide, rfl⟩
  | some n =>
    have hn := h n rfl
    obtain ⟨hraise, hlower⟩ := next?_letterAt hn
    rw [Option.map_some, Option.getD_some]
    cases direction with
    | raise =>
      rw [hraise, walk, Option.getD_some]
      by_cases hzero : n = 0
      · exact .inl ⟨if_pos hzero, by rw [hzero]⟩
      · exact .inr ⟨n - 1, by omega, if_neg hzero, rfl, by simp; omega⟩
    | lower =>
      rw [hlower, walk, Option.map_some]
      by_cases hlast : n = 25
      · exact .inl ⟨if_pos hlast, by rw [hlast]; rfl⟩
      · exact .inr ⟨n + 1, by omega, if_neg hlast, by simp; omega, by simp⟩

end Direction

namespace Task

/-- The task after a step. -/
def stepped (task : Task) (direction : Direction) : Task :=
  match direction.next? (task.letter?.getD 'Z') with
  | none => task
  | some letter => task.withLetter letter

/-- The priority of a task is a letter from A to Z, if it has one. -/
def HasPlace (task : Task) : Prop :=
  task.letter? = task.place?.map letterAt ∧ ∀ n ∈ task.place?, n < 26

section Steps

variable {settings : Settings} {unit : Option IndentUnit} {target : Day} {number : Int}
  {raw : Text} {task : Task} {direction : Direction}

theorem hasPlace_of_read (h : Line.read settings unit target number raw = .ok task) :
    task.HasPlace := by
  have hpriority : task.priority = _ := congrArg priority (Line.read_eq_ok h).2
  rw [HasPlace, place?, letter?, hpriority]
  obtain ⟨hnone, -⟩ | ⟨letter, hsome, -, hA, hZ⟩ :=
    Line.head_priority settings (Line.indentUnit settings unit) raw
  · rw [hnone]
    exact ⟨rfl, nofun⟩
  · obtain ⟨n, hn, rfl⟩ := exists_place_of_letter hA hZ
    have hplace := (letterAt_place hn).1
    rw [hsome]
    simp only [Option.map_some, hplace]
    exact ⟨trivial, fun m hm => Option.some.inj hm ▸ hn⟩

theorem letter?_withLetter (task : Task) (letter : Char) :
    (task.withLetter letter).letter? = some letter := by
  rw [withLetter]
  split <;> rfl

/-- A step of a task is a step of the walk. -/
theorem place?_stepped (h : task.HasPlace) :
    (task.stepped direction).place? = direction.walk task.place? := by
  obtain ⟨hletter, hplace⟩ := h
  rw [stepped, hletter]
  obtain ⟨hnone, hstay⟩ | ⟨n, hn, hsome, hwalk, -⟩ := direction.next?_cases hplace
  · rw [hnone, hstay]
  · rw [hsome, hwalk]
    simp only [place?, letter?_withLetter, Option.map_some, (letterAt_place hn).1]

/-- There is nothing to edit where the walk stays, and only there. -/
theorem changePriority_eq_nil_iff (h : task.HasPlace) :
    task.changePriority direction = [] ↔ direction.walk task.place? = task.place? := by
  obtain ⟨hletter, hplace⟩ := h
  rw [changePriority, hletter]
  obtain ⟨hnone, hstay⟩ | ⟨n, hn, hsome, hwalk, hne⟩ := direction.next?_cases hplace
  · rw [hnone]
    exact iff_of_true rfl hstay
  · rw [hsome, hwalk]
    refine iff_of_false ?_ (Ne.symm hne)
    cases task.priority <;> exact List.cons_ne_nil _ _

/-- **The edit of a step makes the line of the task after it.** -/
theorem foldr_changePriority (task : Task) (direction : Direction) :
    ((task.changePriority direction).mergeSort Edit.leftOf).foldr Edit.applyTo task.raw =
      (task.stepped direction).raw := by
  rw [changePriority, stepped]
  cases direction.next? (task.letter?.getD 'Z') with
  | none => simp
  | some letter =>
    dsimp only
    rw [withLetter]
    cases hpriority : task.priority with
    | some p =>
      rw [List.mergeSort_singleton]
      exact Edit.applyTo_span task.line p.span task.raw _ _ _
    | none =>
      rw [List.mergeSort_singleton]
      exact Edit.applyTo_span task.line ⟨_, _⟩ task.raw _ _ _

/-- A line after a step is read as the task after it. -/
theorem read_stepped (hmark : settings.doneMark = "x ".toList)
    (h : Line.read settings unit target number raw = .ok task) (direction : Direction) :
    Line.read settings unit target number (task.stepped direction).raw =
      .ok (task.stepped direction) := by
  obtain ⟨hletter, hplace⟩ := hasPlace_of_read h
  rw [stepped, hletter]
  obtain ⟨hnone, -⟩ | ⟨n, hn, hsome, -⟩ := direction.next?_cases hplace
  · rw [hnone]
    exact (Line.raw_of_read h).symm ▸ h
  · rw [hsome]
    exact Line.read_withLetter hmark h (letterAt_place hn).2.1 (letterAt_place hn).2.2

end Steps

/-! ## What a walk leaves as it was -/

/-- The task with other text and another priority, and with its fields further right. -/
def Shifted (before after : Task) : Prop :=
  ∃ columns, after = { before with
    raw := after.raw
    priority := after.priority
    fields := before.fields.map (Located.moved columns) }

namespace Shifted

variable {before after : Task}

theorem moved_zero (found : List (Located Field)) : found.map (Located.moved 0) = found := by
  rw [List.map_congr_left fun x _ => Located.moved_zero x]
  exact List.map_id' found

theorem refl (task : Task) : task.Shifted task := ⟨0, by rw [moved_zero]⟩

theorem trans {first second third : Task} (h : first.Shifted second)
    (h' : second.Shifted third) : first.Shifted third := by
  obtain ⟨m, hm⟩ := h
  obtain ⟨n, hn⟩ := h'
  refine ⟨n + m, ?_⟩
  rw [hn, hm]
  simp only [List.map_map, Function.comp_def, Located.moved_moved]

theorem withLetter (task : Task) (letter : Char) : task.Shifted (task.withLetter letter) := by
  rw [Task.withLetter]
  split
  · exact ⟨0, by rw [moved_zero]⟩
  · exact ⟨4, rfl⟩

/-- An accessor that does not look at columns finds what it found. -/
theorem found_eq (h : before.Shifted after) {α : Type} {kind : Field → Option α}
    (hkind : ∀ columns field, kind (Field.moved columns field) = kind field) :
    (after.find? kind).map (·.value) = (before.find? kind).map (·.value) := by
  obtain ⟨columns, h⟩ := h
  rw [h, map_find?, map_find?]
  simp only [List.map_map, Function.comp_def, Located.moved, List.findSome?_map, hkind]

theorem isDone_eq (h : before.Shifted after) : after.isDone = before.isDone := by
  have hcompletion : after.completion?.map (·.value) = before.completion?.map (·.value) :=
    h.found_eq fun columns field => by cases field <;> rfl
  obtain ⟨columns, hsame⟩ := h
  exact isDone_congr (by rw [hsame]) hcompletion

theorem names_eq (h : before.Shifted after) (group : Group) :
    after.names group = before.names group := by
  have hlasting : after.lasting = before.lasting ++ (none : Option Field).toList := by
    obtain ⟨columns, hsame⟩ := h
    rw [hsame, lasting, lasting, List.map_map]
    simp [Located.moved]
  exact names_append hlasting (fun field hfield => absurd hfield (Option.not_mem_none field)) group

end Shifted

/-- The task of a line before and after its priority was raised and lowered. -/
structure Walked (directions : List Direction) (before after : Task) : Prop where
  /-- The priority is a letter from A to Z, if there is one, -/
  hasPlace : before.HasPlace
  /-- and the letter is where the walk comes to. -/
  letter_eq : after.letter? =
    (directions.foldl (fun place direction => direction.walk place) before.place?).map letterAt
  /-- Without a letter there is none until the first step up. -/
  absent_iff : after.letter? = none ↔ before.letter? = none ∧ .raise ∉ directions
  /-- There is nothing to edit where the walk stays, and only there. -/
  nil_iff : ∀ direction : Direction,
    after.changePriority direction = [] ↔ direction.walk after.place? = after.place?
  /-- All else is what it was, but for the columns of the fields. -/
  same : before.Shifted after
  /-- So the task is done if it was, -/
  isDone_eq : after.isDone = before.isDone
  /-- it belongs to the groups that it belonged to, -/
  names_eq : ∀ group, after.names group = before.names group
  /-- and each of its tags says what it said. -/
  found_eq : ∀ (α : Type) (kind : Field → Option α),
    (∀ columns field, kind (Field.moved columns field) = kind field) →
      (after.find? kind).map (·.value) = (before.find? kind).map (·.value)

/-- Without a place the walk has none until the first step up. -/
theorem foldl_walk_eq_none_iff (directions : List Direction) (place : Option Nat) :
    directions.foldl (fun place direction => direction.walk place) place = none ↔
      place = none ∧ .raise ∉ directions := by
  induction directions generalizing place with
  | nil => simp
  | cons direction rest ih =>
    rw [List.foldl_cons, ih]
    cases direction <;> simp [Direction.walk]

section Walk

variable {settings : Settings} {unit : Option IndentUnit} {target : Day} {number : Int}
  {raw : Text} {task : Task}

theorem Shifted.stepped (task : Task) (direction : Direction) :
    task.Shifted (task.stepped direction) := by
  rw [Task.stepped]
  split
  · exact .refl task
  · exact .withLetter task _

/-- Step by step the line is read, and its priority takes the walk. -/
theorem foldl_stepped (hmark : settings.doneMark = "x ".toList)
    (h : Line.read settings unit target number raw = .ok task) (directions : List Direction) :
    Line.read settings unit target number (directions.foldl stepped task).raw =
        .ok (directions.foldl stepped task) ∧
      (directions.foldl stepped task).place? =
        directions.foldl (fun place direction => direction.walk place) task.place? ∧
      task.Shifted (directions.foldl stepped task) := by
  induction directions generalizing raw task with
  | nil => exact ⟨(Line.raw_of_read h).symm ▸ h, rfl, .refl task⟩
  | cons direction rest ih =>
    obtain ⟨hread, hplace, hshifted⟩ := ih (read_stepped hmark h direction)
    rw [place?_stepped (hasPlace_of_read h)] at hplace
    exact ⟨hread, hplace, (Shifted.stepped task direction).trans hshifted⟩

/-- **A priority that is raised and lowered takes the walk**, and nothing else of the task
changes. -/
theorem walked_foldl (hmark : settings.doneMark = "x ".toList)
    (h : Line.read settings unit target number raw = .ok task) (directions : List Direction) :
    task.Walked directions (directions.foldl stepped task) := by
  obtain ⟨hread, hplace, hshifted⟩ := foldl_stepped hmark h directions
  have hafter := hasPlace_of_read hread
  have hbefore := hasPlace_of_read h
  constructor
  case hasPlace => exact hbefore
  case letter_eq => rw [hafter.1, hplace]
  case absent_iff =>
    rw [hafter.1, hplace, Option.map_eq_none_iff, foldl_walk_eq_none_iff, hbefore.1,
      Option.map_eq_none_iff]
  case nil_iff => exact fun direction => changePriority_eq_nil_iff hafter
  case same => exact hshifted
  case isDone_eq => exact hshifted.isDone_eq
  case names_eq => exact hshifted.names_eq
  case found_eq => exact fun α kind hkind => hshifted.found_eq hkind

end Walk

end Task

namespace Document

/-- The lines of a document after the priority of the task of one line, which is read for
a day, is changed; none if there is no such line, or it cannot be read. -/
def prioritize (settings : Settings) (unit : Option IndentUnit) (i : Nat) (lines : List Text)
    (day : Day) (direction : Direction) : Option (List Text) :=
  match lines[i]? with
  | none => none
  | some raw =>
    match Line.read settings unit day i raw with
    | .error _ => none
    | .ok task => (Edit.applyAll lines (task.changePriority direction)).toOption

/-- The lines of a document after such changes, each with the day that the line is read
for. -/
def prioritizeAll (settings : Settings) (unit : Option IndentUnit) (i : Nat) :
    List (Day × Direction) → List Text → Option (List Text)
  | [], lines => some lines
  | (day, direction) :: rest, lines =>
    (prioritize settings unit i lines day direction).bind (prioritizeAll settings unit i rest)

section Steps

variable {settings : Settings} {unit : Option IndentUnit} {target : Day} {lines : List Text}
  {i : Nat} {raw : Text} {task : Task}

/-- A change makes the line of the task after it, whatever day the line is read for. -/
theorem prioritize_stepped (hread : Line.read settings unit target i raw = .ok task)
    (hline : lines[i]? = some raw) (day : Day) (direction : Direction) :
    prioritize settings unit i lines day direction =
      some (lines.set i (task.stepped direction).raw) := by
  have happly := Deed.applyAll_edits hread hline (.changePriority direction)
  have hfold := task.foldr_changePriority direction
  rw [Line.raw_of_read hread] at hfold
  rw [Deed.edits, hfold] at happly
  rw [prioritize, hline]
  dsimp only
  rw [Line.read_onDay hread day]
  -- the edit does not look at fields
  exact congrArg Except.toOption happly

theorem prioritizeAll_stepped (hmark : settings.doneMark = "x ".toList)
    (hread : Line.read settings unit target i raw = .ok task) (hline : lines[i]? = some raw)
    (steps : List (Day × Direction)) :
    prioritizeAll settings unit i steps lines =
      some (lines.set i ((steps.map (·.2)).foldl Task.stepped task).raw) := by
  induction steps generalizing lines raw task with
  | nil =>
    obtain ⟨hlt, hraw⟩ := List.getElem?_eq_some_iff.mp hline
    rw [prioritizeAll, List.map_nil, List.foldl_nil, Line.raw_of_read hread, ← hraw,
      List.set_getElem_self hlt]
  | cons step rest ih =>
    obtain ⟨day, direction⟩ := step
    have hlt := (List.getElem?_eq_some_iff.mp hline).1
    rw [prioritizeAll, prioritize_stepped hread hline, Option.bind_some,
      ih (Task.read_stepped hmark hread direction) (List.getElem?_set_self hlt), List.set_set]
    rfl

/-- **Raising and lowering a priority is a walk from A to Z.** Whatever else is in the
document, a task is given the next letter in its line any number of times, the line being
read again for any day each time, and no other line changes. Afterwards the line is read,
for any day, as a task with the letter that the walk comes to, and all else about it is
as it was. -/
theorem prioritizeAll_walks (hmark : settings.doneMark = "x ".toList)
    (hread : Line.read settings unit target i raw = .ok task) (hline : lines[i]? = some raw)
    (steps : List (Day × Direction)) :
    ∃ text, prioritizeAll settings unit i steps lines = some (lines.set i text) ∧
      ∀ day, ∃ before after, Line.read settings unit day i raw = .ok before ∧
        Line.read settings unit day i text = .ok after ∧
        before.Walked (steps.map (·.2)) after := by
  refine ⟨_, prioritizeAll_stepped hmark hread hline steps, fun day => ?_⟩
  have hday := Line.read_onDay hread day
  have hsame : ((steps.map (·.2)).foldl Task.stepped task).raw =
      ((steps.map (·.2)).foldl Task.stepped (task.onDay day)).raw := by
    have hset := (prioritizeAll_stepped hmark hread hline steps).symm.trans
      (prioritizeAll_stepped hmark hday hline steps)
    have hbound := (List.getElem?_eq_some_iff.mp hline).1
    have hget := congrArg (·[i]?) (Option.some.inj hset)
    simpa [hbound] using hget
  rw [hsame]
  exact ⟨_, _, hday, (Task.foldl_stepped hmark hday _).1, Task.walked_foldl hmark hday _⟩

end Steps

/-- A done task without a priority, with a mention right behind its mark and a letter
between brackets further on: it cannot be lowered, it is raised to Y, and lowered to Z,
where it stays. -/
theorem prioritizeAll_walks_inserted :
    ∃ task text, Line.read {} none ⟨736695, by decide, by decide⟩ (1 : Nat)
        "\tx #a (B) \x7bcount:1/2\x7d".toList = .ok task ∧
      task.place? = none ∧
      prioritizeAll {} none 1
        [(⟨736695, by decide, by decide⟩, .lower), (⟨736695, by decide, by decide⟩, .raise),
          (⟨736696, by decide, by decide⟩, .lower), (⟨736697, by decide, by decide⟩, .lower)]
        ["# note".toList, "\tx #a (B) \x7bcount:1/2\x7d".toList] =
          some ["# note".toList, text] ∧
      ∀ day, ∃ before after,
        Line.read {} none day (1 : Nat) "\tx #a (B) \x7bcount:1/2\x7d".toList = .ok before ∧
        Line.read {} none day (1 : Nat) text = .ok after ∧
        before.Walked [.lower, .raise, .lower, .lower] after := by
  have hfacts : (Line.read {} none ⟨736695, by decide, by decide⟩ (1 : Nat)
      "\tx #a (B) \x7bcount:1/2\x7d".toList).toOption.map Task.place? = some none := by
    decide +kernel
  generalize hread : Line.read _ _ _ _ _ = result at hfacts ⊢
  cases result with
  | error e => simp [Except.toOption] at hfacts
  | ok task =>
    obtain ⟨text, hsteps, hwalked⟩ := prioritizeAll_walks (by decide) hread
      (show ["# note".toList, "\tx #a (B) \x7bcount:1/2\x7d".toList][1]? = some _ from rfl)
      [(⟨736695, by decide, by decide⟩, .lower), (⟨736695, by decide, by decide⟩, .raise),
        (⟨736696, by decide, by decide⟩, .lower), (⟨736697, by decide, by decide⟩, .lower)]
    exact ⟨task, text, rfl, Option.some.inj hfacts, hsteps, hwalked⟩

end Document

end TaskList
