/-
TaskList.Proofs.Command.Terminal — what comes of showing things on a terminal.

* `Terminal.Shows` — there is nothing wrong with something to be shown.
* `Terminal.ShowsStyles` — the one thing that is assumed of a terminal anywhere: a line
  whose only brackets are those of one style is shown. Nothing is assumed of a line with
  other brackets, and such a line is not always shown: `Terminal.strict` shows none that
  closes a style where none is open.
* `Terminal.upToFault_of_shows`, `Terminal.exists_fault` — of some displays either all are
  shown, or there is one at which a command ends.
-/
import TaskList.Command.Render
import TaskList.Proofs.Text.Showable

namespace TaskList

namespace Terminal

variable {terminal : Terminal} {displays : List Display}

/-- There is nothing wrong with something to be shown. -/
def Shows (terminal : Terminal) (display : Display) : Prop := terminal.fault? display = none

/-- A line is shown whose only brackets are those of the marks around a text in a
style. -/
def ShowsStyles (terminal : Terminal) : Prop :=
  ∀ style ∈ Style.names, ∀ t u : Text, t.IsShowable → u.IsShowable →
    terminal.Shows (.line (styled style t ++ u))

/-! ## Displays one after the other -/

theorem upToFault_of_shows (h : ∀ display ∈ displays, terminal.Shows display) :
    terminal.upToFault displays = (displays, none) := by
  induction displays with
  | nil => rfl
  | cons display rest ih =>
    have hfirst : terminal.fault? display = none := h display List.mem_cons_self
    rw [upToFault, hfirst, ih fun other hother => h other (List.mem_cons_of_mem display hother)]

theorem exists_fault (h : ∃ display ∈ displays, ¬ terminal.Shows display) :
    ∃ shown fault, terminal.upToFault displays = (shown, some fault) := by
  induction displays with
  | nil => simp at h
  | cons display rest ih =>
    rw [upToFault]
    cases hfirst : terminal.fault? display with
    | some fault => exact ⟨[], fault, rfl⟩
    | none =>
      -- the first display is shown, so it is a later one that is not
      obtain ⟨other, hother, hnot⟩ := h
      have hlater : other ∈ rest := by
        rcases List.mem_cons.mp hother with rfl | hlater
        · exact absurd hfirst hnot
        · exact hlater
      obtain ⟨shown, fault, hrest⟩ := ih ⟨other, hlater, hnot⟩
      exact ⟨display :: shown, fault, by rw [hrest]⟩

/-! ## A terminal that counts brackets -/

/-- Does a text close a style where none is open? So many are `opened` in front of it. -/
def closesNothing (opened : Nat) : Text → Bool
  | [] => false
  | c :: rest =>
    if c == '[' then
      if rest.head? == some '/' then opened == 0 || closesNothing (opened - 1) rest
      else closesNothing (opened + 1) rest
    else closesNothing opened rest

/-- A terminal that shows no line that closes a style where none is open. -/
def strict : Terminal where
  fault?
    | .line t => if closesNothing 0 t then some ⟨"There is no style to close."⟩ else none
    | .tree _ | .table .. => none

theorem closesNothing_append {t : Text} (h : '[' ∉ t) (opened : Nat) (u : Text) :
    closesNothing opened (t ++ u) = closesNothing opened u := by
  induction t with
  | nil => rfl
  | cons c rest ih =>
    obtain ⟨hc, hrest⟩ := List.ne_and_not_mem_of_not_mem_cons h
    rw [List.cons_append, closesNothing, if_neg (by simpa using hc.symm), ih hrest]

theorem closesNothing_of_not_mem {t : Text} (h : '[' ∉ t) (opened : Nat) :
    closesNothing opened t = false := by
  rw [← List.append_nil t, closesNothing_append h, closesNothing]

theorem closesNothing_open {rest : Text} (h : rest.head? ≠ some '/') (opened : Nat) :
    closesNothing opened ('[' :: rest) = closesNothing (opened + 1) rest := by
  rw [closesNothing, if_pos (by decide), if_neg (by simpa using h)]

theorem closesNothing_close (opened : Nat) (rest : Text) :
    closesNothing (opened + 1) ('[' :: '/' :: rest) = closesNothing opened ('/' :: rest) := by
  rw [closesNothing]
  simp

/-- **A strict terminal shows** what any terminal is assumed to show. -/
theorem showsStyles_strict : strict.ShowsStyles := by
  intro style hstyle t u ht hu
  have hname : style.toList.head?.any (· != '/') = true ∧ '[' ∉ style.toList := by
    revert style
    decide
  obtain ⟨hhead, hname⟩ := hname
  have hnone : closesNothing 0 (styled style t ++ u) = false := calc
    _ = closesNothing 0 ('[' :: ((style.toList ++ ']' :: t) ++
          '[' :: '/' :: (style.toList ++ ']' :: u))) := by simp [styled]
    _ = closesNothing 1 ((style.toList ++ ']' :: t) ++
          '[' :: '/' :: (style.toList ++ ']' :: u)) :=
        closesNothing_open (by cases hchars : style.toList <;> simp_all) 0
    _ = closesNothing 1 ('[' :: '/' :: (style.toList ++ ']' :: u)) :=
        closesNothing_append (by simp [hname, ht.not_mem]) 1 _
    _ = closesNothing 0 ('/' :: (style.toList ++ ']' :: u)) := closesNothing_close 0 _
    _ = false := closesNothing_of_not_mem (by simp [hname, hu.not_mem]) 0
  show (if closesNothing 0 (styled style t ++ u) then _ else none) = none
  rw [hnone, if_neg Bool.false_ne_true]

end Terminal

end TaskList
