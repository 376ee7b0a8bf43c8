/-
TaskList.Due.Expression — a due expression: alternatives between commas.

* `Alternative` — one alternative, as it is written, and its rule if it has
  one.
* `Expression` — the alternatives in order; those of white space only are
  left out. `Expression.read` fails only on an interval with too many
  digits.
* `Expression.stateOn` — the combined state on a day.
* `Expression.nextDue` — the first due day after a day, within ten years;
  `Expression.lastMissed` — the last day before a day, and not before
  another, on which something was due or overdue.
* `missedBetween` — the same for the text of an expression and two instants,
  with all that can go wrong on the way.
-/
import TaskList.Due.Rule

namespace TaskList.Due

/-- One alternative of a due expression. -/
structure Alternative where
  /-- The alternative as it is written. -/
  text : Text
  /-- Its rule; none if the text is no rule. -/
  rule? : Option Rule
  deriving DecidableEq, Repr

namespace Alternative

/-- The alternative that a text stands for. -/
def read (text : Text) : Except Numeral.TooLong Alternative :=
  match Rule.read text with
  | .error e => .error e
  | .ok rule? => .ok ⟨text, rule?⟩

/-- Is the text a rule? -/
def isValid (a : Alternative) : Bool := a.rule?.isSome

/-- Does the alternative come round again? -/
def isRecurring (a : Alternative) : Bool := a.rule?.any Rule.isRecurring

/-- Is the alternative a range of dates? -/
def isRange (a : Alternative) : Bool := a.rule?.any Rule.isRange

/-- The state on a day. -/
def stateOn (a : Alternative) (day : Day) : State :=
  match a.rule? with
  | some rule => rule.state day
  | none => .invalid

end Alternative

/-- A due expression. -/
structure Expression where
  /-- The expression as it is written. -/
  raw : Text
  /-- Its alternatives in order. -/
  alternatives : List Alternative
  deriving DecidableEq, Repr

namespace Expression

/-- The alternatives of a text that hold more than white space. -/
def pieces (raw : Text) : List Text := (raw.cut (· == ',')).filter fun piece => !piece.allBlank

/-- The expression that a text stands for. -/
def read (raw : Text) : Except Numeral.TooLong Expression :=
  match (pieces raw).mapM Alternative.read with
  | .error e => .error e
  | .ok alternatives => .ok ⟨raw, alternatives⟩

/-- Does some alternative come round again? -/
def isRecurring (e : Expression) : Bool := e.alternatives.any Alternative.isRecurring

/-- Is some alternative a range of dates, and none recurring? -/
def isRange (e : Expression) : Bool :=
  !e.isRecurring && e.alternatives.any Alternative.isRange

/-- The state on a day. -/
def stateOn (e : Expression) (day : Day) : State :=
  .combine (e.alternatives.map (·.stateOn day))

/-! ## Searching the calendar -/

/-- How many days ahead the next due day is looked for. -/
def horizon : Nat := 3660

/-- The first due day among the next `count` days. It fails when the
calendar ends before one is found. -/
def firstDue (e : Expression) : Nat → Day → Except ShiftError (Option Day)
  | 0, _ => .ok none
  | count + 1, day =>
    match day.next? with
    | none => .error .outOfCalendar
    | some next => if e.stateOn next = .due then .ok (some next) else e.firstDue count next

/-- The first due day after `target`; none for an expression without a
meaning. -/
def nextDue (e : Expression) (target : Day) : Except ShiftError (Option Day) :=
  if e.stateOn target = .invalid then .ok none else e.firstDue horizon target

/-- The last day among the `count` days before `day` on which the
expression was due or overdue. -/
def lastActive (e : Expression) : Nat → Day → Option Day
  | 0, _ => none
  | count + 1, day =>
    match day.previous? with
    | none => none
    | some previous =>
      if (e.stateOn previous).isActive then some previous else e.lastActive count previous

/-- The last day before `today`, and not before `since`, on which the
expression was due or overdue. -/
def lastMissed (e : Expression) (since today : Day) : Option Day :=
  e.lastActive (since.daysUntil today).toNat today

end Expression

/-- The last day before `today`, and not before `since`, on which the
expression of a text was due or overdue. The text is read only if there is
such a day at all. -/
def missed? (raw : Text) (since today : Day) : Except Numeral.TooLong (Option Day) :=
  if since < today then
    match Expression.read raw with
    | .error e => .error e
    | .ok expression => .ok (expression.lastMissed since today)
  else .ok none

/-- Why it cannot be said on which day something was missed. -/
inductive MissedError where
  /-- An interval of the expression has too many digits. -/
  | tooLong (cause : Numeral.TooLong)
  /-- A day to look at is not in the calendar. -/
  | calendar (cause : ShiftError)
  deriving DecidableEq, Repr

/-- What is said when the day cannot be found. -/
def MissedError.message : MissedError → String
  | .tooLong cause => cause.message
  | .calendar cause => cause.message

/-- The first day on which the expression was due or overdue among the
`count` days at the distance `back` from `today` and farther back. -/
def Expression.activeBack (e : Expression) (today : Day) :
    Nat → Nat → Except ShiftError (Option Day)
  | 0, _ => .ok none
  | count + 1, back =>
    match today.shift (-(back : Int)) with
    | .error cause => .error cause
    | .ok day =>
      if (e.stateOn day).isActive then .ok (some day) else e.activeBack today count (back + 1)

/-- The last day before that of `now`, and not before that of the last visit,
on which the expression of a text was due or overdue, looked for from the day
before `now` on. Without a day to look at the text is not read. -/
def missedBetween (raw : Text) (lastVisit now : Instant) : Except MissedError (Option Day) :=
  let count := (lastVisit.daysUntil now).toNat
  if count = 0 then .ok none
  else match Expression.read raw with
    | .error cause => .error (.tooLong cause)
    | .ok expression => (expression.activeBack now.day count 1).mapError .calendar

/-- Was the last visit on another day? Without one there is nothing to
start anew. -/
def needsReset (lastVisit : Option Instant) (now : Instant) : Bool :=
  match lastVisit with
  | none => false
  | some visit => !visit.sameDay now

end TaskList.Due
