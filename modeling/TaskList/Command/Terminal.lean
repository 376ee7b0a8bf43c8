/-
TaskList.Command.Terminal — where a command shows things.

A terminal reads the style marks in what it shows, and may refuse what it can
make nothing of, such as a mark that closes a style where none is open. How it
reads them is no part of this library, so a terminal is given by what it
refuses.

* `Terminal` — for anything that is to be shown, what is wrong with it, if
  something is.
* `Terminal.upToFault` — how far some displays are shown, one after the
  other.
-/
import TaskList.Command.Display

namespace TaskList

/-- Why something cannot be shown. -/
structure DisplayFault where
  /-- What is said of it. -/
  message : String
  deriving Repr

/-- Where things are shown. -/
structure Terminal where
  /-- What is wrong with something that is to be shown. -/
  fault? : Display → Option DisplayFault

namespace Terminal

/-- A terminal that shows everything. -/
def plain : Terminal := ⟨fun _ => none⟩

/-- What is shown of some displays before the first that cannot be, and what
is wrong with that one. -/
def upToFault (terminal : Terminal) : List Display → List Display × Option DisplayFault
  | [] => ([], none)
  | display :: rest =>
    match terminal.fault? display with
    | some fault => ([], some fault)
    | none =>
      let (shown, fault) := terminal.upToFault rest
      (display :: shown, fault)

end Terminal

end TaskList
