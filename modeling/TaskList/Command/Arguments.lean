/-
TaskList.Command.Arguments — what the words of a command line ask for.

* `Arguments.parse` — options and other words told apart. An option has a
  long name behind two hyphens, perhaps a letter behind one, and perhaps a
  value: behind an equals sign, right behind the letter, or in the next
  word. Letters without a value may share a hyphen. Behind `--` nothing is
  an option.
* `Request` — the task of a command line. `GlobalRequest.read` reads what
  stands before the name of a command, `Request.read` what stands behind.

Both give `Refusal.usage` for words that ask for nothing, and
`Refusal.help` where help is asked for, which goes before missing and
misshapen values but not before unknown options.

Words without the name of a command are read as options once more, those
behind `--` too, so that they can still ask for help.
-/
import TaskList.Files.Path
import TaskList.Line.Token

namespace TaskList

/-! ## Options and words -/

/-- An option that a command knows. -/
structure OptionSpec where
  /-- The name behind two hyphens. -/
  name : String
  /-- The letter behind one hyphen. -/
  letter : Option Char := none
  /-- Does the option have a value? -/
  hasValue : Bool := false
  deriving DecidableEq, Repr

/-- The words of a command line, told apart. -/
structure Arguments where
  /-- The options in the order in which they are given, with their
  values. -/
  options : List (String × Text) := []
  /-- The other words in order. -/
  words : List Text := []
  deriving DecidableEq, Repr

namespace Arguments

/-- What one word that starts with a hyphen holds. -/
structure OptionWord where
  /-- The options in it, with their values. -/
  options : List (String × Text)
  /-- The option whose value is the next word. -/
  pending : Option String
  deriving DecidableEq, Repr

/-- The options in a run of letters behind one hyphen; none if a letter is
not known. -/
def letters? (specs : List OptionSpec) : Text → Option OptionWord
  | [] => some ⟨[], none⟩
  | c :: rest =>
    match specs.find? (·.letter == some c) with
    | none => none
    | some spec =>
      if spec.hasValue then
        if rest.isEmpty then some ⟨[], some spec.name⟩ else some ⟨[(spec.name, rest)], none⟩
      else (letters? specs rest).map fun more => ⟨(spec.name, []) :: more.options, more.pending⟩

/-- The option that a word behind two hyphens names; none if it is not
known, or has a value that it should not have. -/
def long? (specs : List OptionSpec) (t : Text) : Option OptionWord :=
  let name := t.takeWhile (· != '=')
  match specs.find? (·.name.toList == name), t.dropWhile (· != '=') with
  | none, _ => none
  | some spec, [] => if spec.hasValue then some ⟨[], some spec.name⟩ else some ⟨[(spec.name, [])], none⟩
  | some spec, _ :: value => if spec.hasValue then some ⟨[(spec.name, value)], none⟩ else none

/-- What a word that starts with a hyphen holds; none if it holds no known
option. -/
def optionWord? (specs : List OptionSpec) : Text → Option OptionWord
  | '-' :: '-' :: rest => long? specs rest
  | '-' :: rest => letters? specs rest
  | _ => none

/-- Is the word meant as an option? -/
def looksLikeOption (t : Text) : Bool := t.head? == some '-' && t.length != 1

/-- The words of a command line, told apart; none if an option is not
known or lacks its value. If `mixed`, options may follow other words. -/
def parse (specs : List OptionSpec) (mixed : Bool) : List Text → Option Arguments
  | [] => some {}
  | word :: rest =>
    if word == ['-', '-'] then some { words := rest }
    else if looksLikeOption word then
      match optionWord? specs word with
      | none => none
      | some ⟨options, none⟩ =>
        (parse specs mixed rest).map fun more => { more with options := options ++ more.options }
      | some ⟨options, some name⟩ =>
        match rest with
        | [] => none
        | value :: rest =>
          (parse specs mixed rest).map fun more =>
            { more with options := options ++ (name, value) :: more.options }
    else if mixed then
      (parse specs mixed rest).map fun more => { more with words := word :: more.words }
    else some { words := word :: rest }

/-- The value of an option; the last one counts. -/
def value? (a : Arguments) (name : String) : Option Text :=
  (a.options.reverse.find? (·.1 == name)).map (·.2)

/-- Is an option given? -/
def has (a : Arguments) (name : String) : Bool := (a.value? name).isSome

end Arguments

/-! ## Requests -/

/-- Why a command line is not carried out. -/
inductive Refusal where
  /-- It asks for nothing that there is. -/
  | usage
  /-- It asks for help. -/
  | help
  /-- It names a configuration document with a character that no name may
  have. -/
  | badName (fault : NameFault)
  deriving DecidableEq, Repr

/-- The task of a command line. -/
inductive Request where
  /-- Show the tasks of a file as a tree. -/
  | show (file : Option Text) (withHidden : Bool)
  /-- List what is due. -/
  | due (file : Option Text)
  /-- Count the tasks of each group. -/
  | groups (file : Option Text) (group : Group)
  /-- Say what a due expression means on a day. -/
  | check (expression : Text) (date : Option Text)
  /-- Start a new cycle of recurring tasks. -/
  | reset (file : Option Text) (lastVisit : Text) (dryRun : Bool)
  /-- Complete, reopen or count up a task. -/
  | done (file : Option Text) (line : Int) (dryRun : Bool)
  deriving DecidableEq, Repr

/-- The names of commands. -/
inductive CommandName where
  | show | due | groups | check | reset | done
  deriving DecidableEq, Repr

namespace CommandName

/-- The commands, each once. -/
def all : List CommandName := [.show, .due, .groups, .check, .reset, .done]

/-- The word for a command. -/
def text : CommandName → String
  | .show => "show"
  | .due => "due"
  | .groups => "groups"
  | .check => "check"
  | .reset => "reset"
  | .done => "done"

/-- The option that every command knows. -/
def help : OptionSpec := ⟨"help", none, false⟩

/-- The options that a command knows. -/
def options : CommandName → List OptionSpec
  | .show => [⟨"all", none, false⟩, help]
  | .due => [help]
  | .groups => [⟨"kind", some 'k', true⟩, help]
  | .check => [⟨"date", some 'd', true⟩, help]
  | .reset => [⟨"last-visit", some 'l', true⟩, ⟨"dry-run", none, false⟩, help]
  | .done => [⟨"line", some 'n', true⟩, ⟨"dry-run", none, false⟩, help]

end CommandName

/-- What stands before the name of a command, the name, and the words
behind it. -/
structure GlobalRequest where
  /-- The configuration document to use. -/
  config : Option Text
  /-- The command. -/
  command : CommandName
  /-- The words behind its name. -/
  rest : List Text
  deriving DecidableEq, Repr

/-- The options before the name of a command. -/
def GlobalRequest.options : List OptionSpec :=
  [⟨"config", none, true⟩, ⟨"verbose", some 'v', false⟩, CommandName.help]

/-- The options before the name of a command, and the words from there
on. -/
def GlobalRequest.arguments (words : List Text) : Except Refusal Arguments :=
  match Arguments.parse GlobalRequest.options false words with
  | none => .error .usage
  | some args =>
    if args.has "help" then .error .help
    else match (args.value? "config").bind NameFault.find? with
      | some fault => .error (.badName fault)
      | none => .ok args

/-- What a whole command line asks for up to the name of the command. -/
def GlobalRequest.read (words : List Text) : Except Refusal GlobalRequest := do
  let args ← arguments words
  match args.words with
  | [] => .error .usage
  | name :: rest =>
    match CommandName.all.find? (·.text.toList == name) with
    | some command => return ⟨args.value? "config", command, rest⟩
    | none =>
      let _ ← arguments args.words
      .error .usage

namespace Request

/-- A value that must be there and have a shape. -/
def need {α : Type} (value : Option α) : Except Refusal α :=
  match value with
  | some v => .ok v
  | none => .error .usage

/-- At most one word. -/
def atMostOne : List Text → Except Refusal (Option Text)
  | [] => .ok none
  | [word] => .ok (some word)
  | _ => .error .usage

/-- What the options and words behind the name of a command ask for. -/
def ofArguments (command : CommandName) (args : Arguments) : Except Refusal Request := do
  let word ← atMostOne args.words
  match command with
  | .show => return .show word (args.has "all")
  | .due => return .due word
  | .groups =>
    return .groups word (← need (Group.ofName? (String.ofList ((args.value? "kind").getD "tag".toList))))
  | .check => return .check (← need word) (args.value? "date")
  | .reset => return .reset word (← need (args.value? "last-visit")) (args.has "dry-run")
  | .done =>
    return .done word (← need ((args.value? "line").bind Numeral.int?)) (args.has "dry-run")

/-- What the words behind the name of a command ask for. -/
def read (command : CommandName) (words : List Text) : Except Refusal Request :=
  match Arguments.parse command.options true words with
  | none => .error .usage
  | some args => if args.has "help" then .error .help else ofArguments command args

end Request

end TaskList
