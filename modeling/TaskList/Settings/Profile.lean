/-
TaskList.Settings.Profile — settings as they come from outside, where a
setting may have a value of any kind.

* `Profile` — the ten settings. Some of them are put right when a profile
  is made: names of files get their home directory spelled out, a tab size
  below one becomes four, and an order that does not exist becomes the
  alphabetic one, the last two with a `Warning`.
* `Given` — the ten settings as they are given, and `Given.profile` — the
  profile that they make. It fails with a `SettingsError` when a value has a
  kind that cannot be put right.
* `Profile.make` — the profile of some named values. It fails too when a name
  is not known.
* `Profile.settings` — what the rest of the library works with.
* `Profile.document` — the profile as a configuration document.
-/
import TaskList.Files.Tree
import TaskList.Settings.Basic
import TaskList.Yaml.Write

namespace TaskList

open Yaml (Value Kind)

/-! ## Settings as values -/

/-- Settings as they come from outside. -/
structure Profile where
  /-- What stands in front of a done task. -/
  doneMark : Value := .text "x ".toList
  /-- What stands in front of a comment. -/
  commentMark : Value := .text "# ".toList
  /-- How many columns make one level of indentation. -/
  tabSize : Value := .int 4
  /-- Is a task completed by a completion tag, or by the done mark? -/
  stampsCompletion : Value := .bool true
  /-- Does a completion tag hold the time of day? -/
  stampsTime : Value := .bool false
  /-- The order of the tags. -/
  tagOrder : GroupOrder := .alphabetic
  /-- The order of the projects. -/
  projectOrder : GroupOrder := .alphabetic
  /-- The order of the contexts. -/
  contextOrder : GroupOrder := .alphabetic
  /-- The task file to use when none is named. -/
  defaultFile : Value := .text []
  /-- The folder of the configuration document: a text, or bytes. -/
  dataFolder : Value := .text "~/.todo-md".toList
  deriving BEq, Repr

/-- What is wrong with settings, though not so wrong that they cannot be
used. -/
inductive Warning where
  /-- Names that are no settings. -/
  | unknownNames (names : List Text)
  /-- A tab size below one. -/
  | tabSize (value : Value)
  /-- An order that does not exist. -/
  | order (setting : String) (value : Value)
  /-- A configuration document that is not used. -/
  | notLoaded (path : Path)
  deriving Repr

/-- What is said of settings that are put right. -/
def Warning.message : Warning → String
  | .unknownNames names =>
    "Ignoring unknown configuration keys: " ++ String.ofList (Text.joined [',', ' '] names)
  | .tabSize value => s!"Invalid tab_size {String.ofList value.quoted}, falling back to 4"
  | .order setting value => s!"Invalid {setting} {String.ofList value.quoted}, using alphabetic"
  | .notLoaded path => s!"Failed to load config from {String.ofList path.text}"

/-- Why there are no settings. -/
inductive SettingsError where
  /-- A name is no setting. -/
  | unknownName (name : Text)
  /-- A name is that of the settings as a whole, not of one of them. -/
  | ownName
  /-- A value that must be the name of a file is none. -/
  | notPath (kind : Kind)
  /-- The name of a file or a folder consists of bytes where it must be a text. -/
  | bytesAsPath
  /-- Two values have no order. -/
  | noOrder (cause : Yaml.Clash)
  /-- A document that must be a mapping has no names in it. -/
  | noNames (kind : Kind)
  /-- A list inside a list is no name. -/
  | notName (kind : Kind)
  /-- A name is no text. -/
  | notText (index : Nat) (kind : Kind)
  /-- A document that must be a mapping has no values in it. -/
  | noValues (kind : Kind)
  /-- The document cannot be read as one. -/
  | unreadable (cause : Yaml.ReadError)
  /-- The file cannot be read or written. -/
  | file (cause : FileError)
  deriving DecidableEq, Repr

/-- The name of the settings as a whole. -/
def SettingsError.wholeName : String := "self"

/-- What is wrong with a name that is no setting. -/
def SettingsError.ofName (name : Text) : SettingsError :=
  if name == SettingsError.wholeName.toList then .ownName else .unknownName name

/-- What is said when there are no settings. -/
def SettingsError.message : SettingsError → String
  | .unknownName name =>
    s!"ConfigModel.__init__() got an unexpected keyword argument '{String.ofList name}'"
  | .ownName => s!"ConfigModel.__init__() got multiple values for argument '{wholeName}'"
  | .notPath kind => s!"expected str, bytes or os.PathLike object, not {kind.shortName}"
  | .bytesAsPath =>
    "argument should be a str object or an os.PathLike object returning str, not <class 'bytes'>"
  | .noOrder cause => cause.message
  | .noNames kind => s!"'{kind.name}' object is not iterable"
  | .notName kind => s!"unhashable type: '{kind.name}'"
  | .notText index kind =>
    s!"sequence item {index}: expected str instance, {kind.name} found"
  | .noValues kind => s!"'{kind.name}' object has no attribute 'items'"
  | .unreadable cause => cause.message
  | .file cause => cause.message

namespace Profile

/-- The names of the settings, in alphabetical order. -/
def names : List String :=
  ["add_completion_date", "comment_prefix", "completion_date_include_time", "data_dir",
   "default_file", "done_symbol", "sort_contexts_view", "sort_projects_view",
   "sort_tags_view", "tab_size"]

/-- Is the text the name of a setting? -/
def isName (t : Text) : Bool := names.contains (String.ofList t)

/-- The value that is named for a setting, if there is one. -/
def named? (entries : List (Text × Value)) (name : String) : Option Value :=
  (entries.find? (·.1 == name.toList)).map (·.2)

/-- A name with its home directory spelled out. -/
def expanded (home : Home) (t : Text) : Except SettingsError Text :=
  match Home.userFault? t with
  | some fault => .error (.file (.badName fault))
  | none => .ok (home.expand t)

/-- The name of a file with its home directory spelled out. It may consist of
bytes. -/
def nameOf (home : Home) : Value → Except SettingsError Value
  | .text t => (expanded home t).map .text
  | .bytes b =>
    (expanded home (b.map fun byte => Char.ofNat byte.toNat)).map fun t =>
      .bytes (t.map fun c => UInt8.ofNat c.toNat)
  | value => .error (.notPath value.kind)

/-- The default task file; a value that counts as false names none. -/
def fileOf (home : Home) (value : Value) : Except SettingsError Value :=
  if value.isTrue then nameOf home value else .ok value

/-- A tab size, put right if it is below one. -/
def tabSizeOf (value : Value) : Except SettingsError (Value × List Warning) :=
  match value.number? with
  | none => .error (.noOrder (.kinds value.kind .int))
  | some n => if n.belowOne then .ok (.int 4, [.tabSize value]) else .ok (value, [])

/-- The order that a value names, if there is one. -/
def order? : Value → Option GroupOrder
  | .text t => GroupOrder.ofName? (String.ofList t)
  | _ => none

/-- What is given for an order: the order itself, or a value that may name
one. -/
inductive GivenOrder where
  | order (o : GroupOrder)
  | value (v : Value)

/-- The order of a setting, put right if it does not exist. -/
def orderOf (setting : String) : GivenOrder → GroupOrder × List Warning
  | .order o => (o, [])
  | .value v =>
    match order? v with
    | some order => (order, [])
    | none => (.alphabetic, [.order setting v])

end Profile

open Profile (GivenOrder)

/-- The settings as they are given, before anything is put right. -/
structure Given where
  /-- What stands in front of a done task. -/
  doneMark : Value := .text "x ".toList
  /-- What stands in front of a comment. -/
  commentMark : Value := .text "# ".toList
  /-- How many columns make one level of indentation. -/
  tabSize : Value := .int 4
  /-- Is a task completed by a completion tag, or by the done mark? -/
  stampsCompletion : Value := .bool true
  /-- Does a completion tag hold the time of day? -/
  stampsTime : Value := .bool false
  /-- The order of the tags. -/
  tagOrder : GivenOrder := .order .alphabetic
  /-- The order of the projects. -/
  projectOrder : GivenOrder := .order .alphabetic
  /-- The order of the contexts. -/
  contextOrder : GivenOrder := .order .alphabetic
  /-- The task file to use when none is named. -/
  defaultFile : Value := .text []
  /-- The folder of the configuration document. -/
  dataFolder : Value := .text "~/.todo-md".toList

namespace Given

open Profile

/-- The settings that named values give; those that are not named are the
usual ones. -/
def ofEntries (entries : List (Text × Value)) : Given :=
  let usual : Given := {}
  let order := fun name => ((named? entries name).map .value).getD (.order .alphabetic)
  { doneMark := (named? entries "done_symbol").getD usual.doneMark
    commentMark := (named? entries "comment_prefix").getD usual.commentMark
    tabSize := (named? entries "tab_size").getD usual.tabSize
    stampsCompletion := (named? entries "add_completion_date").getD usual.stampsCompletion
    stampsTime := (named? entries "completion_date_include_time").getD usual.stampsTime
    tagOrder := order "sort_tags_view"
    projectOrder := order "sort_projects_view"
    contextOrder := order "sort_contexts_view"
    defaultFile := (named? entries "default_file").getD usual.defaultFile
    dataFolder := (named? entries "data_dir").getD usual.dataFolder }

/-- The profile that given settings make. -/
def profile (home : Home) (given : Given) : Except SettingsError (Profile × List Warning) := do
  let folder ← nameOf home given.dataFolder
  let file ← fileOf home given.defaultFile
  let (tabSize, w₀) ← tabSizeOf given.tabSize
  let (tags, w₁) := orderOf "sort_tags_view" given.tagOrder
  let (projects, w₂) := orderOf "sort_projects_view" given.projectOrder
  let (contexts, w₃) := orderOf "sort_contexts_view" given.contextOrder
  return (
    { doneMark := given.doneMark
      commentMark := given.commentMark
      tabSize := tabSize
      stampsCompletion := given.stampsCompletion
      stampsTime := given.stampsTime
      tagOrder := tags
      projectOrder := projects
      contextOrder := contexts
      defaultFile := file
      dataFolder := folder },
    w₀ ++ w₁ ++ w₂ ++ w₃)

end Given

namespace Profile

/-- The settings of a profile, given once more. -/
def given (p : Profile) : Given where
  doneMark := p.doneMark
  commentMark := p.commentMark
  tabSize := p.tabSize
  stampsCompletion := p.stampsCompletion
  stampsTime := p.stampsTime
  tagOrder := .order p.tagOrder
  projectOrder := .order p.projectOrder
  contextOrder := .order p.contextOrder
  defaultFile := p.defaultFile
  dataFolder := p.dataFolder

/-- The profile of some named values. -/
def make (home : Home) (entries : List (Text × Value)) :
    Except SettingsError (Profile × List Warning) :=
  match entries.find? fun e => !isName e.1 with
  | some entry => .error (.ofName entry.1)
  | none => (Given.ofEntries entries).profile home

/-- The usual folder of the configuration document. -/
def usualFolder (home : Home) : Text := home.expand "~/.todo-md".toList

/-- The profile without any named value. -/
def usual (home : Home) : Profile := { dataFolder := .text (usualFolder home) }

/-- The configuration document in a folder. -/
def documentIn (folder : Text) : Path := (Path.ofText folder).child "config.yaml".toList

/-- Where the configuration document is kept. Its folder must be named by a
text. -/
def path (p : Profile) : Except SettingsError Path :=
  match p.dataFolder with
  | .text folder => .ok (documentIn folder)
  | _ => .error .bytesAsPath

/-- Where the configuration document is usually kept. -/
def usualPath (home : Home) : Path := documentIn (usualFolder home)

theorem path_usual (home : Home) : (usual home).path = .ok (usualPath home) := rfl

/-! ## Settings to work with -/

/-- The text of a mark; a value that is no text is no mark. -/
def markText : Value → Text
  | .text t => t
  | _ => []

/-- The unit of indentation that a number stands for. -/
def unit? : Value → Option IndentUnit
  | .bool b => some (.columns (if b then 1 else 0))
  | .int n => some (.columns n)
  | .decimal d => some (.measure d)
  | _ => none

/-- The usual unit of indentation. -/
def usualUnit : IndentUnit := .columns 4

/-- The unit of indentation that a tab size stands for. -/
def tabUnit (value : Value) : { unit : IndentUnit // unit.isWide = true } :=
  match unit? value with
  | some unit => if h : unit.isWide = true then ⟨unit, h⟩ else ⟨usualUnit, by decide⟩
  | none => ⟨usualUnit, by decide⟩

/-- What the rest of the library works with. -/
def settings (p : Profile) : Settings where
  doneMark := markText p.doneMark
  commentMark := markText p.commentMark
  tabSize := (tabUnit p.tabSize).val
  tabSize_isWide := (tabUnit p.tabSize).property
  stampsCompletion := p.stampsCompletion.isTrue
  stampsTime := p.stampsTime.isTrue
  tagOrder := p.tagOrder
  projectOrder := p.projectOrder
  contextOrder := p.contextOrder
  defaultFile := markText p.defaultFile

/-! ## Settings as a document -/

/-- The settings by name, in alphabetical order. -/
def entries (p : Profile) : List (Text × Value) :=
  names.zipWith (fun name value => (name.toList, value))
    [p.stampsCompletion, p.commentMark, p.stampsTime, p.dataFolder, p.defaultFile,
     p.doneMark, .text p.contextOrder.name.toList, .text p.projectOrder.name.toList,
     .text p.tagOrder.name.toList, p.tabSize]

/-- The profile as a configuration document. -/
def document (p : Profile) : Text := Yaml.write p.entries

end Profile

end TaskList
