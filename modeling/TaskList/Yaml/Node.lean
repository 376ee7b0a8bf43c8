/-
TaskList.Yaml.Node — the structure of a configuration document.

* `Node` — a word, a list or a mapping, each with its tag.
* `Node.ofTokens?` — the node that the tokens of a document make; none if
  they make none, or if a second document follows. Where a sign asks for
  something and nothing comes, the empty word stands.

What has a name can stand again later, but a name is given only once. What
uses its name inside of it holds itself. There is no end to such a node, so
`Node.unfolded` writes it out until it comes to a place where it is already.
-/
import TaskList.Yaml.Scalar
import TaskList.Yaml.Token

namespace TaskList.Yaml

/-- A word, a list or a mapping of a document. The place of a list or a
mapping is that of no other one. -/
inductive Node where
  | word (tag : Tag) (t : Text)
  | list (place : Nat) (tag : Tag) (items : List Node)
  | map (place : Nat) (tag : Tag) (entries : List (Node × Node))
  /-- The list or the mapping at a place, inside of itself. -/
  | again (place : Nat) (isMap : Bool)
  deriving Repr

/-! ## Tags -/

namespace Tag

/-- The tags that a document can name. -/
def names : List (String × Tag) :=
  [("null", .null), ("bool", .bool), ("int", .int), ("float", .decimal), ("str", .text),
   ("binary", .bytes), ("timestamp", .timestamp), ("seq", .list), ("map", .map),
   ("set", .set), ("omap", .pairs), ("pairs", .pairs), ("merge", .merge), ("value", .usual)]

/-- What stands in front of the names of these tags. -/
def lead : Text := "tag:yaml.org,2002:".toList

/-- The tag that is spelled in full. -/
def ofText (t : Text) : Tag :=
  match names.find? fun n => lead ++ n.1.toList == t with
  | some (_, tag) => tag
  | none => .unknown

/-- What the handles in front of tags stand for, unless a directive says
otherwise. -/
def handles : List (Text × Text) := [(['!'], ['!']), (['!', '!'], lead)]

end Tag

namespace Node

/-! ## The properties of a node -/

/-- The tokens still to come, and the nodes that have a name. -/
structure Reading where
  /-- The tokens. -/
  tokens : List Token
  /-- The nodes with their names. -/
  named : List (Text × Node) := []

/-- What stands in front of a node. -/
structure Properties where
  /-- The name of the node. -/
  name : Option Text := none
  /-- The tag that is given, spelled in full; an exclamation mark alone
  stands for the one that the node has of its own. -/
  tag : Option Text := none

/-- A tag with its handle spelled out; none if the handle stands for
nothing. -/
def fullTag? (handles : List (Text × Text)) (handle : Option Text) (rest : Text) : Option Text :=
  match handle with
  | none => some rest
  | some handle => (handles.find? (·.1 == handle)).map fun h => h.2 ++ rest

/-- What stands in front of a node, a name and a tag in either order, and
the tokens behind. -/
def properties? (handles : List (Text × Text)) : List Token → Option (Properties × List Token)
  | .anchor name :: .tag handle rest :: after | .tag handle rest :: .anchor name :: after => do
    return (⟨name, ← fullTag? handles handle rest⟩, after)
  | .anchor name :: after => some (⟨name, none⟩, after)
  | .tag handle rest :: after => do return (⟨none, ← fullTag? handles handle rest⟩, after)
  | tokens => some ({}, tokens)

/-- The tag that is given, or else the one that the node has of its own. -/
def Properties.tagOr (p : Properties) (own : Tag) : Tag :=
  match p.tag with
  | none => own
  | some t => if t == ['!'] then own else .ofText t

/-- The tag of a word: without quotes and tag its own, and between quotes
that of a text. -/
def Properties.tagOfWord (p : Properties) (plain : Bool) (t : Text) : Tag :=
  p.tagOr (if plain || p.tag.isSome then Scalar.tagOf t else .text)

/-- The empty word, which stands where nothing comes. -/
def nothing : Node := .word .null []

/-- The place of what starts with the next token. -/
def Reading.place (r : Reading) : Nat := r.tokens.length

/-- A node under its name. Of two nodes under one name the later one
counts. -/
def register (p : Properties) (node : Node) (r : Reading) : Reading :=
  match p.name with
  | none => r
  | some name => { r with named := (name, node) :: r.named }

/-- Is the name given already? -/
def isTaken (p : Properties) (r : Reading) : Bool :=
  p.name.any fun name => r.named.any (·.1 == name)

/-- The list or the mapping that starts with the next token, for the time
until it is read. -/
def unread (r : Reading) : Node :=
  match r.tokens with
  | .openMap :: _ | .mapStart :: _ => .again r.place true
  | _ => .again r.place false

/-! ## Where nothing comes -/

/-- Does nothing come behind a hyphen before these tokens? -/
def endsItem : List Token → Bool
  | .item :: _ | .blockEnd :: _ => true
  | _ => false

/-- Does nothing come behind the hyphen of a list at the column of its key
before these tokens? -/
def endsInnerItem : List Token → Bool
  | .item :: _ | .key :: _ | .value :: _ | .blockEnd :: _ => true
  | _ => false

/-- Does nothing come behind a key sign or a colon in lines before these
tokens? -/
def endsBlock : List Token → Bool
  | .key :: _ | .value :: _ | .blockEnd :: _ => true
  | _ => false

/-- Does nothing come behind a key sign in brackets before these tokens? -/
def endsKey (close : Token) : List Token → Bool
  | t :: _ => t == .value || t == .comma || t == close
  | [] => false

/-- Does nothing come behind a colon in brackets before these tokens? -/
def endsValue (close : Token) : List Token → Bool
  | t :: _ => t == .comma || t == close
  | [] => false

/-! ## Nodes -/

/-- The empty word, which has to have properties where a node must be. -/
def empty? (p : Properties) (r : Reading) : Option (Node × Reading) :=
  if p.name.isNone && p.tag.isNone then none else some (.word (p.tagOfWord true []) [], r)

mutual

/-- The node at the start of some tokens. Lists and mappings in lines stand
only outside of brackets, and a list without indentation only as the key or
the value of a mapping. -/
def read? (handles : List (Text × Text)) (inLines inner : Bool) :
    Nat → Reading → Option (Node × Reading)
  | 0, _ => none
  | fuel + 1, r =>
    match r.tokens with
    | .alias name :: after =>
      (r.named.find? (·.1 == name)).map fun n => (n.2, { r with tokens := after })
    | tokens => do
      let (p, tokens) ← properties? handles tokens
      let r := { r with tokens }
      if isTaken p r then failure
      let (node, r) ← content? handles p inLines inner fuel (register p (unread r) r)
      return (node, register p node r)

/-- The node behind its properties. -/
def content? (handles : List (Text × Text)) (p : Properties) (inLines inner : Bool) :
    Nat → Reading → Option (Node × Reading)
  | 0, _ => none
  | fuel + 1, r₀ =>
    match r₀.tokens with
    | .word plain t :: after => some (.word (p.tagOfWord plain t) t, { r₀ with tokens := after })
    | .openList :: after =>
      (bracketItems? handles true [] fuel { r₀ with tokens := after }).map fun (items, r) =>
        (.list r₀.place (p.tagOr .list) items, r)
    | .openMap :: after =>
      (bracketEntries? handles true [] fuel { r₀ with tokens := after }).map fun (entries, r) =>
        (.map r₀.place (p.tagOr .map) entries, r)
    | .item :: _ =>
      if inner then
        (innerItems? handles [] fuel r₀).map fun (items, r) => (.list r₀.place (p.tagOr .list) items, r)
      else empty? p r₀
    | .listStart :: after =>
      if inLines then
        (lineItems? handles [] fuel { r₀ with tokens := after }).map fun (items, r) =>
          (.list r₀.place (p.tagOr .list) items, r)
      else empty? p r₀
    | .mapStart :: after =>
      if inLines then
        (lineEntries? handles [] fuel { r₀ with tokens := after }).map fun (entries, r) =>
          (.map r₀.place (p.tagOr .map) entries, r)
      else empty? p r₀
    | _ => empty? p r₀

/-- The node at the start of some tokens, or the empty word if nothing
comes. -/
def orNothing? (handles : List (Text × Text)) (isEmpty inLines inner : Bool) :
    Nat → Reading → Option (Node × Reading)
  | 0, _ => none
  | fuel + 1, r => if isEmpty then some (nothing, r) else read? handles inLines inner fuel r

/-- The items of a list in lines. -/
def lineItems? (handles : List (Text × Text)) (items : List Node) :
    Nat → Reading → Option (List Node × Reading)
  | 0, _ => none
  | fuel + 1, r =>
    match r.tokens with
    | .item :: after => do
      let (item, r) ← orNothing? handles (endsItem after) true false fuel { r with tokens := after }
      lineItems? handles (item :: items) fuel r
    | .blockEnd :: after => some (items.reverse, { r with tokens := after })
    | _ => none

/-- The items of a list at the column of its key. -/
def innerItems? (handles : List (Text × Text)) (items : List Node) :
    Nat → Reading → Option (List Node × Reading)
  | 0, _ => none
  | fuel + 1, r =>
    match r.tokens with
    | .item :: after => do
      let (item, r) ←
        orNothing? handles (endsInnerItem after) true false fuel { r with tokens := after }
      innerItems? handles (item :: items) fuel r
    | _ => some (items.reverse, r)

/-- The entries of a mapping in lines. -/
def lineEntries? (handles : List (Text × Text)) (entries : List (Node × Node)) :
    Nat → Reading → Option (List (Node × Node) × Reading)
  | 0, _ => none
  | fuel + 1, r =>
    match r.tokens with
    | .key :: after => do
      let (key, r) ← orNothing? handles (endsBlock after) true true fuel { r with tokens := after }
      let (value, r) ← lineValue? handles fuel r
      lineEntries? handles ((key, value) :: entries) fuel r
    | .blockEnd :: after => some (entries.reverse, { r with tokens := after })
    | _ => none

/-- The value of a key in lines. -/
def lineValue? (handles : List (Text × Text)) : Nat → Reading → Option (Node × Reading)
  | 0, _ => none
  | fuel + 1, r =>
    match r.tokens with
    | .value :: after => orNothing? handles (endsBlock after) true true fuel { r with tokens := after }
    | _ => some (nothing, r)

/-- The items of a list in brackets; `first` before the first of them. -/
def bracketItems? (handles : List (Text × Text)) (first : Bool) (items : List Node) :
    Nat → Reading → Option (List Node × Reading)
  | 0, _ => none
  | fuel + 1, r =>
    match r.tokens, first with
    | .closeList :: after, _ | .comma :: .closeList :: after, false =>
      some (items.reverse, { r with tokens := after })
    | .comma :: after, false => do
      let (item, r) ← bracketItem? handles fuel { r with tokens := after }
      bracketItems? handles false (item :: items) fuel r
    | _, true => do
      let (item, r) ← bracketItem? handles fuel r
      bracketItems? handles false (item :: items) fuel r
    | _, false => none

/-- An item of a list in brackets: a node, or a key with its value. -/
def bracketItem? (handles : List (Text × Text)) : Nat → Reading → Option (Node × Reading)
  | 0, _ => none
  | fuel + 1, r₀ =>
    match r₀.tokens with
    | .key :: after => do
      let (key, r) ←
        orNothing? handles (endsKey .closeList after) false false fuel { r₀ with tokens := after }
      let (value, r) ← bracketValue? handles .closeList fuel r
      return (.map r₀.place .map [(key, value)], r)
    | _ => read? handles false false fuel r₀

/-- The value of a key in brackets. -/
def bracketValue? (handles : List (Text × Text)) (close : Token) :
    Nat → Reading → Option (Node × Reading)
  | 0, _ => none
  | fuel + 1, r =>
    match r.tokens with
    | .value :: after =>
      orNothing? handles (endsValue close after) false false fuel { r with tokens := after }
    | _ => some (nothing, r)

/-- The entries of a mapping in brackets; `first` before the first of
them. -/
def bracketEntries? (handles : List (Text × Text)) (first : Bool) (entries : List (Node × Node)) :
    Nat → Reading → Option (List (Node × Node) × Reading)
  | 0, _ => none
  | fuel + 1, r =>
    match r.tokens, first with
    | .closeMap :: after, _ | .comma :: .closeMap :: after, false =>
      some (entries.reverse, { r with tokens := after })
    | .comma :: after, false => do
      let (entry, r) ← bracketEntry? handles fuel { r with tokens := after }
      bracketEntries? handles false (entry :: entries) fuel r
    | _, true => do
      let (entry, r) ← bracketEntry? handles fuel r
      bracketEntries? handles false (entry :: entries) fuel r
    | _, false => none

/-- An entry of a mapping in brackets; a node alone is a key without a
value. -/
def bracketEntry? (handles : List (Text × Text)) :
    Nat → Reading → Option ((Node × Node) × Reading)
  | 0, _ => none
  | fuel + 1, r =>
    match r.tokens with
    | .key :: after => do
      let (key, r) ←
        orNothing? handles (endsKey .closeMap after) false false fuel { r with tokens := after }
      let (value, r) ← bracketValue? handles .closeMap fuel r
      return ((key, value), r)
    | _ => (read? handles false false fuel r).map fun (key, r) => ((key, nothing), r)

end

/-! ## Nodes that hold themselves -/

/-- The list or the mapping at a place, among nodes with names. -/
def atPlace? (named : List (Text × Node)) (place : Nat) : Option Node :=
  (named.map (·.2)).find? fun node =>
    match node with
    | list here .. | map here .. => here == place
    | word .. | again .. => false

/-- A node inside of those at some places, in which those that hold
themselves are written out until they come again. -/
def unfold (named : List (Text × Node)) : Nat → List Nat → Node → Node
  | 0, _, node => node
  | fuel + 1, outer, node =>
    match node with
    | word tag t => word tag t
    | list place tag items =>
      if outer.contains place then again place false
      else list place tag (items.map (unfold named fuel (place :: outer)))
    | map place tag entries =>
      if outer.contains place then again place true
      else
        let inside := unfold named fuel (place :: outer)
        map place tag (entries.map fun e => (inside e.1, inside e.2))
    | again place isMap =>
      match atPlace? named place with
      | some node => if outer.contains place then again place isMap else unfold named fuel outer node
      | none => again place isMap

/-- A document in which the nodes that hold themselves are written out. What
is said of an entry or an item starts with this, so the document counts as
being there only where it comes again. -/
def unfolded (named : List (Text × Node)) (fuel : Nat) : Node → Node
  | list place tag items => list place tag (items.map (unfold named fuel []))
  | map place tag entries =>
    map place tag (entries.map fun e => (unfold named fuel [] e.1, unfold named fuel [] e.2))
  | node => node

/-! ## Documents -/

/-- What directives say. -/
structure Directives where
  /-- Has the version been named? -/
  versioned : Bool := false
  /-- What handles stand for. -/
  handles : List (Text × Text) := []

/-- What directives say with one more of them. Nothing may be said twice,
and there is only one version. -/
def Directives.with? (ds : Directives) : Directive → Option Directives
  | .version major => if ds.versioned || major != 1 then none else some { ds with versioned := true }
  | .handle name lead =>
    if ds.handles.any (·.1 == name) then none
    else some { ds with handles := ds.handles ++ [(name, lead)] }
  | .other => some ds

/-- The directives before a document, and the tokens behind them. -/
def directives? (ds : Directives) : List Token → Option (Directives × List Token)
  | .directive d :: after =>
    match ds.with? d with
    | some ds => directives? ds after
    | none => none
  | tokens => some (ds, tokens)

/-- Does nothing come behind the marker of a document before these
tokens? -/
def endsDocument : List Token → Bool
  | .directive _ :: _ | .documentStart :: _ | .documentEnd :: _ | [] => true
  | _ => false

/-- Is this the end of the text, but for markers at the end of a
document? -/
def isEnd : List Token → Bool
  | [] => true
  | .documentEnd :: after => isEnd after
  | _ => false

/-- A number that is never less than the nested steps in which tokens are
read. -/
def fuelFor (tokens : List Token) : Nat := 5 * tokens.length + 5

/-- The node of a document behind its marker. -/
def ofContent? (handles : List (Text × Text)) (tokens : List Token) : Option (Node × Reading) :=
  orNothing? handles (endsDocument tokens) true false (fuelFor tokens) { tokens }

/-- The node of the document that some tokens are. -/
def ofDocument? (tokens : List Token) : Option (Node × Reading) :=
  match tokens with
  | .directive _ :: _ | .documentStart :: _ =>
    match directives? {} tokens with
    | some (ds, .documentStart :: after) => ofContent? (ds.handles ++ Tag.handles) after
    | _ => none
  | _ => read? Tag.handles true false (fuelFor tokens) { tokens }

/-- The node that the tokens of a text make; the empty word if there are
none. -/
def ofTokens? (tokens : List Token) : Option Node :=
  if tokens.isEmpty then some nothing
  else match ofDocument? tokens with
    | some (node, r) =>
      if !isEnd r.tokens then none
      else if r.named.isEmpty then some node
      else some (node.unfolded r.named (fuelFor tokens))
    | none => none

end Node

end TaskList.Yaml
