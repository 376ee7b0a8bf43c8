/-
TaskList.Yaml.Read — from the text of a configuration document to its
value.

* `Node.value` — the value of a node, or what is wrong with it and how deep
  that is nested.
* `Yaml.read` — the value of the document in a text. A text without a
  document has the value nothing, and one with two documents has none.

Of several things that are wrong the least deeply nested one is found, and
of those the first. A text that is no document at all is found before any of
them, and before that one in which lists and mappings are nested deeper than
`deepest`. That limit stands for the room on a call stack, and is the only one
of this kind in the library.

A key `<<` takes over the entries of a mapping, or of the mappings in a
list. The entries that a mapping has of its own go before those taken over,
and the earlier mappings in a list before the later ones.
-/
import TaskList.Yaml.Node
import TaskList.Yaml.Tokens

namespace TaskList.Yaml

/-! ## What is wrong, and where -/

/-- Something that is wrong in a document. -/
structure Fault where
  /-- How deep it is nested. -/
  depth : Nat
  /-- What is wrong. -/
  error : ReadError
  deriving Repr

/-- What there is at some place in a document, unless something is wrong
there. -/
abbrev Found := Except Fault

namespace Found

/-- Two things put together; of two faults the less deeply nested one
counts, and the first one if they are nested alike. -/
def both {α β γ : Type} (f : α → β → γ) : Found α → Found β → Found γ
  | .ok a, .ok b => .ok (f a b)
  | .error e, .ok _ => .error e
  | .ok _, .error e => .error e
  | .error e, .error e' => .error (if e'.depth < e.depth then e' else e)

/-- A result at some depth. -/
def atDepth {α : Type} (depth : Nat) : Except ReadError α → Found α
  | .ok a => .ok a
  | .error e => .error ⟨depth, e⟩

end Found

/-! ## Mappings -/

/-- The entries of a mapping with one more. A key that is there already
gets the new value and keeps its place. -/
def putEntry (key value : Value) : List (Value × Value) → List (Value × Value)
  | [] => [(key, value)]
  | (k, v) :: rest => if k.sameKey key then (k, value) :: rest else (k, v) :: putEntry key value rest

/-- A key, which must be neither a list nor a mapping. If something is
wrong inside of it, it is one of these. -/
def keyAt (depth : Nat) (key : Found Value) : Found Value :=
  match key with
  | .ok k => if k.isHashable then .ok k else .error ⟨depth, .malformed⟩
  | .error e => if depth < e.depth then .error ⟨depth, .malformed⟩ else .error e

/-- A key and a value of a mapping. -/
abbrev FoundEntry := Found Value × Found Value

/-- The mapping of some entries at a depth. -/
def mapOf (depth : Nat) (entries : List FoundEntry) : Found Value :=
  (entries.foldl (fun done entry =>
    Found.both (fun done (e : Value × Value) => putEntry e.1 e.2 done) done
      (Found.both Prod.mk (keyAt depth entry.1) entry.2)) (.ok [])).map .map

/-- The mapping of the entries that it takes over, if these can be had, and
of its own at a depth. -/
def mapWith (depth : Nat) (taken : Option (List FoundEntry)) (own : List FoundEntry) :
    Found Value :=
  match taken with
  | some more => mapOf depth (more ++ own)
  | none => .error ⟨depth, .malformed⟩

/-- The set of the keys of a mapping. -/
def keySet : Value → Value
  | .map entries => .set (entries.map (·.1))
  | value => value

namespace Node

/-! ## Values -/

/-- The tag of a node. -/
def tag : Node → Tag
  | word tag _ | list _ tag _ | map _ tag _ => tag
  | again _ isMap => if isMap then .map else .list

/-- The word that a node stands for: itself, or in a mapping what the sign
for a usual value is the key of. `outer` are the places of the mappings that
have been looked into. -/
def asWord (outer : List Nat) : Node → Except ReadError Text
  | word _ t => .ok t
  | list .. => .error .malformed
  | again place _ => .error (if outer.contains place then .tooDeep else .malformed)
  | map place _ entries => usual (place :: outer) entries
where
  /-- The word of the first such key among some entries. -/
  usual (outer : List Nat) : List (Node × Node) → Except ReadError Text
    | [] => .error .malformed
    | (key, node) :: rest => if key.tag = .usual then node.asWord outer else usual outer rest

/-- Is the node a mapping? -/
def isMap : Node → Bool
  | map .. => true
  | _ => false

/-- The value of the word that a node stands for. A date is looked for in
what is written, so a mapping is none. -/
def wordValue (depth : Nat) (tag : Tag) (node : Node) : Found Value :=
  Found.atDepth depth do
    let t ← node.asWord []
    if tag = .timestamp ∧ node.isMap then throw .mappedDate
    Scalar.read tag t

mutual

/-- The value of a node at a depth. What is wrong with the kind of a list or
a mapping shows only inside of it. -/
def value (depth : Nat) : Node → Found Value
  | word tag t =>
    if tag.isCollection then .error ⟨depth + 1, .malformed⟩ else wordValue depth tag (word tag t)
  | list place tag items =>
    match tag with
    | .list => (values (depth + 1) items).map .list
    | .pairs => (pairs (depth + 1) items).map .list
    | .map | .set => .error ⟨depth + 1, .malformed⟩
    | tag => wordValue depth tag (list place tag items)
  | map place tag entries =>
    match tag with
    | .map => mapWith (depth + 1) (taken (depth + 1) entries) (own (depth + 1) entries)
    | .set =>
      (mapWith (depth + 1) (taken (depth + 1) entries) (own (depth + 1) entries)).map keySet
    | .list | .pairs => .error ⟨depth + 1, .malformed⟩
    | tag => wordValue depth tag (map place tag entries)
  | again _ isMap => .ok (.again isMap)

/-- The values of some nodes. -/
def values (depth : Nat) : List Node → Found (List Value)
  | [] => .ok []
  | node :: rest => Found.both List.cons (node.value depth) (values depth rest)

/-- The pairs that some mappings with one entry each make. The signs of other
mappings mean nothing in these. -/
def pairs (depth : Nat) : List Node → Found (List Value)
  | [] => .ok []
  | map _ _ [(key, node)] :: rest =>
    Found.both List.cons (Found.both Value.pair (key.value depth) (node.value depth))
      (pairs depth rest)
  | _ :: _ => .error ⟨depth, .malformed⟩

/-- The entries that a mapping has of its own. The sign for a usual value is
a text if it is a key. -/
def own (depth : Nat) : List (Node × Node) → List FoundEntry
  | [] => []
  | (key, node) :: rest =>
    if key.tag = .merge then own depth rest
    else
      let found := if key.tag = .usual then key.wordValue depth .text else key.value depth
      (found, node.value depth) :: own depth rest

/-- The entries that a mapping takes over; none if there is something that
has no entries among what it takes them from. -/
def taken (depth : Nat) : List (Node × Node) → Option (List FoundEntry)
  | [] => some []
  | (key, node) :: rest =>
    if key.tag = .merge then do return (← node.offered depth) ++ (← taken depth rest)
    else taken depth rest

/-- The entries that a node offers to be taken over, for a mapping at a
depth. Inside of itself it has nothing more to offer. -/
def offered (depth : Nat) : Node → Option (List FoundEntry)
  | word .. => none
  | again .. => some []
  | list _ _ items => return (← offeredByAll depth items).reverse.flatten
  | map _ _ entries => do return (← taken depth entries) ++ own depth entries

/-- The entries of the mappings in a list. -/
def offeredByAll (depth : Nat) : List Node → Option (List (List FoundEntry))
  | [] => some []
  | map _ _ entries :: rest => do
    return ((← taken depth entries) ++ own depth entries) :: (← offeredByAll depth rest)
  | again _ true :: rest => offeredByAll depth rest
  | _ :: _ => none

end

end Node

/-! ## Documents -/

/-- The deepest that lists and mappings may be nested. -/
def deepest : Nat := 490

/-- How deep the lists and mappings of some tokens are nested, by the signs
that begin and end them. -/
def nesting (tokens : List Token) : Nat :=
  (tokens.foldl (fun (now, most) token =>
    match token with
    | .openList | .openMap | .listStart | .mapStart => (now + 1, max most (now + 1))
    | .closeList | .closeMap | .blockEnd => (now - 1, most)
    | _ => (now, most)) (0, 0)).2

/-- The code point that a word names and that there is not. -/
def missing? (tokens : List Token) : Option Nat :=
  tokens.findSome? fun token =>
    match token with
    | .missing code => some code
    | _ => none

/-- The value of the document that some tokens are. -/
def ofTokens (tokens : List Token) : Except ReadError Value :=
  if deepest < nesting tokens then .error .tooDeep
  else if let some code := missing? tokens then .error (.noCharacter code)
  else match Node.ofTokens? tokens with
    | none => .error .malformed
    | some node => (node.value 0).mapError (·.error)

/-- The value of the document in a text. -/
def read (t : Text) : Except ReadError Value :=
  match Tokens.read? t with
  | none => .error .malformed
  | some tokens => ofTokens tokens

end TaskList.Yaml
