import VmMetadata.Yaml.Token

/-!
The node that a YAML text describes: scalars, sequences and mappings. A node can be given a name
and stand for itself again as an alias, even within itself. Names are numbered as they come up.
When a name comes up again it gets the number that the next new name would have had, so that two
names can share a number; a number belongs to the last node that was given it.
-/

namespace VmMetadata.Yaml

structure Scalar where
  text : String
  style : Style
  tag : Option String
  deriving DecidableEq, Repr

inductive Node
  | scalar (s : Scalar)
  | sequence (tag : Option String) (items : List Node)
  | mapping (tag : Option String) (members : List (Node × Node))
  /-- The node that has the number. -/
  | reference (number : Nat)
  deriving Repr

namespace Node

/-- What stands where nothing is written. -/
def empty (tag : Option String) : Node :=
  .scalar ⟨"", .plain, tag⟩

mutual

/-- How many marks a node takes if each scalar and alias counts once, and the beginning and the
end of a collection count each. -/
def size : Node → Nat
  | scalar _ | reference _ => 1
  | sequence _ items => 2 + itemSizes items
  | mapping _ members => 2 + memberSizes members

def itemSizes : List Node → Nat
  | [] => 0
  | n :: rest => n.size + itemSizes rest

def memberSizes : List (Node × Node) → Nat
  | [] => 0
  | (k, v) :: rest => k.size + v.size + memberSizes rest

end

end Node

/-- The names given to nodes so far. Nodes that have a name are counted as they begin. -/
structure Anchors where
  numbers : List (String × Nat)
  /-- Which named node a number was given, the latest first. -/
  owners : List (Nat × Nat)
  begun : Nat
  /-- The named nodes that are complete. -/
  nodes : List (Nat × Node)

namespace Anchors

def none : Anchors := ⟨[], [], 0, []⟩

/-- Gives a name to the node that begins here. -/
def begin (a : Anchors) (name : String) : Anchors :=
  let number := a.numbers.length
  { a with
    numbers := (name, number) :: a.numbers.filter (·.1 ≠ name)
    owners := (number, a.begun) :: a.owners
    begun := a.begun + 1 }

/-- The node that the number belongs to in the end. -/
def node? (a : Anchors) (number : Nat) : Option Node := do
  a.nodes.lookup (← a.owners.lookup number)

end Anchors

/-! Reading nodes off the tokens. -/

structure Reading where
  tokens : List Token
  /-- What the handles of tags stand for. -/
  handles : List (String × String)
  anchors : Anchors

abbrev Grammar := StateT Reading Option

namespace Grammar

def peek : Grammar (Option Token) := do
  pure (← get).tokens.head?

def skip : Grammar Unit :=
  modify fun r => { r with tokens := r.tokens.tail }

/-- Goes over the next token if it is the one. -/
def accept (t : Token) : Grammar Bool := do
  if (← peek) = some t then
    skip
    pure true
  else pure false

def expect (t : Token) : Grammar Unit := do
  if !(← accept t) then failure

/-- How often a loop that goes over tokens can run. -/
def turns : Grammar Nat := do
  pure ((← get).tokens.length + 1)

/-- A node, or nothing in front of one of the tokens. -/
def orNothing (stops : List Token) (element : Grammar Node) : Grammar Node := do
  match ← peek with
  | some t => if stops.contains t then pure (.empty none) else element
  | none => element

/-- The value of a key, which may be missing together with its mark. -/
def valuePart (stops : List Token) (element : Grammar Node) : Grammar Node := do
  if ← accept .value then orNothing stops element else pure (.empty none)

/-- The entries of a block sequence up to its end. -/
def blockItems (element : Grammar Node) : Nat → Grammar (List Node)
  | 0 => failure
  | turns + 1 => do
      if ← accept .blockEnd then pure []
      else
        expect .dash
        let item ← orNothing [.dash, .blockEnd] element
        pure (item :: (← blockItems element turns))

/-- The entries of a sequence that is no further indented than the key in front of it. -/
def sameLevelItems (element : Grammar Node) : Nat → Grammar (List Node)
  | 0 => failure
  | turns + 1 => do
      if ← accept .dash then
        let item ← orNothing [.dash, .key, .value, .blockEnd] element
        pure (item :: (← sameLevelItems element turns))
      else pure []

/-- The members of a block mapping up to its end. -/
def blockMembers (element : Grammar Node) : Nat → Grammar (List (Node × Node))
  | 0 => failure
  | turns + 1 => do
      if ← accept .blockEnd then pure []
      else
        expect .key
        let name ← orNothing [.key, .value, .blockEnd] element
        let v ← valuePart [.key, .value, .blockEnd] element
        pure ((name, v) :: (← blockMembers element turns))

/-- A mapping of one member that stands in a sequence. If nothing is written for its key, the next
token does not count. -/
def pair (element : Grammar Node) : Grammar Node := do
  let name ←
    match ← peek with
    | some .value | some .comma | some .closeBracket => do
        skip
        pure (Node.empty none)
    | _ => element
  let v ← valuePart [.comma, .closeBracket] element
  pure (.mapping none [(name, v)])

/-- Whether another item comes before the closing bracket, which is gone over. -/
def another (close : Token) (isFirst : Bool) : Grammar Bool := do
  if ← accept close then pure false
  else if isFirst then pure true
  else
    expect .comma
    pure !(← accept close)

/-- The items of a sequence in brackets. -/
def flowItems (element : Grammar Node) : Nat → Bool → Grammar (List Node)
  | 0, _ => failure
  | turns + 1, isFirst => do
      if ← another .closeBracket isFirst then
        let item ← if ← accept .key then pair element else element
        pure (item :: (← flowItems element turns false))
      else pure []

/-- The members of a mapping in braces. -/
def flowMembers (element : Grammar Node) : Nat → Bool → Grammar (List (Node × Node))
  | 0, _ => failure
  | turns + 1, isFirst => do
      if ← another .closeBrace isFirst then
        let m ←
          if ← accept .key then do
            let name ← orNothing [.value, .comma, .closeBrace] element
            let v ← valuePart [.comma, .closeBrace] element
            pure (name, v)
          else do
            let name ← element
            pure (name, .empty none)
        pure (m :: (← flowMembers element turns false))
      else pure []

/-- What a tag stands for. -/
def resolve (t : TagText) : Grammar String := do
  if t.handle = "" then pure t.suffix
  else
    match (← get).handles.lookup t.handle with
    | some text => pure (text ++ t.suffix)
    | none => failure

def anchor? : Grammar (Option String) := do
  match ← peek with
  | some (.anchor name) => do
      skip
      pure (some name)
  | _ => pure none

def tag? : Grammar (Option TagText) := do
  match ← peek with
  | some (.tag t) => do
      skip
      pure (some t)
  | _ => pure none

/-- The name and the tag in front of a node, in either order. -/
def properties : Grammar (Option String × Option String) := do
  let anchor ← anchor?
  let tag ← tag?
  let anchor ← if anchor.isNone && tag.isSome then anchor? else pure anchor
  let tag ←
    match tag with
    | some t => some <$> resolve t
    | none => pure none
  pure (anchor, tag)

/-- Where a node stands. -/
inductive Place
  | block
  /-- As a key or a value of a block mapping. -/
  | member
  | flow
  deriving DecidableEq

/-- A scalar whose tag only says that it has one is taken as it is. -/
def scalar (text : String) (style : Style) (tag : Option String) : Node :=
  .scalar ⟨text, style, if tag = some "!" then none else tag⟩

/-- The node itself. Parts of it are read by the given readers. Nothing can stand for a node that
has a name or a tag. -/
def content (element : Place → Grammar Node) (place : Place) (isMarked : Bool)
    (tag : Option String) : Grammar Node := do
  match ← peek, place with
  | some .dash, .member => do
      pure (.sequence tag (← sameLevelItems (element .block) (← turns)))
  | some (.scalar text style), _ => do
      skip
      pure (scalar text style tag)
  | some .openBracket, _ => do
      skip
      pure (.sequence tag (← flowItems (element .flow) (← turns) true))
  | some .openBrace, _ => do
      skip
      pure (.mapping tag (← flowMembers (element .flow) (← turns) true))
  | some .blockSequence, .block | some .blockSequence, .member => do
      skip
      pure (.sequence tag (← blockItems (element .block) (← turns)))
  | some .blockMapping, .block | some .blockMapping, .member => do
      skip
      pure (.mapping tag (← blockMembers (element .member) (← turns)))
  | _, _ => if isMarked then pure (.empty tag) else failure

/-- Reads the node with a name, which is known from its beginning on. -/
def named (name : String) (read : Grammar Node) : Grammar Node := do
  let mark := (← get).anchors.begun
  modify fun r => { r with anchors := r.anchors.begin name }
  let n ← read
  modify fun r => { r with anchors := { r.anchors with nodes := (mark, n) :: r.anchors.nodes } }
  pure n

/-- Reads a node that is nested so deep at most. -/
def node : Nat → Place → Grammar Node
  | 0, _ => failure
  | depth + 1, place => do
      match ← peek with
      | some (.reference name) =>
          match (← get).anchors.numbers.lookup name with
          | some number => do
              skip
              pure (.reference number)
          | none => failure
      | _ => do
          let (anchor, tag) ← properties
          let read := content (node depth) place (anchor.isSome || tag.isSome) tag
          match anchor with
          | some name => named name read
          | none => read

/-- The handles that need no directive. -/
def standardHandles : List (String × String) :=
  [("!", "!"), ("!!", "tag:yaml.org,2002:")]

/-- Goes over the directives of a document: the version at most once, and each handle too. -/
def directives : Nat → Bool → List (String × String) → Grammar (List (String × String))
  | 0, _, _ => failure
  | turns + 1, hasVersion, handles => do
      match ← peek with
      | some (.directive (.version major minor)) =>
          if hasVersion || major != 1 || (minor != 1 && minor != 2) then failure
          else
            skip
            directives turns true handles
      | some (.directive (.tag handle text)) =>
          if (handles.lookup handle).isSome then failure
          else
            skip
            directives turns hasVersion ((handle, text) :: handles)
      | _ => pure handles

/-- The deepest nesting that is read. -/
def nestingLimit : Nat := 128

/-- The node of a document behind its mark. -/
def markedDocument : Grammar Node := do
  let handles ← directives (← turns) false []
  modify fun r => { r with handles := handles ++ r.handles }
  expect .documentStart
  match ← peek with
  | none | some (.directive _) | some .documentStart | some .documentEnd => pure (.empty none)
  | _ => node (nestingLimit + 1) .block

/-- The only document of a text. -/
def document : Grammar Node := do
  let n ←
    match ← peek with
    | none => failure
    | some (.directive _) | some .documentStart => markedDocument
    | _ => node (nestingLimit + 1) .block
  if (← get).tokens.all (· == .documentEnd) then pure n else failure

end Grammar

/-- The node of a text that holds one document, and the nodes that have names in it. -/
def Node.parse? (text : String) : Option (Node × Anchors) := do
  let (n, reading) ←
    Grammar.document.run ⟨← Token.scan? text, Grammar.standardHandles, .none⟩
  pure (n, reading.anchors)

end VmMetadata.Yaml
