import VmMetadata.Record
import VmMetadata.Yaml.Node

/-!
YAML documents as documents that records are read from. Every scalar is a text. Only plain scalars
are also booleans, numbers or absent, by the core rules of YAML 1.2 with binary and signed prefixed
numbers besides. Nothing at all also stands for an empty collection. Aliases are replaced before
records are read; a document that repeats itself too often is not read at all.
-/

namespace VmMetadata.Yaml

namespace Node

mutual

/-- The node with something in the place of its aliases. -/
def replaceAliases (find : Nat → StateT Nat Option Node) : Node → StateT Nat Option Node
  | .scalar s => pure (.scalar s)
  | .sequence tag items => do pure (.sequence tag (← replaceInItems find items))
  | .mapping tag members => do pure (.mapping tag (← replaceInMembers find members))
  | .reference number => find number

def replaceInItems (find : Nat → StateT Nat Option Node) :
    List Node → StateT Nat Option (List Node)
  | [] => pure []
  | n :: rest => do
      let n ← replaceAliases find n
      pure (n :: (← replaceInItems find rest))

def replaceInMembers (find : Nat → StateT Nat Option Node) :
    List (Node × Node) → StateT Nat Option (List (Node × Node))
  | [] => pure []
  | (k, v) :: rest => do
      let k ← replaceAliases find k
      let v ← replaceAliases find v
      pure ((k, v) :: (← replaceInMembers find rest))

end

end Node

namespace Anchors

/-- The node of a number without aliases. Each alias uses up one of the replacements that are left;
aliases within what stands for aliases go so deep at most. -/
def follow (a : Anchors) : Nat → Nat → StateT Nat Option Node
  | 0, _ => failure
  | depth + 1, number => do
      match ← get with
      | 0 => failure
      | left + 1 => do
          set left
          (← a.node? number).replaceAliases (follow a depth)

end Anchors

/-- How many aliases are replaced for each mark of a document at most. -/
def replacementsPerMark : Nat := 100

/-- The node of a text, without aliases. -/
def parse? (text : String) : Option Node := do
  let (n, anchors) ← Node.parse? text
  let (n, _) ← (n.replaceAliases (anchors.follow (Grammar.nestingLimit + 1))).run
    (replacementsPerMark * n.size)
  pure n

/-! What scalars mean. -/

def isNullText (text : String) : Bool :=
  ["null", "Null", "NULL", "~"].contains text

def boolOf? : String → Option Bool
  | "true" | "True" | "TRUE" => some true
  | "false" | "False" | "FALSE" => some false
  | _ => none

/-- The value of a run of digits. -/
def digitsValue? (radix : Nat) (cs : List Char) : Option Nat :=
  if cs = [] then none
  else
    cs.foldlM (fun n c => do
      let digit ← Text.Hex.digitValue? c
      if digit < radix then pure (radix * n + digit) else none) 0

/-- A number without a sign: decimal without idle zeros in front, or with a mark of its radix. -/
def magnitude? : List Char → Option Nat
  | '0' :: 'x' :: cs => digitsValue? 16 cs
  | '0' :: 'o' :: cs => digitsValue? 8 cs
  | '0' :: 'b' :: cs => digitsValue? 2 cs
  | '0' :: _ :: _ => none
  | cs => digitsValue? 10 cs

def natOf? : List Char → Option Nat
  | '+' :: cs => magnitude? cs
  | cs => magnitude? cs

def intOf? : List Char → Option Int
  | '+' :: cs => (magnitude? cs).map Int.ofNat
  | '-' :: cs => (magnitude? cs).map fun n => -(n : Int)
  | cs => (magnitude? cs).map Int.ofNat

namespace Scalar

def tagNull : String := "tag:yaml.org,2002:null"
def tagBool : String := "tag:yaml.org,2002:bool"
def tagInt : String := "tag:yaml.org,2002:int"

/-- Whether nothing is written. -/
def isNothing (s : Scalar) : Bool :=
  s.text == "" && s.style == .plain

/-- Whether the scalar may mean more than its text: it is plain, or a literal block with the tag. -/
def mayMean (s : Scalar) (tag : String) : Bool :=
  s.style == .plain || (s.style == .literal && s.tag == some tag)

/-- Whether the scalar stands for an absent value. With the tag for that, it has to. -/
def isAbsent? (s : Scalar) : Option Bool :=
  if s.style ≠ .plain then some false
  else
    match s.tag with
    | none => some (s.text == "" || isNullText s.text)
    | some tag =>
        if tag = tagNull then if isNullText s.text then some true else none else some false

/-- The name in a tag of one's own. -/
def tagName? (tag : Option String) : Option String := do
  match (← tag).toList with
  | '!' :: c :: cs => some (String.ofList (c :: cs))
  | '!' :: [] => some "!"
  | _ => none

/-- The chosen name: that of the tag, with nothing besides, or else the text. -/
def choice? (s : Scalar) : Option String :=
  match tagName? s.tag with
  | some name =>
      if s.style = .plain ∧ (s.text = "" ∨ isNullText s.text) then some name else none
  | none => some s.text

end Scalar

namespace Node

def scalar? : Node → Option Scalar
  | .scalar s => some s
  | _ => none

def items? : Node → Option (List Node)
  | .sequence _ items => some items
  | .scalar s => if s.isNothing then some [] else none
  | _ => none

/-- The members by the texts of their keys. -/
def named? : Node → Option (List (String × Node))
  | .mapping _ members => members.mapM fun (k, v) => do pure ((← k.scalar?).text, v)
  | .scalar s => if s.isNothing then some [] else none
  | _ => none

end Node

instance : Document Node where
  text? n := n.scalar?.map Scalar.text
  bool? n := do
    let s ← n.scalar?
    if s.mayMean Scalar.tagBool then boolOf? s.text else none
  nat? n := do
    let s ← n.scalar?
    if s.mayMean Scalar.tagInt then natOf? s.text.toList else none
  int? n := do
    let s ← n.scalar?
    if s.mayMean Scalar.tagInt then intOf? s.text.toList else none
  isNull?
    | .scalar s => s.isAbsent?
    | _ => some false
  items? := Node.items?
  choice? n := do (← n.scalar?).choice?
  named? := Node.named?
  ordered? _ := none

end VmMetadata.Yaml
