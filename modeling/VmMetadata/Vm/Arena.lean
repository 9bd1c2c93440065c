import VmMetadata.Description
import VmMetadata.TypeKind

/-!
The arena: the metadata objects of a virtual machine laid out one after the other. The handle of
an object is its address, which follows from its position alone, so that an object keeps its
handle for ever.
-/

namespace VmMetadata

structure ImageNode where
  name : String
  classes : Array Handle
  /-- Position of its first class in the table of all classes. -/
  classStart : Nat
  deriving Repr

structure ClassNode where
  name : String
  «namespace» : String
  fullName : String
  image : Handle
  parent : Handle
  declaring : Handle
  interfaces : List Handle
  fields : List Handle
  methods : List Handle
  type : Handle
  flags : UInt32
  kind : ClassKind
  typeParameters : List String
  /-- The open definition that a closed class comes from. -/
  definition : Handle
  deriving Repr, DecidableEq

/-- An open generic definition: it has type parameters and they are not closed. -/
def ClassNode.isOpen (c : ClassNode) : Bool :=
  !c.typeParameters.isEmpty && c.definition.isNull

structure TypeNode where
  name : String
  kind : TypeKind
  «class» : Handle
  /-- The reflection object of the type, null until it is asked for. -/
  object : Handle
  deriving Repr, DecidableEq

structure FieldNode where
  name : String
  type : Handle
  offset : Int
  flags : UInt32
  deriving Repr, DecidableEq

structure MethodNode where
  name : String
  «class» : Handle
  returnType : Handle
  parameters : List (String × Handle)
  flags : UInt32
  typeParameters : List String
  inflated : Bool
  address : Option Nat
  instantiations : List InstantiationDescription
  result : Option String
  deriving Repr, DecidableEq

inductive ObjectNode
  /-- The reflection object of a type. -/
  | typeObject (type : Handle)
  | string (value : String)
  | array (elementClass : Handle) (items : List Handle)
  deriving Repr, DecidableEq

inductive Node
  | domain
  | assembly (image : Handle)
  | image (node : ImageNode)
  | class_ (node : ClassNode)
  | type (node : TypeNode)
  | field (node : FieldNode)
  | method (node : MethodNode)
  | object (node : ObjectNode)
  deriving Repr

structure Arena where
  nodes : Array Node
  deriving Repr

namespace Arena

def empty : Arena := ⟨#[]⟩

/-- The address of the first object. -/
def base : Nat := 0x10000000

/-- The distance from one object to the next. -/
def stride : Nat := 0x40

def handleAt (index : Nat) : Handle :=
  ⟨base + index * stride⟩

/-- The position that a handle would name; addresses between two objects name none. -/
def index? (h : Handle) : Option Nat :=
  if base ≤ h.address ∧ (h.address - base) % stride = 0 then
    some ((h.address - base) / stride)
  else none

/-- The handle that the next object gets. -/
def next (a : Arena) : Handle :=
  handleAt a.nodes.size

def push (a : Arena) (node : Node) : Arena :=
  ⟨a.nodes.push node⟩

def get? (a : Arena) (h : Handle) : Option Node := do
  a.nodes[← index? h]?

/-- Puts a node in the place of another. A handle that names nothing changes nothing. -/
def set (a : Arena) (h : Handle) (node : Node) : Arena :=
  match index? h with
  | some i => ⟨a.nodes.setIfInBounds i node⟩
  | none => a

def unknown (h : Handle) (kind : String) : Error :=
  .accessor (.unknown h kind)

def assembly (a : Arena) (h : Handle) : Except Error Handle :=
  match a.get? h with
  | some (.assembly image) => .ok image
  | _ => .error (unknown h "assembly")

def image (a : Arena) (h : Handle) : Except Error ImageNode :=
  match a.get? h with
  | some (.image n) => .ok n
  | _ => .error (unknown h "image")

def class_ (a : Arena) (h : Handle) : Except Error ClassNode :=
  match a.get? h with
  | some (.class_ n) => .ok n
  | _ => .error (unknown h "class")

def type (a : Arena) (h : Handle) : Except Error TypeNode :=
  match a.get? h with
  | some (.type n) => .ok n
  | _ => .error (unknown h "type")

def field (a : Arena) (h : Handle) : Except Error FieldNode :=
  match a.get? h with
  | some (.field n) => .ok n
  | _ => .error (unknown h "field")

def method (a : Arena) (h : Handle) : Except Error MethodNode :=
  match a.get? h with
  | some (.method n) => .ok n
  | _ => .error (unknown h "method")

def object (a : Arena) (h : Handle) : Except Error ObjectNode :=
  match a.get? h with
  | some (.object n) => .ok n
  | _ => .error (unknown h "object")

theorem index?_handleAt (i : Nat) : index? (handleAt i) = some i := by
  simp [index?, handleAt, base, stride]

theorem get?_handleAt (a : Arena) (i : Nat) : a.get? (handleAt i) = a.nodes[i]? := by
  simp [get?, index?_handleAt]

end Arena

end VmMetadata
