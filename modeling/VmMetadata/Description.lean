import VmMetadata.Error

/-!
A snapshot: the description of everything a virtual machine has loaded, as it would report it.
Texts name types; addresses are absolute.
-/

namespace VmMetadata

inductive ClassKind
  | class_ | struct | enum | interface
  deriving DecidableEq, Repr, Inhabited

def ClassKind.keyword : ClassKind → String
  | class_ => "class"
  | struct => "struct"
  | enum => "enum"
  | interface => "interface"

def ClassKind.all : List ClassKind :=
  [.class_, .struct, .enum, .interface]

structure FieldDescription where
  name : String
  type : String
  /-- A signed number of 32 bits. -/
  offset : Int := 0
  isStatic : Bool := false
  isReadOnly : Bool := false
  isLiteral : Bool := false
  deriving DecidableEq, Repr, Inhabited

structure ParameterDescription where
  name : String
  type : String
  deriving DecidableEq, Repr, Inhabited

/-- An instantiation of a generic method that is compiled already. -/
structure InstantiationDescription where
  arguments : List String
  address : Nat
  deriving DecidableEq, Repr, Inhabited

structure MethodDescription where
  name : String
  returnType : String := "System.Void"
  parameters : List ParameterDescription := []
  typeParameters : List String := []
  isStatic : Bool := false
  isVirtual : Bool := false
  isAbstract : Bool := false
  /-- The compiled body; of a generic method the body that all reference types share. -/
  address : Option Nat := none
  instantiations : List InstantiationDescription := []
  /-- The string that an invocation returns. -/
  result : Option String := none
  deriving DecidableEq, Repr, Inhabited

structure ClassDescription where
  «namespace» : String := ""
  name : String
  kind : ClassKind := .class_
  /-- Own type parameters; a class that has any is an open generic definition. -/
  typeParameters : List String := []
  /-- Full name of the base class. -/
  parent : Option String := none
  /-- Full name of the enclosing class. -/
  declaringType : Option String := none
  interfaces : List String := []
  isAbstract : Bool := false
  isSealed : Bool := false
  fields : List FieldDescription := []
  methods : List MethodDescription := []
  deriving DecidableEq, Repr, Inhabited

structure AssemblyDescription where
  /-- File name of the image, such as `Assembly-CSharp.dll`. -/
  image : String
  classes : List ClassDescription := []
  deriving DecidableEq, Repr, Inhabited

structure Snapshot where
  vmVersion : String
  pointerSize : Nat := 8
  /-- Where the module with the compiled code begins. -/
  moduleBase : Nat := 0
  /-- In the order of registration. -/
  assemblies : List AssemblyDescription := []
  deriving DecidableEq, Repr, Inhabited

end VmMetadata
