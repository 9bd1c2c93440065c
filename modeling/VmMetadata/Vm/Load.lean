import Std.Data.TreeMap
import VmMetadata.Vm.Arena
import VmMetadata.Layout
import VmMetadata.Vm.TypeName

/-!
A snapshot laid out in an arena. First every image and class gets its place, then parents, fields
and methods are linked. Names are looked up in two tables over all images, in which the first
class of a name stays; types that no class describes are made when first named, once for each
name.
-/

namespace VmMetadata

open Std (TreeMap)

namespace Attribute

def interface : UInt32 := 0x0020
def abstractClass : UInt32 := 0x0080
def sealedClass : UInt32 := 0x0100
def staticMethod : UInt32 := 0x0010
def virtualMethod : UInt32 := 0x0040
def abstractMethod : UInt32 := 0x0400
def staticField : UInt32 := 0x0010
def readOnlyField : UInt32 := 0x0020
def literalField : UInt32 := 0x0040

/-- The bits of an attribute, if it applies. -/
def when (applies : Bool) (bits : UInt32) : UInt32 :=
  if applies then bits else 0

end Attribute

open Attribute

def ClassDescription.fullName (c : ClassDescription) : String :=
  match c.declaringType with
  | some declaring => declaring ++ "." ++ c.name
  | none => if c.namespace = "" then c.name else c.namespace ++ "." ++ c.name

/-- A name with type arguments or parameters in angle brackets. -/
def genericName (name : String) (arguments : List String) : String :=
  name ++ "<" ++ ", ".intercalate arguments ++ ">"

/-- The full name, with the type parameters of an open definition. -/
def ClassDescription.typeName (c : ClassDescription) : String :=
  if c.typeParameters = [] then c.fullName else genericName c.fullName c.typeParameters

/-- Interfaces are abstract and value types are sealed. -/
def ClassDescription.flags (c : ClassDescription) : UInt32 :=
  when (c.kind = .interface) interface |||
    when (c.isAbstract || c.kind = .interface) abstractClass |||
    when (c.isSealed || c.kind = .struct || c.kind = .enum) sealedClass

/-- Literals are static. -/
def FieldDescription.flags (f : FieldDescription) : UInt32 :=
  when (f.isStatic || f.isLiteral) staticField |||
    when f.isReadOnly readOnlyField |||
    when f.isLiteral literalField

/-- Abstract methods are virtual. -/
def MethodDescription.flags (m : MethodDescription) : UInt32 :=
  when m.isStatic staticMethod |||
    when (m.isVirtual || m.isAbstract) virtualMethod |||
    when m.isAbstract abstractMethod

/-- The representation of a described class, which its kind decides unless the core library has
a representation for its name. -/
def ClassDescription.typeKind (c : ClassDescription) : TypeKind :=
  match TypeName.kind c.fullName with
  | .classType | .genericInst =>
      if c.kind = .struct ∨ c.kind = .enum then .valueType else .classType
  | builtin => builtin

/-- The image that holds the core library. -/
def corlibImage : String := "mscorlib.dll"

/-- The classes of the core library where the snapshot describes none. -/
def builtinCorlib : List ClassDescription :=
  let root : Option String := some "System.Object"
  [{ «namespace» := "System", name := "Object" },
    { «namespace» := "System", name := "ValueType", parent := root, isAbstract := true },
    { «namespace» := "System", name := "Enum", parent := some "System.ValueType",
      isAbstract := true },
    { «namespace» := "System", name := "Type", parent := root, isAbstract := true },
    { «namespace» := "System", name := "String", parent := root, isSealed := true }]

/-- Classes of the core library that other classes and objects refer to; null where there are
none. -/
structure WellKnown where
  object : Handle
  valueType : Handle
  enumeration : Handle
  typeClass : Handle
  string : Handle
  deriving DecidableEq, Repr

/-- An arena under construction with the tables of types and classes by name. -/
structure Loader where
  arena : Arena
  types : TreeMap String Handle
  classes : TreeMap String Handle

/-- One step of loading. -/
abbrev Load := StateM Loader

namespace Load

def push (node : Node) : Load Handle := fun l =>
  (l.arena.next, { l with arena := l.arena.push node })

def set (h : Handle) (node : Node) : Load Unit := fun l =>
  ((), { l with arena := l.arena.set h node })

def classNamed (name : String) : Load Handle := fun l =>
  (l.classes[name]?.getD .null, l)

/-- Enters a class and its type under the name, unless the name is taken. -/
def register (name : String) (cls type : Handle) : Load Unit := fun l =>
  ((), { l with
    classes := l.classes.insertIfNew name cls
    types := l.types.insertIfNew name type })

/-- Where the type of a normalized name is kept, and what represents it: parameters of the
method come before those of the class, and both before all other names. -/
def typeKey (name : String) (classScope methodScope : List String) : String × TypeKind :=
  if methodScope.contains name then ("!!" ++ name, .mvar)
  else if classScope.contains name then ("!" ++ name, .var)
  else (name, TypeName.kind name)

/-- The type that a text names in the scope of a class and a method. -/
def internType (text : String) (classScope methodScope : List String) : Load Handle := do
  let name := TypeName.normalized text
  let (key, kind) := typeKey name classScope methodScope
  match (← get).types[key]? with
  | some type => pure type
  | none =>
      let type ← push (.type { name, kind, «class» := .null, object := .null })
      modify fun l => { l with types := l.types.insert key type }
      pure type

/-- The class before it is linked. -/
def declaredClass (image type : Handle) (c : ClassDescription) : ClassNode where
  name := c.name
  «namespace» := c.namespace
  fullName := c.fullName
  image
  parent := .null
  declaring := .null
  interfaces := []
  fields := []
  methods := []
  type
  flags := c.flags
  kind := c.kind
  typeParameters := c.typeParameters
  definition := .null

/-- A place for the class and, next to it, one for its type. -/
def declareClass (image : Handle) (c : ClassDescription) : Load Handle := do
  let cls ← push (.class_ (declaredClass image .null c))
  let type ← push (.type {
    name := c.typeName, kind := c.typeKind, «class» := cls, object := .null })
  set cls (.class_ (declaredClass image type c))
  register c.fullName cls type
  pure cls

/-- A place for the image, followed by its classes. -/
def declareImage (name : String) (classes : List ClassDescription) (classStart : Nat) :
    Load (Handle × List Handle) := do
  let image ← push (.image { name, classes := #[], classStart })
  let handles ← classes.mapM (declareClass image)
  set image (.image { name, classes := handles.toArray, classStart })
  pure (image, handles)

/-- What the places of all assemblies amount to. -/
structure Declared where
  assemblies : List Handle
  globalClasses : List Handle
  /-- The last image with the core library's name. -/
  corlib : Option Handle
  /-- Classes that wait for their links. -/
  pending : List (Handle × ClassDescription)

def declareAssemblies : List AssemblyDescription → Nat → Load Declared
  | [], _ => pure ⟨[], [], none, []⟩
  | a :: rest, classStart => do
      let (image, classes) ← declareImage a.image a.classes (word32 classStart)
      let assembly ← push (.assembly image)
      let others ← declareAssemblies rest (classStart + classes.length)
      pure {
        assemblies := assembly :: others.assemblies
        globalClasses := classes ++ others.globalClasses
        corlib := others.corlib.or (if a.image = corlibImage then some image else none)
        pending := classes.zip a.classes ++ others.pending }

def linkField (c : ClassDescription) (f : FieldDescription) : Load Handle := do
  let type ← internType f.type c.typeParameters []
  push (.field { name := f.name, type, offset := f.offset, flags := f.flags })

def linkMethod (cls : Handle) (c : ClassDescription) (m : MethodDescription) : Load Handle := do
  let returnType ← internType m.returnType c.typeParameters m.typeParameters
  let parameters ← m.parameters.mapM fun p => do
    pure (p.name, ← internType p.type c.typeParameters m.typeParameters)
  push (.method {
    name := m.name
    «class» := cls
    returnType
    parameters
    flags := m.flags
    typeParameters := m.typeParameters
    inflated := false
    address := if m.isAbstract then none else m.address
    instantiations := m.instantiations
    result := m.result })

/-- The base class: the one that is named, else the usual one for the kind of class. The root
of all classes and interfaces have none. -/
def parentOf (known : WellKnown) (cls : Handle) (c : ClassDescription) : Load Handle :=
  match c.parent, c.kind with
  | some name, _ => classNamed (TypeName.normalized name)
  | none, .class_ => pure (if cls = known.object then .null else known.object)
  | none, .struct => pure known.valueType
  | none, .enum => pure known.enumeration
  | none, .interface => pure .null

/-- The enclosing class, null if there is none or none of its name. -/
def declaringOf (c : ClassDescription) : Load Handle :=
  match c.declaringType with
  | some name => classNamed name
  | none => pure .null

def linkClass (known : WellKnown) (cls : Handle) (c : ClassDescription) : Load Unit := do
  let parent ← parentOf known cls c
  let declaring ← declaringOf c
  let interfaces ← c.interfaces.mapM fun name => classNamed (TypeName.normalized name)
  let fields ← c.fields.mapM (linkField c)
  let methods ← c.methods.mapM (linkMethod cls c)
  modify fun l =>
    match l.arena.get? cls with
    | some (.class_ node) =>
        { l with arena := l.arena.set cls (.class_ { node with
            parent, declaring, interfaces := interfaces.filter (!·.isNull), fields, methods }) }
    | _ => l

/-- The image of the core library, and the classes that wait for their links where it has to be
made up. -/
def corlibOf (declared : Declared) : Load (Handle × List (Handle × ClassDescription)) :=
  match declared.corlib with
  | some image => pure (image, [])
  | none => do
      let (image, classes) ← declareImage corlibImage builtinCorlib 0
      pure (image, classes.zip builtinCorlib)

def wellKnown : Load WellKnown := do
  pure {
    object := ← classNamed "System.Object"
    valueType := ← classNamed "System.ValueType"
    enumeration := ← classNamed "System.Enum"
    typeClass := ← classNamed "System.Type"
    string := ← classNamed "System.String" }

end Load

/-- What a loaded snapshot fixes once and for all. -/
structure Catalog where
  vmVersion : String
  /-- Whether the build hides the classes of an image behind windows. -/
  isLegacy : Bool
  pointerSize : Nat
  moduleBase : Nat
  domain : Handle
  assemblies : List Handle
  corlib : Handle
  globalClasses : Array Handle
  wellKnown : WellKnown
  deriving Repr

def isLegacyBuild (vmVersion : String) : Bool :=
  match Version.parse vmVersion with
  | .ok v => v.isBelow Version.imageAccessorSince
  | .error _ => false

/-- Lays out the whole snapshot. The core library comes last if it has to be made up, and is
no assembly then. -/
def Load.snapshot (s : Snapshot) : Load Catalog := do
  let domain ← push .domain
  let declared ← declareAssemblies s.assemblies 0
  let (corlib, builtin) ← corlibOf declared
  let known ← Load.wellKnown
  (declared.pending ++ builtin).forM fun (cls, c) => linkClass known cls c
  pure {
    vmVersion := s.vmVersion
    isLegacy := isLegacyBuild s.vmVersion
    pointerSize := s.pointerSize
    moduleBase := s.moduleBase
    domain
    assemblies := declared.assemblies
    corlib
    globalClasses := declared.globalClasses.toArray
    wellKnown := known }

end VmMetadata
