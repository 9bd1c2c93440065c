import VmMetadata.Inspect.Domain

/-!
A survey: everything that can be read from the domain down without making anything.
-/

namespace VmMetadata

open Query

structure SurveyedType where
  type : TypeView
  name : String
  kind : TypeKind
  class? : Option Class

structure SurveyedField where
  field : Field
  name : String
  type : SurveyedType
  offset : Int
  flags : UInt32

structure SurveyedMethod where
  method : Method
  name : String
  returnType : SurveyedType
  parameters : List (String × SurveyedType)
  flags : UInt32
  isGeneric : Bool
  typeParameterCount : Nat
  isInflated : Bool
  address : Option String

structure SurveyedClass where
  class_ : Class
  name : String
  «namespace» : String
  type : SurveyedType
  assembly : String
  parent : Option Class
  declaring : Option Class
  interfaces : List Class
  flags : UInt32
  kind : ClassKind
  isGeneric : Bool
  typeParameterCount : Nat
  fields : List SurveyedField
  methods : List SurveyedMethod

structure SurveyedAssembly where
  assembly : Assembly
  name : String
  image : Image
  imageName : String
  classStart : Nat
  classCount : Nat
  classes : List SurveyedClass

def TypeView.survey (t : TypeView) : Query SurveyedType := do
  let class? ← t.class?
  pure { type := t, name := ← t.name, kind := ← t.kind, class? }

def Field.survey (f : Field) : Query SurveyedField := do
  pure {
    field := f
    name := ← f.name
    type := ← (← f.type).survey
    offset := ← f.offset
    flags := ← f.flags }

/-- The parameters are read before the method itself. -/
def Method.survey (m : Method) : Query SurveyedMethod := do
  let parameters ← (← m.parameters).mapM fun p => do pure (p.name, ← p.type.survey)
  pure {
    method := m
    name := ← m.name
    returnType := ← (← m.returnType).survey
    parameters
    flags := ← m.flags
    isGeneric := ← m.isGeneric
    typeParameterCount := ← m.typeParameterCount
    isInflated := ← m.isInflated
    address := ← m.addressToken? }

/-- The members are read before the class itself. -/
def Class.survey (c : Class) : Query SurveyedClass := do
  let fields ← (← c.fields).mapM Field.survey
  let methods ← (← c.methods).mapM Method.survey
  pure {
    class_ := c
    name := ← c.name
    «namespace» := ← c.namespace_
    type := ← (← c.type).survey
    assembly := ← c.assemblyName
    parent := ← c.parent
    declaring := ← c.declaringClass
    interfaces := ← c.interfaces
    flags := ← c.flags
    kind := ← c.kind
    isGeneric := ← c.isGeneric
    typeParameterCount := ← c.typeParameterCount
    fields
    methods }

/-- The classes are read before the assembly itself. -/
def Assembly.survey (a : Assembly) : Query SurveyedAssembly := do
  let image ← a.image
  let classes ← (← image.classes).mapM Class.survey
  pure {
    assembly := a
    name := ← a.name
    image
    imageName := ← image.name
    classStart := ← image.classStart
    classCount := ← image.classCount
    classes }

/-- The survey of all assemblies in their order. The first failure ends it. -/
def survey : Query (List SurveyedAssembly) := do
  (← (← domain).assemblies).mapM Assembly.survey

end VmMetadata
