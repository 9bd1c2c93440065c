import VmMetadata.Inspect.Member

/-!
What can be read of classes.
-/

namespace VmMetadata

open Query

namespace Image

/-- The file name of the image. -/
def name (i : Image) : Query String :=
  remember i.page .imageName (ask (.imageName i.handle))

end Image

/-- The name of the assembly that an image belongs to: the image's without its extension. -/
def assemblyNameOf (imageName : String) : String :=
  let suffix := ".dll".toList
  if suffix.isSuffixOf imageName.toList then
    String.ofList (imageName.toList.take (imageName.toList.length - suffix.length))
  else imageName

namespace Class

def name (c : Class) : Query String :=
  remember c.page .className (ask (.className c.handle))

def namespace_ (c : Class) : Query String :=
  remember c.page .classNamespace (ask (.classNamespace c.handle))

def type (c : Class) : Query TypeView :=
  remember c.page .classType do view .type (← ask (.classType c.handle))

/-- The name of the class's type, with namespace and generic arguments. -/
def typeName (c : Class) : Query String := do
  (← c.type).name

def image (c : Class) : Query Image :=
  remember c.page .classImage do view .image (← ask (.classImage c.handle))

def assemblyName (c : Class) : Query String := do
  pure (assemblyNameOf (← (← c.image).name))

def parent (c : Class) : Query (Option Class) :=
  remember c.page .classParent do view? .class_ (← ask (.classParent c.handle))

/-- The enclosing class of a nested class. -/
def declaringClass (c : Class) : Query (Option Class) :=
  remember c.page .classDeclaring do view? .class_ (← ask (.classDeclaringType c.handle))

def interfaces (c : Class) : Query (List Class) :=
  remember c.page .classInterfaces do (← ask (.classInterfaces c.handle)).mapM (view .class_)

def fields (c : Class) : Query (List Field) :=
  remember c.page .classFields do (← ask (.classFields c.handle)).mapM (view .field)

/-- The methods in the order of their declaration. A closed class has methods of its own. -/
def methods (c : Class) : Query (List Method) :=
  remember c.page .classMethods do (← ask (.classMethods c.handle)).mapM (view .method)

def flags (c : Class) : Query UInt32 :=
  remember c.page .classFlags (ask (.classFlags c.handle))

def isAbstract (c : Class) : Query Bool := do
  pure ((← c.flags) &&& Attribute.abstractClass != 0)

def isSealed (c : Class) : Query Bool := do
  pure ((← c.flags) &&& Attribute.sealedClass != 0)

def kind (c : Class) : Query ClassKind :=
  remember c.page .classKind do
    if ← ask (.classIsInterface c.handle) then pure .interface
    else if ← ask (.classIsEnum c.handle) then pure .enum
    else if ← ask (.classIsValueType c.handle) then pure .struct
    else pure .class_

def isValueType (c : Class) : Query Bool := do
  let kind ← c.kind
  pure (kind == .struct || kind == .enum)

def isStruct (c : Class) : Query Bool := do
  pure ((← c.kind) == .struct)

def isEnum (c : Class) : Query Bool := do
  pure ((← c.kind) == .enum)

def isInterface (c : Class) : Query Bool := do
  pure ((← c.kind) == .interface)

/-- Whether this is an open generic definition. -/
def isGeneric (c : Class) : Query Bool :=
  remember c.page .classIsGeneric (ask (.classIsGeneric c.handle))

/-- Whether this is a closed instantiation of a generic definition. -/
def isInflated (c : Class) : Query Bool :=
  remember c.page .classIsInflated (ask (.classIsInflated c.handle))

def typeParameterCount (c : Class) : Query Nat :=
  remember c.page .classParameterCount (ask (.classParameterCount c.handle))

/-- The first of the methods with the name and, if it is given, the number of parameters. -/
def firstMethod (name : String) (count : Option Nat) : List Method → Query (Option Method)
  | [] => pure none
  | m :: rest => do
      if (← m.name) != name then firstMethod name count rest
      else
        match count with
        | none => pure (some m)
        | some n =>
            if (← m.parameters).length = n then pure (some m)
            else firstMethod name count rest

def method? (c : Class) (name : String) (count : Option Nat) : Query (Option Method) := do
  firstMethod name count (← c.methods)

def firstField (name : String) : List Field → Query (Option Field)
  | [] => pure none
  | f :: rest => do
      if (← f.name) == name then pure (some f) else firstField name rest

def field? (c : Class) (name : String) : Query (Option Field) := do
  firstField name (← c.fields)

end Class

end VmMetadata
