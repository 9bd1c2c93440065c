import VmMetadata.Vm.State

/-!
Generic instantiation by the virtual machine. Type arguments arrive as an array of reflection
objects. A class is closed once for each list of arguments. Of a method, an instantiation that is
compiled is registered once; any other is made anew each time.
-/

namespace VmMetadata

/-- Type parameters by name with the types that take their place. -/
structure Substitution where
  names : List String
  types : List Handle

namespace Substitution

def empty : Substitution := ⟨[], []⟩

/-- The type for the first parameter of the name. -/
def find? (σ : Substitution) (name : String) : Option Handle := do
  σ.types[← σ.names.idxOf? name]?

end Substitution

/-- A parameter of the class or the method replaced by its type; any other type stays. -/
def Arena.substitute (a : Arena) (cls method : Substitution) (type : Handle) : Handle :=
  match a.type type with
  | .ok node =>
      match node.kind with
      | .var => (cls.find? node.name).getD type
      | .mvar => (method.find? node.name).getD type
      | _ => type
  | .error _ => type

namespace Access

def substitute (cls method : Substitution) (type : Handle) : Access Handle :=
  read fun vm => vm.arena.substitute cls method type

/-- The type of a reflection object. -/
def typeArgument (item : Handle) : Access Handle := do
  match ← objectNode item with
  | .typeObject type => pure type
  | _ => refuse (.notTypeObject item)

/-- The types whose reflection objects the array holds. -/
def typeArguments (array : Handle) : Access (List Handle) := do
  match ← objectNode array with
  | .array _ items => items.mapM typeArgument
  | _ => refuse (.notArray array)

def typeNames (types : List Handle) : Access (List String) :=
  types.mapM fun t => do pure (← typeNode t).name

def substituteParameters (cls method : Substitution) (parameters : List (String × Handle)) :
    Access (List (String × Handle)) :=
  parameters.mapM fun (name, type) => do pure (name, ← substitute cls method type)

/-- A field of a closed class. -/
def closeField (σ : Substitution) (field : Handle) : Access Handle := do
  let node ← fieldNode field
  push (.field { node with type := ← substitute σ .empty node.type })

/-- A method of a closed class. -/
def closeMethod (inflated : Handle) (σ : Substitution) (method : Handle) : Access Handle := do
  let node ← methodNode method
  push (.method { node with
    «class» := inflated
    returnType := ← substitute σ .empty node.returnType
    parameters := ← substituteParameters σ .empty node.parameters
    inflated := true })

/-- The new closed class, with copies of the definition's fields and methods. -/
def closeClass (cls : Handle) (definition : ClassNode) (arguments : List Handle) :
    Access Handle := do
  let names ← typeNames arguments
  let σ : Substitution := ⟨definition.typeParameters, arguments⟩
  let inflated ← push (.class_ { definition with definition := cls, fields := [], methods := [] })
  let type ← push (.type {
    name := genericName definition.fullName names
    kind := .genericInst
    «class» := inflated
    object := .null })
  let fields ← definition.fields.mapM (closeField σ)
  let methods ← definition.methods.mapM (closeMethod inflated σ)
  let node ← classNode inflated
  set inflated (.class_ { node with type, fields, methods })
  pure inflated

/-- Closes a definition over as many types as it has parameters and puts the result on record. -/
def closeNew (cls : Handle) (arguments : List Handle) : Access Handle := do
  let definition ← classNode cls
  if !definition.isOpen then refuse (.notDefinition definition.fullName)
  else if definition.typeParameters.length ≠ arguments.length then
    refuse (.wrongArity definition.fullName definition.typeParameters.length)
  else do
    let result ← closeClass cls definition arguments
    modify fun vm => { vm with
      classInstances := ⟨cls, arguments, result⟩ :: vm.classInstances }
    pure result

def inflateClass (cls array : Handle) : Access Handle := do
  let arguments ← typeArguments array
  match Instance.find? cls arguments (← read (·.classInstances)) with
  | some result => pure result
  | none => closeNew cls arguments

/-- A closed copy of a generic method. -/
def pushMethodInstance (method : Handle) (arguments : List Handle) (address : Option Nat) :
    Access Handle := do
  let definition ← methodNode method
  let σ : Substitution := ⟨definition.typeParameters, arguments⟩
  push (.method { definition with
    returnType := ← substitute .empty σ definition.returnType
    parameters := ← substituteParameters .empty σ definition.parameters
    typeParameters := []
    inflated := true
    address
    instantiations := [] })

end Access

/-- The address of the first compiled instantiation whose arguments have these names. -/
def compiledAddress? (names : List String) (instantiations : List InstantiationDescription) :
    Option Nat :=
  (instantiations.find? fun i => i.arguments.map TypeName.normalized == names).map
    InstantiationDescription.address

namespace Access

/-- Instantiates a method that is compiled for types of these names and puts the result on
record; null if it is not compiled. -/
def compileNew (method : Handle) (arguments : List Handle) : Access Handle := do
  let names ← typeNames arguments
  match compiledAddress? names (← methodNode method).instantiations with
  | none => pure .null
  | some address => do
      let result ← pushMethodInstance method arguments (some address)
      modify fun vm => { vm with
        methodInstances := ⟨method, arguments, result⟩ :: vm.methodInstances }
      pure result

/-- The registered instantiation of a method, null if it has none that is compiled. -/
def findInflatedMethod (method array : Handle) : Access Handle := do
  let arguments ← typeArguments array
  match Instance.find? method arguments (← read (·.methodInstances)) with
  | some result => pure result
  | none => compileNew method arguments

/-- A new instantiation of a method with the body that the method itself has. -/
def inflateMethodRaw (method array : Handle) : Access Handle := do
  let arguments ← typeArguments array
  let definition ← methodNode method
  if definition.typeParameters.length ≠ arguments.length then
    refuse (.wrongArity definition.name definition.typeParameters.length)
  else pushMethodInstance method arguments definition.address

end Access

end VmMetadata
