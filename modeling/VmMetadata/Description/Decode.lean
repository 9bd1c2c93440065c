import VmMetadata.Description
import VmMetadata.Record

/-!
Snapshot descriptions read from documents. Every record is closed: a name that is not one of its
fields makes the whole description unreadable.
-/

namespace VmMetadata

open Document Record

variable {δ : Type} [Document δ]

def ClassKind.decode? (d : δ) : Option ClassKind := do
  let name ← choice? d
  ClassKind.all.find? (·.keyword == name)

def FieldDescription.decode? (d : δ) : Option FieldDescription := do
  let [name, type, offset, isStatic, isReadOnly, isLiteral] ←
    fields? ["name", "type", "offset", "is_static", "is_read_only", "is_literal"] d | none
  pure {
    name := ← required text? name
    type := ← required text? type
    offset := ← withDefault 0 int32? offset
    isStatic := ← withDefault false bool? isStatic
    isReadOnly := ← withDefault false bool? isReadOnly
    isLiteral := ← withDefault false bool? isLiteral }

def ParameterDescription.decode? (d : δ) : Option ParameterDescription := do
  let [name, type] ← fields? ["name", "type"] d | none
  pure { name := ← required text? name, type := ← required text? type }

def InstantiationDescription.decode? (d : δ) : Option InstantiationDescription := do
  let [arguments, address] ← fields? ["arguments", "address"] d | none
  pure {
    arguments := ← required (list? text?) arguments
    address := ← required (unsigned? 64) address }

def MethodDescription.decode? (d : δ) : Option MethodDescription := do
  let [name, returnType, parameters, typeParameters, isStatic, isVirtual, isAbstract, address,
      instantiations, result] ←
    fields? ["name", "return_type", "parameters", "generic_parameters", "is_static",
      "is_virtual", "is_abstract", "address", "instantiations", "result"] d | none
  pure {
    name := ← required text? name
    returnType := ← withDefault "System.Void" text? returnType
    parameters := ← withDefault [] (list? ParameterDescription.decode?) parameters
    typeParameters := ← withDefault [] (list? text?) typeParameters
    isStatic := ← withDefault false bool? isStatic
    isVirtual := ← withDefault false bool? isVirtual
    isAbstract := ← withDefault false bool? isAbstract
    address := ← optional (unsigned? 64) address
    instantiations := ← withDefault [] (list? InstantiationDescription.decode?) instantiations
    result := ← optional text? result }

def ClassDescription.decode? (d : δ) : Option ClassDescription := do
  let [nspace, name, kind, typeParameters, parent, declaringType, interfaces, isAbstract,
      isSealed, fields, methods] ←
    fields? ["namespace", "name", "kind", "generic_parameters", "parent", "declaring_type",
      "interfaces", "is_abstract", "is_sealed", "fields", "methods"] d | none
  pure {
    «namespace» := ← withDefault "" text? nspace
    name := ← required text? name
    kind := ← withDefault .class_ ClassKind.decode? kind
    typeParameters := ← withDefault [] (list? text?) typeParameters
    parent := ← optional text? parent
    declaringType := ← optional text? declaringType
    interfaces := ← withDefault [] (list? text?) interfaces
    isAbstract := ← withDefault false bool? isAbstract
    isSealed := ← withDefault false bool? isSealed
    fields := ← withDefault [] (list? FieldDescription.decode?) fields
    methods := ← withDefault [] (list? MethodDescription.decode?) methods }

def AssemblyDescription.decode? (d : δ) : Option AssemblyDescription := do
  let [image, classes] ← fields? ["image", "classes"] d | none
  pure {
    image := ← required text? image
    classes := ← withDefault [] (list? ClassDescription.decode?) classes }

def Snapshot.decode? (d : δ) : Option Snapshot := do
  let [vmVersion, pointerSize, moduleBase, assemblies] ←
    fields? ["vm_version", "pointer_size", "module_base", "assemblies"] d | none
  pure {
    vmVersion := ← required text? vmVersion
    pointerSize := ← withDefault 8 (unsigned? 64) pointerSize
    moduleBase := ← withDefault 0 (unsigned? 64) moduleBase
    assemblies := ← withDefault [] (list? AssemblyDescription.decode?) assemblies }

end VmMetadata
