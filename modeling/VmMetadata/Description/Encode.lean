import VmMetadata.Description
import VmMetadata.Json.Value

/-!
Snapshot descriptions written as JSON values, every field with its name and an absent one as
null.
-/

namespace VmMetadata

open Json

def FieldDescription.toJson (f : FieldDescription) : Json :=
  obj [("name", str f.name), ("type", str f.type), ("offset", int f.offset),
    ("is_static", bool f.isStatic), ("is_read_only", bool f.isReadOnly),
    ("is_literal", bool f.isLiteral)]

def ParameterDescription.toJson (p : ParameterDescription) : Json :=
  obj [("name", str p.name), ("type", str p.type)]

def InstantiationDescription.toJson (i : InstantiationDescription) : Json :=
  obj [("arguments", ofList str i.arguments), ("address", nat i.address)]

def MethodDescription.toJson (m : MethodDescription) : Json :=
  obj [("name", str m.name), ("return_type", str m.returnType),
    ("parameters", ofList ParameterDescription.toJson m.parameters),
    ("generic_parameters", ofList str m.typeParameters), ("is_static", bool m.isStatic),
    ("is_virtual", bool m.isVirtual), ("is_abstract", bool m.isAbstract),
    ("address", ofOption nat m.address),
    ("instantiations", ofList InstantiationDescription.toJson m.instantiations),
    ("result", ofOption str m.result)]

def ClassDescription.toJson (c : ClassDescription) : Json :=
  obj [("namespace", str c.namespace), ("name", str c.name), ("kind", str c.kind.keyword),
    ("generic_parameters", ofList str c.typeParameters), ("parent", ofOption str c.parent),
    ("declaring_type", ofOption str c.declaringType), ("interfaces", ofList str c.interfaces),
    ("is_abstract", bool c.isAbstract), ("is_sealed", bool c.isSealed),
    ("fields", ofList FieldDescription.toJson c.fields),
    ("methods", ofList MethodDescription.toJson c.methods)]

def AssemblyDescription.toJson (a : AssemblyDescription) : Json :=
  obj [("image", str a.image), ("classes", ofList ClassDescription.toJson a.classes)]

def Snapshot.toJson (s : Snapshot) : Json :=
  obj [("vm_version", str s.vmVersion), ("pointer_size", nat s.pointerSize),
    ("module_base", nat s.moduleBase),
    ("assemblies", ofList AssemblyDescription.toJson s.assemblies)]

end VmMetadata
