import VmMetadata.Json.Writer
import VmMetadata.Handle

/-!
The calls by which a virtual machine is read: its exported entry points and the typed reads of its
memory. A call carries its arguments, and its type says what an answer looks like.
-/

namespace VmMetadata

/-- The shapes of answers. -/
inductive Reply
  | handle | handles | number | byte | flags | offset | flag | text | done
  deriving DecidableEq, Repr

/-- What an answer of the shape is. -/
@[reducible] def Reply.Value : Reply → Type
  | handle => Handle
  | handles => List Handle
  | number => Nat
  | byte => UInt8
  | flags => UInt32
  | offset => Int
  | flag => Bool
  | text => String
  | done => Unit

inductive Call : Reply → Type
  | pointerSize : Call .number
  | moduleBase : Call .number
  | vmVersion : Call .text
  | alloc (size : Nat) : Call .handle
  | writeBytes (at_ : Handle) (bytes : List UInt8) : Call .done
  | domainGet : Call .handle
  | domainAssemblies (domain : Handle) : Call .handles
  | assemblyImage (assembly : Handle) : Call .handle
  | corlib : Call .handle
  | imageName (image : Handle) : Call .text
  | imageClassCount (image : Handle) : Call .number
  | imageClassStart (image : Handle) : Call .number
  | imageGetClass (image : Handle) (index : Nat) : Call .handle
  /-- The class that a type, or a type descriptor in scratch memory, describes. -/
  | classFromType (descriptor : Handle) : Call .handle
  | classFromName (image : Handle) (namespace_ name : String) : Call .handle
  | className (cls : Handle) : Call .text
  | classNamespace (cls : Handle) : Call .text
  | classImage (cls : Handle) : Call .handle
  | classParent (cls : Handle) : Call .handle
  | classDeclaringType (cls : Handle) : Call .handle
  | classInterfaces (cls : Handle) : Call .handles
  | classFields (cls : Handle) : Call .handles
  | classMethods (cls : Handle) : Call .handles
  | classType (cls : Handle) : Call .handle
  | classFlags (cls : Handle) : Call .flags
  | classIsValueType (cls : Handle) : Call .flag
  | classIsEnum (cls : Handle) : Call .flag
  | classIsInterface (cls : Handle) : Call .flag
  | classIsGeneric (cls : Handle) : Call .flag
  | classIsInflated (cls : Handle) : Call .flag
  | classParameterCount (cls : Handle) : Call .number
  | typeName (type : Handle) : Call .text
  | typeKind (type : Handle) : Call .byte
  | typeClass (type : Handle) : Call .handle
  /-- The reflection object of a type. -/
  | typeObject (type : Handle) : Call .handle
  | fieldName (field : Handle) : Call .text
  | fieldType (field : Handle) : Call .handle
  | fieldOffset (field : Handle) : Call .offset
  | fieldFlags (field : Handle) : Call .flags
  | methodName (method : Handle) : Call .text
  | methodClass (method : Handle) : Call .handle
  | methodReturnType (method : Handle) : Call .handle
  | methodFlags (method : Handle) : Call .flags
  | methodParameterCount (method : Handle) : Call .number
  | methodParameterName (method : Handle) (index : Nat) : Call .text
  | methodParameterType (method : Handle) (index : Nat) : Call .handle
  | methodIsGeneric (method : Handle) : Call .flag
  | methodIsInflated (method : Handle) : Call .flag
  | methodTypeParameterCount (method : Handle) : Call .number
  /-- The address of the compiled body, zero if there is none. -/
  | methodPointer (method : Handle) : Call .number
  | methodInvoke (method object : Handle) (arguments : List Handle) : Call .handle
  | objectClass (object : Handle) : Call .handle
  | stringChars (string : Handle) : Call .text
  | arrayNew (elementClass : Handle) (length : Nat) : Call .handle
  | arrayLength (array : Handle) : Call .number
  | arrayGet (array : Handle) (index : Nat) : Call .handle
  | arraySet (array : Handle) (index : Nat) (value : Handle) : Call .done
  /-- Closes a generic class over an array of reflection objects. -/
  | classInflate (cls arguments : Handle) : Call .handle
  /-- The registered instantiation of a generic method, null if there is none. -/
  | methodFindInflated (method arguments : Handle) : Call .handle
  /-- A new instantiation of a generic method that stays unregistered. -/
  | methodInflateRaw (method arguments : Handle) : Call .handle
  deriving DecidableEq, Repr

/-- A call of any shape. -/
abbrev AnyCall := (r : Reply) × Call r

namespace Call

def name : Call r → String
  | pointerSize => "pointer_size"
  | moduleBase => "module_base"
  | vmVersion => "vm_version"
  | alloc _ => "alloc"
  | writeBytes _ _ => "write_bytes"
  | domainGet => "domain_get"
  | domainAssemblies _ => "domain_assemblies"
  | assemblyImage _ => "assembly_image"
  | corlib => "corlib"
  | imageName _ => "image_name"
  | imageClassCount _ => "image_class_count"
  | imageClassStart _ => "image_class_start"
  | imageGetClass _ _ => "image_get_class"
  | classFromType _ => "class_from_type"
  | classFromName _ _ _ => "class_from_name"
  | className _ => "class_name"
  | classNamespace _ => "class_namespace"
  | classImage _ => "class_image"
  | classParent _ => "class_parent"
  | classDeclaringType _ => "class_declaring_type"
  | classInterfaces _ => "class_interfaces"
  | classFields _ => "class_fields"
  | classMethods _ => "class_methods"
  | classType _ => "class_type"
  | classFlags _ => "class_flags"
  | classIsValueType _ => "class_is_valuetype"
  | classIsEnum _ => "class_is_enum"
  | classIsInterface _ => "class_is_interface"
  | classIsGeneric _ => "class_is_generic"
  | classIsInflated _ => "class_is_inflated"
  | classParameterCount _ => "class_generic_parameter_count"
  | typeName _ => "type_name"
  | typeKind _ => "type_enum"
  | typeClass _ => "type_class"
  | typeObject _ => "type_object"
  | fieldName _ => "field_name"
  | fieldType _ => "field_type"
  | fieldOffset _ => "field_offset"
  | fieldFlags _ => "field_flags"
  | methodName _ => "method_name"
  | methodClass _ => "method_class"
  | methodReturnType _ => "method_return_type"
  | methodFlags _ => "method_flags"
  | methodParameterCount _ => "method_parameter_count"
  | methodParameterName _ _ => "method_parameter_name"
  | methodParameterType _ _ => "method_parameter_type"
  | methodIsGeneric _ => "method_is_generic"
  | methodIsInflated _ => "method_is_inflated"
  | methodTypeParameterCount _ => "method_generic_parameter_count"
  | methodPointer _ => "method_pointer"
  | methodInvoke _ _ _ => "method_invoke"
  | objectClass _ => "object_class"
  | stringChars _ => "string_chars"
  | arrayNew _ _ => "array_new"
  | arrayLength _ => "array_length"
  | arrayGet _ _ => "array_get"
  | arraySet _ _ _ => "array_set"
  | classInflate _ _ => "class_inflate"
  | methodFindInflated _ _ => "method_find_inflated"
  | methodInflateRaw _ _ => "method_inflate_raw"

end Call

/-- An argument of a call. -/
inductive Argument
  | handle (h : Handle)
  | number (n : Nat)
  | text (s : String)
  | bytes (bs : List UInt8)
  | handles (hs : List Handle)
  deriving DecidableEq, Repr

def Argument.written : Argument → String
  | handle h => h.text
  | number n => toString n
  | text s => Json.quoted s
  | bytes bs => Text.Hex.bytes bs
  | handles hs => "[" ++ ", ".intercalate (hs.map Handle.text) ++ "]"

namespace Call

def arguments : Call r → List Argument
  | pointerSize | moduleBase | vmVersion | domainGet | corlib => []
  | alloc size => [.number size]
  | writeBytes h bytes => [.handle h, .bytes bytes]
  | domainAssemblies h | assemblyImage h | imageName h | imageClassCount h | imageClassStart h
  | classFromType h | className h | classNamespace h | classImage h | classParent h
  | classDeclaringType h | classInterfaces h | classFields h | classMethods h | classType h
  | classFlags h | classIsValueType h | classIsEnum h | classIsInterface h | classIsGeneric h
  | classIsInflated h | classParameterCount h | typeName h | typeKind h | typeClass h
  | typeObject h | fieldName h | fieldType h | fieldOffset h | fieldFlags h | methodName h
  | methodClass h | methodReturnType h | methodFlags h | methodParameterCount h
  | methodIsGeneric h | methodIsInflated h | methodTypeParameterCount h | methodPointer h
  | objectClass h | stringChars h | arrayLength h => [.handle h]
  | imageGetClass h i | methodParameterName h i | methodParameterType h i | arrayNew h i
  | arrayGet h i => [.handle h, .number i]
  | classFromName h namespace_ name => [.handle h, .text namespace_, .text name]
  | methodInvoke h object hs => [.handle h, .handle object, .handles hs]
  | arraySet h i value => [.handle h, .number i, .handle value]
  | classInflate h a | methodFindInflated h a | methodInflateRaw h a => [.handle h, .handle a]

/-- The call with its arguments in parentheses. -/
def written (c : Call r) : String :=
  c.name ++ "(" ++ ", ".intercalate (c.arguments.map Argument.written) ++ ")"

end Call

end VmMetadata
