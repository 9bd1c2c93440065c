import VmMetadata.Text.Blank
import VmMetadata.TypeKind

/-!
Texts that name types: keywords stand for classes of the core library, and the shape of a name
says how values of a type are represented when no class of the name is described.
-/

namespace VmMetadata.TypeName

/-- The class that a keyword stands for. -/
def aliased? : String → Option String
  | "void" => some "System.Void"
  | "bool" => some "System.Boolean"
  | "char" => some "System.Char"
  | "sbyte" => some "System.SByte"
  | "byte" => some "System.Byte"
  | "short" => some "System.Int16"
  | "ushort" => some "System.UInt16"
  | "int" => some "System.Int32"
  | "uint" => some "System.UInt32"
  | "long" => some "System.Int64"
  | "ulong" => some "System.UInt64"
  | "float" => some "System.Single"
  | "double" => some "System.Double"
  | "string" => some "System.String"
  | "object" => some "System.Object"
  | _ => none

/-- The name without blanks around it and with a keyword replaced by its class. -/
def normalized (text : String) : String :=
  let name := String.ofList (Text.trimmed text.toList)
  (aliased? name).getD name

/-- The representation of the core library's own types. -/
def builtin? : String → Option TypeKind
  | "System.Void" => some .void
  | "System.Boolean" => some .boolean
  | "System.Char" => some .char
  | "System.SByte" => some .i1
  | "System.Byte" => some .u1
  | "System.Int16" => some .i2
  | "System.UInt16" => some .u2
  | "System.Int32" => some .i4
  | "System.UInt32" => some .u4
  | "System.Int64" => some .i8
  | "System.UInt64" => some .u8
  | "System.Single" => some .r4
  | "System.Double" => some .r8
  | "System.String" => some .string
  | "System.IntPtr" => some .i
  | "System.UIntPtr" => some .u
  | "System.Object" => some .object
  | _ => none

/-- The representation that the shape of a name implies. -/
def shape (name : List Char) : TypeKind :=
  if ['[', ']'].isSuffixOf name then .szArray
  else if ['*'].isSuffixOf name then .ptr
  else if ['&'].isSuffixOf name then .byRef
  else if name.contains '<' then .genericInst
  else .classType

def kind (name : String) : TypeKind :=
  (builtin? name).getD (shape name.toList)

end VmMetadata.TypeName
