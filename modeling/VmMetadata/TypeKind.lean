/-!
The tag byte of a type descriptor: how a value of the type is represented.
-/

namespace VmMetadata

inductive TypeKind
  | endMarker | void | boolean | char | i1 | u1 | i2 | u2 | i4 | u4 | i8 | u8 | r4 | r8 | string
  | ptr | byRef | valueType | classType | var | array | genericInst | typedByRef | i | u | fnPtr
  | object | szArray | mvar
  /-- A tag without a meaning of its own. -/
  | other (tag : UInt8)
  deriving DecidableEq, Repr

namespace TypeKind

def ofTag (tag : UInt8) : TypeKind :=
  match tag with
  | 0x00 => endMarker
  | 0x01 => void
  | 0x02 => boolean
  | 0x03 => char
  | 0x04 => i1
  | 0x05 => u1
  | 0x06 => i2
  | 0x07 => u2
  | 0x08 => i4
  | 0x09 => u4
  | 0x0a => i8
  | 0x0b => u8
  | 0x0c => r4
  | 0x0d => r8
  | 0x0e => string
  | 0x0f => ptr
  | 0x10 => byRef
  | 0x11 => valueType
  | 0x12 => classType
  | 0x13 => var
  | 0x14 => array
  | 0x15 => genericInst
  | 0x16 => typedByRef
  | 0x18 => i
  | 0x19 => u
  | 0x1b => fnPtr
  | 0x1c => object
  | 0x1d => szArray
  | 0x1e => mvar
  | tag => other tag

def tag : TypeKind → UInt8
  | endMarker => 0x00
  | void => 0x01
  | boolean => 0x02
  | char => 0x03
  | i1 => 0x04
  | u1 => 0x05
  | i2 => 0x06
  | u2 => 0x07
  | i4 => 0x08
  | u4 => 0x09
  | i8 => 0x0a
  | u8 => 0x0b
  | r4 => 0x0c
  | r8 => 0x0d
  | string => 0x0e
  | ptr => 0x0f
  | byRef => 0x10
  | valueType => 0x11
  | classType => 0x12
  | var => 0x13
  | array => 0x14
  | genericInst => 0x15
  | typedByRef => 0x16
  | i => 0x18
  | u => 0x19
  | fnPtr => 0x1b
  | object => 0x1c
  | szArray => 0x1d
  | mvar => 0x1e
  | other tag => tag

def name : TypeKind → String
  | endMarker => "End"
  | void => "Void"
  | boolean => "Boolean"
  | char => "Char"
  | i1 => "I1"
  | u1 => "U1"
  | i2 => "I2"
  | u2 => "U2"
  | i4 => "I4"
  | u4 => "U4"
  | i8 => "I8"
  | u8 => "U8"
  | r4 => "R4"
  | r8 => "R8"
  | string => "String"
  | ptr => "Ptr"
  | byRef => "ByRef"
  | valueType => "ValueType"
  | classType => "Class"
  | var => "Var"
  | array => "Array"
  | genericInst => "GenericInst"
  | typedByRef => "TypedByRef"
  | i => "I"
  | u => "U"
  | fnPtr => "FnPtr"
  | object => "Object"
  | szArray => "SzArray"
  | mvar => "MVar"
  | other tag => s!"Other({tag.toNat})"

/-- Placeholders of type parameters, of a class (`var`) or of a method (`mvar`). -/
def isParameter : TypeKind → Bool
  | var | mvar => true
  | _ => false

def isPrimitive : TypeKind → Bool
  | boolean | char | i1 | u1 | i2 | u2 | i4 | u4 | i8 | u8 | r4 | r8 | i | u => true
  | _ => false

end TypeKind

end VmMetadata
