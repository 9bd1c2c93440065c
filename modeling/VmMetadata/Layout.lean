import VmMetadata.TypeKind
import VmMetadata.Version

/-!
The two ways in which a virtual machine presents the classes of an image. A legacy build has one
table of all classes, of which each image owns a window, and resolves an entry through a type
descriptor written into scratch memory. A current build hands out the classes of an image by
index. Which way is used is decided once from the build.
-/

namespace VmMetadata

inductive ClassLayout
  /-- Windows into the table of all classes; the tag byte of a descriptor lies at the offset. -/
  | legacy (typeKindOffset : Nat)
  | current
  deriving DecidableEq, Repr

/-- Positions and counts are words of 32 bits; what does not fit wraps around. -/
def word32 (n : Nat) : Nat :=
  n % 0x1_0000_0000

theorem word32_le (n : Nat) : word32 n ≤ n :=
  Nat.mod_le n _

theorem word32_eq_self_iff {n : Nat} : word32 n = n ↔ n < 0x1_0000_0000 :=
  Nat.mod_eq_iff_lt (by decide)

/-- The result of a step in sizes and offsets, which are words of 64 bits. What does not fit stops
the program. -/
def checked64 (fault : ArithmeticFault) (n : Nat) : Except Error Nat :=
  if n < 0x1_0000_0000_0000_0000 then .ok n else .error (.stopped fault)

/-- Where the tag byte lies in a type descriptor: behind a word of the pointer's size and sixteen
bits of attributes. -/
def typeKindOffset (pointerSize : Nat) : Nat :=
  pointerSize + 2

namespace ClassLayout

def detect (v : Version) (pointerSize : Nat) : Except Error ClassLayout :=
  if v.isBelow Version.oldestSupported then .error (.unsupportedLayout v.text)
  else if v.isBelow Version.imageAccessorSince then
    legacy <$> checked64 .addition (VmMetadata.typeKindOffset pointerSize)
  else .ok .current

def name : ClassLayout → String
  | legacy _ => "legacy"
  | current => "current"

/-- Bytes of the scratch descriptor: room for the index and for the tag byte, a multiple of the
pointer size. The current layout needs none. -/
def descriptorSize (layout : ClassLayout) (pointerSize : Nat) : Except Error Nat :=
  match layout with
  | legacy offset => do
      let needed := max (← checked64 .addition (offset + 1)) pointerSize
      if pointerSize = 0 then throw (.stopped .division)
      let words := needed / pointerSize + if needed % pointerSize = 0 then 0 else 1
      checked64 .multiplication (words * pointerSize)
  | current => pure 0

end ClassLayout

end VmMetadata
