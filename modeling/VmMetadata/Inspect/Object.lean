import VmMetadata.Inspect.Domain

/-!
Objects and arrays of the running program.
-/

namespace VmMetadata

open Query

namespace Object

def class_ (o : Object) : Query Class := do
  let h ← remember o.page .objectClass do
    lift ((← ask (.objectClass o.handle)).require "object class")
  view .class_ h

/-- The contents of a string object. -/
def contents (o : Object) : Query String :=
  ask (.stringChars o.handle)

end Object

namespace ArrayView

/-- Puts the objects into the slots from `index` on. -/
def fill (array : ArrayView) : Nat → List Object → Query Unit
  | _, [] => pure ()
  | index, o :: rest => do
      ask (.arraySet array.handle index o.handle)
      fill array (index + 1) rest

/-- A new array of the element class that holds the objects in order. -/
def ofObjects (elementClass : Class) (objects : List Object) : Query ArrayView := do
  if 0x1_0000_0000 ≤ objects.length then throw (.accessor (.arrayTooLong objects.length))
  let array ← view .array (← ask (.arrayNew elementClass.handle objects.length))
  fill array 0 objects
  pure array

def length (a : ArrayView) : Query Nat :=
  remember a.page .arrayLength (ask (.arrayLength a.handle))

def isEmpty (a : ArrayView) : Query Bool := do
  pure ((← a.length) == 0)

/-- The element in the slot; none for a null slot. -/
def element? (a : ArrayView) (index : Nat) : Query (Option Object) := do
  view? .object (← ask (.arrayGet a.handle index))

end ArrayView

end VmMetadata
