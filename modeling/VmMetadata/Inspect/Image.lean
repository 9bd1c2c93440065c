import VmMetadata.Inspect.Class

/-!
The classes of an image. A current build is asked for one after the other. A legacy build resolves
positions in the table of all classes through a descriptor in scratch memory, which all images of
a session share. A position without a class means that the layout does not fit the machine; that
is reported, and nothing is noted.
-/

namespace VmMetadata

open Query
open Std (TreeMap)

namespace Query

/-- The scratch descriptor of the session, made on first use. -/
def descriptor : Query Handle := do
  let size ← lift ((← get).layout.descriptorSize (← ask .pointerSize))
  if size = 0 then throw (.accessor .noDescriptor)
  remember Notebook.front .descriptor do lift ((← ask (.alloc size)).require "descriptor")

end Query

/-- The bytes of a descriptor for a position in the table of all classes: the position, and over
it the tag byte of a class. -/
def descriptorBytes (size pointerSize offset index : Nat) : List UInt8 :=
  (Scratch.overwrite (littleEndian pointerSize index) (List.replicate size 0)).set offset
    TypeKind.classType.tag

namespace Image

def classCount (i : Image) : Query Nat :=
  remember i.page .imageClassCount (ask (.imageClassCount i.handle))

/-- Where the window of the image begins in the table of all classes. -/
def classStart (i : Image) : Query Nat :=
  remember i.page .imageClassStart (ask (.imageClassStart i.handle))

/-- Fails because the layout has no class at the index. -/
def mismatch (i : Image) (layout : String) (index : Nat) : Query α := do
  throw (.layoutMismatch layout (← i.name) index)

/-- The class that was found at an index. -/
def classAt (i : Image) (layout : String) (index : Nat) (h : Handle) : Query Class :=
  if h.isNull then i.mismatch layout index else view .class_ h

/-- The classes at so many indices from `index` on. -/
def classesFrom (find : Nat → Query Class) : Nat → Nat → Query (List Class)
  | _, 0 => pure []
  | index, count + 1 => do
      let c ← find index
      let rest ← classesFrom find (index + 1) count
      pure (c :: rest)

def currentClasses (i : Image) : Query (List Class) := do
  classesFrom (fun index => do i.classAt "current" index (← ask (.imageGetClass i.handle index)))
    0 (← i.classCount)

/-- Resolves a position in the table of all classes. -/
def windowClass (i : Image) (descriptor : Handle) (bytes : Nat → List UInt8) (index : Nat) :
    Query Class := do
  ask (.writeBytes descriptor (bytes index))
  i.classAt "legacy" index (← ask (.classFromType descriptor))

/-- The classes of the image's window. Its end has to be a number of 32 bits. -/
def legacyClasses (i : Image) (offset : Nat) : Query (List Class) := do
  let pointerSize ← ask .pointerSize
  let start ← i.classStart
  let count ← i.classCount
  let descriptor ← descriptor
  let size ← lift ((← get).layout.descriptorSize pointerSize)
  if start + count < 0x1_0000_0000 then
    classesFrom (i.windowClass descriptor (descriptorBytes size pointerSize offset)) start count
  else i.mismatch "legacy" start

/-- The classes that the image owns, in the order of their indices. -/
def classes (i : Image) : Query (List Class) :=
  remember i.page .imageClasses do
    match (← get).layout with
    | .legacy offset => i.legacyClasses offset
    | .current => i.currentClasses

/-- The classes by the names of their types. Of classes with one name the last is kept. -/
def classesByName (i : Image) : Query (TreeMap String Class) :=
  remember i.page .imageClassesByName do
    (← i.classes).foldlM (fun table c => do pure (table.insert (← c.typeName) c)) ∅

def classFromName (i : Image) (namespace_ name : String) : Query (Option Class) := do
  view? .class_ (← ask (.classFromName i.handle namespace_ name))

end Image

end VmMetadata
