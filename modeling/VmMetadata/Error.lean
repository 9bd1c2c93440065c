import VmMetadata.Handle

/-!
What can go wrong while a virtual machine is read or dumped. An error is recorded by its cause;
the wording of each cause stands in `Refusal.message` and `Error.message`.
-/

namespace VmMetadata

/-- Why the accessor refused a call. -/
inductive Refusal
  /-- The handle does not name a node of the wanted kind. -/
  | unknown (handle : Handle) (kind : String)
  | notArray (handle : Handle)
  | notTypeObject (handle : Handle)
  | notString (handle : Handle)
  | noParameter (method : Handle) (index : Nat)
  | outOfBounds (array : Handle) (index : Nat)
  | notDefinition (name : String)
  | wrongArity (name : String) (expected : Nat)
  | notScratch (at_ : Handle)
  | scratchOverflow (at_ : Handle) (length size : Nat)
  | noDescriptor
  | arrayTooLong (length : Nat)
  /-- A failure that the accessor words itself. -/
  | reported (text : String)
  deriving DecidableEq, Repr

def Refusal.message : Refusal → String
  | unknown h kind => s!"{h.text} is not a known {kind}"
  | notArray h => s!"{h.text} is not an array"
  | notTypeObject h => s!"{h.text} is not a type object"
  | notString h => s!"{h.text} is not a string"
  | noParameter h i => s!"{h.text} has no parameter {i}"
  | outOfBounds h i => s!"index {i} out of bounds for {h.text}"
  | notDefinition name => s!"{name} is not a generic definition"
  | wrongArity name n => s!"{name} takes {n} type arguments"
  | notScratch h => s!"{h.text} is not allocated scratch memory"
  | scratchOverflow h length size =>
      s!"write of {length} bytes overflows {size}-byte buffer at {h.text}"
  | noDescriptor => "type descriptors are only used by the legacy layout"
  | arrayTooLong n => s!"array of {n} elements is too long"
  | reported text => text

/-- What takes arithmetic out of the words of 64 bits. -/
inductive ArithmeticFault
  | addition
  | multiplication
  | division
  deriving DecidableEq, Repr

def ArithmeticFault.message : ArithmeticFault → String
  | addition => "attempt to add with overflow"
  | multiplication => "attempt to multiply with overflow"
  | division => "attempt to divide by zero"

/-- Why a snapshot description is not usable. -/
inductive SnapshotFault
  | malformed (path : String)
  | pointerSize (size : Nat)
  deriving DecidableEq, Repr

def SnapshotFault.message : SnapshotFault → String
  | malformed path => s!"{path}: malformed snapshot"
  | pointerSize size => s!"unsupported pointer size {size}"

inductive Error
  /-- A null handle where an object of the kind is required. -/
  | invalidHandle (kind : String) (handle : Handle)
  /-- The build maps to no known class layout. -/
  | unsupportedLayout (build : String)
  /-- The class table of the image does not match the selected layout. -/
  | layoutMismatch (layout image : String) (index : Nat)
  | invalidVersion (text : String)
  | notGeneric (name : String)
  | genericArity (name : String) (expected found : Nat)
  /-- This build does not export the entry point. -/
  | missingExport (entry : String)
  | accessor (refusal : Refusal)
  | snapshot (fault : SnapshotFault)
  /-- The configuration at the path is malformed. -/
  | config (path : String)
  /-- The file at the path could not be read, created or written. -/
  | io (path : String)
  /-- Arithmetic that stops the program. It is passed on like any other error, so that what has been
  noted and written until then is known; to whatever is listed behind it the program does not
  come. -/
  | stopped (fault : ArithmeticFault)
  deriving DecidableEq, Repr

def Error.message : Error → String
  | invalidHandle kind h => s!"Invalid {kind} handle {h.text}"
  | unsupportedLayout build => s!"Unsupported VM layout for build {build}"
  | layoutMismatch layout image index =>
      s!"{layout} class table of image {image} has no class at index {index}"
  | invalidVersion text => s!"Invalid VM version string: {text}"
  | notGeneric name => s!"{name} is not an open generic definition"
  | genericArity name expected found => s!"{name} expects {expected} type arguments, got {found}"
  | missingExport entry => s!"VM entry point {entry} is not available"
  | accessor refusal => s!"Native accessor error: {refusal.message}"
  | snapshot fault => s!"Snapshot error: {fault.message}"
  | config path => s!"Configuration error: {path}: malformed configuration"
  | io path => s!"I/O failure on {path}"
  | stopped fault => fault.message

/-- Refuses a null handle where an object of `kind` is required. -/
def Handle.require (h : Handle) (kind : String) : Except Error Handle :=
  if h.isNull then .error (.invalidHandle kind h) else .ok h

end VmMetadata
