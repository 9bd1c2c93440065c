import VmMetadata.Vm.Load

/-!
The state of a virtual machine that answers calls: what the snapshot fixed, the arena, which grows,
the instantiations made so far, and scratch memory. A computation on the state keeps what it has
changed when it fails, so that leaving the state alone on failure is a property and no gift.
-/

namespace VmMetadata

/-- One piece of scratch memory. -/
structure Buffer where
  address : Nat
  bytes : List UInt8
  deriving DecidableEq, Repr

/-- Scratch memory: the pieces handed out, newest first, and where the next one begins. -/
structure Scratch where
  buffers : List Buffer
  cursor : Nat
  deriving DecidableEq, Repr

namespace Scratch

def base : Nat := 0x7f0000000000

def alignment : Nat := 0x10

def empty : Scratch := ⟨[], base⟩

/-- The space that a piece takes: at least one byte, and a multiple of the alignment. -/
def reserved (size : Nat) : Nat :=
  (max size 1 + (alignment - 1)) / alignment * alignment

/-- A new piece, filled with zeros. Memory is taken to have no end: there is a piece of any size, and
its address may lie behind the words of 64 bits. A host gives up earlier, at the latest with a piece
as long as half of its addresses. -/
def alloc (m : Scratch) (size : Nat) : Handle × Scratch :=
  (⟨m.cursor⟩, {
    buffers := ⟨m.cursor, List.replicate size 0⟩ :: m.buffers
    cursor := m.cursor + reserved size })

/-- The contents of the piece that begins at the address. -/
def read? (m : Scratch) (address : Nat) : Option (List UInt8) :=
  (m.buffers.find? (·.address == address)).map Buffer.bytes

/-- Bytes put over the beginning of a piece. -/
def overwrite (bytes old : List UInt8) : List UInt8 :=
  bytes ++ old.drop bytes.length

def write (m : Scratch) (at_ : Handle) (bytes : List UInt8) : Except Error Scratch :=
  match m.read? at_.address with
  | none => .error (.accessor (.notScratch at_))
  | some old =>
      if bytes.length ≤ old.length then
        .ok { m with buffers := m.buffers.map fun b =>
          if b.address = at_.address then { b with bytes := overwrite bytes b.bytes } else b }
      else .error (.accessor (.scratchOverflow at_ bytes.length old.length))

end Scratch

/-- A generic definition closed over types, and the handle of the result. -/
structure Instance where
  definition : Handle
  arguments : List Handle
  result : Handle
  deriving DecidableEq, Repr

/-- The result that is on record for the definition and the arguments. -/
def Instance.find? (definition : Handle) (arguments : List Handle) (known : List Instance) :
    Option Handle :=
  (known.find? fun i => i.definition == definition && i.arguments == arguments).map Instance.result

structure Vm extends Catalog where
  arena : Arena
  classInstances : List Instance
  methodInstances : List Instance
  scratch : Scratch
  deriving Repr

namespace Vm

/-- The machine that a snapshot describes. Its pointers have four or eight bytes. -/
def ofSnapshot (s : Snapshot) : Except Error Vm :=
  if s.pointerSize = 4 ∨ s.pointerSize = 8 then
    let (catalog, loader) := (Load.snapshot s).run ⟨.empty, ∅, ∅⟩
    .ok { catalog with
      arena := loader.arena, classInstances := [], methodInstances := [], scratch := .empty }
  else .error (.snapshot (.pointerSize s.pointerSize))

end Vm

/-- A computation on the state of a machine. -/
abbrev Access := EStateM Error Vm

namespace Access

def lift (x : Except Error α) : Access α := fun vm =>
  match x with
  | .ok a => .ok a vm
  | .error e => .error e vm

/-- A fact that is read off the state. -/
def read (f : Vm → α) : Access α := fun vm =>
  .ok (f vm) vm

def refuse (r : Refusal) : Access α :=
  throw (.accessor r)

def imageNode (h : Handle) : Access ImageNode := fun vm => lift (vm.arena.image h) vm
def classNode (h : Handle) : Access ClassNode := fun vm => lift (vm.arena.class_ h) vm
def typeNode (h : Handle) : Access TypeNode := fun vm => lift (vm.arena.type h) vm
def fieldNode (h : Handle) : Access FieldNode := fun vm => lift (vm.arena.field h) vm
def methodNode (h : Handle) : Access MethodNode := fun vm => lift (vm.arena.method h) vm
def objectNode (h : Handle) : Access ObjectNode := fun vm => lift (vm.arena.object h) vm

/-- A new object at the end of the arena. -/
def push (node : Node) : Access Handle := fun vm =>
  .ok vm.arena.next { vm with arena := vm.arena.push node }

def set (h : Handle) (node : Node) : Access Unit := fun vm =>
  .ok () { vm with arena := vm.arena.set h node }

end Access

end VmMetadata
