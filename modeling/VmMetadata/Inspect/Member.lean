import VmMetadata.Inspect.Query

/-!
What can be read of types, fields and methods.
-/

namespace VmMetadata

open Query

namespace TypeView

/-- The full name, with generic arguments. -/
def name (t : TypeView) : Query String :=
  remember t.page .typeName (ask (.typeName t.handle))

def kind (t : TypeView) : Query TypeKind :=
  remember t.page .typeKind (TypeKind.ofTag <$> ask (.typeKind t.handle))

/-- The class that the type describes. Type parameters have none. -/
def class? (t : TypeView) : Query (Option Class) := do
  match ← remember t.page .typeClass (Handle.nonNull? <$> ask (.typeClass t.handle)) with
  | some h => some <$> view .class_ h
  | none => pure none

/-- The reflection object that stands for the type at run time. -/
def object (t : TypeView) : Query Object := do
  let h ← remember t.page .typeObject do
    lift ((← ask (.typeObject t.handle)).require "type object")
  view .object h

end TypeView

namespace Field

def name (f : Field) : Query String :=
  remember f.page .fieldName (ask (.fieldName f.handle))

def type (f : Field) : Query TypeView :=
  remember f.page .fieldType do view .type (← ask (.fieldType f.handle))

/-- The offset from the start of the object, or of the static storage. -/
def offset (f : Field) : Query Int :=
  remember f.page .fieldOffset (ask (.fieldOffset f.handle))

def flags (f : Field) : Query UInt32 :=
  remember f.page .fieldFlags (ask (.fieldFlags f.handle))

def isStatic (f : Field) : Query Bool := do
  pure ((← f.flags) &&& Attribute.staticField != 0)

def isLiteral (f : Field) : Query Bool := do
  pure ((← f.flags) &&& Attribute.literalField != 0)

def isReadOnly (f : Field) : Query Bool := do
  pure ((← f.flags) &&& Attribute.readOnlyField != 0)

end Field

namespace Method

def name (m : Method) : Query String :=
  remember m.page .methodName (ask (.methodName m.handle))

/-- The class that declares the method. -/
def class_ (m : Method) : Query Class :=
  remember m.page .methodClass do view .class_ (← ask (.methodClass m.handle))

def returnType (m : Method) : Query TypeView :=
  remember m.page .methodReturnType do view .type (← ask (.methodReturnType m.handle))

/-- The parameters from `position` on, `count` of them. -/
def readParameters (m : Method) : Nat → Nat → Query (List Parameter)
  | _, 0 => pure []
  | position, count + 1 => do
      let name ← ask (.methodParameterName m.handle position)
      let type ← view .type (← ask (.methodParameterType m.handle position))
      let rest ← readParameters m (position + 1) count
      pure (⟨position, name, type⟩ :: rest)

def parameters (m : Method) : Query (List Parameter) :=
  remember m.page .methodParameters do
    readParameters m 0 (← ask (.methodParameterCount m.handle))

def flags (m : Method) : Query UInt32 :=
  remember m.page .methodFlags (ask (.methodFlags m.handle))

def isStatic (m : Method) : Query Bool := do
  pure ((← m.flags) &&& Attribute.staticMethod != 0)

def isVirtual (m : Method) : Query Bool := do
  pure ((← m.flags) &&& Attribute.virtualMethod != 0)

def isAbstract (m : Method) : Query Bool := do
  pure ((← m.flags) &&& Attribute.abstractMethod != 0)

/-- Whether the method has type parameters of its own that are not closed. -/
def isGeneric (m : Method) : Query Bool :=
  remember m.page .methodIsGeneric (ask (.methodIsGeneric m.handle))

def isInflated (m : Method) : Query Bool :=
  remember m.page .methodIsInflated (ask (.methodIsInflated m.handle))

def typeParameterCount (m : Method) : Query Nat :=
  remember m.page .methodTypeParameterCount (ask (.methodTypeParameterCount m.handle))

/-- The address of the compiled body, if there is one. -/
def virtualAddress (m : Method) : Query (Option Nat) := do
  let pointer ← remember m.page .methodPointer (ask (.methodPointer m.handle))
  pure (if pointer = 0 then none else some pointer)

end Method

/-- The distance of an address from the base, if it does not lie below it. -/
def relativeTo? (base address : Nat) : Option Nat :=
  if base ≤ address then some (address - base) else none

/-- A body inside the module, with at least eight digits. -/
def relativeToken (offset : Nat) : String :=
  Text.Hex.prefixedWide 8 offset

/-- A body outside the module, in the full width of an address. -/
def absoluteToken (pointerSize address : Nat) : String :=
  "abs:" ++ Text.Hex.prefixedWide (2 * pointerSize) address

/-- An address as dumps show it. -/
def addressToken (base pointerSize address : Nat) : String :=
  match relativeTo? base address with
  | some offset => relativeToken offset
  | none => absoluteToken pointerSize address

namespace Method

/-- The address relative to the module, if the body does not lie below it. -/
def relativeVirtualAddress (m : Method) : Query (Option Nat) := do
  let base ← ask .moduleBase
  pure ((← m.virtualAddress).bind (relativeTo? base))

/-- The address column of the method, if it has a body. -/
def addressToken? (m : Method) : Query (Option String) := do
  match ← m.virtualAddress with
  | none => pure none
  | some address =>
      let base ← ask .moduleBase
      match relativeTo? base address with
      | some offset => pure (some (relativeToken offset))
      | none => do pure (some (absoluteToken (← ask .pointerSize) address))

/-- Runs the method. A null or void result is none. -/
def invoke (m : Method) (object : Option Object) (arguments : List Object) :
    Query (Option Object) := do
  let object := (object.map View.handle).getD .null
  view? .object (← ask (.methodInvoke m.handle object (arguments.map View.handle)))

end Method

end VmMetadata
