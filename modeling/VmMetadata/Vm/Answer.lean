import VmMetadata.Call
import VmMetadata.Vm.Instantiate

/-!
How a virtual machine made from a snapshot answers each call. Most calls read the arena. The
others hand out or fill scratch memory, make objects and arrays, or instantiate generics.
-/

namespace VmMetadata

/-- A number in a word of so many bytes, the lowest first. -/
def littleEndian : Nat → Nat → List UInt8
  | 0, _ => []
  | width + 1, n => UInt8.ofNat (n % 256) :: littleEndian width (n / 256)

/-- The number that bytes hold, the lowest first. -/
def ofLittleEndian (bytes : List UInt8) : Nat :=
  bytes.foldr (fun b n => b.toNat + 256 * n) 0

namespace Vm

/-- The position in the table of all classes that a descriptor holds, if its tag byte is that of
a class. -/
def describedIndex? (pointerSize : Nat) (descriptor : List UInt8) : Option Nat := do
  let tag ← descriptor[typeKindOffset pointerSize]?
  let kind := TypeKind.ofTag tag
  if pointerSize ≤ descriptor.length ∧ (kind = .classType ∨ kind = .valueType) then
    some (ofLittleEndian (descriptor.take pointerSize))
  else none

/-- The first of the classes with the namespace and the name. -/
def findClass (a : Arena) (namespace_ name : String) : List Handle → Except Error Handle
  | [] => .ok .null
  | h :: rest => do
      let node ← a.class_ h
      if node.namespace = namespace_ ∧ node.name = name then pure h
      else findClass a namespace_ name rest

/-- The class that a type or a descriptor describes, null if there is none. -/
def classOf (vm : Vm) (descriptor : Handle) : Except Error Handle :=
  match vm.arena.type descriptor, vm.scratch.read? descriptor.address with
  | .ok node, _ => .ok node.class
  | .error _, some bytes =>
      .ok (((describedIndex? vm.pointerSize bytes).bind (vm.globalClasses[·]?)).getD .null)
  | .error _, none => .error (Arena.unknown descriptor "type descriptor")

end Vm

namespace Access

def classFromType (descriptor : Handle) : Access Handle := fun vm =>
  lift (vm.classOf descriptor) vm

/-- The reflection object of a type, made when first asked for. -/
def typeObject (type : Handle) : Access Handle := do
  let node ← typeNode type
  if node.object.isNull then
    let object ← push (.object (.typeObject type))
    set type (.type { node with object })
    pure object
  else pure node.object

/-- The compiled body. An open class and an open method have none. -/
def methodPointer (method : Handle) : Access Nat := do
  let node ← methodNode method
  let cls ← classNode node.class
  pure (if cls.isOpen || !node.typeParameters.isEmpty then 0 else node.address.getD 0)

/-- The result of an invocation as a new string; null if there is none. -/
def invoke (method : Handle) : Access Handle := do
  match (← methodNode method).result with
  | some value => push (.object (.string value))
  | none => pure .null

def objectClass (object : Handle) : Access Handle := do
  match ← objectNode object with
  | .typeObject _ => read (·.wellKnown.typeClass)
  | .string _ => read (·.wellKnown.string)
  | .array elementClass _ => pure elementClass

def stringChars (string : Handle) : Access String := do
  match ← objectNode string with
  | .string value => pure value
  | _ => refuse (.notString string)

def arrayNew (elementClass : Handle) (length : Nat) : Access Handle := do
  let _ ← classNode elementClass
  push (.object (.array elementClass (List.replicate length .null)))

def arrayItems (array : Handle) : Access (List Handle) := do
  match ← objectNode array with
  | .array _ items => pure items
  | _ => refuse (.notArray array)

def arrayGet (array : Handle) (index : Nat) : Access Handle := do
  match (← arrayItems array)[index]? with
  | some item => pure item
  | none => refuse (.outOfBounds array index)

def arraySet (array : Handle) (index : Nat) (value : Handle) : Access Unit := do
  match ← objectNode array with
  | .array elementClass items =>
      if index < items.length then
        set array (.object (.array elementClass (items.set index value)))
      else refuse (.outOfBounds array index)
  | _ => refuse (.notArray array)

def parameter (method : Handle) (index : Nat) : Access (String × Handle) := do
  match (← methodNode method).parameters[index]? with
  | some p => pure p
  | none => refuse (.noParameter method index)

def alloc (size : Nat) : Access Handle := fun vm =>
  let (address, scratch) := vm.scratch.alloc size
  .ok address { vm with scratch }

def writeBytes (at_ : Handle) (bytes : List UInt8) : Access Unit := do
  let scratch ← lift ((← get).scratch.write at_ bytes)
  modify fun vm => { vm with scratch }

def domainAssemblies (domain : Handle) : Access (List Handle) := do
  if domain = (← read (·.domain)) then read (·.assemblies)
  else refuse (.unknown domain "domain")

def assemblyImage (assembly : Handle) : Access Handle := fun vm =>
  lift (vm.arena.assembly assembly) vm

/-- Where the window of the image begins. A current build reports zero. -/
def imageClassStart (image : Handle) : Access Nat := do
  let node ← imageNode image
  read fun vm => if vm.isLegacy then node.classStart else 0

/-- The class of the image at the index. A legacy build does not export this. -/
def imageGetClass (image : Handle) (index : Nat) : Access Handle := do
  if ← read (·.isLegacy) then throw (.missingExport "il2cpp_image_get_class")
  else pure ((← imageNode image).classes[index]?.getD .null)

def classFromName (image : Handle) (namespace_ name : String) : Access Handle := fun vm =>
  lift (do Vm.findClass vm.arena namespace_ name (← vm.arena.image image).classes.toList) vm

end Access

open Access in
/-- The answer to a call. -/
def Vm.answer : Call r → Access r.Value
  | .pointerSize => read (·.pointerSize)
  | .moduleBase => read (·.moduleBase)
  | .vmVersion => read (·.vmVersion)
  | .alloc size => Access.alloc size
  | .writeBytes at_ bytes => writeBytes at_ bytes
  | .domainGet => read (·.domain)
  | .domainAssemblies domain => domainAssemblies domain
  | .assemblyImage assembly => assemblyImage assembly
  | .corlib => read (·.corlib)
  | .imageName image => do pure (← imageNode image).name
  | .imageClassCount image => do pure (word32 (← imageNode image).classes.size)
  | .imageClassStart image => imageClassStart image
  | .imageGetClass image index => imageGetClass image index
  | .classFromType descriptor => classFromType descriptor
  | .classFromName image namespace_ name => classFromName image namespace_ name
  | .className cls => do pure (← classNode cls).name
  | .classNamespace cls => do pure (← classNode cls).namespace
  | .classImage cls => do pure (← classNode cls).image
  | .classParent cls => do pure (← classNode cls).parent
  | .classDeclaringType cls => do pure (← classNode cls).declaring
  | .classInterfaces cls => do pure (← classNode cls).interfaces
  | .classFields cls => do pure (← classNode cls).fields
  | .classMethods cls => do pure (← classNode cls).methods
  | .classType cls => do pure (← classNode cls).type
  | .classFlags cls => do pure (← classNode cls).flags
  | .classIsValueType cls => do
      let kind := (← classNode cls).kind
      pure (kind == .struct || kind == .enum)
  | .classIsEnum cls => do pure ((← classNode cls).kind == .enum)
  | .classIsInterface cls => do pure ((← classNode cls).kind == .interface)
  | .classIsGeneric cls => do pure (← classNode cls).isOpen
  | .classIsInflated cls => do pure (!(← classNode cls).definition.isNull)
  | .classParameterCount cls => do pure (word32 (← classNode cls).typeParameters.length)
  | .typeName type => do pure (← typeNode type).name
  | .typeKind type => do pure (← typeNode type).kind.tag
  | .typeClass type => do pure (← typeNode type).class
  | .typeObject type => typeObject type
  | .fieldName field => do pure (← fieldNode field).name
  | .fieldType field => do pure (← fieldNode field).type
  | .fieldOffset field => do pure (← fieldNode field).offset
  | .fieldFlags field => do pure (← fieldNode field).flags
  | .methodName method => do pure (← methodNode method).name
  | .methodClass method => do pure (← methodNode method).class
  | .methodReturnType method => do pure (← methodNode method).returnType
  | .methodFlags method => do pure (← methodNode method).flags
  | .methodParameterCount method => do pure (word32 (← methodNode method).parameters.length)
  | .methodParameterName method index => do pure (← parameter method index).1
  | .methodParameterType method index => do pure (← parameter method index).2
  | .methodIsGeneric method => do pure (!(← methodNode method).typeParameters.isEmpty)
  | .methodIsInflated method => do pure (← methodNode method).inflated
  | .methodTypeParameterCount method => do
      pure (word32 (← methodNode method).typeParameters.length)
  | .methodPointer method => methodPointer method
  | .methodInvoke method _ _ => invoke method
  | .objectClass object => objectClass object
  | .stringChars string => stringChars string
  | .arrayNew elementClass length => arrayNew elementClass length
  | .arrayLength array => do pure (word32 (← arrayItems array).length)
  | .arrayGet array index => arrayGet array index
  | .arraySet array index value => arraySet array index value
  | .classInflate cls arguments => inflateClass cls arguments
  | .methodFindInflated method arguments => findInflatedMethod method arguments
  | .methodInflateRaw method arguments => inflateMethodRaw method arguments

end VmMetadata
