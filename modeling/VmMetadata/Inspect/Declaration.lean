import VmMetadata.Inspect.Class

/-!
Declarations as text: one line for a field or a method, a block for a class.
-/

namespace VmMetadata

open Query

/-- A signed number of 32 bits as the hexadecimal form of its two's complement. -/
def offsetText (offset : Int) : String :=
  Text.Hex.prefixed (offset % 0x1_0000_0000).toNat

def Field.modifiers (f : Field) : Query String := do
  if ← f.isLiteral then pure "const "
  else do
    let isStatic ← f.isStatic
    let isReadOnly ← f.isReadOnly
    pure ((if isStatic then "static " else "") ++ if isReadOnly then "readonly " else "")

/-- The offset as a comment. A literal has no place in memory. -/
def Field.place (f : Field) : Query String := do
  if ← f.isLiteral then pure ""
  else do pure (" // " ++ offsetText (← f.offset))

/-- Such as `static readonly System.Int32 count; // 0x10`. -/
def Field.declaration (f : Field) : Query String := do
  let modifiers ← f.modifiers
  let type ← (← f.type).name
  let name ← f.name
  let place ← f.place
  pure (modifiers ++ type ++ " " ++ name ++ ";" ++ place)

/-- A parameter as it stands in a declaration. -/
def Parameter.text (p : Parameter) : Query String := do
  pure ((← p.type.name) ++ " " ++ p.name)

/-- Stand-ins for the names of type parameters, which the machine does not tell. -/
def parameterNames (count : Nat) : List String :=
  (List.range count).map fun i => "T" ++ toString i

namespace Method

def dispatch (m : Method) : Query String := do
  if ← m.isAbstract then pure "abstract "
  else do pure (if ← m.isVirtual then "virtual " else "")

/-- The type parameters of the method itself. -/
def ownParameters (m : Method) : Query String := do
  if ← m.isGeneric then do pure (genericName "" (parameterNames (← m.typeParameterCount)))
  else pure ""

/-- The address as a comment, if the method has a body. -/
def place (m : Method) : Query String := do
  match ← m.addressToken? with
  | some token => pure (" // " ++ token)
  | none => pure ""

/-- Such as `static System.Void Run(System.Int32 count); // 0x00001234`. -/
def declaration (m : Method) : Query String := do
  let isStatic ← m.isStatic
  let dispatch ← m.dispatch
  let returnType ← (← m.returnType).name
  let name ← m.name
  let generic ← m.ownParameters
  let parameters ← (← m.parameters).mapM Parameter.text
  let place ← m.place
  pure ((if isStatic then "static " else "") ++ dispatch ++ returnType ++ " " ++ name ++ generic ++
    "(" ++ ", ".intercalate parameters ++ ");" ++ place)

end Method

namespace Class

/-- The modifiers of a class proper: one that is abstract and sealed is static. -/
def modifiers (isAbstract isSealed : Bool) : String :=
  match isAbstract, isSealed with
  | true, true => "static "
  | true, false => "abstract "
  | false, true => "sealed "
  | false, false => ""

def modifierText (c : Class) (kind : ClassKind) : Query String :=
  if kind = .class_ then do pure (modifiers (← c.isAbstract) (← c.isSealed))
  else pure ""

/-- The parent of a class proper, unless it is the root of all classes. -/
def parentName (c : Class) (kind : ClassKind) : Query (List String) := do
  match ← c.parent with
  | some p =>
      if kind = .class_ then do
        let name ← p.typeName
        pure (if name = "System.Object" then [] else [name])
      else pure []
  | none => pure []

/-- What stands behind the colon: the parent and the interfaces. -/
def inherited (c : Class) (kind : ClassKind) : Query (List String) := do
  let parent ← c.parentName kind
  let interfaces ← (← c.interfaces).mapM Class.typeName
  pure (parent ++ interfaces)

/-- The lines of a block, each indented and ended. -/
def indentedLines (lines : List String) : String :=
  String.join (lines.map fun line => "    " ++ line ++ "\n")

/-- The declaration of the class with its members, under the name of its image. -/
def declaration (c : Class) : Query String := do
  let kind ← c.kind
  let image ← (← c.image).name
  let modifiers ← c.modifierText kind
  let name ← c.typeName
  let inherited ← c.inherited kind
  let fields ← (← c.fields).mapM Field.declaration
  let methods ← (← c.methods).mapM Method.declaration
  pure ("// " ++ image ++ "\n" ++ modifiers ++ kind.keyword ++ " " ++ name ++
    (if inherited = [] then "" else " : " ++ ", ".intercalate inherited) ++ "\n\x7b\n" ++
    indentedLines fields ++ (if fields = [] ∨ methods = [] then "" else "\n") ++
    indentedLines methods ++ "\x7d")

end Class

end VmMetadata
