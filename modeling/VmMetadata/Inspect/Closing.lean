import VmMetadata.Inspect.Object

/-!
Closing generic definitions over type arguments. The arguments go to the machine as an array of
reflection objects. Classes are materialized by the machine. For a method a registered
instantiation is looked up first; failing that, one is made that the machine does not register.
-/

namespace VmMetadata

open Query

/-- Fails unless there are as many arguments as parameters. -/
def checkArity (name : String) (expected : Nat) (arguments : List Class) : Query Unit :=
  if arguments.length = expected then pure ()
  else throw (.genericArity name expected arguments.length)

/-- The reflection objects of the classes as an array. -/
def argumentArray (arguments : List Class) : Query ArrayView := do
  let objects ← arguments.mapM fun c => do (← c.type).object
  ArrayView.ofObjects (← reflectionClass) objects

/-- Arguments that fit every reference type parameter: the root class, so many times. -/
def placeholderArguments (count : Nat) : Query (List Class) := do
  pure (List.replicate count (← rootClass))

namespace Class

def inflate (c : Class) (arguments : List Class) : Query Class := do
  let name ← c.typeName
  if !(← c.isGeneric) then throw (.notGeneric name)
  checkArity name (← c.typeParameterCount) arguments
  let array ← argumentArray arguments
  view .class_ (← ask (.classInflate c.handle array.handle))

/-- A closed stand-in: the class itself unless it is generic. -/
def representative (c : Class) : Query Class := do
  if ← c.isGeneric then c.inflate (← placeholderArguments (← c.typeParameterCount))
  else pure c

end Class

namespace Method

/-- The registered instantiation over the types in the array; failing that, a new one. -/
def instantiate (m : Method) (array : ArrayView) : Query Handle := do
  match (← ask (.methodFindInflated m.handle array.handle)).nonNull? with
  | some h => pure h
  | none => ask (.methodInflateRaw m.handle array.handle)

def inflate (m : Method) (arguments : List Class) : Query Method := do
  let name ← m.name
  if !(← m.isGeneric) then throw (.notGeneric name)
  checkArity name (← m.typeParameterCount) arguments
  view .method (← m.instantiate (← argumentArray arguments))

/-- A closed stand-in: the method itself unless it is generic. The methods of a class that was
generic are left alone, as closing the class has closed them. -/
def representative (m : Method) (classWasGeneric : Bool) : Query Method := do
  if classWasGeneric then pure m
  else if ← m.isGeneric then m.inflate (← placeholderArguments (← m.typeParameterCount))
  else pure m

end Method

end VmMetadata
