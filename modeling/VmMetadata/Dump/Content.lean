import VmMetadata.Inspect.Closing
import VmMetadata.Inspect.Declaration

/-!
The content of a dump, assembly by assembly: either the declaration of every class, or a line for
the address of every compiled method. A dump is pulled item by item and reads no more of the
machine than the items that are pulled need. What cannot be read becomes an error among the items;
the dump goes on behind it.
-/

namespace VmMetadata

inductive DumpKind
  | classes | methods
  deriving DecidableEq, Repr

def DumpKind.extension : DumpKind → String
  | classes => "cs"
  | methods => "ms"

/-- A piece of text, or the error in its place. -/
abbrev DumpItem := Except Error String

inductive DumpEvent
  /-- An assembly is entered. -/
  | progress (assembly : String)
  | item (item : DumpItem)

/-- How long a dump is pulled. -/
structure Patience where
  /-- How many items are still wanted, all if this is absent. -/
  items : Option Nat
  /-- Whether the first error is the last item. -/
  untilError : Bool
  deriving DecidableEq, Repr

namespace Patience

def endless : Patience := ⟨none, false⟩

def isOver (p : Patience) : Bool :=
  p.items == some 0

/-- What is left of it behind an item, unless that was the last one. -/
def after? (p : Patience) (item : DumpItem) : Option Patience :=
  let left : Patience := { p with items := p.items.map (· - 1) }
  match item with
  | .ok _ => if left.isOver then none else some left
  | .error _ => if left.isOver || p.untilError then none else some left

end Patience

/-- The part of a dump that was pulled: what happened in order, and how long the puller would have
gone on, if the end was seen. -/
structure Pulled where
  events : List DumpEvent
  patience : Option Patience

namespace Pulled

/-- Nothing, and the pulling goes on. -/
def nothing (p : Patience) : Pulled := ⟨[], some p⟩

/-- The items that are ready, as far as they are pulled. -/
def ofItems (p : Patience) : List DumpItem → Pulled
  | [] => nothing p
  | item :: rest =>
      match p.after? item with
      | none => ⟨[.item item], none⟩
      | some left =>
          let pulled := ofItems left rest
          { pulled with events := .item item :: pulled.events }

/-- Goes on with the rest, unless the pulling has stopped. -/
def andThen (first : Pulled) (rest : Patience → StateM Session Pulled) : StateM Session Pulled :=
  match first.patience with
  | none => pure first
  | some left => do
      let pulled ← rest left
      pure { pulled with events := first.events ++ pulled.events }

/-- Whether the end of the dump was seen. -/
def ended (p : Pulled) : Bool :=
  p.patience.isSome

def items (p : Pulled) : List DumpItem :=
  p.events.filterMap fun
    | .item item => some item
    | .progress _ => none

def progress (p : Pulled) : List String :=
  p.events.filterMap fun
    | .item _ => none
    | .progress name => some name

end Pulled

/-- The outcome of a query as a value. Behind a query that stops the program nothing is pulled any
more. -/
def Query.attempt (q : Query α) : StateM Session (Except Error α) := fun s =>
  match q s with
  | .ok a s => (.ok a, s)
  | .error e s => (.error e, s)

/-- The line of a method in a closed class, if the method has a body. -/
def methodLine (classWasGeneric : Bool) (m : Method) : Query (Option String) := do
  let m ← m.representative classWasGeneric
  match ← m.addressToken? with
  | none => pure none
  | some token => do
      let cls ← (← m.class_).typeName
      let name ← m.name
      pure (some (token ++ " " ++ cls ++ "." ++ name ++ "\n"))

/-- The lines of a class, read from a closed stand-in for it. -/
def methodLines (c : Class) : Query (List String) := do
  let isGeneric ← c.isGeneric
  let closed ← c.representative
  let lines ← (← closed.methods).mapM (methodLine isGeneric)
  pure (lines.filterMap id)

/-- The block of a class: its declaration and an empty line. -/
def classBlock (c : Class) : Query String := do
  pure ((← c.declaration) ++ "\n\n")

/-- What a class contributes. A class whose methods cannot be read contributes one error. -/
def classItems (kind : DumpKind) (c : Class) : StateM Session (List DumpItem) := do
  match kind with
  | .classes => pure [← (classBlock c).attempt]
  | .methods =>
      match ← (methodLines c).attempt with
      | .ok lines => pure (lines.map .ok)
      | .error e => pure [.error e]

def pullClasses (kind : DumpKind) : List Class → Patience → StateM Session Pulled
  | [], p => pure (.nothing p)
  | c :: rest, p => do
      (Pulled.ofItems p (← classItems kind c)).andThen (pullClasses kind rest)

/-- An assembly: a notice with its name, then its classes. -/
def pullAssembly (kind : DumpKind) (a : Assembly) (p : Patience) : StateM Session Pulled := do
  match ← a.name.attempt with
  | .error e => pure (.ofItems p [.error e])
  | .ok name =>
      let pulled ←
        match ← (do (← a.image).classes : Query (List Class)).attempt with
        | .error e => pure (.ofItems p [.error e])
        | .ok classes => pullClasses kind classes p
      pure { pulled with events := .progress name :: pulled.events }

def pullAssemblies (kind : DumpKind) : List Assembly → Patience → StateM Session Pulled
  | [], p => pure (.nothing p)
  | a :: rest, p => do
      (← pullAssembly kind a p).andThen (pullAssemblies kind rest)

/-- Opens a dump, which reads the list of assemblies, and pulls it. -/
def pullDump (kind : DumpKind) (p : Patience) : StateM Session Pulled := do
  let assemblies ← (do (← Query.domain).assemblies : Query (List Assembly)).attempt
  if p.isOver then pure ⟨[], none⟩
  else
    match assemblies with
    | .error e => pure (.ofItems p [.error e])
    | .ok assemblies => pullAssemblies kind assemblies p

end VmMetadata
