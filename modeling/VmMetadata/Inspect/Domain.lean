import VmMetadata.Inspect.Image

/-!
The domain, its assemblies, and the classes that a session knows by name.
-/

namespace VmMetadata

open Query
open Std (TreeMap)

namespace Assembly

def image (a : Assembly) : Query Image :=
  remember a.page .assemblyImage do view .image (← ask (.assemblyImage a.handle))

def name (a : Assembly) : Query String :=
  remember a.page .assemblyName do pure (assemblyNameOf (← (← a.image).name))

end Assembly

/-- A qualified name cut at its last dot into namespace and name. -/
def splitQualified (name : String) : String × String :=
  let reversed := name.toList.reverse
  let last := (reversed.takeWhile (· ≠ '.')).reverse
  match reversed.dropWhile (· ≠ '.') with
  | [] => ("", String.ofList last)
  | _ :: rest => (String.ofList rest.reverse, String.ofList last)

namespace Domain

/-- The assemblies in the order of their registration. -/
def assemblies (d : Domain) : Query (List Assembly) :=
  remember d.page .domainAssemblies do
    (← ask (.domainAssemblies d.handle)).mapM (view .assembly)

/-- The assembly of the name; of several the last. -/
def assembly? (d : Domain) (name : String) : Query (Option Assembly) := do
  let table ← remember d.page .domainAssembliesByName do
    (← d.assemblies).foldlM (fun (table : TreeMap String Assembly) a => do
      pure (table.insert (← a.name) a)) ∅
  pure table[name]?

/-- The class of the namespace and name in the first assembly that has one. -/
def firstClass (namespace_ name : String) : List Assembly → Query (Option Class)
  | [] => pure none
  | a :: rest => do
      match ← (← a.image).classFromName namespace_ name with
      | some c => pure (some c)
      | none => firstClass namespace_ name rest

def findClass (d : Domain) (qualified : String) : Query (Option Class) := do
  let (namespace_, name) := splitQualified qualified
  firstClass namespace_ name (← d.assemblies)

end Domain

namespace Query

def domain : Query Domain := do
  view .domain (← ask .domainGet)

/-- The image of the core library. -/
def corlib : Query Image := do
  view .image (← ask .corlib)

/-- The class of the core library with the name. -/
def corlibClass (namespace_ name : String) : Query Handle := do
  let image ← lift ((← ask .corlib).require "corlib image")
  lift ((← ask (.classFromName image namespace_ name)).require "corlib class")

/-- `System.Object`, which can stand for every reference type. -/
def rootClass : Query Class := do
  view .class_ (← remember Notebook.front .rootClass (corlibClass "System" "Object"))

/-- `System.Type`, the class of reflection objects. -/
def reflectionClass : Query Class := do
  view .class_ (← remember Notebook.front .reflectionClass (corlibClass "System" "Type"))

end Query

end VmMetadata
