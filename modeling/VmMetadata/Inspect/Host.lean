import VmMetadata.Inspect.Object

/-!
Facts about the host program, which it exposes as static getters of its application class. They
are read by running those getters. An empty text counts as absent.
-/

namespace VmMetadata

open Query

/-- The host program with its page in the notebook. -/
structure Host where
  page : Nat
  deriving DecidableEq, Repr

namespace Host

/-- The assemblies that may hold the application class, the newer one first. -/
def assemblyNames : List String :=
  ["UnityEngine.CoreModule", "UnityEngine"]

def new : Query Host := fun s =>
  .ok ⟨s.notebook.next⟩ { s with notebook := s.notebook.addPage .null }

/-- The application class in the first of the named assemblies that has one. -/
def findClass (d : Domain) : List String → Query (Option Class)
  | [] => pure none
  | name :: rest => do
      match ← d.assembly? name with
      | none => findClass d rest
      | some a =>
          match ← (← a.image).classFromName "UnityEngine" "Application" with
          | some c => pure (some c)
          | none => findClass d rest

def class? (h : Host) : Query (Option Class) :=
  remember h.page .hostClass do findClass (← domain) assemblyNames

/-- The text that a getter returns. -/
def text? (h : Host) (getter : String) : Query (Option String) := do
  let some c ← h.class? | pure none
  let some m ← c.method? getter (some 0) | pure none
  let some o ← m.invoke none [] | pure none
  let text ← Object.contents o
  pure (if text = "" then none else some text)

/-- The directory that outlives a run of the host. -/
def persistentDataPath (h : Host) : Query (Option String) :=
  h.text? "get_persistentDataPath"

def identifier (h : Host) : Query (Option String) := do
  match ← h.text? "get_identifier" with
  | some text => pure (some text)
  | none => h.text? "get_bundleIdentifier"

def version (h : Host) : Query (Option String) :=
  h.text? "get_version"

end Host

end VmMetadata
