import VmMetadata.Layout
import VmMetadata.Record

/-!
Settings of a session: overrides for what the virtual machine reports about its build, and
defaults for where a dump goes. Settings that are absent are left out when written.
-/

namespace VmMetadata

open Document Record

/-- Defaults for the destination of a dump. -/
structure OutputConfig where
  directory : Option String := none
  /-- Base name without the extension. -/
  fileName : Option String := none
  deriving DecidableEq, Repr, Inhabited

structure Config where
  /-- Stands in for the build that the virtual machine reports. -/
  vmVersion : Option String := none
  /-- Stands in for the place of the tag byte under the legacy layout. -/
  typeKindOffset : Option Nat := none
  output : OutputConfig := {}
  deriving DecidableEq, Repr, Inhabited

variable {δ : Type} [Document δ]

def OutputConfig.decode? (d : δ) : Option OutputConfig := do
  let [directory, fileName] ← fields? ["directory", "file_name"] d | none
  pure { directory := ← optional text? directory, fileName := ← optional text? fileName }

def Config.decode? (d : δ) : Option Config := do
  let [vmVersion, offset, output] ← fields? ["vm_version", "type_enum_offset", "output"] d | none
  pure {
    vmVersion := ← optional text? vmVersion
    typeKindOffset := ← optional (unsigned? 64) offset
    output := ← withDefault {} OutputConfig.decode? output }

/-- The member under the name, unless the value is absent. -/
def presentMember (name : String) (f : α → Json) : Option α → List (String × Json)
  | some a => [(name, f a)]
  | none => []

def OutputConfig.toJson (o : OutputConfig) : Json :=
  .obj (presentMember "directory" .str o.directory ++ presentMember "file_name" .str o.fileName)

def Config.toJson (c : Config) : Json :=
  .obj (presentMember "vm_version" .str c.vmVersion ++
    presentMember "type_enum_offset" .nat c.typeKindOffset ++ [("output", c.output.toJson)])

/-- The build and the layout for a virtual machine that reports a build, with the overrides in
place. The offset has a say under the legacy layout only. -/
def Config.resolveLayout (c : Config) (reported : String) (pointerSize : Nat) :
    Except Error (Version × ClassLayout) := do
  let version ← Version.parse (c.vmVersion.getD reported)
  match ← ClassLayout.detect version pointerSize with
  | .legacy offset => pure (version, .legacy (c.typeKindOffset.getD offset))
  | .current => pure (version, .current)

end VmMetadata
