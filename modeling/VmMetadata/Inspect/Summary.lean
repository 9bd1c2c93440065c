import VmMetadata.Inspect.Query
import VmMetadata.Text.Escaped

/-!
Sessions in one line, for a human reader: the build and the layout that were settled on.
-/

namespace VmMetadata

/-- A name with named parts in braces. -/
def structureText (name : String) (parts : List String) : String :=
  name ++ " \x7b " ++ ", ".intercalate parts ++ " \x7d"

def Version.summary (v : Version) : String :=
  structureText "VmVersion" [
    "major: " ++ toString v.major.toNat,
    "minor: " ++ toString v.minor.toNat,
    "patch: " ++ toString v.patch.toNat,
    "suffix: " ++ match v.suffix with
      | none => "None"
      | some s => "Some(" ++ Text.escaped s ++ ")"]

def ClassLayout.summary : ClassLayout → String
  | legacy offset => structureText "Legacy" ["type_enum_offset: " ++ toString offset]
  | current => "Current"

/-- The build and the layout of a session; what else it holds is left to dots. -/
def Session.summary (s : Session) : String :=
  structureText "Session" ["version: " ++ s.version.summary, "layout: " ++ s.layout.summary, ".."]

end VmMetadata
