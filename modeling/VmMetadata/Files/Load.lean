import VmMetadata.Config
import VmMetadata.Description.Decode
import VmMetadata.Files.Basic
import VmMetadata.Files.Path
import VmMetadata.Json.Reader
import VmMetadata.Yaml.Document

/-!
Snapshots and configurations read from files. A configuration is JSON; a snapshot is YAML if the
name of its file says so, and JSON otherwise.
-/

namespace VmMetadata

variable {m : Type → Type} [Monad m] [MonadFiles m]

def Config.load (path : String) : m (Except Error Config) := do
  match ← MonadFiles.readText? path with
  | none => pure (.error (.io path))
  | some text =>
      match (Json.parse? text).bind Config.decode? with
      | some config => pure (.ok config)
      | none => pure (.error (.config path))

/-- Whether the extension of a path is one of those for YAML. -/
def isYamlPath (path : String) : Bool :=
  match Path.extension? path with
  | some extension => extension == "yaml" || extension == "yml"
  | none => false

/-- The snapshot that the text of a file writes. -/
def Snapshot.parse? (path text : String) : Option Snapshot :=
  if isYamlPath path then (Yaml.parse? text).bind Snapshot.decode?
  else (Json.parse? text).bind Snapshot.decode?

def Snapshot.load (path : String) : m (Except Error Snapshot) := do
  match ← MonadFiles.readText? path with
  | none => pure (.error (.io path))
  | some text =>
      match Snapshot.parse? path text with
      | some snapshot => pure (.ok snapshot)
      | none => pure (.error (.snapshot (.malformed path)))

end VmMetadata
