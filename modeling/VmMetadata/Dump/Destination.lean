import VmMetadata.Dump.Content
import VmMetadata.Files.Basic
import VmMetadata.Files.Path
import VmMetadata.Inspect.Host

/-!
Where a dump goes and how it gets there. What is set explicitly counts first, then what is
configured, then what the host says about itself; without any of it a dump goes to the current
directory under the time of day.
-/

namespace VmMetadata

structure Destination where
  directory : Option String := none
  /-- Base name of the file without the extension. -/
  fileName : Option String := none
  deriving DecidableEq, Repr

namespace Destination

def setDirectory (d : Destination) (directory : String) : Destination :=
  { d with directory := some directory }

def setFileName (d : Destination) (fileName : String) : Destination :=
  { d with fileName := some fileName }

/-- Takes from the configuration what is not set yet. -/
def withDefaults (d : Destination) (o : OutputConfig) : Destination :=
  { directory := d.directory.or o.directory, fileName := d.fileName.or o.fileName }

/-- The directory; without one the host's, without that the current one. -/
def resolveDirectory (d : Destination) (host : Host) : Query String :=
  match d.directory with
  | some directory => pure directory
  | none => do pure ((← host.persistentDataPath).getD ".")

/-- The base name; without one the host's identifier and version, without both the time. -/
def resolveFileName (d : Destination) (host : Host) (now : String) : Query String :=
  match d.fileName with
  | some name => pure name
  | none => do
      let identifier ← host.identifier
      let version ← host.version
      match identifier, version with
      | some identifier, some version => pure (identifier ++ "_" ++ version)
      | _, _ => pure now

def path (d : Destination) (kind : DumpKind) (now : String) : Query String := do
  let host ← Host.new
  let directory ← d.resolveDirectory host
  let name ← d.resolveFileName host now
  pure (Path.join directory (name ++ "." ++ kind.extension))

end Destination

/-- What a written dump came to. -/
structure DumpReport where
  result : Except Error String
  /-- The assemblies that were entered. -/
  progress : List String

/-- The text in front of the first error, and that error if there is one. -/
def textUntilError : List DumpItem → String × Option Error
  | [] => ("", none)
  | .ok chunk :: rest =>
      let (text, e) := textUntilError rest
      (chunk ++ text, e)
  | .error e :: _ => ("", some e)

namespace Destination

variable {m : Type → Type} [Monad m] [MonadFiles m]

/-- Makes the file, with the directories above it, and empties it. -/
def openFile (path : String) : m (Except Error Unit) := do
  let parent := (Path.parent? path).getD ""
  let hasParent ← if parent = "" then pure true else MonadFiles.createDirectories parent
  if !hasParent then pure (.error (.io parent))
  else if ← MonadFiles.createFile path then pure (.ok ())
  else pure (.error (.io path))

/-- Pulls the dump up to its first error into the file. -/
def fillFile (path : String) (kind : DumpKind) (s : Session) : m (DumpReport × Session) := do
  let (pulled, s) := (pullDump kind ⟨none, true⟩).run s
  let (text, e) := textUntilError pulled.items
  let written ← MonadFiles.writeFile path text
  let result :=
    match e with
    | some e => .error e
    | none => if written then .ok path else .error (.io path)
  pure (⟨result, pulled.progress⟩, s)

/-- Writes a dump. What comes before the first error stays in the file. -/
def run (d : Destination) (kind : DumpKind) (now : String) (s : Session) :
    m (DumpReport × Session) := do
  match d.path kind now s with
  | .error e s => pure (⟨.error e, []⟩, s)
  | .ok path s =>
      match ← openFile path with
      | .error e => pure (⟨.error e, []⟩, s)
      | .ok () => fillFile path kind s

end Destination

end VmMetadata
