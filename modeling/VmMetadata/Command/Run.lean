import VmMetadata.Command.Request
import VmMetadata.Dump.Destination
import VmMetadata.Files.Load
import VmMetadata.Json.Writer

/-!
What the commands do: dump a machine to a file, tell about it, or show one class. A command that
fails says at which stage, and the error behind it.
-/

namespace VmMetadata

/-- The version of the library. -/
def libraryVersion : String := "0.1.0"

inductive CommandFailure
  | config (path : String) (cause : Error)
  | load (snapshot : String) (cause : Error)
  | attach (snapshot : String) (cause : Error)
  | domain (cause : Error)
  | dump (cause : Error)
  | classNotFound (name : String)
  /-- An error that speaks for itself. -/
  | plain (error : Error)

namespace CommandFailure

def message : CommandFailure → String
  | config path _ => s!"Failed to load config from {path}"
  | load snapshot _ => s!"Failed to load VM snapshot from {snapshot}"
  | attach snapshot _ => s!"Failed to attach to VM described by {snapshot}"
  | domain _ => "Failed to read VM domain"
  | dump _ => "Dump failed"
  | classNotFound name => s!"Class {name} not found"
  | plain e => e.message

/-- The error behind the failure. -/
def cause? : CommandFailure → Option Error
  | config _ e | load _ e | attach _ e | domain e | dump e => some e
  | classNotFound _ | plain _ => none

/-- What stopped the program before it could say where it failed. -/
def fault? : CommandFailure → Option ArithmeticFault
  | config _ e | load _ e | attach _ e | domain e | dump e | plain e =>
      match e with
      | .stopped fault => some fault
      | _ => none
  | classNotFound _ => none

end CommandFailure

/-- What a command leaves behind: its output, and the failure that ended it. -/
structure Outcome where
  output : String
  failure : Option CommandFailure

namespace Outcome

def done (output : String) : Outcome := ⟨output, none⟩

def failed (f : CommandFailure) : Outcome := ⟨"", some f⟩

/-- How the program ends. -/
def exitCode (o : Outcome) : UInt32 :=
  match o.failure with
  | none => 0
  | some f => if f.fault?.isSome then 101 else 1

end Outcome

namespace Command

variable {m : Type → Type} [Monad m] [MonadFiles m]

/-- The configuration at the path, the defaults without one. -/
def loadConfig : Option String → m (Except CommandFailure Config)
  | none => pure (.ok {})
  | some path => do pure ((← Config.load path).mapError (.config path))

/-- A session with the machine that the snapshot describes. -/
def openSession (snapshot : String) (config : Config) : m (Except CommandFailure Session) := do
  match ← Snapshot.load snapshot with
  | .error e => pure (.error (.load snapshot e))
  | .ok s =>
      pure do
        let vm ← (Vm.ofSnapshot s).mapError (.load snapshot)
        (Session.attach vm config).mapError (.attach snapshot)

/-- The absolute path of what exists; of anything else the path from the working directory. -/
def canonicalOrCurrent (path : String) : m String := do
  if Path.isCurrent path then MonadFiles.workingDirectory
  else
    match ← MonadFiles.canonical? path with
    | some canonical => pure canonical
    | none => do pure (Path.join (← MonadFiles.workingDirectory) path)

structure AssemblyInfo where
  name : String
  image : String
  classCount : Nat

structure VmInfo where
  version : String
  layout : String
  pointerSize : Nat
  corlib : String
  assemblies : List AssemblyInfo

def assemblyInfo (a : Assembly) : Query AssemblyInfo := do
  let image ← a.image
  let name ← a.name
  pure ⟨name, ← image.name, ← image.classCount⟩

/-- Reads what there is to tell about the machine, from its domain on. -/
def vmInfo (d : Domain) : Query VmInfo := do
  let assemblies ← (← d.assemblies).mapM assemblyInfo
  let s ← get
  let pointerSize ← Query.ask .pointerSize
  let corlib ← (← Query.corlib).name
  pure ⟨s.version.text, s.layout.name, pointerSize, corlib, assemblies⟩

namespace VmInfo

def toJson (i : VmInfo) : Json :=
  .obj [("tool_version", .str libraryVersion), ("vm_version", .str i.version),
    ("layout", .str i.layout), ("pointer_size", .nat i.pointerSize), ("corlib", .str i.corlib),
    ("assemblies", .ofList (fun a => .obj [("name", .str a.name), ("image", .str a.image),
      ("class_count", .nat a.classCount)]) i.assemblies)]

def lines (i : VmInfo) : List String :=
  ["VM Info", "=======", s!"vmscope-core v{libraryVersion}", s!"Version: {i.version}",
    s!"Layout: {i.layout}", s!"Pointer size: {i.pointerSize}", s!"Corlib: {i.corlib}", "",
    s!"Assemblies ({i.assemblies.length}):"] ++
    i.assemblies.map fun a => s!"  - {a.name} ({a.classCount} classes)"

end VmInfo

/-- Lines of text, each ended. -/
def ofLines (lines : List String) : String :=
  String.join (lines.map (· ++ "\n"))

def infoOutcome (asJson : Bool) (s : Session) : Outcome :=
  match Query.domain s with
  | .error e _ => .failed (.domain e)
  | .ok d s =>
      match vmInfo d s with
      | .error e _ => .failed (.plain e)
      | .ok facts _ =>
          .done (if asJson then facts.toJson.indented 0 ++ "\n" else ofLines facts.lines)

/-- The declaration of the class with the qualified name. -/
def findDeclaration (name : String) : Query (Option String) := do
  match ← (← Query.domain).findClass name with
  | some c => some <$> c.declaration
  | none => pure none

def findClassOutcome (name : String) (s : Session) : Outcome :=
  match findDeclaration name s with
  | .error e _ => .failed (.plain e)
  | .ok none _ => .failed (.classNotFound name)
  | .ok (some text) _ => .done (text ++ "\n")

def dumpOutcome (kind : DumpKind) (report : DumpReport) : Outcome :=
  let entered := report.progress.map ("Dumping " ++ ·)
  match report.result with
  | .ok path =>
      .done (ofLines (entered ++ [s!"Wrote {kind.extension} dump:", s!"  Path: {path}"]))
  | .error e => ⟨ofLines entered, some (.dump e)⟩

/-- Opens a session and goes on with it. -/
def withSession (snapshot : String) (config : Option String)
    (go : Config → Session → m Outcome) : m Outcome := do
  match ← loadConfig config with
  | .error f => pure (.failed f)
  | .ok config =>
      match ← openSession snapshot config with
      | .error f => pure (.failed f)
      | .ok s => go config s

/-- Runs a command at the given time. -/
def run (now : String) : Command → m Outcome
  | .dump snapshot kind directory fileName config =>
      withSession snapshot config fun config s => do
        let destination := Destination.withDefaults {} config.output
        let destination ←
          match directory with
          | some path => do pure (destination.setDirectory (← canonicalOrCurrent path))
          | none => pure destination
        let destination := (fileName.map destination.setFileName).getD destination
        let (report, _) ← destination.run kind now s
        pure (dumpOutcome kind report)
  | .info snapshot config asJson =>
      withSession snapshot config fun _ s => pure (infoOutcome asJson s)
  | .findClass snapshot name config =>
      withSession snapshot config fun _ s => pure (findClassOutcome name s)

end Command

end VmMetadata
