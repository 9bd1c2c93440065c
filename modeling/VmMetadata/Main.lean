import VmMetadata.Command.Run
import VmMetadata.Dump.Stamp
import Std.Time.DateTime.Timestamp

/-!
The command line: the real file system and clock behind the commands, and their outcome as output
and exit code.
-/

namespace VmMetadata

/-- What an action yields, unless it fails. -/
def succeeded? (action : IO α) : IO (Option α) := do
  try
    pure (some (← action))
  catch _ => pure none

instance : MonadFiles IO where
  readText? path := do
    pure ((← succeeded? (IO.FS.readBinFile path)).bind String.fromUTF8?)
  workingDirectory := do pure (← IO.currentDir).toString
  canonical? path := succeeded? do pure (← IO.FS.realPath path).toString
  createDirectories path := do pure (← succeeded? (IO.FS.createDirAll path)).isSome
  createFile path := do pure (← succeeded? (IO.FS.writeFile path "")).isSome
  writeFile path text := do pure (← succeeded? (IO.FS.writeFile path text)).isSome

/-- The time of day as it stands in file names. -/
def currentStamp : IO String := do
  pure (Stamp.text (← Std.Time.Timestamp.now).toSecondsSinceUnixEpoch.val.toNat)

def usage : String :=
  Command.ofLines [
    "Usage: vmscope <COMMAND>",
    "",
    "Commands:",
    "  dump        --snapshot <PATH> --kind <classes|methods> [--out-dir <DIR>]",
    "              [--file-name <NAME>] [--config <PATH>]",
    "  info        --snapshot <PATH> [--config <PATH>] [--json]",
    "  find-class  --snapshot <PATH> --name <NAME> [--config <PATH>]"]

/-- A failure and the error behind it, one below the other; of a fault that stops the program
nothing but the fault. -/
def CommandFailure.report (f : CommandFailure) : String :=
  match f.fault?, f.cause? with
  | some fault, _ => fault.message ++ "\n"
  | none, some e => "Error: " ++ f.message ++ "\n\nCaused by:\n    " ++ e.message ++ "\n"
  | none, none => "Error: " ++ f.message ++ "\n"

/-- Shows an outcome and says how the program ends. -/
def Outcome.conclude (o : Outcome) : IO UInt32 := do
  IO.print o.output
  if let some f := o.failure then IO.eprint f.report
  pure o.exitCode

end VmMetadata

open VmMetadata

def main (args : List String) : IO UInt32 := do
  match Request.parse? args with
  | none => do
      IO.eprint usage
      pure 2
  | some .help => do
      IO.print usage
      pure 0
  | some .version => do
      IO.println s!"vmscope {libraryVersion}"
      pure 0
  | some (.run command) => do
      (← command.run (← currentStamp)).conclude
