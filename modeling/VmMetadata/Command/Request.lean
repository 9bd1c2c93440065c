import VmMetadata.Dump.Content

/-!
Command lines. A command takes options by their long names, each at most once, with the value
behind the name or behind an equals sign. What is not understood is refused as a whole.
-/

namespace VmMetadata

inductive Command
  | dump (snapshot : String) (kind : DumpKind) (directory fileName config : Option String)
  | info (snapshot : String) (config : Option String) (asJson : Bool)
  | findClass (snapshot name : String) (config : Option String)
  deriving DecidableEq, Repr

inductive Request
  | run (command : Command)
  | help
  | version
  deriving DecidableEq, Repr

/-- A named option, and whether a value follows it. -/
structure OptionSpec where
  name : String
  takesValue : Bool

/-- The options that were given, with their values. -/
abbrev Given := List (String × String)

/-- An argument as it is written. -/
inductive Word
  /-- `--name`, perhaps with `=value`. -/
  | long (name : String) (value : Option String)
  /-- A dash and letters. -/
  | short (letters : List Char)
  /-- The mark behind which there are no options. -/
  | separator
  | plain (text : String)
  deriving DecidableEq, Repr

def Word.ofString (text : String) : Word :=
  match text.toList with
  | '-' :: '-' :: [] => .separator
  | '-' :: '-' :: cs =>
      let name := String.ofList (cs.takeWhile (· ≠ '='))
      match cs.dropWhile (· ≠ '=') with
      | [] => .long name none
      | _ :: value => .long name (some (String.ofList value))
  | '-' :: c :: cs => .short (c :: cs)
  | _ => .plain text

namespace Request

/-- What an argument list comes to: options, or a request for help on the way. -/
inductive Parsed
  | options (given : Given)
  | help

/-- Enters a value, unless the option has one already or the value is not allowed. -/
def enter? (allowed : String → String → Bool) (given : Given) (name value : String) :
    Option Given :=
  if (given.lookup name).isNone ∧ allowed name value then some ((name, value) :: given) else none

/-- Reads the options of a command from left to right. -/
def options? (specs : List OptionSpec) (allowed : String → String → Bool) :
    List String → Given → Option Parsed
  | [], given => some (.options given)
  | arg :: rest, given =>
      match Word.ofString arg with
      | .separator => if rest = [] then some (.options given) else none
      | .short letters => if letters.head? = some 'h' then some .help else none
      | .plain _ => none
      | .long name value =>
          match specs.find? (·.name == name), value with
          | none, none => if name = "help" then some .help else none
          | none, some _ => none
          | some ⟨_, false⟩, none => do
              options? specs allowed rest (← enter? allowed given name "")
          | some ⟨_, false⟩, some _ => none
          | some ⟨_, true⟩, some value => do
              options? specs allowed rest (← enter? allowed given name value)
          | some ⟨_, true⟩, none =>
              match rest with
              | [] => none
              | next :: rest =>
                  match Word.ofString next with
                  | .plain value => do
                      options? specs allowed rest (← enter? allowed given name value)
                  | _ => none

def kind? : String → Option DumpKind
  | "classes" => some .classes
  | "methods" => some .methods
  | _ => none

def allowed (name value : String) : Bool :=
  name != "kind" || (kind? value).isSome

def valued (name : String) : OptionSpec := ⟨name, true⟩

def dumpOptions : List OptionSpec :=
  ["snapshot", "kind", "out-dir", "file-name", "config"].map valued

def infoOptions : List OptionSpec :=
  ["snapshot", "config"].map valued ++ [⟨"json", false⟩]

def findClassOptions : List OptionSpec :=
  ["snapshot", "name", "config"].map valued

def dump? (given : Given) : Option Command := do
  let snapshot ← given.lookup "snapshot"
  let kind ← kind? (← given.lookup "kind")
  pure (.dump snapshot kind (given.lookup "out-dir") (given.lookup "file-name")
    (given.lookup "config"))

def info? (given : Given) : Option Command := do
  let snapshot ← given.lookup "snapshot"
  pure (.info snapshot (given.lookup "config") (given.lookup "json").isSome)

def findClass? (given : Given) : Option Command := do
  let snapshot ← given.lookup "snapshot"
  let name ← given.lookup "name"
  pure (.findClass snapshot name (given.lookup "config"))

/-- The command that its name and arguments make. -/
def command? (specs : List OptionSpec) (build : Given → Option Command) (args : List String) :
    Option Request := do
  match ← options? specs allowed args [] with
  | .help => pure .help
  | .options given => (build given).map .run

/-- The request that a command line makes, if it is understood. -/
def parse? : List String → Option Request
  | [] => none
  | first :: rest =>
      match Word.ofString first with
      | .long "help" none => some .help
      | .long "version" none => some .version
      | .short ('h' :: _) => some .help
      | .short ('V' :: _) => some .version
      | .plain "dump" => command? dumpOptions dump? rest
      | .plain "info" => command? infoOptions info? rest
      | .plain "find-class" => command? findClassOptions findClass? rest
      | .plain "help" =>
          match rest with
          | [] | ["dump"] | ["info"] | ["find-class"] | ["help"] => some .help
          | _ => none
      | _ => none

end Request

end VmMetadata
