import VmMetadata.Files.Basic
import VmMetadata.Files.Path

/-!
A tree of files and directories in memory, with a working directory.
-/

namespace VmMetadata

inductive FileEntry
  | directory
  | file (content : ByteArray)

structure FileTree where
  /-- Everything but the root, by the names on the way to it. -/
  entries : List (List String × FileEntry)
  /-- The names on the way to the working directory. -/
  home : List String

namespace FileTree

def entry? (t : FileTree) (at_ : List String) : Option FileEntry :=
  if at_ = [] then some .directory else t.entries.lookup at_

def isDirectory (t : FileTree) (at_ : List String) : Bool :=
  match t.entry? at_ with
  | some .directory => true
  | _ => false

def set (t : FileTree) (at_ : List String) (e : FileEntry) : FileTree :=
  { t with entries := t.entries.filter (·.1 ≠ at_) ++ [(at_, e)] }

/-- One segment further, which is possible from a directory only. -/
def step? (t : FileTree) (at_ : List String) (segment : String) : Option (List String) :=
  if t.isDirectory at_ then
    if Path.isIdle segment then some at_
    else if segment = ".." then some at_.dropLast
    else some (at_ ++ [segment])
  else none

/-- Where a path leads. What is there need not exist, but all in front of it is a directory. -/
def locate? (t : FileTree) (path : String) : Option (List String) :=
  if path = "" then none
  else
    let start := if Path.isAbsolute path then [] else t.home
    (Path.segments path).foldlM t.step? start

/-- Names that a directory can hold. -/
def isValidName (name : String) : Bool :=
  name.utf8ByteSize ≤ 255 && !name.toList.contains '\x00'

/-- Makes one directory, or finds it. -/
def createDirectory? (t : FileTree) (path : String) : Option FileTree := do
  let at_ ← t.locate? path
  match t.entry? at_ with
  | some .directory => some t
  | some (.file _) => none
  | none => if isValidName (at_.getLast?.getD "") then some (t.set at_ .directory) else none

/-- Makes the directories one after the other, up to the first that cannot be made. -/
def createAll (t : FileTree) : List String → FileTree × Bool
  | [] => (t, true)
  | path :: rest =>
      match t.createDirectory? path with
      | some t => createAll t rest
      | none => (t, false)

def createDirectories (t : FileTree) (path : String) : FileTree × Bool :=
  if path.toList.contains '\x00' then (t, false) else t.createAll (Path.lineage path)

def content? (t : FileTree) (path : String) : Option ByteArray := do
  match t.entry? (← t.locate? path) with
  | some (.file content) => some content
  | _ => none

/-- The tree with a file of the content at the path, if there can be one. -/
def put? (t : FileTree) (path : String) (content : ByteArray) : Option FileTree := do
  let at_ ← t.locate? path
  match t.entry? at_ with
  | some .directory => none
  | some (.file _) => some (t.set at_ (.file content))
  | none => if isValidName (at_.getLast?.getD "") then some (t.set at_ (.file content)) else none

def absolute (at_ : List String) : String :=
  "/" ++ "/".intercalate at_

def canonical? (t : FileTree) (path : String) : Option String := do
  let at_ ← t.locate? path
  let _ ← t.entry? at_
  some (absolute at_)

/-- All files with their paths from the working directory. -/
def files (t : FileTree) : List (String × ByteArray) :=
  t.entries.filterMap fun (at_, e) =>
    match e with
    | .file content =>
        if t.home.isPrefixOf at_ then
          some ("/".intercalate (at_.drop t.home.length), content)
        else none
    | .directory => none

end FileTree

/-- Replaces the tree if there is a new one, and says whether there is. -/
def FileTree.update (t : FileTree) (u : Option FileTree) : Bool × FileTree :=
  match u with
  | some u => (true, u)
  | none => (false, t)

instance : MonadFiles (StateM FileTree) where
  readText? path := fun t => ((t.content? path).bind String.fromUTF8?, t)
  workingDirectory := fun t => (FileTree.absolute t.home, t)
  canonical? path := fun t => (t.canonical? path, t)
  createDirectories path := fun t => (t.createDirectories path).swap
  createFile path := fun t => t.update (t.put? path ByteArray.empty)
  writeFile path text := fun t => t.update (t.put? path text.toUTF8)

end VmMetadata
