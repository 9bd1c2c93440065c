/-!
Paths as text: segments between slashes, where a leading slash makes a path absolute. Empty
segments and, but for the first one, single dots count for nothing.
-/

namespace VmMetadata.Path

/-- The segments of a path. -/
def segments (path : String) : List String :=
  (split path.toList).map String.ofList
where
  split : List Char → List (List Char)
    | [] => [[]]
    | c :: cs =>
        if c = '/' then [] :: split cs
        else
          match split cs with
          | [] => [[c]]
          | s :: rest => (c :: s) :: rest

def isAbsolute (path : String) : Bool :=
  path.toList.head? == some '/'

/-- The second path as seen from the first; an absolute one stands for itself. -/
def join (directory path : String) : String :=
  if isAbsolute path then path
  else if directory = "" ∨ directory.toList.getLast? = some '/' then directory ++ path
  else directory ++ "/" ++ path

def isIdle (segment : String) : Bool :=
  segment == "" || segment == "."

/-- Segments behind the first one that count, the last in front. -/
def trimmedEnd (reversed : List String) : List String :=
  reversed.dropWhile isIdle

/-- The segments without idle ones at the end. The first one is kept: it says whether the path is
absolute, or is a dot that counts. -/
def significant (path : String) : List String :=
  match segments path with
  | [] => []
  | first :: rest => first :: (trimmedEnd rest.reverse).reverse

def ofSegments (segments : List String) : String :=
  match segments with
  | [""] => "/"
  | segments => "/".intercalate segments

/-- The path without its last component. The root and the empty path have no parent. -/
def parent? (path : String) : Option String :=
  match significant path with
  | [] => none
  | [first] => if first = "" then none else some ""
  | first :: rest =>
      some (ofSegments (first :: (trimmedEnd rest.reverse.tail).reverse))

/-- The last component, unless it is a dot, a pair of dots, or the root. -/
def fileName? (path : String) : Option String :=
  match (significant path).getLast? with
  | some name => if name = ".." ∨ isIdle name then none else some name
  | none => none

/-- What stands behind the last dot of the file name, if something stands before it. -/
def extension? (path : String) : Option String := do
  let name := (← fileName? path).toList.reverse
  match name.dropWhile (· ≠ '.') with
  | [] | ['.'] => none
  | _ => some (String.ofList (name.takeWhile (· ≠ '.')).reverse)

/-- Whether the path is a single dot, however it is written. -/
def isCurrent (path : String) : Bool :=
  significant path == ["."]

/-- The path and all above it but the empty path and the root, the highest first. -/
def lineage (path : String) : List String :=
  match significant path with
  | [] => []
  | first :: rest =>
      let starts := if first = "" then [] else [[first]]
      (starts ++ extend [first] rest).map ofSegments
where
  extend (start : List String) : List String → List (List String)
    | [] => []
    | s :: rest =>
        if isIdle s then extend (start ++ [s]) rest
        else (start ++ [s]) :: extend (start ++ [s]) rest

end VmMetadata.Path
