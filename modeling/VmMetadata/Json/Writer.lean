import VmMetadata.Text.Hex
import VmMetadata.Json.Value

/-!
JSON values written as text, either without any white space or one item a line with an indent of
two blanks.
-/

namespace VmMetadata.Json

/-- A character inside quotes: control characters, the quote and the backslash are escaped. -/
def quotedChar (c : Char) : List Char :=
  match c with
  | '"' => ['\\', '"']
  | '\\' => ['\\', '\\']
  | '\x08' => ['\\', 'b']
  | '\x0c' => ['\\', 'f']
  | '\n' => ['\\', 'n']
  | '\r' => ['\\', 'r']
  | '\t' => ['\\', 't']
  | c =>
      if c.toNat < 0x20 then '\\' :: 'u' :: Text.Hex.padded 4 (Text.Hex.digits c.toNat) else [c]

def quoted (s : String) : String :=
  String.ofList ('"' :: s.toList.flatMap quotedChar ++ ['"'])

mutual

/-- The text without white space. -/
def compact : Json → String
  | null => "null"
  | bool true => "true"
  | bool false => "false"
  | int n => toString n
  | real text => text
  | str s => quoted s
  | arr items => "[" ++ ",".intercalate (compactItems items) ++ "]"
  | obj members => "\x7b" ++ ",".intercalate (compactMembers members) ++ "\x7d"

def compactItems : List Json → List String
  | [] => []
  | v :: rest => compact v :: compactItems rest

def compactMembers : List (String × Json) → List String
  | [] => []
  | (name, v) :: rest => (quoted name ++ ":" ++ compact v) :: compactMembers rest

end

/-- The line break in front of an item that is nested `depth` deep. -/
def lineBreak (depth : Nat) : String :=
  String.ofList ('\n' :: List.replicate (2 * depth) ' ')

mutual

/-- The text with one item a line, for a value nested `depth` deep. -/
def indented (depth : Nat) : Json → String
  | arr (v :: rest) =>
      "[" ++ ",".intercalate (indentedItems (depth + 1) (v :: rest)) ++ lineBreak depth ++ "]"
  | obj (m :: rest) =>
      "\x7b" ++ ",".intercalate (indentedMembers (depth + 1) (m :: rest)) ++ lineBreak depth ++
        "\x7d"
  | v => compact v

def indentedItems (depth : Nat) : List Json → List String
  | [] => []
  | v :: rest => (lineBreak depth ++ indented depth v) :: indentedItems depth rest

def indentedMembers (depth : Nat) : List (String × Json) → List String
  | [] => []
  | (name, v) :: rest =>
      (lineBreak depth ++ quoted name ++ ": " ++ indented depth v) :: indentedMembers depth rest

end

/-- Inserts a member in the order of names; of two members of one name the new one stays. -/
def insertMember (name : String) (v : Json) : List (String × Json) → List (String × Json)
  | [] => [(name, v)]
  | (other, w) :: rest =>
      if name < other then (name, v) :: (other, w) :: rest
      else if name = other then (name, v) :: rest
      else (other, w) :: insertMember name v rest

mutual

/-- The value with the members of every object in the order of their names, the last of several
members of one name kept. -/
def sorted : Json → Json
  | arr items => arr (sortedItems items)
  | obj members => obj (sortedMembers members [])
  | v => v

def sortedItems : List Json → List Json
  | [] => []
  | v :: rest => sorted v :: sortedItems rest

def sortedMembers : List (String × Json) → List (String × Json) → List (String × Json)
  | [], done => done
  | (name, v) :: rest, done => sortedMembers rest (insertMember name (sorted v) done)

end

end VmMetadata.Json
