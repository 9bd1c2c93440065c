/-!
JSON values. The members of an object keep their order and may repeat a name; whether that is
allowed is for the reader of a record to say. A number written with a fraction or an exponent,
and a negative zero, is no integer and keeps its text.
-/

namespace VmMetadata

inductive Json
  | null
  | bool (b : Bool)
  | int (n : Int)
  | real (text : String)
  | str (s : String)
  | arr (items : List Json)
  | obj (members : List (String × Json))
  deriving Repr, Inhabited

namespace Json

/-- The last member of the name: what a reader sees who lets later members win. -/
def member? (name : String) : Json → Option Json
  | obj members => members.reverse.lookup name
  | _ => none

def ofOption (f : α → Json) : Option α → Json
  | some a => f a
  | none => null

def nat (n : Nat) : Json :=
  int n

def ofList (f : α → Json) (as : List α) : Json :=
  arr (as.map f)

end Json

end VmMetadata
