import VmMetadata.Json.Value

/-!
Records read from documents. A document is a value of some data format; a record is a structure
whose fields a document gives by name or, where the format allows, in order. Fields that are
missing take their default or make the document unreadable; names that repeat make it unreadable
always, and unknown names do unless the record is open.
-/

namespace VmMetadata

/-- What a reader of records may ask of a value of a data format. -/
class Document (δ : Type) where
  text? : δ → Option String
  bool? : δ → Option Bool
  /-- An integer that is read as unsigned. -/
  nat? : δ → Option Nat
  /-- An integer that is read as signed. -/
  int? : δ → Option Int
  /-- Whether the value stands for an absent one. -/
  isNull? : δ → Option Bool
  items? : δ → Option (List δ)
  /-- The name in a value that chooses one of several names. -/
  choice? : δ → Option String
  named? : δ → Option (List (String × δ))
  /-- The fields of a record that is written in order. -/
  ordered? : δ → Option (List δ)

namespace Record

variable {δ : Type} [Document δ]

open Document

/-- The values under the names, for each name none or one. -/
def byName? (isOpen : Bool) (names : List String) (members : List (String × δ)) :
    Option (List (Option δ)) :=
  let known := members.filter fun m => names.contains m.1
  if (isOpen || known.length == members.length) && decide (known.map Prod.fst).Nodup then
    some (names.map fun name => known.lookup name)
  else none

/-- The values in order, as far as they go. -/
def inOrder? (names : List String) (values : List δ) : Option (List (Option δ)) :=
  if values.length ≤ names.length then
    some (values.map some ++ List.replicate (names.length - values.length) none)
  else none

/-- For each of the names its value, if the document gives one. -/
def fields? (names : List String) (d : δ) (isOpen : Bool := false) : Option (List (Option δ)) :=
  match named? d, ordered? d with
  | some members, _ => byName? isOpen names members
  | none, some values => inOrder? names values
  | none, none => none

/-- A field that has to be there. -/
def required (read : δ → Option α) : Option δ → Option α
  | some d => read d
  | none => none

/-- A field that has a default. -/
def withDefault (default : α) (read : δ → Option α) : Option δ → Option α
  | some d => read d
  | none => some default

/-- A field that may be absent or null. -/
def optional (read : δ → Option α) : Option δ → Option (Option α)
  | some d =>
      match isNull? d with
      | some true => some none
      | some false => (read d).map some
      | none => none
  | none => some none

def list? (read : δ → Option α) (d : δ) : Option (List α) := do
  (← items? d).mapM read

/-- An unsigned number of the given width in bits. -/
def unsigned? (bits : Nat) (d : δ) : Option Nat := do
  let n ← nat? d
  if n < 1 <<< bits then some n else none

def int32? (d : δ) : Option Int := do
  let n ← int? d
  if -0x8000_0000 ≤ n ∧ n < 0x8000_0000 then some n else none

end Record

instance : Document Json where
  text?
    | .str s => some s
    | _ => none
  bool?
    | .bool b => some b
    | _ => none
  nat?
    | .int n => if 0 ≤ n then some n.toNat else none
    | _ => none
  int?
    | .int n => some n
    | _ => none
  isNull?
    | .null => some true
    | _ => some false
  items?
    | .arr items => some items
    | _ => none
  choice?
    | .str s => some s
    | .obj [(name, .null)] => some name
    | _ => none
  named?
    | .obj members => some members
    | _ => none
  ordered?
    | .arr items => some items
    | _ => none

end VmMetadata
