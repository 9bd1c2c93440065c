import VmMetadata.Json.Token

/-!
JSON text read into a value: one value with nothing but white space around it, nested at most
127 deep. The reader is a machine over the tokens with the open arrays and objects on a stack.
-/

namespace VmMetadata.Json

/-- An array or object that is still open, its contents so far in reverse. -/
inductive Frame
  | array (items : List Json)
  | object (members : List (String × Json))
  /-- An object whose last name waits for its value. -/
  | member (members : List (String × Json)) (name : String)

/-- What may come next. -/
inductive Expected
  | value
  | valueOrEnd
  | name
  | nameOrEnd
  | colon
  | commaOrEnd
  | nothing (result : Json)

structure Reader where
  stack : List Frame
  next : Expected

/-- The deepest nesting that is read. -/
def nestingLimit : Nat := 127

namespace Reader

/-- Hands a complete value to the innermost open array or object. -/
def give? (v : Json) : List Frame → Option Reader
  | [] => some ⟨[], .nothing v⟩
  | .array items :: rest => some ⟨.array (v :: items) :: rest, .commaOrEnd⟩
  | .member members name :: rest => some ⟨.object ((name, v) :: members) :: rest, .commaOrEnd⟩
  | .object _ :: _ => none

def push? (frame : Frame) (next : Expected) (stack : List Frame) : Option Reader :=
  if stack.length < nestingLimit then some ⟨frame :: stack, next⟩ else none

def value? (token : Token) (stack : List Frame) : Option Reader :=
  match token with
  | .str s => give? (.str s) stack
  | .atom v => give? v stack
  | .openBrace => push? (.object []) .nameOrEnd stack
  | .openBracket => push? (.array []) .valueOrEnd stack
  | _ => none

def close? (token : Token) (stack : List Frame) : Option Reader :=
  match token, stack with
  | .closeBracket, .array items :: rest => give? (.arr items.reverse) rest
  | .closeBrace, .object members :: rest => give? (.obj members.reverse) rest
  | _, _ => none

def name? (token : Token) (stack : List Frame) : Option Reader :=
  match token, stack with
  | .str s, .object members :: rest => some ⟨.member members s :: rest, .colon⟩
  | _, _ => none

def step? (reader : Reader) (token : Token) : Option Reader :=
  match reader.next with
  | .value => value? token reader.stack
  | .valueOrEnd => (close? token reader.stack).or (value? token reader.stack)
  | .name => name? token reader.stack
  | .nameOrEnd => (close? token reader.stack).or (name? token reader.stack)
  | .colon =>
      match token with
      | .colon => some ⟨reader.stack, .value⟩
      | _ => none
  | .commaOrEnd =>
      match token, reader.stack with
      | .comma, .array _ :: _ => some ⟨reader.stack, .value⟩
      | .comma, .object _ :: _ => some ⟨reader.stack, .name⟩
      | _, stack => close? token stack
  | .nothing _ => none

end Reader

/-- The value that a text writes. -/
def parse? (text : String) : Option Json := do
  let tokens ← Token.scan? text.toList
  let reader ← tokens.foldlM Reader.step? ⟨[], .value⟩
  match reader.next with
  | .nothing v => some v
  | _ => none

end VmMetadata.Json
