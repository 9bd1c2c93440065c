import VmMetadata.Text.Hex
import VmMetadata.Json.Value

/-!
The tokens of JSON text. The lexer is a machine that takes one character at a time, so that it
ends with its input. A number or a word ends before the first character that cannot continue it.
-/

namespace VmMetadata.Json

inductive Token
  | openBrace | closeBrace | openBracket | closeBracket | colon | comma
  | str (s : String)
  /-- A number or one of the words `null`, `true` and `false`. -/
  | atom (value : Json)

namespace Token

/-- What the lexer is in the middle of. Characters read so far are kept in reverse. -/
inductive Mode
  | between
  | string (read : List Char)
  | escape (read : List Char)
  /-- Behind `\u`, with the digits so far and the leading surrogate that waits for its partner. -/
  | code (read : List Char) (digits : List Char) (leading : Option Nat)
  /-- Behind a leading surrogate: `\` has to follow, and then `u`. -/
  | pair (read : List Char) (leading : Nat)
  | pairEscape (read : List Char) (leading : Nat)
  | number (read : List Char)
  | word (read : List Char)

structure Lexer where
  mode : Mode
  done : List Token

def integer? : List Char → Option Int
  | '0' :: [] => some 0
  | '0' :: _ => none
  | ds => if ds ≠ [] ∧ ds.all Char.isDigit then some (Nat.ofDigitChars 10 ds 0) else none

def exponent? : List Char → Option Unit
  | '+' :: ds | '-' :: ds => if ds ≠ [] ∧ ds.all Char.isDigit then some () else none
  | ds => if ds ≠ [] ∧ ds.all Char.isDigit then some () else none

/-- What may stand behind the integer part: a fraction, an exponent, or both. -/
def fraction? (cs : List Char) : Option Unit :=
  match cs with
  | '.' :: rest =>
      let digits := rest.takeWhile Char.isDigit
      match digits, rest.dropWhile Char.isDigit with
      | [], _ => none
      | _, [] => some ()
      | _, e :: ds => if e = 'e' ∨ e = 'E' then exponent? ds else none
  | e :: ds => if e = 'e' ∨ e = 'E' then exponent? ds else none
  | [] => none

def number? (cs : List Char) : Option Json :=
  let (negative, body) :=
    match cs with
    | '-' :: rest => (true, rest)
    | _ => (false, cs)
  let whole := body.takeWhile Char.isDigit
  let rest := body.dropWhile Char.isDigit
  match integer? whole, rest with
  | some n, [] =>
      if negative then
        if n = 0 then some (.real (String.ofList cs)) else some (.int (-n))
      else some (.int n)
  | some _, rest => (fraction? rest).map fun _ => .real (String.ofList cs)
  | none, _ => none

def word? (cs : List Char) : Option Json :=
  match String.ofList cs with
  | "null" => some .null
  | "true" => some (.bool true)
  | "false" => some (.bool false)
  | _ => none

def continuesNumber (c : Char) : Bool :=
  c.isDigit || c == '+' || c == '-' || c == '.' || c == 'e' || c == 'E'

def isLeadingSurrogate (n : Nat) : Bool :=
  0xd800 ≤ n && n < 0xdc00

def isTrailingSurrogate (n : Nat) : Bool :=
  0xdc00 ≤ n && n < 0xe000

/-- Starts the token that begins with `c`. -/
def Lexer.start? (done : List Token) (c : Char) : Option Lexer :=
  match c with
  | ' ' | '\t' | '\n' | '\r' => some ⟨.between, done⟩
  | '{' => some ⟨.between, .openBrace :: done⟩
  | '}' => some ⟨.between, .closeBrace :: done⟩
  | '[' => some ⟨.between, .openBracket :: done⟩
  | ']' => some ⟨.between, .closeBracket :: done⟩
  | ':' => some ⟨.between, .colon :: done⟩
  | ',' => some ⟨.between, .comma :: done⟩
  | '"' => some ⟨.string [], done⟩
  | c =>
      if c.isDigit || c == '-' then some ⟨.number [c], done⟩
      else if c.isLower then some ⟨.word [c], done⟩
      else none

/-- The character that stands for itself or has a letter of its own behind a backslash. -/
def escaped? : Char → Option Char
  | '"' => some '"'
  | '\\' => some '\\'
  | '/' => some '/'
  | 'b' => some '\x08'
  | 'f' => some '\x0c'
  | 'n' => some '\n'
  | 'r' => some '\r'
  | 't' => some '\t'
  | _ => none

/-- A code unit of sixteen bits is complete. Surrogates count only in pairs. -/
def Mode.afterCode? (read : List Char) (unit : Nat) (leading : Option Nat) : Option Mode :=
  match leading with
  | none =>
      if isLeadingSurrogate unit then some (.pair read unit)
      else if isTrailingSurrogate unit then none
      else some (.string (Char.ofNat unit :: read))
  | some first =>
      if isTrailingSurrogate unit then
        some (.string (Char.ofNat (0x10000 + (first - 0xd800) * 0x400 + (unit - 0xdc00)) :: read))
      else none

def Lexer.step? (lexer : Lexer) (c : Char) : Option Lexer :=
  match lexer.mode with
  | .between => start? lexer.done c
  | .string read =>
      match c with
      | '"' => some ⟨.between, .str (String.ofList read.reverse) :: lexer.done⟩
      | '\\' => some ⟨.escape read, lexer.done⟩
      | c => if c.toNat < 0x20 then none else some ⟨.string (c :: read), lexer.done⟩
  | .escape read =>
      if c = 'u' then some ⟨.code read [] none, lexer.done⟩
      else (escaped? c).map fun e => ⟨.string (e :: read), lexer.done⟩
  | .code read digits leading =>
      if (Text.Hex.digitValue? c).isNone then none
      else if digits.length < 3 then some ⟨.code read (c :: digits) leading, lexer.done⟩
      else do
        let unit ← Text.Hex.value? (c :: digits).reverse
        let mode ← Mode.afterCode? read unit leading
        some ⟨mode, lexer.done⟩
  | .pair read leading =>
      if c = '\\' then some ⟨.pairEscape read leading, lexer.done⟩ else none
  | .pairEscape read leading =>
      if c = 'u' then some ⟨.code read [] (some leading), lexer.done⟩ else none
  | .number read =>
      if continuesNumber c then some ⟨.number (c :: read), lexer.done⟩
      else do
        let value ← number? read.reverse
        start? (.atom value :: lexer.done) c
  | .word read =>
      if c.isLower then some ⟨.word (c :: read), lexer.done⟩
      else do
        let value ← word? read.reverse
        start? (.atom value :: lexer.done) c

/-- The tokens of a text that ends here. -/
def Lexer.finish? (lexer : Lexer) : Option (List Token) :=
  match lexer.mode with
  | .between => some lexer.done.reverse
  | .number read => (number? read.reverse).map fun v => (.atom v :: lexer.done).reverse
  | .word read => (word? read.reverse).map fun v => (.atom v :: lexer.done).reverse
  | _ => none

def scan? (cs : List Char) : Option (List Token) := do
  let lexer ← cs.foldlM Lexer.step? ⟨.between, []⟩
  lexer.finish?

end Token

end VmMetadata.Json
