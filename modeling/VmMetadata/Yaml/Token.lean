import VmMetadata.Yaml.Property
import VmMetadata.Yaml.Scalar

/-!
The tokens of a YAML text. Indentation opens and closes blocks, which have tokens of their own.
Whether something is a key shows only at the colon behind it, so tokens are kept in cells, and a
colon puts the token of the key, and of a mapping that begins with it, into the cell of what turns
out to be the key. A candidate for a key lies on one line and has at most 1024 characters.
-/

namespace VmMetadata.Yaml

inductive Token
  | directive (d : Directive)
  | documentStart
  | documentEnd
  | blockSequence
  | blockMapping
  | blockEnd
  | openBracket
  | closeBracket
  | openBrace
  | closeBrace
  | dash
  | comma
  /-- A key follows. -/
  | key
  /-- The value of a key follows. -/
  | value
  | reference (name : String)
  | anchor (name : String)
  | tag (t : TagText)
  | scalar (text : String) (style : Style)
  deriving DecidableEq, Repr

/-- Something that may turn out to be a key. -/
structure Candidate where
  cell : Nat
  /-- Whether nothing else than a key may stand there. -/
  required : Bool
  position : Position

structure Scanner where
  rest : List Char
  position : Position
  cells : Array (List Token)
  /-- The columns of the open blocks, the innermost first. -/
  levels : List Nat
  /-- Whether a key may begin here. -/
  keyAllowed : Bool
  candidate : Option Candidate
  /-- The candidates around each open bracket, the innermost first. -/
  outer : List (Option Candidate)

namespace Scanner

def start (cs : List Char) : Scanner :=
  ⟨cs, .start, #[], [], true, none, []⟩

def inFlow (s : Scanner) : Bool :=
  !s.outer.isEmpty

/-- The first column that lies within the innermost block. -/
def margin (s : Scanner) : Nat :=
  match s.levels with
  | [] => 0
  | column :: _ => column + 1

def emit (s : Scanner) (t : Token) : Scanner :=
  { s with cells := s.cells.push [t] }

/-- A token of so many characters. -/
def mark (s : Scanner) (count : Nat) (t : Token) : Scanner :=
  { s.emit t with rest := s.rest.drop count, position := s.position.forward count }

/-- Gives up the candidate. -/
def dropCandidate? (s : Scanner) : Option Scanner :=
  if s.candidate.any (·.required) then none else some { s with candidate := none }

/-- What begins here is a candidate, if a key is allowed. -/
def noteCandidate? (s : Scanner) : Option Scanner :=
  if s.keyAllowed then do
    let required := !s.inFlow && s.levels.head? == some s.position.column
    let s ← s.dropCandidate?
    pure { s with candidate := some ⟨s.cells.size, required, s.position⟩ }
  else some s

/-- How many characters a key may have. -/
def longestKey : Nat := 1024

/-- A candidate, unless it lies too far back. -/
def stillOpen? (p : Position) : Option Candidate → Option (Option Candidate)
  | none => some none
  | some c =>
      if c.position.line < p.line ∨ c.position.column + longestKey < p.column then
        if c.required then none else some none
      else some (some c)

/-- Gives up the candidates that lie too far back. -/
def expireCandidates? (s : Scanner) : Option Scanner := do
  let candidate ← stillOpen? s.position s.candidate
  let outer ← s.outer.mapM (stillOpen? s.position)
  pure { s with candidate, outer }

/-- Opens a block at the column, unless one is open there: with its token in a cell of its own,
or in front of those of a cell. -/
def openBlock (s : Scanner) (column : Nat) (cell : Option Nat) (t : Token) : Scanner :=
  if s.inFlow || s.levels.head?.any (column ≤ ·) then s
  else
    let s := { s with levels := column :: s.levels }
    match cell with
    | none => s.emit t
    | some i => { s with cells := s.cells.modify i (t :: ·) }

/-- Closes the blocks from the column on, the innermost first. -/
def closeBlocks (s : Scanner) (column : Nat) : Scanner :=
  if s.inFlow then s
  else
    let closed := s.levels.takeWhile (column ≤ ·)
    { s with
      levels := s.levels.dropWhile (column ≤ ·)
      cells := s.cells ++ closed.map fun _ => [Token.blockEnd] }

/-- Goes over blanks, comments and line ends to the next token. Behind a line end a key is allowed,
and where one is allowed a tab is no blank. -/
def toToken (inFlow : Bool) :
    Bool → Bool → List Char → Position → Bool × List Char × Position
  | _, keyAllowed, [], p => (keyAllowed, [], p)
  | inComment, keyAllowed, c :: cs, p =>
      if isBreak c then toToken inFlow false (keyAllowed || !inFlow) cs p.newLine
      else if inComment || c == '#' then toToken inFlow true keyAllowed cs p.next
      else if c == ' ' || (c == '\t' && (inFlow || !keyAllowed)) ||
          (c == '\ufeff' && p == .start) then
        toToken inFlow false keyAllowed cs p.next
      else (keyAllowed, c :: cs, p)

def skipBlanks (s : Scanner) : Scanner :=
  let (keyAllowed, rest, position) := toToken s.inFlow false s.keyAllowed s.rest s.position
  { s with keyAllowed, rest, position }

/-- A token that ends all blocks. -/
def outermost? (s : Scanner) : Option Scanner := do
  let s ← (s.closeBlocks 0).dropCandidate?
  pure { s with keyAllowed := false }

def directive? (s : Scanner) : Option Scanner := do
  let s ← s.outermost?
  let (d, rest) ← Directive.read? (s.rest.drop 1)
  pure { s.emit (.directive d) with rest := ← endOfLine? rest, position := s.position.newLine }

def documentMark? (s : Scanner) (t : Token) : Option Scanner := do
  pure ((← s.outermost?).mark 3 t)

def openFlow? (s : Scanner) (t : Token) : Option Scanner := do
  let s ← s.noteCandidate?
  pure ({ s with
    outer := s.candidate :: s.outer, candidate := none, keyAllowed := true }.mark 1 t)

def closeFlow? (s : Scanner) (t : Token) : Option Scanner := do
  let s ← s.dropCandidate?
  let s :=
    match s.outer with
    | candidate :: outer => { s with candidate, outer }
    | [] => s
  pure ({ s with keyAllowed := false }.mark 1 t)

def comma? (s : Scanner) : Option Scanner := do
  pure ({ ← s.dropCandidate? with keyAllowed := true }.mark 1 .comma)

/-- A block begins with what stands here, unless it goes on with it. -/
def beginBlock? (s : Scanner) (t : Token) : Option Scanner :=
  if s.inFlow then some s
  else if s.keyAllowed then some (s.openBlock s.position.column none t)
  else none

def dash? (s : Scanner) : Option Scanner := do
  let s ← (← s.beginBlock? .blockSequence).dropCandidate?
  pure ({ s with keyAllowed := true }.mark 1 .dash)

def key? (s : Scanner) : Option Scanner := do
  let s ← (← s.beginBlock? .blockMapping).dropCandidate?
  pure ({ s with keyAllowed := !s.inFlow }.mark 1 .key)

def value? (s : Scanner) : Option Scanner :=
  match s.candidate with
  | some c =>
      let s := { s with cells := s.cells.modify c.cell (.key :: ·) }
      let s := s.openBlock c.position.column (some c.cell) .blockMapping
      some ({ s with candidate := none, keyAllowed := false }.mark 1 .value)
  | none => do
      let s ← s.beginBlock? .blockMapping
      pure ({ s with keyAllowed := !s.inFlow }.mark 1 .value)

/-- Something that may be a key and behind which no key may begin on the same line. -/
def piece? (s : Scanner) : Option Scanner := do
  pure { ← s.noteCandidate? with keyAllowed := false }

def name? (s : Scanner) (token : String → Token) : Option Scanner := do
  let s ← s.piece?
  let name ← anchorName? (s.rest.drop 1)
  pure (s.mark (1 + name.length) (token (String.ofList name)))

def tag? (s : Scanner) : Option Scanner := do
  let s ← s.piece?
  let (t, rest) ← TagText.read? (s.rest.drop 1)
  if atGap rest || (s.inFlow && rest.head? == some ',') then
    pure (s.mark (s.rest.length - rest.length) (.tag t))
  else none

def scalar (s : Scanner) (style : Style) (span : ScalarSpan) : Scanner :=
  { s.emit (.scalar span.text style) with
    rest := span.rest, position := span.position, keyAllowed := s.keyAllowed || span.endsLine }

def block? (s : Scanner) (style : Style) : Option Scanner := do
  let s ← s.dropCandidate?
  let span ← Yaml.block? (style == .folded) s.margin (s.rest.drop 1) s.position.next
  pure (s.scalar style span)

def quoted? (s : Scanner) (style : Style) : Option Scanner := do
  let s ← s.piece?
  let span ← Yaml.quoted? (style == .double) .content (s.rest.drop 1) s.position.next [] .empty
  pure (s.scalar style span)

def plain? (s : Scanner) : Option Scanner := do
  let s ← s.piece?
  let span ← Yaml.plain? s.inFlow s.margin s.rest s.position [] .empty
  pure (s.scalar .plain span)

/-- Reads the token that begins with the character. -/
def token? (s : Scanner) (c : Char) (cs : List Char) : Option Scanner :=
  let atEdge := s.position.column == 0
  if atEdge && c == '%' then s.directive?
  else if atEdge && atDocumentMark s.rest then
    s.documentMark? (if c = '-' then .documentStart else .documentEnd)
  else
    match c with
    | '[' => s.openFlow? .openBracket
    | '\x7b' => s.openFlow? .openBrace
    | ']' => s.closeFlow? .closeBracket
    | '\x7d' => s.closeFlow? .closeBrace
    | ',' => s.comma?
    | '-' => if atGap cs then s.dash? else s.plain?
    | '?' => if s.inFlow || atGap cs then s.key? else s.plain?
    | ':' => if s.inFlow || atGap cs then s.value? else s.plain?
    | '*' => s.name? .reference
    | '&' => s.name? .anchor
    | '!' => s.tag?
    | '|' => if s.inFlow then none else s.block? .literal
    | '>' => if s.inFlow then none else s.block? .folded
    | '\'' => s.quoted? .single
    | '"' => s.quoted? .double
    | '%' | '@' | '\x60' | '\t' => none
    | _ => s.plain?

/-- Reads so many tokens at most; all of them have to be read. -/
def run : Nat → Scanner → Option Scanner
  | 0, _ => none
  | turns + 1, s => do
      let s ← s.skipBlanks.expireCandidates?
      let s := s.closeBlocks (s.position.column + 1)
      match s.rest with
      | [] => (s.closeBlocks 0).dropCandidate?
      | c :: cs => run turns (← s.token? c cs)

end Scanner

/-- The tokens of a text. Each takes a character at least, so there are no more of them than
characters. -/
def Token.scan? (text : String) : Option (List Token) := do
  if text.toList.all isAllowed then
    let cs := unifyBreaks text.toList
    let s ← (Scanner.start cs).run (cs.length + 1)
    pure s.cells.toList.flatten
  else none

end VmMetadata.Yaml
