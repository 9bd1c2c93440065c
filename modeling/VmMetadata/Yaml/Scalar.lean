import VmMetadata.Text.Hex
import VmMetadata.Yaml.Source

/-!
Scalars as they are written: plain, in single or double quotes, or as a block of lines. What a
scalar says is its text with the lines joined. Texts under construction are kept in reverse.
-/

namespace VmMetadata.Yaml

inductive Style
  | plain | single | double | literal | folded
  deriving DecidableEq, Repr

/-- A scalar that was read, and where the text goes on. -/
structure ScalarSpan where
  text : String
  rest : List Char
  position : Position
  /-- Whether a line end lies between the scalar and what comes next. -/
  endsLine : Bool

/-- The white space between two words of a scalar, as far as it was read. -/
structure Gap where
  /-- The blanks in front of the first line end. -/
  blanks : List Char
  first : Option Char
  /-- The line ends behind the first one. -/
  more : List Char
  /-- Whether there is a line end, be it an escaped one. -/
  broken : Bool

namespace Gap

def empty : Gap := ⟨[], none, [], false⟩

/-- An escaped line end, which says nothing. -/
def escaped : Gap := ⟨[], none, [], true⟩

def isEmpty (g : Gap) : Bool :=
  g.blanks.isEmpty && !g.broken

/-- Blanks count as far as they are not at the beginning of a line. -/
def addBlank (g : Gap) (c : Char) : Gap :=
  if g.broken then g else { g with blanks := c :: g.blanks }

def addBreak (g : Gap) (c : Char) : Gap :=
  if g.broken then { g with more := c :: g.more } else ⟨[], some c, [], true⟩

/-- The text with the gap behind it: one line end becomes a blank, of several the first counts for
nothing. -/
def join (g : Gap) (text : List Char) : List Char :=
  if !g.broken then g.blanks ++ text
  else if g.first = some '\n' then if g.more = [] then ' ' :: text else g.more ++ text
  else g.more ++ g.first.toList ++ text

end Gap

/-! Plain scalars. -/

/-- Characters that end a plain scalar within brackets. -/
def isFlowMark (c : Char) : Bool :=
  c == ',' || c == '[' || c == ']' || c == '\x7b' || c == '\x7d'

/-- Whether a plain scalar ends where a gap does. -/
def endsBehindGap (inFlow : Bool) (margin : Nat) (cs : List Char) (p : Position) : Bool :=
  (!inFlow && p.column < margin) || (p.column == 0 && atDocumentMark cs) || cs.head? == some '#'

/-- Whether a plain scalar ends in front of an indicator. -/
def atPlainEnd (inFlow : Bool) : List Char → Bool
  | c :: cs => (c == ':' && atGap cs) || (inFlow && isFlowMark c)
  | [] => true

/-- A colon that neither ends a plain scalar within brackets nor may be part of it. -/
def atLooseColon (inFlow : Bool) : List Char → Bool
  | ':' :: c :: _ => inFlow && (isFlowMark c || c == '?')
  | _ => false

/-- Reads a plain scalar whose lines begin no further to the left than the margin. -/
def plain? (inFlow : Bool) (margin : Nat) :
    List Char → Position → List Char → Gap → Option ScalarSpan
  | [], p, text, gap => some ⟨String.ofList text.reverse, [], p, gap.broken⟩
  | c :: cs, p, text, gap =>
      if isBlank c then
        if gap.broken && c == '\t' && p.column < margin then none
        else plain? inFlow margin cs p.next text (gap.addBlank c)
      else if isBreak c then plain? inFlow margin cs p.newLine text (gap.addBreak c)
      else if !gap.isEmpty && endsBehindGap inFlow margin (c :: cs) p then
        some ⟨String.ofList text.reverse, c :: cs, p, gap.broken⟩
      else if atLooseColon inFlow (c :: cs) then none
      else if atPlainEnd inFlow (c :: cs) then
        some ⟨String.ofList text.reverse, c :: cs, p, gap.broken⟩
      else plain? inFlow margin cs p.next (c :: gap.join text) .empty

/-! Quoted scalars. -/

/-- What a character behind a backslash stands for. -/
def escape? : Char → Option Char
  | '0' => some '\x00'
  | 'a' => some '\x07'
  | 'b' => some '\x08'
  | 't' | '\t' => some '\t'
  | 'n' => some '\n'
  | 'v' => some '\x0b'
  | 'f' => some '\x0c'
  | 'r' => some '\r'
  | 'e' => some '\x1b'
  | ' ' => some ' '
  | '"' => some '"'
  | '/' => some '/'
  | '\\' => some '\\'
  | 'N' => some '\u0085'
  | '_' => some '\u00a0'
  | 'L' => some '\u2028'
  | 'P' => some '\u2029'
  | _ => none

/-- How many hexadecimal digits follow the letter of a numeric escape. -/
def escapeWidth? : Char → Option Nat
  | 'x' => some 2
  | 'u' => some 4
  | 'U' => some 8
  | _ => none

/-- How far the reading of a quoted scalar has come. -/
inductive QuotedMode
  | content
  /-- Behind a backslash. -/
  | escape
  /-- Within a numeric escape of which some digits are left. -/
  | code (left value : Nat)
  /-- Behind a single quote that may be the end or the first of two. -/
  | quote

/-- The character of a number, if it has one. -/
def charOf? (n : Nat) : Option Char :=
  if n.isValidChar then some (Char.ofNat n) else none

/-- Reads a quoted scalar from behind its opening quote. -/
def quoted? (double : Bool) :
    QuotedMode → List Char → Position → List Char → Gap → Option ScalarSpan
  | .quote, [], p, text, _ => some ⟨String.ofList text.reverse, [], p, false⟩
  | _, [], _, _, _ => none
  | .quote, c :: cs, p, text, gap =>
      if c = '\'' then quoted? double .content cs p.next ('\'' :: text) gap
      else some ⟨String.ofList text.reverse, c :: cs, p, false⟩
  | .escape, c :: cs, p, text, gap =>
      if isBreak c then quoted? double .content cs p.newLine text .escaped
      else
        match escape? c, escapeWidth? c with
        | some e, _ => quoted? double .content cs p.next (e :: text) gap
        | none, some width => quoted? double (.code width 0) cs p.next text gap
        | none, none => none
  | .code left value, c :: cs, p, text, gap =>
      match Text.Hex.digitValue? c with
      | none => none
      | some digit =>
          let value := 16 * value + digit
          if 1 < left then quoted? double (.code (left - 1) value) cs p.next text gap
          else
            match charOf? value with
            | some e => quoted? double .content cs p.next (e :: text) gap
            | none => none
  | .content, c :: cs, p, text, gap =>
      if isBlank c then quoted? double .content cs p.next text (gap.addBlank c)
      else if isBreak c then quoted? double .content cs p.newLine text (gap.addBreak c)
      else
        let text := gap.join text
        if p.column == 0 && atDocumentMark (c :: cs) then none
        else if double && c == '"' then some ⟨String.ofList text.reverse, cs, p.next, false⟩
        else if double && c == '\\' then quoted? double .escape cs p.next text .empty
        else if !double && c == '\'' then quoted? double .quote cs p.next text .empty
        else quoted? double .content cs p.next (c :: text) .empty

/-! Block scalars. -/

/-- What becomes of the line ends behind a block. -/
inductive Chomping
  | strip
  /-- The first one stays. -/
  | clip
  | keep
  deriving DecidableEq, Repr

def Chomping.ofChar? : Char → Option Chomping
  | '-' => some .strip
  | '+' => some .keep
  | _ => none

structure BlockHeader where
  chomping : Chomping
  /-- How much further the block is indented than what it is part of, if that is told. -/
  increment : Option Nat

/-- The number that a digit other than zero writes. -/
def increment? (c : Char) : Option Nat :=
  if c = '0' then none else some (c.toNat - '0'.toNat)

/-- Reads the signs behind the bar or the angle, in either order. -/
def BlockHeader.read? : List Char → Option (BlockHeader × List Char)
  | [] => some (⟨.clip, none⟩, [])
  | c :: cs =>
      match Chomping.ofChar? c, cs with
      | some chomping, d :: rest =>
          if d.isDigit then (increment? d).map fun n => (⟨chomping, some n⟩, rest)
          else some (⟨chomping, none⟩, d :: rest)
      | some chomping, [] => some (⟨chomping, none⟩, [])
      | none, rest =>
          if !c.isDigit then some (⟨.clip, none⟩, c :: rest)
          else
            (increment? c).map fun n =>
              match rest with
              | d :: after =>
                  match Chomping.ofChar? d with
                  | some chomping => (⟨chomping, some n⟩, after)
                  | none => (⟨.clip, some n⟩, rest)
              | [] => (⟨.clip, some n⟩, [])

/-- Empty lines in front of a block, and how far its first line is indented. -/
structure Lead where
  breaks : List Char
  /-- The widest indentation seen. -/
  widest : Nat
  rest : List Char
  position : Position

/-- Goes over indentation, up to the limit if there is one, and empty lines. -/
def lead? (limit : Option Nat) : List Char → Position → List Char → Nat → Option Lead
  | [], p, breaks, widest => some ⟨breaks, max widest p.column, [], p⟩
  | c :: cs, p, breaks, widest =>
      let inside := limit.all (p.column < ·)
      if c == ' ' && inside then lead? limit cs p.next breaks widest
      else if c == '\t' && inside then none
      else if isBreak c then lead? limit cs p.newLine (c :: breaks) (max widest p.column)
      else some ⟨breaks, max widest p.column, c :: cs, p⟩

/-- The lines of a block that were read. -/
structure BlockText where
  text : List Char
  /-- The line end of the last line. -/
  last : Option Char
  /-- The line ends of the empty lines behind it. -/
  trailing : List Char
  /-- Whether the last line begins with a blank. -/
  indented : Bool

namespace BlockText

/-- Joins the lines so far to a line that begins with the character: in a folded block a line end
between two lines that do not begin with blanks becomes a blank, or counts for nothing in front
of empty lines. -/
def startLine (b : BlockText) (folded : Bool) (c : Char) : BlockText :=
  let text :=
    if folded && b.last == some '\n' && !b.indented && !isBlank c then
      if b.trailing = [] then ' ' :: b.text else b.trailing ++ b.text
    else b.trailing ++ b.last.toList ++ b.text
  ⟨c :: text, none, [], isBlank c⟩

def finish (b : BlockText) (chomping : Chomping) : String :=
  let text :=
    match chomping with
    | .strip => b.text
    | .clip => b.last.toList ++ b.text
    | .keep => b.trailing ++ b.last.toList ++ b.text
  String.ofList text.reverse

end BlockText

/-- Reads the lines of a block that is indented so far, within or in front of a line. -/
def blockLines? (folded : Bool) (indent : Nat) :
    Bool → List Char → Position → BlockText → Option (BlockText × List Char × Position)
  | _, [], p, b => some (b, [], p)
  | true, c :: cs, p, b =>
      if isBreak c then blockLines? folded indent false cs p.newLine { b with last := some c }
      else blockLines? folded indent true cs p.next { b with text := c :: b.text }
  | false, c :: cs, p, b =>
      if isBreak c then
        blockLines? folded indent false cs p.newLine { b with trailing := c :: b.trailing }
      else if p.column = indent then
        blockLines? folded indent true cs p.next (b.startLine folded c)
      else if p.column < indent ∧ c = ' ' then blockLines? folded indent false cs p.next b
      else if p.column < indent ∧ c = '\t' then none
      else some (b, c :: cs, p)

/-- Reads a block scalar from behind its bar or angle; the block is part of something whose
contents are indented to the margin at least. -/
def block? (folded : Bool) (margin : Nat) (cs : List Char) (p : Position) : Option ScalarSpan := do
  let (header, rest) ← BlockHeader.read? cs
  let limit := header.increment.map (margin - 1 + ·)
  let lead ← lead? limit (← endOfLine? rest) p.newLine [] 0
  let indent := limit.getD (max lead.widest (max margin 1))
  let (b, rest, q) ←
    blockLines? folded indent false lead.rest lead.position ⟨[], none, lead.breaks, false⟩
  pure ⟨b.finish header.chomping, rest, q, true⟩

end VmMetadata.Yaml
