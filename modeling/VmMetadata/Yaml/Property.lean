import VmMetadata.Text.Hex
import VmMetadata.Yaml.Source

/-!
What stands in front of a node or of a document: names of anchors, tags, and directives. The
characters of a tag stand for octets; an escaped octet must be part of a UTF-8 sequence.
-/

namespace VmMetadata.Yaml

/-- A tag as it is written: a handle that stands for some text, and what follows it. -/
structure TagText where
  handle : String
  suffix : String
  deriving DecidableEq, Repr

/-- Characters of a tag besides those of names; some only where no bracket can be meant. -/
def isTagChar (wide : Bool) (c : Char) : Bool :=
  isWordChar c || ";/?:@&=+$.!~*'()".toList.contains c || (wide && ",[]".toList.contains c)

/-- How many octets follow the first octet of a UTF-8 sequence. -/
def octetsBehind? (octet : Nat) : Option Nat :=
  if octet < 0x80 then some 0
  else if octet < 0xc0 then none
  else if octet < 0xe0 then some 1
  else if octet < 0xf0 then some 2
  else if octet < 0xf8 then some 3
  else none

/-- The longest run of tag characters, and the rest. So many escaped octets have to follow. -/
def tagRun? (wide : Bool) : Nat → List Char → Option (List Char × List Char)
  | 0, '%' :: a :: b :: cs => do
      let octet ← Text.Hex.value? [a, b]
      let (run, rest) ← tagRun? wide (← octetsBehind? octet) cs
      pure (Char.ofNat octet :: run, rest)
  | due + 1, '%' :: a :: b :: cs => do
      let octet ← Text.Hex.value? [a, b]
      if 0x80 ≤ octet ∧ octet < 0xc0 then
        let (run, rest) ← tagRun? wide due cs
        pure (Char.ofNat octet :: run, rest)
      else none
  | _ + 1, _ => none
  | 0, [] => some ([], [])
  | 0, c :: cs =>
      if c = '%' then none
      else if isTagChar wide c then do
        let (run, rest) ← tagRun? wide 0 cs
        pure (c :: run, rest)
      else some ([], c :: cs)

/-- A run of tag characters that is not empty. -/
def tagPart? (wide : Bool) (cs : List Char) : Option (String × List Char) := do
  let (run, rest) ← tagRun? wide 0 cs
  if run = [] then none else pure (String.ofList run, rest)

/-- Reads a tag from behind its exclamation mark. -/
def TagText.read? : List Char → Option (TagText × List Char)
  | '<' :: cs => do
      let (suffix, rest) ← tagPart? true cs
      match rest with
      | '>' :: rest => pure (⟨"", suffix⟩, rest)
      | _ => none
  | cs =>
      let word := cs.takeWhile isWordChar
      match cs.dropWhile isWordChar with
      | '!' :: rest => do
          let (suffix, rest) ← tagPart? false rest
          pure (⟨"!" ++ String.ofList word ++ "!", suffix⟩, rest)
      | rest => do
          let (run, rest) ← tagRun? false 0 rest
          match word ++ run with
          | [] => pure (⟨"", "!"⟩, rest)
          | suffix => pure (⟨"!", String.ofList suffix⟩, rest)

/-- Reads a name behind its mark; a blank or an indicator has to follow. -/
def anchorName? (cs : List Char) : Option (List Char) :=
  let name := cs.takeWhile isWordChar
  let rest := cs.dropWhile isWordChar
  if name ≠ [] ∧ (atGap rest ∨ rest.head?.any ("?:,]\x7d%@\x60".toList.contains ·)) then some name
  else none

inductive Directive
  | version (major minor : Nat)
  /-- What a handle stands for. -/
  | tag (handle text : String)
  deriving DecidableEq, Repr

namespace Directive

/-- A number of at most nine digits. -/
def number? (cs : List Char) : Option (Nat × List Char) :=
  let digits := cs.takeWhile Char.isDigit
  if digits ≠ [] ∧ digits.length ≤ 9 then
    some (Nat.ofDigitChars 10 digits 0, cs.dropWhile Char.isDigit)
  else none

def version? (cs : List Char) : Option (Directive × List Char) := do
  let (major, rest) ← number? (cs.dropWhile isBlank)
  match rest with
  | '.' :: rest => do
      let (minor, rest) ← number? rest
      pure (.version major minor, rest)
  | _ => none

/-- A handle is a mark, two marks, or a name between marks. -/
def handle? : List Char → Option (String × List Char)
  | '!' :: cs =>
      let word := cs.takeWhile isWordChar
      match cs.dropWhile isWordChar with
      | '!' :: rest => some ("!" ++ String.ofList word ++ "!", rest)
      | rest => if word = [] then some ("!", rest) else none
  | _ => none

def tag? (cs : List Char) : Option (Directive × List Char) := do
  let (handle, rest) ← handle? (cs.dropWhile isBlank)
  if rest.head?.any isBlank then
    let (text, rest) ← tagPart? true (rest.dropWhile isBlank)
    if atGap rest then pure (.tag handle text, rest) else none
  else none

/-- Reads a directive from behind its percent sign. -/
def read? (cs : List Char) : Option (Directive × List Char) :=
  let rest := cs.dropWhile isWordChar
  if atGap rest then
    match String.ofList (cs.takeWhile isWordChar) with
    | "YAML" => version? rest
    | "TAG" => tag? rest
    | _ => none
  else none

end Directive

end VmMetadata.Yaml
