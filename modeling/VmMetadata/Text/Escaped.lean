import VmMetadata.Text.Hex
import VmMetadata.Text.Printable

/-!
Text in double quotes for a human reader. Quotes, backslashes and line controls are escaped by a
letter, all else that does not show as a character of its own by its number.
-/

namespace VmMetadata.Text

/-- The number of a character in braces. -/
def numbered (c : Char) : List Char :=
  '\\' :: 'u' :: '\x7b' :: Hex.digits c.toNat ++ ['\x7d']

def escapedChar (c : Char) : List Char :=
  match c with
  | '\x00' => ['\\', '0']
  | '\t' => ['\\', 't']
  | '\n' => ['\\', 'n']
  | '\r' => ['\\', 'r']
  | '\\' => ['\\', '\\']
  | '"' => ['\\', '"']
  | c => if isPrintable c then [c] else numbered c

def escaped (s : String) : String :=
  String.ofList ('"' :: s.toList.flatMap escapedChar ++ ['"'])

end VmMetadata.Text
