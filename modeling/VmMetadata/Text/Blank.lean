/-!
White space in the sense of the Unicode property `White_Space`, and the trimming of texts by it.
-/

namespace VmMetadata.Text

/-- The characters with the Unicode property `White_Space`. -/
def isBlank (c : Char) : Bool :=
  let n := c.toNat
  (0x09 ≤ n && n ≤ 0x0d) || n == 0x20 || n == 0x85 || n == 0xa0 || n == 0x1680 ||
    (0x2000 ≤ n && n ≤ 0x200a) || n == 0x2028 || n == 0x2029 || n == 0x202f || n == 0x205f ||
    n == 0x3000

/-- The characters without those at either end for which `drop` holds. -/
def trimmedBy (drop : Char → Bool) (cs : List Char) : List Char :=
  ((cs.dropWhile drop).reverse.dropWhile drop).reverse

/-- The characters without blanks at either end. -/
def trimmed (cs : List Char) : List Char :=
  trimmedBy isBlank cs

end VmMetadata.Text
