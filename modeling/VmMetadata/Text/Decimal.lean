/-!
Unsigned decimal text: a run of ASCII digits, optionally after a plus sign, whose value has to
stay below a bound.
-/

namespace VmMetadata.Text.Decimal

/-- The value of a non-empty run of digits below `bound`. -/
def value? (bound : Nat) (ds : List Char) : Option Nat :=
  if ds ≠ [] ∧ ds.all Char.isDigit ∧ Nat.ofDigitChars 10 ds 0 < bound then
    some (Nat.ofDigitChars 10 ds 0)
  else
    none

/-- The same after one optional plus sign. -/
def signedValue? (bound : Nat) : List Char → Option Nat
  | '+' :: ds => value? bound ds
  | ds => value? bound ds

end VmMetadata.Text.Decimal
