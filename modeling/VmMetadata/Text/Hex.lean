/-!
Hexadecimal text: lower-case digits, zero padding to a least width, and the `0x` form of
numbers and addresses.
-/

namespace VmMetadata.Text.Hex

/-- The digits of `n`, most significant first and without leading zeros. -/
def digits (n : Nat) : List Char :=
  Nat.toDigits 16 n

/-- Zeros in front of `ds` until there are at least `width` characters. -/
def padded (width : Nat) (ds : List Char) : List Char :=
  List.replicate (width - ds.length) '0' ++ ds

def prefixed (n : Nat) : String :=
  String.ofList ('0' :: 'x' :: digits n)

/-- The `0x` form with at least `width` digits. -/
def prefixedWide (width n : Nat) : String :=
  String.ofList ('0' :: 'x' :: padded width (digits n))

/-- A byte as two digits. -/
def byte (b : UInt8) : List Char :=
  padded 2 (digits b.toNat)

def bytes (bs : List UInt8) : String :=
  String.ofList (bs.flatMap byte)

/-- The value of one digit of either case. -/
def digitValue? (c : Char) : Option Nat :=
  if c.isDigit then some (c.toNat - '0'.toNat)
  else if 'a' ≤ c ∧ c ≤ 'f' then some (c.toNat - 'a'.toNat + 10)
  else if 'A' ≤ c ∧ c ≤ 'F' then some (c.toNat - 'A'.toNat + 10)
  else none

/-- The number that a run of digits writes, most significant first. -/
def value? (ds : List Char) : Option Nat :=
  ds.foldlM (fun n c => (digitValue? c).map (16 * n + ·)) 0

/-- The bytes that pairs of digits write. -/
def toBytes? : List Char → Option (List UInt8)
  | [] => some []
  | hi :: lo :: rest => do
      let value ← value? [hi, lo]
      let others ← toBytes? rest
      pure (UInt8.ofNat value :: others)
  | [_] => none

end VmMetadata.Text.Hex
