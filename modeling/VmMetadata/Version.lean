import VmMetadata.Error
import VmMetadata.Text.Blank
import VmMetadata.Text.Decimal

/-!
Build identifiers of a virtual machine, such as `2019.4.31f1`: three numbers of 32 bits and a
release suffix. A missing third number is zero. Builds are compared by their numbers; the suffix
does not take part.
-/

namespace VmMetadata

structure Version where
  major : UInt32
  minor : UInt32
  patch : UInt32
  suffix : Option String
  deriving DecidableEq, Repr

namespace Version

/-- The characters before the first dot and, if there is one, those after it. -/
def cutAtDot : List Char → List Char × Option (List Char)
  | [] => ([], none)
  | c :: cs =>
      if c = '.' then ([], some cs)
      else
        let (before, after) := cutAtDot cs
        (c :: before, after)

def number? (cs : List Char) : Option UInt32 :=
  (Text.Decimal.signedValue? UInt32.size cs).map UInt32.ofNat

/-- The third number, which is the leading run of digits, and the suffix behind it. -/
def patch? (cs : List Char) : Option (UInt32 × Option String) :=
  let suffix := cs.dropWhile Char.isDigit
  (Text.Decimal.value? UInt32.size (cs.takeWhile Char.isDigit)).map fun n =>
    (UInt32.ofNat n, if suffix = [] then none else some (String.ofList suffix))

/-- Reads `M.m` or `M.m.p` and suffix, without blanks around it. -/
def ofChars? (cs : List Char) : Option Version := do
  let (first, rest) := cutAtDot cs
  let major ← number? first
  let rest ← rest
  let (second, rest) := cutAtDot rest
  let minor ← number? second
  match rest with
  | none => pure ⟨major, minor, 0, none⟩
  | some third =>
      let (patch, suffix) ← patch? third
      pure ⟨major, minor, patch, suffix⟩

/-- Reads a build identifier; blanks at either end are ignored. -/
def parse (raw : String) : Except Error Version :=
  match ofChars? (Text.trimmed raw.toList) with
  | some v => .ok v
  | none => .error (.invalidVersion raw)

def text (v : Version) : String :=
  s!"{v.major.toNat}.{v.minor.toNat}.{v.patch.toNat}" ++ v.suffix.getD ""

/-- Order by the three numbers, the first one that differs deciding. -/
def isBelow (v w : Version) : Bool :=
  v.major < w.major ||
    (v.major == w.major &&
      (v.minor < w.minor || (v.minor == w.minor && v.patch < w.patch)))

/-- The oldest build whose class tables are understood. -/
def oldestSupported : Version := ⟨5, 3, 0, none⟩

/-- The first build that hands out the classes of an image one by one. -/
def imageAccessorSince : Version := ⟨2018, 3, 0, none⟩

end Version

end VmMetadata
