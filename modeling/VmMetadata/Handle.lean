import VmMetadata.Text.Hex

/-!
Handles: the addresses by which a virtual machine names its metadata objects. Address zero is the
null handle, which names nothing.
-/

namespace VmMetadata

/-- The native address of one metadata object. -/
structure Handle where
  address : Nat
  deriving DecidableEq, Inhabited, Repr

namespace Handle

def null : Handle := ⟨0⟩

def isNull (h : Handle) : Bool :=
  h.address == 0

def nonNull? (h : Handle) : Option Handle :=
  if h.isNull then none else some h

/-- The address as `0x` and hexadecimal digits. -/
def text (h : Handle) : String :=
  Text.Hex.prefixed h.address

@[simp] theorem isNull_null : null.isNull = true := rfl

theorem isNull_iff {h : Handle} : h.isNull = true ↔ h = null := by
  cases h
  simp [isNull, null]

end Handle

end VmMetadata
