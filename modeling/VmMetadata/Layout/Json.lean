import VmMetadata.Layout
import VmMetadata.Record

/-!
Builds and class layouts as JSON values. A build is an open record. A layout is an object with its
name under `kind`, or an array that begins with it; members without a meaning are ignored.
-/

namespace VmMetadata

open Document Record

def Version.ofJson? (d : Json) : Option Version := do
  let [major, minor, patch, suffix] ← fields? ["major", "minor", "patch", "suffix"] d true | none
  pure {
    major := UInt32.ofNat (← required (unsigned? 32) major)
    minor := UInt32.ofNat (← required (unsigned? 32) minor)
    patch := UInt32.ofNat (← required (unsigned? 32) patch)
    suffix := ← optional text? suffix }

def Version.toJson (v : Version) : Json :=
  .obj ([("major", .nat v.major.toNat), ("minor", .nat v.minor.toNat),
    ("patch", .nat v.patch.toNat)] ++
      match v.suffix with
      | some s => [("suffix", .str s)]
      | none => [])

namespace ClassLayout

def ofJson? : Json → Option ClassLayout
  | .obj members =>
      match members.lookup "kind" with
      | some (.str "legacy") => do
          let offset ← members.lookup "type_enum_offset"
          pure (.legacy (← unsigned? 64 offset))
      | some (.str "current") => some .current
      | _ => none
  | .arr [.str "legacy", offset] => (unsigned? 64 offset).map .legacy
  | .arr [.str "current"] => some .current
  | _ => none

def toJson : ClassLayout → Json
  | legacy offset => .obj [("kind", .str "legacy"), ("type_enum_offset", .nat offset)]
  | current => .obj [("kind", .str "current")]

end ClassLayout

end VmMetadata
