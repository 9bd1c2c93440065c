import VmMetadata.Config
import VmMetadata.Description.Decode
import VmMetadata.Description.Encode
import VmMetadata.Proofs.Record.Strict

/-!
Descriptions and settings written as JSON values and read back. Of each record it is said once what
its reader asks of the document; that what is written is read back, that the numbers that are read
fit their fields, and that members which are no fields are refused, follow from it. Main statement:
nothing is lost on the way from a description to a value and back, and no value is accepted of which
a part would be lost.
-/

namespace VmMetadata

open Document Record List

/-! ## Kinds of classes -/

theorem ClassKind.decode?_keyword (k : ClassKind) : decode? (Json.str k.keyword) = some k := by
  cases k <;> decide +kernel

/-- A kind is written as the keyword or as an object with the keyword for its only member. -/
theorem ClassKind.strict : Strict (Reads ClassKind.decode?) .leaf := by
  apply strict_choice
  rintro d ⟨k, hk⟩
  obtain ⟨name, hname, -⟩ := Option.bind_eq_some_iff.mp hk
  exact ⟨name, hname⟩

/-! ## Members of classes -/

namespace FieldDescription

def shape : Shape :=
  .record (Shape.leaves ["name", "type", "offset", "is_static", "is_read_only", "is_literal"])

theorem decode?_eq_some_iff {d : Json} {f : FieldDescription} :
    decode? d = some f ↔ ∃ name type offset isStatic isReadOnly isLiteral,
      fields? shape.names d = some [name, type, offset, isStatic, isReadOnly, isLiteral] ∧
      required text? name = some f.name ∧ required text? type = some f.type ∧
      withDefault 0 int32? offset = some f.offset ∧
      withDefault false bool? isStatic = some f.isStatic ∧
      withDefault false bool? isReadOnly = some f.isReadOnly ∧
      withDefault false bool? isLiteral = some f.isLiteral := by
  unfold decode?
  constructor
  · intro h
    obtain ⟨values, hvalues, h⟩ := Option.bind_eq_some_iff.mp h
    split at h
    · simp only [Option.bind_eq_bind, Option.bind_eq_some_iff] at h
      obtain ⟨_, h₁, _, h₂, _, h₃, _, h₄, _, h₅, _, h₆, h⟩ := h
      cases h
      exact ⟨_, _, _, _, _, _, hvalues, h₁, h₂, h₃, h₄, h₅, h₆⟩
    · cases h
  · rintro ⟨_, _, _, _, _, _, hvalues, h₁, h₂, h₃, h₄, h₅, h₆⟩
    refine Option.bind_eq_some_iff.mpr ⟨_, hvalues, ?_⟩
    simp [h₁, h₂, h₃, h₄, h₅, h₆]

/-- The offset is one of 32 bits. -/
def InRange (f : FieldDescription) : Prop :=
  -0x8000_0000 ≤ f.offset ∧ f.offset < 0x8000_0000

theorem decode?_toJson {f : FieldDescription} (h : f.InRange) :
    decode? f.toJson = some f := by
  have hvalues : fields? shape.names f.toJson = some [some (.str f.name), some (.str f.type),
      some (.int f.offset), some (.bool f.isStatic), some (.bool f.isReadOnly),
      some (.bool f.isLiteral)] :=
    fields?_of_written rfl (by decide) rfl
  refine decode?_eq_some_iff.mpr ⟨_, _, _, _, _, _, hvalues, ?_⟩
  simp [int32?_int h]

theorem inRange_of_decode? (d : Json) (f : FieldDescription) (h : decode? d = some f) :
    f.InRange := by
  obtain ⟨_, _, _, _, _, _, -, -, -, hoffset, -⟩ := decode?_eq_some_iff.mp h
  refine of_withDefault (fun n => -0x8000_0000 ≤ n ∧ n < 0x8000_0000) (by decide) ?_ hoffset
  exact fun _ _ h => (int32?_eq_some_iff.mp h).2

/-- A member that is no field is refused. -/
theorem strict : Strict (Reads decode?) shape := by
  refine strict_record [Reads (required text?), Reads (required text?),
    Reads (withDefault 0 int32?), Reads (withDefault false bool?), Reads (withDefault false bool?),
    Reads (withDefault false bool?)] ?_ ?_
  · rintro d ⟨f, hf⟩
    obtain ⟨_, _, _, _, _, _, hvalues, h₁, h₂, h₃, h₄, h₅, h₆⟩ := decode?_eq_some_iff.mp hf
    exact ⟨_, hvalues, by simp [Reads, h₁, h₂, h₃, h₄, h₅, h₆]⟩
  · simp [Shape.leaves]

end FieldDescription

namespace ParameterDescription

def shape : Shape :=
  .record (Shape.leaves ["name", "type"])

theorem decode?_eq_some_iff {d : Json} {p : ParameterDescription} :
    decode? d = some p ↔ ∃ name type,
      fields? shape.names d = some [name, type] ∧
      required text? name = some p.name ∧ required text? type = some p.type := by
  unfold decode?
  constructor
  · intro h
    obtain ⟨values, hvalues, h⟩ := Option.bind_eq_some_iff.mp h
    split at h
    · simp only [Option.bind_eq_bind, Option.bind_eq_some_iff] at h
      obtain ⟨_, h₁, _, h₂, h⟩ := h
      cases h
      exact ⟨_, _, hvalues, h₁, h₂⟩
    · cases h
  · rintro ⟨_, _, hvalues, h₁, h₂⟩
    refine Option.bind_eq_some_iff.mpr ⟨_, hvalues, ?_⟩
    simp [h₁, h₂]

theorem decode?_toJson {p : ParameterDescription} :
    decode? p.toJson = some p := by
  have hvalues : fields? shape.names p.toJson = some [some (.str p.name), some (.str p.type)] :=
    fields?_of_written rfl (by decide) rfl
  refine decode?_eq_some_iff.mpr ⟨_, _, hvalues, ?_⟩
  simp

/-- A member that is no field is refused. -/
theorem strict : Strict (Reads decode?) shape := by
  refine strict_record [Reads (required text?), Reads (required text?)] ?_ ?_
  · rintro d ⟨p, hp⟩
    obtain ⟨_, _, hvalues, h₁, h₂⟩ := decode?_eq_some_iff.mp hp
    exact ⟨_, hvalues, by simp [Reads, h₁, h₂]⟩
  · simp [Shape.leaves]

end ParameterDescription

namespace InstantiationDescription

def shape : Shape :=
  .record [("arguments", .list .leaf), ("address", .leaf)]

theorem decode?_eq_some_iff {d : Json} {i : InstantiationDescription} :
    decode? d = some i ↔ ∃ arguments address,
      fields? shape.names d = some [arguments, address] ∧
      required (list? text?) arguments = some i.arguments ∧
      required (unsigned? 64) address = some i.address := by
  unfold decode?
  constructor
  · intro h
    obtain ⟨values, hvalues, h⟩ := Option.bind_eq_some_iff.mp h
    split at h
    · simp only [Option.bind_eq_bind, Option.bind_eq_some_iff] at h
      obtain ⟨_, h₁, _, h₂, h⟩ := h
      cases h
      exact ⟨_, _, hvalues, h₁, h₂⟩
    · cases h
  · rintro ⟨_, _, hvalues, h₁, h₂⟩
    refine Option.bind_eq_some_iff.mpr ⟨_, hvalues, ?_⟩
    simp [h₁, h₂]

/-- The address is one of 64 bits. -/
def InRange (i : InstantiationDescription) : Prop :=
  i.address < 1 <<< 64

theorem decode?_toJson {i : InstantiationDescription} (h : i.InRange) :
    decode? i.toJson = some i := by
  have hvalues : fields? shape.names i.toJson = some [some (.ofList .str i.arguments),
      some (.nat i.address)] :=
    fields?_of_written rfl (by decide) rfl
  refine decode?_eq_some_iff.mpr ⟨_, _, hvalues, ?_⟩
  simp [unsigned?_nat h]

theorem inRange_of_decode? (d : Json) (i : InstantiationDescription) (h : decode? d = some i) :
    i.InRange := by
  obtain ⟨_, _, -, -, haddress⟩ := decode?_eq_some_iff.mp h
  exact of_required (· < 1 <<< 64) (fun _ _ h => (unsigned?_eq_some_iff.mp h).2) haddress

/-- A member that is no field is refused. -/
theorem strict : Strict (Reads decode?) shape := by
  refine strict_record [Reads (required (list? text?)), Reads (required (unsigned? 64))] ?_ ?_
  · rintro d ⟨i, hi⟩
    obtain ⟨_, _, hvalues, h₁, h₂⟩ := decode?_eq_some_iff.mp hi
    exact ⟨_, hvalues, by simp [Reads, h₁, h₂]⟩
  · simp [strict_list]

end InstantiationDescription

namespace MethodDescription

def shape : Shape :=
  .record [("name", .leaf), ("return_type", .leaf),
    ("parameters", .list ParameterDescription.shape), ("generic_parameters", .list .leaf),
    ("is_static", .leaf), ("is_virtual", .leaf), ("is_abstract", .leaf), ("address", .leaf),
    ("instantiations", .list InstantiationDescription.shape), ("result", .leaf)]

theorem decode?_eq_some_iff {d : Json} {m : MethodDescription} :
    decode? d = some m ↔ ∃ name returnType parameters typeParameters isStatic isVirtual isAbstract
        address instantiations result,
      fields? shape.names d = some [name, returnType, parameters, typeParameters, isStatic,
        isVirtual, isAbstract, address, instantiations, result] ∧
      required text? name = some m.name ∧
      withDefault "System.Void" text? returnType = some m.returnType ∧
      withDefault [] (list? ParameterDescription.decode?) parameters = some m.parameters ∧
      withDefault [] (list? text?) typeParameters = some m.typeParameters ∧
      withDefault false bool? isStatic = some m.isStatic ∧
      withDefault false bool? isVirtual = some m.isVirtual ∧
      withDefault false bool? isAbstract = some m.isAbstract ∧
      optional (unsigned? 64) address = some m.address ∧
      withDefault [] (list? InstantiationDescription.decode?) instantiations =
        some m.instantiations ∧
      optional text? result = some m.result := by
  unfold decode?
  constructor
  · intro h
    obtain ⟨values, hvalues, h⟩ := Option.bind_eq_some_iff.mp h
    split at h
    · simp only [Option.bind_eq_bind, Option.bind_eq_some_iff] at h
      obtain ⟨_, h₁, _, h₂, _, h₃, _, h₄, _, h₅, _, h₆, _, h₇, _, h₈, _, h₉, _, h₁₀, h⟩ := h
      cases h
      exact ⟨_, _, _, _, _, _, _, _, _, _, hvalues, h₁, h₂, h₃, h₄, h₅, h₆, h₇, h₈, h₉, h₁₀⟩
    · cases h
  · rintro ⟨_, _, _, _, _, _, _, _, _, _, hvalues, h₁, h₂, h₃, h₄, h₅, h₆, h₇, h₈, h₉, h₁₀⟩
    refine Option.bind_eq_some_iff.mpr ⟨_, hvalues, ?_⟩
    simp [h₁, h₂, h₃, h₄, h₅, h₆, h₇, h₈, h₉, h₁₀]

structure InRange (m : MethodDescription) : Prop where
  address : ∀ a ∈ m.address, a < 1 <<< 64
  instantiations : ∀ i ∈ m.instantiations, i.InRange

theorem decode?_toJson {m : MethodDescription} (h : m.InRange) :
    decode? m.toJson = some m := by
  have hvalues : fields? shape.names m.toJson = some [some (.str m.name), some (.str m.returnType),
      some (.ofList ParameterDescription.toJson m.parameters), some (.ofList .str m.typeParameters),
      some (.bool m.isStatic), some (.bool m.isVirtual), some (.bool m.isAbstract),
      some (.ofOption .nat m.address),
      some (.ofList InstantiationDescription.toJson m.instantiations),
      some (.ofOption .str m.result)] :=
    fields?_of_written rfl (by decide) rfl
  refine decode?_eq_some_iff.mpr ⟨_, _, _, _, _, _, _, _, _, _, hvalues, ?_⟩
  have haddress : optional (unsigned? 64) (some (Json.ofOption .nat m.address)) = some m.address :=
    optional_ofOption fun a ha => ⟨unsigned?_nat (h.address a ha), rfl⟩
  have hresult : optional text? (some (Json.ofOption .str m.result)) = some m.result :=
    optional_ofOption fun _ _ => ⟨rfl, rfl⟩
  have hparameters := list?_ofList fun (p : ParameterDescription) (_ : p ∈ m.parameters) =>
    p.decode?_toJson
  have hinstantiations := list?_ofList fun i hi =>
    InstantiationDescription.decode?_toJson (h.instantiations i hi)
  simp [haddress, hresult, hparameters, hinstantiations]

theorem inRange_of_decode? (d : Json) (m : MethodDescription) (h : decode? d = some m) :
    m.InRange := by
  obtain ⟨_, _, _, _, _, _, _, _, _, _, -, -, -, -, -, -, -, -, haddress, hinstantiations, -⟩ :=
    decode?_eq_some_iff.mp h
  constructor
  · exact of_optional (· < 1 <<< 64) (fun _ _ h => (unsigned?_eq_some_iff.mp h).2) haddress
  · refine of_withDefault (∀ i ∈ ·, i.InRange) (by simp) ?_ hinstantiations
    exact fun _ _ => of_list? _ InstantiationDescription.inRange_of_decode?

/-- A member that is no field is refused. -/
theorem strict : Strict (Reads decode?) shape := by
  refine strict_record [Reads (required text?), Reads (withDefault "System.Void" text?),
    Reads (withDefault [] (list? ParameterDescription.decode?)),
    Reads (withDefault [] (list? text?)), Reads (withDefault false bool?),
    Reads (withDefault false bool?), Reads (withDefault false bool?),
    Reads (optional (unsigned? 64)),
    Reads (withDefault [] (list? InstantiationDescription.decode?)), Reads (optional text?)] ?_ ?_
  · rintro d ⟨m, hm⟩
    obtain ⟨_, _, _, _, _, _, _, _, _, _, hvalues, h₁, h₂, h₃, h₄, h₅, h₆, h₇, h₈, h₉, h₁₀⟩ :=
      decode?_eq_some_iff.mp hm
    exact ⟨_, hvalues, by simp [Reads, h₁, h₂, h₃, h₄, h₅, h₆, h₇, h₈, h₉, h₁₀]⟩
  · simp [strict_list, strict_optional, ParameterDescription.strict,
      InstantiationDescription.strict]

end MethodDescription

/-! ## Classes and assemblies -/

namespace ClassDescription

def shape : Shape :=
  .record [("namespace", .leaf), ("name", .leaf), ("kind", .leaf),
    ("generic_parameters", .list .leaf), ("parent", .leaf), ("declaring_type", .leaf),
    ("interfaces", .list .leaf), ("is_abstract", .leaf), ("is_sealed", .leaf),
    ("fields", .list FieldDescription.shape), ("methods", .list MethodDescription.shape)]

theorem decode?_eq_some_iff {d : Json} {c : ClassDescription} :
    decode? d = some c ↔ ∃ nspace name kind typeParameters parent declaringType interfaces
        isAbstract isSealed fields methods,
      fields? shape.names d = some [nspace, name, kind, typeParameters, parent, declaringType,
        interfaces, isAbstract, isSealed, fields, methods] ∧
      withDefault "" text? nspace = some c.namespace ∧ required text? name = some c.name ∧
      withDefault .class_ ClassKind.decode? kind = some c.kind ∧
      withDefault [] (list? text?) typeParameters = some c.typeParameters ∧
      optional text? parent = some c.parent ∧ optional text? declaringType = some c.declaringType ∧
      withDefault [] (list? text?) interfaces = some c.interfaces ∧
      withDefault false bool? isAbstract = some c.isAbstract ∧
      withDefault false bool? isSealed = some c.isSealed ∧
      withDefault [] (list? FieldDescription.decode?) fields = some c.fields ∧
      withDefault [] (list? MethodDescription.decode?) methods = some c.methods := by
  unfold decode?
  constructor
  · intro h
    obtain ⟨values, hvalues, h⟩ := Option.bind_eq_some_iff.mp h
    split at h
    · simp only [Option.bind_eq_bind, Option.bind_eq_some_iff] at h
      obtain ⟨_, h₁, _, h₂, _, h₃, _, h₄, _, h₅, _, h₆, _, h₇, _, h₈, _, h₉, _, h₁₀, _, h₁₁, h⟩ := h
      cases h
      exact ⟨_, _, _, _, _, _, _, _, _, _, _, hvalues, h₁, h₂, h₃, h₄, h₅, h₆, h₇, h₈, h₉, h₁₀, h₁₁⟩
    · cases h
  · rintro ⟨_, _, _, _, _, _, _, _, _, _, _, hvalues, h₁, h₂, h₃, h₄, h₅, h₆, h₇, h₈, h₉, h₁₀, h₁₁⟩
    refine Option.bind_eq_some_iff.mpr ⟨_, hvalues, ?_⟩
    simp [h₁, h₂, h₃, h₄, h₅, h₆, h₇, h₈, h₉, h₁₀, h₁₁]

structure InRange (c : ClassDescription) : Prop where
  fields : ∀ f ∈ c.fields, f.InRange
  methods : ∀ m ∈ c.methods, m.InRange

theorem decode?_toJson {c : ClassDescription} (h : c.InRange) :
    decode? c.toJson = some c := by
  have hvalues : fields? shape.names c.toJson = some [some (.str c.namespace), some (.str c.name),
      some (.str c.kind.keyword), some (.ofList .str c.typeParameters),
      some (.ofOption .str c.parent), some (.ofOption .str c.declaringType),
      some (.ofList .str c.interfaces), some (.bool c.isAbstract), some (.bool c.isSealed),
      some (.ofList FieldDescription.toJson c.fields),
      some (.ofList MethodDescription.toJson c.methods)] :=
    fields?_of_written rfl (by decide) rfl
  refine decode?_eq_some_iff.mpr ⟨_, _, _, _, _, _, _, _, _, _, _, hvalues, ?_⟩
  have htext : ∀ o : Option String, optional text? (some (Json.ofOption .str o)) = some o :=
    fun _ => optional_ofOption fun _ _ => ⟨rfl, rfl⟩
  have hfields := list?_ofList fun f hf => FieldDescription.decode?_toJson (h.fields f hf)
  have hmethods := list?_ofList fun m hm => MethodDescription.decode?_toJson (h.methods m hm)
  simp [c.kind.decode?_keyword, htext, hfields, hmethods]

theorem inRange_of_decode? (d : Json) (c : ClassDescription) (h : decode? d = some c) :
    c.InRange := by
  obtain ⟨_, _, _, _, _, _, _, _, _, _, _, -, -, -, -, -, -, -, -, -, -, hfields, hmethods⟩ :=
    decode?_eq_some_iff.mp h
  constructor
  · refine of_withDefault (∀ f ∈ ·, f.InRange) (by simp) ?_ hfields
    exact fun _ _ => of_list? _ FieldDescription.inRange_of_decode?
  · refine of_withDefault (∀ m ∈ ·, m.InRange) (by simp) ?_ hmethods
    exact fun _ _ => of_list? _ MethodDescription.inRange_of_decode?

/-- A member that is no field is refused. -/
theorem strict : Strict (Reads decode?) shape := by
  refine strict_record [Reads (withDefault "" text?), Reads (required text?),
    Reads (withDefault .class_ ClassKind.decode?), Reads (withDefault [] (list? text?)),
    Reads (optional text?), Reads (optional text?), Reads (withDefault [] (list? text?)),
    Reads (withDefault false bool?), Reads (withDefault false bool?),
    Reads (withDefault [] (list? FieldDescription.decode?)),
    Reads (withDefault [] (list? MethodDescription.decode?))] ?_ ?_
  · rintro d ⟨c, hc⟩
    obtain ⟨_, _, _, _, _, _, _, _, _, _, _, hvalues, h₁, h₂, h₃, h₄, h₅, h₆, h₇, h₈, h₉, h₁₀,
      h₁₁⟩ :=
      decode?_eq_some_iff.mp hc
    exact ⟨_, hvalues, by simp [Reads, h₁, h₂, h₃, h₄, h₅, h₆, h₇, h₈, h₉, h₁₀, h₁₁]⟩
  · simp [strict_list, strict_optional, ClassKind.strict, FieldDescription.strict,
      MethodDescription.strict]

end ClassDescription

namespace AssemblyDescription

def shape : Shape :=
  .record [("image", .leaf), ("classes", .list ClassDescription.shape)]

theorem decode?_eq_some_iff {d : Json} {a : AssemblyDescription} :
    decode? d = some a ↔ ∃ image classes,
      fields? shape.names d = some [image, classes] ∧
      required text? image = some a.image ∧
      withDefault [] (list? ClassDescription.decode?) classes = some a.classes := by
  unfold decode?
  constructor
  · intro h
    obtain ⟨values, hvalues, h⟩ := Option.bind_eq_some_iff.mp h
    split at h
    · simp only [Option.bind_eq_bind, Option.bind_eq_some_iff] at h
      obtain ⟨_, h₁, _, h₂, h⟩ := h
      cases h
      exact ⟨_, _, hvalues, h₁, h₂⟩
    · cases h
  · rintro ⟨_, _, hvalues, h₁, h₂⟩
    refine Option.bind_eq_some_iff.mpr ⟨_, hvalues, ?_⟩
    simp [h₁, h₂]

def InRange (a : AssemblyDescription) : Prop :=
  ∀ c ∈ a.classes, c.InRange

theorem decode?_toJson {a : AssemblyDescription} (h : a.InRange) :
    decode? a.toJson = some a := by
  have hvalues : fields? shape.names a.toJson = some [some (.str a.image),
      some (.ofList ClassDescription.toJson a.classes)] :=
    fields?_of_written rfl (by decide) rfl
  refine decode?_eq_some_iff.mpr ⟨_, _, hvalues, ?_⟩
  have hclasses := list?_ofList fun c hc => ClassDescription.decode?_toJson (h c hc)
  simp [hclasses]

theorem inRange_of_decode? (d : Json) (a : AssemblyDescription) (h : decode? d = some a) :
    a.InRange := by
  obtain ⟨_, _, -, -, hclasses⟩ := decode?_eq_some_iff.mp h
  refine of_withDefault (∀ c ∈ ·, c.InRange) (by simp) ?_ hclasses
  exact fun _ _ => of_list? _ ClassDescription.inRange_of_decode?

/-- A member that is no field is refused. -/
theorem strict : Strict (Reads decode?) shape := by
  refine strict_record [Reads (required text?),
    Reads (withDefault [] (list? ClassDescription.decode?))] ?_ ?_
  · rintro d ⟨a, ha⟩
    obtain ⟨_, _, hvalues, h₁, h₂⟩ := decode?_eq_some_iff.mp ha
    exact ⟨_, hvalues, by simp [Reads, h₁, h₂]⟩
  · simp [strict_list, ClassDescription.strict]

end AssemblyDescription

/-! ## Snapshots -/

namespace Snapshot

def shape : Shape :=
  .record [("vm_version", .leaf), ("pointer_size", .leaf), ("module_base", .leaf),
    ("assemblies", .list AssemblyDescription.shape)]

theorem decode?_eq_some_iff {d : Json} {s : Snapshot} :
    decode? d = some s ↔ ∃ vmVersion pointerSize moduleBase assemblies,
      fields? shape.names d = some [vmVersion, pointerSize, moduleBase, assemblies] ∧
      required text? vmVersion = some s.vmVersion ∧
      withDefault 8 (unsigned? 64) pointerSize = some s.pointerSize ∧
      withDefault 0 (unsigned? 64) moduleBase = some s.moduleBase ∧
      withDefault [] (list? AssemblyDescription.decode?) assemblies = some s.assemblies := by
  unfold decode?
  constructor
  · intro h
    obtain ⟨values, hvalues, h⟩ := Option.bind_eq_some_iff.mp h
    split at h
    · simp only [Option.bind_eq_bind, Option.bind_eq_some_iff] at h
      obtain ⟨_, h₁, _, h₂, _, h₃, _, h₄, h⟩ := h
      cases h
      exact ⟨_, _, _, _, hvalues, h₁, h₂, h₃, h₄⟩
    · cases h
  · rintro ⟨_, _, _, _, hvalues, h₁, h₂, h₃, h₄⟩
    refine Option.bind_eq_some_iff.mpr ⟨_, hvalues, ?_⟩
    simp [h₁, h₂, h₃, h₄]

/-- Every number in the description is one that its field can hold. -/
structure InRange (s : Snapshot) : Prop where
  pointerSize : s.pointerSize < 1 <<< 64
  moduleBase : s.moduleBase < 1 <<< 64
  assemblies : ∀ a ∈ s.assemblies, a.InRange

theorem decode?_toJson {s : Snapshot} (h : s.InRange) :
    decode? s.toJson = some s := by
  have hvalues : fields? shape.names s.toJson = some [some (.str s.vmVersion),
      some (.nat s.pointerSize), some (.nat s.moduleBase),
      some (.ofList AssemblyDescription.toJson s.assemblies)] :=
    fields?_of_written rfl (by decide) rfl
  refine decode?_eq_some_iff.mpr ⟨_, _, _, _, hvalues, ?_⟩
  have hassemblies := list?_ofList fun a ha =>
    AssemblyDescription.decode?_toJson (h.assemblies a ha)
  simp [unsigned?_nat h.pointerSize, unsigned?_nat h.moduleBase, hassemblies]

theorem inRange_of_decode? (d : Json) (s : Snapshot) (h : decode? d = some s) : s.InRange := by
  obtain ⟨_, _, _, _, -, -, hsize, hbase, hassemblies⟩ := decode?_eq_some_iff.mp h
  have hnumber : ∀ (d : Json) n, unsigned? 64 d = some n → n < 1 <<< 64 :=
    fun _ _ h => (unsigned?_eq_some_iff.mp h).2
  constructor
  · exact of_withDefault (· < 1 <<< 64) (by decide) hnumber hsize
  · exact of_withDefault (· < 1 <<< 64) (by decide) hnumber hbase
  · refine of_withDefault (∀ a ∈ ·, a.InRange) (by simp) ?_ hassemblies
    exact fun _ _ => of_list? _ AssemblyDescription.inRange_of_decode?

/-- A member that is no field is refused. -/
theorem strict : Strict (Reads decode?) shape := by
  refine strict_record [Reads (required text?), Reads (withDefault 8 (unsigned? 64)),
    Reads (withDefault 0 (unsigned? 64)),
    Reads (withDefault [] (list? AssemblyDescription.decode?))] ?_ ?_
  · rintro d ⟨s, hs⟩
    obtain ⟨_, _, _, _, hvalues, h₁, h₂, h₃, h₄⟩ := decode?_eq_some_iff.mp hs
    exact ⟨_, hvalues, by simp [Reads, h₁, h₂, h₃, h₄]⟩
  · simp [strict_list, AssemblyDescription.strict]

end Snapshot

/-! ## Settings -/

/-- An absent option is left out. -/
theorem presentMember_append_written (name : String) (f : α → Json) (o : Option α)
    (names : List String) (values : List (Option Json)) :
    presentMember name f o ++ written names values =
      written (name :: names) (o.map f :: values) := by
  cases o with
  | none => rfl
  | some a => rfl

namespace OutputConfig

def shape : Shape :=
  .record (Shape.leaves ["directory", "file_name"])

theorem decode?_eq_some_iff {d : Json} {o : OutputConfig} :
    decode? d = some o ↔ ∃ directory fileName,
      fields? shape.names d = some [directory, fileName] ∧
      optional text? directory = some o.directory ∧ optional text? fileName = some o.fileName := by
  unfold decode?
  constructor
  · intro h
    obtain ⟨values, hvalues, h⟩ := Option.bind_eq_some_iff.mp h
    split at h
    · simp only [Option.bind_eq_bind, Option.bind_eq_some_iff] at h
      obtain ⟨_, h₁, _, h₂, h⟩ := h
      cases h
      exact ⟨_, _, hvalues, h₁, h₂⟩
    · cases h
  · rintro ⟨_, _, hvalues, h₁, h₂⟩
    refine Option.bind_eq_some_iff.mpr ⟨_, hvalues, ?_⟩
    simp [h₁, h₂]

theorem toJson_eq (o : OutputConfig) :
    o.toJson = .obj (written shape.names [o.directory.map .str, o.fileName.map .str]) := by
  have hlast : presentMember "file_name" .str o.fileName =
      written ["file_name"] [o.fileName.map .str] := by
    simpa [written] using presentMember_append_written "file_name" .str o.fileName [] []
  rw [toJson, hlast, presentMember_append_written]
  rfl

theorem decode?_toJson (o : OutputConfig) : decode? o.toJson = some o := by
  have htext : ∀ o : Option String, optional text? (o.map Json.str) = some o :=
    fun _ => optional_map fun _ _ => ⟨rfl, rfl⟩
  exact decode?_eq_some_iff.mpr ⟨_, _, fields?_of_written o.toJson_eq (by decide) rfl,
    htext o.directory, htext o.fileName⟩

/-- A member that is no field is refused. -/
theorem strict : Strict (Reads decode?) shape := by
  refine strict_record [Reads (optional text?), Reads (optional text?)] ?_ ?_
  · rintro d ⟨o, ho⟩
    obtain ⟨_, _, hvalues, h₁, h₂⟩ := decode?_eq_some_iff.mp ho
    exact ⟨_, hvalues, by simp [Reads, h₁, h₂]⟩
  · simp [Shape.leaves, strict_optional]

end OutputConfig

namespace Config

def shape : Shape :=
  .record [("vm_version", .leaf), ("type_enum_offset", .leaf), ("output", OutputConfig.shape)]

theorem decode?_eq_some_iff {d : Json} {c : Config} :
    decode? d = some c ↔ ∃ vmVersion offset output,
      fields? shape.names d = some [vmVersion, offset, output] ∧
      optional text? vmVersion = some c.vmVersion ∧
      optional (unsigned? 64) offset = some c.typeKindOffset ∧
      withDefault {} OutputConfig.decode? output = some c.output := by
  unfold decode?
  constructor
  · intro h
    obtain ⟨values, hvalues, h⟩ := Option.bind_eq_some_iff.mp h
    split at h
    · simp only [Option.bind_eq_bind, Option.bind_eq_some_iff] at h
      obtain ⟨_, h₁, _, h₂, _, h₃, h⟩ := h
      cases h
      exact ⟨_, _, _, hvalues, h₁, h₂, h₃⟩
    · cases h
  · rintro ⟨_, _, _, hvalues, h₁, h₂, h₃⟩
    refine Option.bind_eq_some_iff.mpr ⟨_, hvalues, ?_⟩
    simp [h₁, h₂, h₃]

/-- The offset, if there is one, is a number of 64 bits. -/
def InRange (c : Config) : Prop :=
  ∀ n ∈ c.typeKindOffset, n < 1 <<< 64

theorem toJson_eq (c : Config) : c.toJson = .obj (written shape.names
    [c.vmVersion.map .str, c.typeKindOffset.map .nat, some c.output.toJson]) := by
  have hlast : [("output", c.output.toJson)] = written ["output"] [some c.output.toJson] := rfl
  rw [toJson, hlast, List.append_assoc, presentMember_append_written, presentMember_append_written]
  rfl

theorem decode?_toJson {c : Config} (h : c.InRange) : decode? c.toJson = some c := by
  refine decode?_eq_some_iff.mpr
    ⟨_, _, _, fields?_of_written c.toJson_eq (by decide) rfl, ?_, ?_, ?_⟩
  · exact optional_map fun _ _ => ⟨rfl, rfl⟩
  · exact optional_map fun n hn => ⟨unsigned?_nat (h n hn), rfl⟩
  · exact c.output.decode?_toJson

theorem inRange_of_decode? (d : Json) (c : Config) (h : decode? d = some c) : c.InRange := by
  obtain ⟨_, _, _, -, -, hoffset, -⟩ := decode?_eq_some_iff.mp h
  exact of_optional (· < 1 <<< 64) (fun _ _ h => (unsigned?_eq_some_iff.mp h).2) hoffset

/-- A member that is no field is refused. -/
theorem strict : Strict (Reads decode?) shape := by
  refine strict_record [Reads (optional text?), Reads (optional (unsigned? 64)),
    Reads (withDefault {} OutputConfig.decode?)] ?_ ?_
  · rintro d ⟨c, hc⟩
    obtain ⟨_, _, _, hvalues, h₁, h₂, h₃⟩ := decode?_eq_some_iff.mp hc
    exact ⟨_, hvalues, by simp [Reads, h₁, h₂, h₃]⟩
  · simp [strict_optional, OutputConfig.strict]

/-- An option that is absent has no member; one that is there has its value for member. -/
structure OmitsAbsent (c : Config) : Prop where
  vmVersion : c.toJson.member? "vm_version" = c.vmVersion.map .str
  typeKindOffset : c.toJson.member? "type_enum_offset" = c.typeKindOffset.map .nat
  output : c.toJson.member? "output" = some c.output.toJson
  directory : c.output.toJson.member? "directory" = c.output.directory.map .str
  fileName : c.output.toJson.member? "file_name" = c.output.fileName.map .str

theorem omitsAbsent (c : Config) : c.OmitsAbsent := by
  obtain ⟨_ | _, _ | _, _ | _, _ | _⟩ := c <;> constructor <;> rfl

end Config

/-! ## There and back -/

/-- What is written is read back, of settings without the absent options; so is what was read, and
with a member that is no field, wherever in the value it is put, nothing is read. -/
theorem serialization_loses_nothing :
    (∀ s : Snapshot, s.InRange → Snapshot.decode? s.toJson = some s) ∧
    (∀ c : Config, c.InRange → Config.decode? c.toJson = some c ∧ c.OmitsAbsent) ∧
    (∀ (d : Json) s, Snapshot.decode? d = some s → Snapshot.decode? s.toJson = some s) ∧
    (∀ (d : Json) c, Config.decode? d = some c → Config.decode? c.toJson = some c) ∧
    Strict (Reads Snapshot.decode?) Snapshot.shape ∧
    Strict (Reads Config.decode?) Config.shape := by
  refine ⟨fun s hs => s.decode?_toJson hs, fun c hc => ⟨c.decode?_toJson hc, c.omitsAbsent⟩,
    fun d s hs => ?_, fun d c hc => ?_, Snapshot.strict, Config.strict⟩
  · exact Snapshot.decode?_toJson (Snapshot.inRange_of_decode? d s hs)
  · exact Config.decode?_toJson (Config.inRange_of_decode? d c hc)

/-- A description with one field, settings with one option, documents written in order, and a
member that is no field in an assembly and in settings. -/
theorem one_field_is_kept :
    let s : Snapshot :=
      { vmVersion := "2019.4.31f1", assemblies := [{ image := "Game.dll", classes := [
        { name := "A", kind := .enum, fields := [{ name := "b", type := "A", offset := -1 }] }] }] }
    let c : Config := { vmVersion := some "2018.3.0", output := { fileName := some "dump" } }
    let named (more : List (String × Json)) : Json := .obj
      [("vm_version", .str "5.3"), ("assemblies", .arr [.obj (("image", .str "A.dll") :: more)])]
    Snapshot.decode? s.toJson = some s ∧ Config.decode? c.toJson = some c ∧
    (∃ s, Snapshot.decode? (Json.arr [.str "5.3", .int 4]) = some s ∧
      Snapshot.decode? s.toJson = some s) ∧
    (∃ c, Config.decode? (Json.arr [.null, .int 4]) = some c ∧ Config.decode? c.toJson = some c) ∧
    Reads Snapshot.decode? (named []) ∧ ¬ Reads Snapshot.decode? (named [("colour", .null)]) ∧
    Reads Config.decode? (Json.obj []) ∧
    ¬ Reads Config.decode? (Json.obj [("layout", .str "legacy")]) := by
  intro s c named
  obtain ⟨hsnapshot, hconfig, hagain, hagain', hstrict, hstrict'⟩ := serialization_loses_nothing
  have hs : s.InRange := by
    refine ⟨by decide, by decide, ?_⟩
    intro a ha
    cases List.mem_singleton.mp ha
    intro c hc
    cases List.mem_singleton.mp hc
    constructor
    · intro f hf
      cases List.mem_singleton.mp hf
      constructor <;> decide
    · intro m hm
      cases hm
  have hc : c.InRange := by
    intro n hn
    cases hn
  have hplain : Reads Snapshot.decode? (named []) :=
    ⟨{ vmVersion := "5.3", assemblies := [{ image := "A.dll" }] }, rfl⟩
  have hempty : Reads Config.decode? (Json.obj []) := ⟨{}, rfl⟩
  obtain ⟨part, hpart, hmore⟩ := hstrict
    [.member [("vm_version", .str "5.3")] "assemblies" [], .item [] []]
    [("image", .str "A.dll")] hplain
  obtain ⟨part', hpart', hmore'⟩ := hstrict' [] [] hempty
  cases hpart
  cases hpart'
  refine ⟨hsnapshot s hs, (hconfig c hc).1, ?_, ?_, hplain, ?_, hempty, ?_⟩
  · exact ⟨_, rfl, hagain (.arr [.str "5.3", .int 4]) _ rfl⟩
  · exact ⟨_, rfl, hagain' (.arr [.null, .int 4]) _ rfl⟩
  · exact hmore [("image", .str "A.dll")] [] "colour" .null rfl (by decide)
  · exact hmore' [] [] "layout" (.str "legacy") rfl (by decide)

end VmMetadata
