import VmMetadata.Proofs.Arena.WellFormed
import VmMetadata.Vm.Instantiate

/-!
How an arena ages while calls are answered. Objects are added behind the others, a type may get its
reflection object, and the slots of an array may be filled. Nothing else ever changes, so what was
read of an image, a class, a field or a method is true for ever.
-/

namespace VmMetadata

/-- What may become of an object. -/
inductive Node.Ages : Node → Node → Prop
  | same (n : Node) : Ages n n
  | type {t : TypeNode} (object : Handle) (missing : t.object = .null) :
      Ages (.type t) (.type { t with object })
  | array (cls : Handle) {xs ys : List Handle} (length : ys.length = xs.length) :
      Ages (.object (.array cls xs)) (.object (.array cls ys))

theorem Node.Ages.trans {n m p : Node} (hnm : n.Ages m) (hmp : m.Ages p) : n.Ages p := by
  cases hnm with
  | same => exact hmp
  | type object missing =>
      cases hmp with
      | same => exact .type object missing
      | type object' _ => exact .type object' missing
  | array cls length =>
      cases hmp with
      | same => exact .array cls length
      | array _ length' => exact .array cls (length'.trans length)

theorem Node.Ages.keeps {n m : Node} (hnm : n.Ages m) : n.Keeps m := by
  cases hnm with
  | same => exact .same n
  | type object missing => exact .type rfl fun hne => absurd missing hne
  | array cls _ => exact .array cls _ _

namespace Arena

/-- The one arena has become the other. -/
def Later (a b : Arena) : Prop :=
  ∀ h n, a.get? h = some n → ∃ m, b.get? h = some m ∧ n.Ages m

theorem later_append (a : Arena) (l : List Node) : a.Later (a.append l) :=
  fun _ n hn => ⟨n, get?_append_of_get? hn l, .same n⟩

theorem later_push (a : Arena) (n : Node) : a.Later (a.push n) := by
  rw [push_eq_append]
  exact later_append a [n]

theorem later_set {a : Arena} {h : Handle} {m n : Node} (hm : a.get? h = some m)
    (hmn : m.Ages n) : a.Later (a.set h n) :=
  exists_get?_set .same hm hmn

namespace Later

theorem refl (a : Arena) : a.Later a :=
  fun _ n hn => ⟨n, hn, .same n⟩

theorem trans {a b c : Arena} (hab : a.Later b) (hbc : b.Later c) : a.Later c := by
  intro h n hn
  obtain ⟨m, hm, hnm⟩ := hab h n hn
  obtain ⟨p, hp, hmp⟩ := hbc h m hm
  exact ⟨p, hp, hnm.trans hmp⟩

variable {a b : Arena} (hab : a.Later b)
include hab

theorem keeps : a.Keeps b := by
  intro h n hn
  obtain ⟨m, hm, hnm⟩ := hab h n hn
  exact ⟨m, hm, hnm.keeps⟩

theorem domain {h : Handle} (hn : a.get? h = some .domain) : b.get? h = some .domain := by
  obtain ⟨m, hm, hnm⟩ := hab h _ hn
  cases hnm
  exact hm

theorem assembly {h i : Handle} (hn : a.assembly h = .ok i) : b.assembly h = .ok i := by
  obtain ⟨m, hm, hnm⟩ := hab h _ (assembly_eq_ok.mp hn)
  cases hnm
  exact assembly_eq_ok.mpr hm

theorem image {h : Handle} {n : ImageNode} (hn : a.image h = .ok n) : b.image h = .ok n := by
  obtain ⟨m, hm, hnm⟩ := hab h _ (image_eq_ok.mp hn)
  cases hnm
  exact image_eq_ok.mpr hm

theorem class_ {h : Handle} {n : ClassNode} (hn : a.class_ h = .ok n) : b.class_ h = .ok n := by
  obtain ⟨m, hm, hnm⟩ := hab h _ (class_eq_ok.mp hn)
  cases hnm
  exact class_eq_ok.mpr hm

theorem field {h : Handle} {n : FieldNode} (hn : a.field h = .ok n) : b.field h = .ok n :=
  hab.keeps.field hn

theorem method {h : Handle} {n : MethodNode} (hn : a.method h = .ok n) : b.method h = .ok n :=
  hab.keeps.method hn

theorem type {h : Handle} {t : TypeNode} (ht : a.type h = .ok t) :
    ∃ o, b.type h = .ok { t with object := o } ∧ (t.object ≠ .null → o = t.object) := by
  obtain ⟨m, hm, htm⟩ := hab h _ (type_eq_ok.mp ht)
  cases htm with
  | same => exact ⟨t.object, type_eq_ok.mpr hm, fun _ => rfl⟩
  | type object missing => exact ⟨object, type_eq_ok.mpr hm, fun hne => absurd missing hne⟩

theorem hasType {h : Handle} (ht : a.HasType h) : b.HasType h :=
  hab.keeps.hasType ht

/-- The class that a type has is no matter of time. -/
theorem typeClass {h : Handle} {t : TypeNode} (ht : a.type h = .ok t) :
    ∃ u, b.type h = .ok u ∧ u.name = t.name ∧ u.kind = t.kind ∧ u.class = t.class := by
  obtain ⟨o, hu, _⟩ := hab.type ht
  exact ⟨_, hu, rfl, rfl, rfl⟩

theorem string {h : Handle} {value : String} (ho : a.object h = .ok (.string value)) :
    b.object h = .ok (.string value) := by
  obtain ⟨m, hm, hom⟩ := hab h _ (object_eq_ok.mp ho)
  cases hom
  exact object_eq_ok.mpr hm

theorem typeObject {h t : Handle} (ho : a.object h = .ok (.typeObject t)) :
    b.object h = .ok (.typeObject t) :=
  hab.keeps.typeObject ho

theorem array {h cls : Handle} {xs : List Handle} (ho : a.object h = .ok (.array cls xs)) :
    ∃ ys, b.object h = .ok (.array cls ys) ∧ ys.length = xs.length := by
  obtain ⟨m, hm, hom⟩ := hab h _ (object_eq_ok.mp ho)
  cases hom with
  | same => exact ⟨xs, object_eq_ok.mpr hm, rfl⟩
  | array _ length => exact ⟨_, object_eq_ok.mpr hm, length⟩

/-- What takes the place of a type does not depend on when it is looked up. -/
theorem substitute {t : Handle} (ht : a.HasType t) (cls method : Substitution) :
    b.substitute cls method t = a.substitute cls method t := by
  obtain ⟨n, hn⟩ := ht
  obtain ⟨o, hu, _⟩ := hab.type hn
  simp only [Arena.substitute, hn, hu]

end Later

end Arena

/-! ## Closed copies -/

/-- The type has the name. -/
def Arena.NamesType (a : Arena) (type : Handle) (name : String) : Prop :=
  ∃ t, a.type type = .ok t ∧ t.name = name

namespace MethodNode

/-- The method with types substituted. -/
def substituted (m : MethodNode) (a : Arena) (cls method : Substitution) : MethodNode :=
  { m with
    returnType := a.substitute cls method m.returnType
    parameters := m.parameters.map fun p => (p.1, a.substitute cls method p.2) }

/-- The method of a closed class. -/
def closed (m : MethodNode) (a : Arena) (σ : Substitution) (inflated : Handle) : MethodNode :=
  { m.substituted a σ .empty with «class» := inflated, inflated := true }

/-- The method closed over types of its own. -/
def instantiated (m : MethodNode) (a : Arena) (arguments : List Handle) (address : Option Nat) :
    MethodNode :=
  { m.substituted a .empty ⟨m.typeParameters, arguments⟩ with
    typeParameters := []
    inflated := true
    address
    instantiations := [] }

end MethodNode

namespace Arena

/-- The field `g` of a closed class is the field `f` of its definition with its type
substituted. -/
def ClosedField (a : Arena) (σ : Substitution) (f g : Handle) : Prop :=
  ∃ n, a.field f = .ok n ∧ a.field g = .ok { n with type := a.substitute σ .empty n.type }

/-- The method `k` of a closed class is the method `m` of its definition with its types
substituted. -/
def ClosedMethod (a : Arena) (inflated : Handle) (σ : Substitution) (m k : Handle) : Prop :=
  ∃ n, a.method m = .ok n ∧ a.method k = .ok (n.closed a σ inflated)

/-- The class `c` at `r` is the definition `d` at `cls` closed over the types. -/
structure ClosedOver (a : Arena) (cls : Handle) (args : List Handle) (d : ClassNode)
    (r : Handle) (c : ClassNode) : Prop where
  definition : a.class_ cls = .ok d
  isOpen : d.isOpen = true
  arity : d.typeParameters.length = args.length
  arguments : ∀ t ∈ args, a.HasType t
  result : a.class_ r = .ok c
  shape : c = { d with
    definition := cls, type := c.type, fields := c.fields, methods := c.methods }
  type : ∃ t names, a.type c.type = .ok t ∧ t.class = r ∧ t.kind = .genericInst ∧
    List.Forall₂ a.NamesType args names ∧ t.name = genericName d.fullName names
  fields : List.Forall₂ (a.ClosedField ⟨d.typeParameters, args⟩) d.fields c.fields
  methods : List.Forall₂ (a.ClosedMethod r ⟨d.typeParameters, args⟩) d.methods c.methods

/-- A closed class is not open. -/
theorem ClosedOver.isOpen_result {a : Arena} {cls r : Handle} {args : List Handle}
    {d c : ClassNode} (h : a.ClosedOver cls args d r c) : c.isOpen = false := by
  have hne : cls.isNull = false := by
    rw [Bool.eq_false_iff, Ne, Handle.isNull_iff]
    exact ne_null_of_get? (class_eq_ok.mp h.definition)
  unfold ClassNode.isOpen
  rw [h.shape]
  simp [hne]

/-- The method at `r` is the first compiled instantiation of the method `m` for these types. -/
structure Compiled (a : Arena) (method : Handle) (args : List Handle) (m : MethodNode)
    (r : Handle) : Prop where
  definition : a.method method = .ok m
  arguments : ∀ t ∈ args, a.HasType t
  result : ∃ names address, List.Forall₂ a.NamesType args names ∧
    compiledAddress? names m.instantiations = some address ∧
    a.method r = .ok (m.instantiated a args (some address))

variable {a b : Arena} (hab : a.Later b)
include hab

theorem NamesType.later {t : Handle} {name : String} (h : a.NamesType t name) :
    b.NamesType t name := by
  obtain ⟨n, hn, rfl⟩ := h
  obtain ⟨o, hu, _⟩ := hab.type hn
  exact ⟨_, hu, rfl⟩

theorem Later.substituted {h : Handle} {m : MethodNode} (wf : a.WellFormed)
    (hm : a.method h = .ok m) (cls method : Substitution) :
    m.substituted b cls method = m.substituted a cls method := by
  obtain ⟨_, hret, hps⟩ := wf.method hm
  unfold MethodNode.substituted
  rw [hab.substitute hret]
  congr 1
  exact List.map_congr_left fun p hp => by rw [hab.substitute (hps p hp)]

theorem Later.closed {h : Handle} {m : MethodNode} (wf : a.WellFormed) (hm : a.method h = .ok m)
    (σ : Substitution) (inflated : Handle) : m.closed b σ inflated = m.closed a σ inflated := by
  simp only [MethodNode.closed, hab.substituted wf hm]

theorem Later.instantiated {h : Handle} {m : MethodNode} (wf : a.WellFormed)
    (hm : a.method h = .ok m) (args : List Handle) (address : Option Nat) :
    m.instantiated b args address = m.instantiated a args address := by
  simp only [MethodNode.instantiated, hab.substituted wf hm]

theorem ClosedField.later (wf : a.WellFormed) {σ : Substitution} {f g : Handle}
    (h : a.ClosedField σ f g) : b.ClosedField σ f g := by
  obtain ⟨n, hn, hg⟩ := h
  refine ⟨n, hab.field hn, ?_⟩
  rw [hab.substitute (wf.field hn)]
  exact hab.field hg

theorem ClosedMethod.later (wf : a.WellFormed) {inflated : Handle} {σ : Substitution}
    {m k : Handle} (h : a.ClosedMethod inflated σ m k) : b.ClosedMethod inflated σ m k := by
  obtain ⟨n, hn, hk⟩ := h
  refine ⟨n, hab.method hn, ?_⟩
  rw [hab.closed wf hn]
  exact hab.method hk

theorem ClosedOver.later (wf : a.WellFormed) {cls r : Handle} {args : List Handle}
    {d c : ClassNode} (h : a.ClosedOver cls args d r c) : b.ClosedOver cls args d r c where
  definition := hab.class_ h.definition
  isOpen := h.isOpen
  arity := h.arity
  arguments := fun t ht => hab.hasType (h.arguments t ht)
  result := hab.class_ h.result
  shape := h.shape
  type := by
    obtain ⟨t, names, ht, hcls, hkind, hnames, hname⟩ := h.type
    obtain ⟨u, hu, huname, hukind, hucls⟩ := hab.typeClass ht
    exact ⟨u, names, hu, hucls.trans hcls, hukind.trans hkind,
      hnames.imp fun _ _ => NamesType.later hab, huname.trans hname⟩
  fields := h.fields.imp fun _ _ => ClosedField.later hab wf
  methods := h.methods.imp fun _ _ => ClosedMethod.later hab wf

theorem Compiled.later (wf : a.WellFormed) {method r : Handle} {args : List Handle}
    {m : MethodNode} (h : a.Compiled method args m r) : b.Compiled method args m r where
  definition := hab.method h.definition
  arguments := fun t ht => hab.hasType (h.arguments t ht)
  result := by
    obtain ⟨names, address, hnames, haddress, hresult⟩ := h.result
    refine ⟨names, address, hnames.imp fun _ _ => NamesType.later hab, haddress, ?_⟩
    rw [hab.instantiated wf h.definition]
    exact hab.method hresult

end Arena

end VmMetadata
