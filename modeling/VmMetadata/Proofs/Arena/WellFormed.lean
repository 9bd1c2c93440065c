import VmMetadata.Proofs.Arena.Lookup

/-!
Well-formed arenas. Every link of an object names an object of the right kind that points back
where a pointer back belongs: a class and its type, a class and its methods, an image and its
classes, a type and its reflection object. An arena stays well-formed when objects are added or
replaced, as long as the replaced ones keep what others rely on and the new ones are linked well.
-/

namespace VmMetadata

namespace Arena

def HasImage (a : Arena) (h : Handle) : Prop :=
  ∃ n, a.image h = .ok n

def HasClass (a : Arena) (h : Handle) : Prop :=
  ∃ n, a.class_ h = .ok n

def HasType (a : Arena) (h : Handle) : Prop :=
  ∃ n, a.type h = .ok n

def HasMethod (a : Arena) (h : Handle) : Prop :=
  ∃ m, a.method h = .ok m

end Arena

/-- The links of the class that lies at `h`. -/
structure ClassNode.WellLinked (a : Arena) (h : Handle) (c : ClassNode) : Prop where
  type : ∃ t, a.type c.type = .ok t ∧ t.class = h
  image : a.HasImage c.image
  parent : c.parent = .null ∨ a.HasClass c.parent
  declaring : c.declaring = .null ∨ a.HasClass c.declaring
  interfaces : ∀ i ∈ c.interfaces, a.HasClass i
  fields : ∀ f ∈ c.fields, ∃ n, a.field f = .ok n ∧ a.HasType n.type
  methods : ∀ m ∈ c.methods, ∃ n, a.method m = .ok n ∧ n.class = h
  definition : c.definition = .null ∨ ∃ d, a.class_ c.definition = .ok d ∧ d.isOpen = true

namespace ClassNode.WellLinked

variable {a : Arena} {h : Handle} {c : ClassNode}

theorem null_not_mem_fields (hc : c.WellLinked a h) : Handle.null ∉ c.fields := by
  intro hnull
  obtain ⟨f, hf, -⟩ := hc.fields _ hnull
  exact Arena.ne_null_of_get? (Arena.field_eq_ok.mp hf) rfl

theorem null_not_mem_methods (hc : c.WellLinked a h) : Handle.null ∉ c.methods := by
  intro hnull
  obtain ⟨m, hm, -⟩ := hc.methods _ hnull
  exact Arena.ne_null_of_get? (Arena.method_eq_ok.mp hm) rfl

end ClassNode.WellLinked

/-- The links of the object that lies at `h`. -/
def Node.WellLinked (a : Arena) (h : Handle) : Node → Prop
  | .domain => True
  | .assembly i => a.HasImage i
  | .image n => ∀ c ∈ n.classes, ∃ k, a.class_ c = .ok k ∧ k.image = h
  | .class_ c => c.WellLinked a h
  | .type t =>
      (t.class = .null ∨ ∃ c, a.class_ t.class = .ok c ∧ c.type = h) ∧
        (t.object = .null ∨ a.object t.object = .ok (.typeObject h))
  | .field f => a.HasType f.type
  | .method m =>
      a.HasClass m.class ∧ a.HasType m.returnType ∧ ∀ p ∈ m.parameters, a.HasType p.2
  | .object (.typeObject t) => ∃ n, a.type t = .ok n ∧ n.object = h
  | .object (.string _) => True
  | .object (.array elementClass _) => a.HasClass elementClass

def Arena.WellFormed (a : Arena) : Prop :=
  ∀ h n, a.get? h = some n → n.WellLinked a h

/-- An object may be replaced by one that keeps what the links of others rely on. -/
inductive Node.Keeps : Node → Node → Prop
  | same (n : Node) : Keeps n n
  | image (i j : ImageNode) : Keeps (.image i) (.image j)
  | class_ {c d : ClassNode} (image : c.image = d.image) (type : c.type = d.type)
      (isOpen : c.isOpen = d.isOpen) : Keeps (.class_ c) (.class_ d)
  | type {t u : TypeNode} (cls : t.class = u.class)
      (object : t.object ≠ .null → u.object = t.object) : Keeps (.type t) (.type u)
  | array (cls : Handle) (xs ys : List Handle) :
      Keeps (.object (.array cls xs)) (.object (.array cls ys))

theorem Node.Keeps.trans {n m p : Node} (hnm : n.Keeps m) (hmp : m.Keeps p) : n.Keeps p := by
  cases hnm with
  | same => exact hmp
  | image i j =>
      cases hmp with
      | same => exact .image i j
      | image _ k => exact .image i k
  | class_ image type isOpen =>
      cases hmp with
      | same => exact .class_ image type isOpen
      | class_ image' type' isOpen' =>
          exact .class_ (image.trans image') (type.trans type') (isOpen.trans isOpen')
  | type cls object =>
      cases hmp with
      | same => exact .type cls object
      | type cls' object' =>
          refine .type (cls.trans cls') fun ht => ?_
          rw [object' (by rw [object ht]; exact ht), object ht]
  | array cls xs ys =>
      cases hmp with
      | same => exact .array cls xs ys
      | array _ _ zs => exact .array cls xs zs

namespace Arena

/-- Every object of the one arena is in the other, replaced at most by one that keeps what the
links of other objects rely on. -/
def Keeps (a b : Arena) : Prop :=
  ∀ h n, a.get? h = some n → ∃ m, b.get? h = some m ∧ n.Keeps m

theorem keeps_append (a : Arena) (l : List Node) : a.Keeps (a.append l) :=
  fun _ n hn => ⟨n, get?_append_of_get? hn l, .same n⟩

theorem keeps_set {a : Arena} {h : Handle} {m n : Node} (hm : a.get? h = some m)
    (hmn : m.Keeps n) : a.Keeps (a.set h n) :=
  exists_get?_set .same hm hmn

theorem Keeps.refl (a : Arena) : a.Keeps a :=
  fun _ n hn => ⟨n, hn, .same n⟩

theorem Keeps.trans {a b c : Arena} (hab : a.Keeps b) (hbc : b.Keeps c) : a.Keeps c := by
  intro h n hn
  obtain ⟨m, hm, hnm⟩ := hab h n hn
  obtain ⟨p, hp, hmp⟩ := hbc h m hm
  exact ⟨p, hp, hnm.trans hmp⟩

namespace Keeps

variable {a b : Arena} (hab : a.Keeps b)
include hab

theorem class_ {h : Handle} {c : ClassNode} (hc : a.class_ h = .ok c) :
    ∃ d, b.class_ h = .ok d ∧ c.image = d.image ∧ c.type = d.type ∧ c.isOpen = d.isOpen := by
  obtain ⟨m, hm, hcm⟩ := hab h _ (class_eq_ok.mp hc)
  cases hcm with
  | same => exact ⟨c, class_eq_ok.mpr hm, rfl, rfl, rfl⟩
  | class_ image type isOpen => exact ⟨_, class_eq_ok.mpr hm, image, type, isOpen⟩

theorem type {h : Handle} {t : TypeNode} (ht : a.type h = .ok t) :
    ∃ u, b.type h = .ok u ∧ t.class = u.class ∧ (t.object ≠ .null → u.object = t.object) := by
  obtain ⟨m, hm, htm⟩ := hab h _ (type_eq_ok.mp ht)
  cases htm with
  | same => exact ⟨t, type_eq_ok.mpr hm, rfl, fun _ => rfl⟩
  | type cls object => exact ⟨_, type_eq_ok.mpr hm, cls, object⟩

theorem field {h : Handle} {f : FieldNode} (hf : a.field h = .ok f) : b.field h = .ok f := by
  obtain ⟨m, hm, hfm⟩ := hab h _ (field_eq_ok.mp hf)
  cases hfm
  exact field_eq_ok.mpr hm

theorem method {h : Handle} {m : MethodNode} (hm : a.method h = .ok m) : b.method h = .ok m := by
  obtain ⟨p, hp, hmp⟩ := hab h _ (method_eq_ok.mp hm)
  cases hmp
  exact method_eq_ok.mpr hp

theorem typeObject {h t : Handle} (ho : a.object h = .ok (.typeObject t)) :
    b.object h = .ok (.typeObject t) := by
  obtain ⟨m, hm, hom⟩ := hab h _ (object_eq_ok.mp ho)
  cases hom
  exact object_eq_ok.mpr hm

theorem hasImage {h : Handle} (hi : a.HasImage h) : b.HasImage h := by
  obtain ⟨n, hn⟩ := hi
  obtain ⟨m, hm, hnm⟩ := hab h _ (image_eq_ok.mp hn)
  cases hnm with
  | same => exact ⟨n, image_eq_ok.mpr hm⟩
  | image _ j => exact ⟨j, image_eq_ok.mpr hm⟩

theorem hasClass {h : Handle} (hc : a.HasClass h) : b.HasClass h := by
  obtain ⟨c, hc⟩ := hc
  obtain ⟨d, hd, _⟩ := hab.class_ hc
  exact ⟨d, hd⟩

theorem hasType {h : Handle} (ht : a.HasType h) : b.HasType h := by
  obtain ⟨t, ht⟩ := ht
  obtain ⟨u, hu, _⟩ := hab.type ht
  exact ⟨u, hu⟩

theorem hasMethod {h : Handle} (hm : a.HasMethod h) : b.HasMethod h := by
  obtain ⟨m, hm⟩ := hm
  exact ⟨m, hab.method hm⟩

end Keeps

end Arena

theorem ClassNode.WellLinked.mono {a b : Arena} {h : Handle} {c : ClassNode}
    (hc : c.WellLinked a h) (hab : a.Keeps b) : c.WellLinked b h where
  type := by
    obtain ⟨t, ht, hth⟩ := hc.type
    obtain ⟨u, hu, htu, _⟩ := hab.type ht
    exact ⟨u, hu, htu ▸ hth⟩
  image := hab.hasImage hc.image
  parent := hc.parent.imp_right hab.hasClass
  declaring := hc.declaring.imp_right hab.hasClass
  interfaces := fun i hi => hab.hasClass (hc.interfaces i hi)
  fields := fun f hf => by
    obtain ⟨n, hn, ht⟩ := hc.fields f hf
    exact ⟨n, hab.field hn, hab.hasType ht⟩
  methods := fun m hm => by
    obtain ⟨n, hn, hnh⟩ := hc.methods m hm
    exact ⟨n, hab.method hn, hnh⟩
  definition := by
    refine hc.definition.imp_right ?_
    rintro ⟨d, hd, hopen⟩
    obtain ⟨e, he, _, _, hde⟩ := hab.class_ hd
    exact ⟨e, he, hde ▸ hopen⟩

/-- An object that stays as it is stays well linked. -/
theorem Node.WellLinked.mono {a b : Arena} {h : Handle} {n : Node} (hn : n.WellLinked a h)
    (hab : a.Keeps b) (hne : h ≠ .null) : n.WellLinked b h := by
  cases n with
  | domain => trivial
  | assembly image => exact hab.hasImage hn
  | image n =>
      intro c hc
      obtain ⟨k, hk, hkh⟩ := hn c hc
      obtain ⟨d, hd, hkd, _⟩ := hab.class_ hk
      exact ⟨d, hd, hkd ▸ hkh⟩
  | class_ c => exact ClassNode.WellLinked.mono hn hab
  | type t =>
      refine ⟨hn.1.imp_right ?_, hn.2.imp_right hab.typeObject⟩
      rintro ⟨c, hc, hch⟩
      obtain ⟨d, hd, _, hcd, _⟩ := hab.class_ hc
      exact ⟨d, hd, hcd ▸ hch⟩
  | field f => exact hab.hasType hn
  | method m =>
      exact ⟨hab.hasClass hn.1, hab.hasType hn.2.1, fun p hp => hab.hasType (hn.2.2 p hp)⟩
  | object o =>
      cases o with
      | typeObject t =>
          obtain ⟨k, hk, hkh⟩ := hn
          obtain ⟨u, hu, _, hku⟩ := hab.type hk
          refine ⟨u, hu, ?_⟩
          rw [hku (by rw [hkh]; exact hne), hkh]
      | string _ => trivial
      | array elementClass _ => exact hab.hasClass hn

namespace Arena

theorem wellFormed_empty : empty.WellFormed := by
  intro h n hn
  obtain ⟨i, _, hi⟩ := get?_eq_some_iff.mp hn
  simp [empty] at hi

namespace WellFormed

variable {a b : Arena} (wf : a.WellFormed)
include wf

/-- Only what is new or replaced has to be looked at. -/
theorem of_keeps (hab : a.Keeps b)
    (changed : ∀ h n, b.get? h = some n → a.get? h ≠ some n → n.WellLinked b h) :
    b.WellFormed := by
  intro h n hn
  by_cases hold : a.get? h = some n
  · exact (wf h n hold).mono hab (ne_null_of_get? hn)
  · exact changed h n hn hold

theorem append {l : List Node}
    (new : ∀ (i : Nat) (n : Node), l[i]? = some n →
      n.WellLinked (a.append l) (handleAt (a.nodes.size + i))) :
    (a.append l).WellFormed := by
  refine wf.of_keeps (keeps_append a l) fun h n hn hold => ?_
  rcases get?_append_iff.mp hn with hn | ⟨i, rfl, hi⟩
  · exact absurd hn hold
  · exact new i n hi

theorem push {n : Node} (new : n.WellLinked (a.push n) a.next) : (a.push n).WellFormed := by
  rw [push_eq_append] at new ⊢
  refine wf.append fun i m hm => ?_
  cases i with
  | zero =>
      cases hm
      exact new
  | succ i => simp at hm

theorem set {h : Handle} {m n : Node} (hm : a.get? h = some m) (hmn : m.Keeps n)
    (new : n.WellLinked (a.set h n) h) : (a.set h n).WellFormed := by
  refine wf.of_keeps (keeps_set hm hmn) fun k p hp hold => ?_
  rcases (get?_set_iff hm).mp hp with ⟨rfl, rfl⟩ | ⟨_, hp⟩
  · exact new
  · exact absurd hp hold

/-! ## Reading links off -/

theorem class_ {h : Handle} {c : ClassNode} (hc : a.class_ h = .ok c) : c.WellLinked a h :=
  wf h _ (class_eq_ok.mp hc)

theorem type {h : Handle} {t : TypeNode} (ht : a.type h = .ok t) :
    (t.class = .null ∨ ∃ c, a.class_ t.class = .ok c ∧ c.type = h) ∧
      (t.object = .null ∨ a.object t.object = .ok (.typeObject h)) :=
  wf h _ (type_eq_ok.mp ht)

theorem field {h : Handle} {f : FieldNode} (hf : a.field h = .ok f) : a.HasType f.type :=
  wf h _ (field_eq_ok.mp hf)

theorem method {h : Handle} {m : MethodNode} (hm : a.method h = .ok m) :
    a.HasClass m.class ∧ a.HasType m.returnType ∧ ∀ p ∈ m.parameters, a.HasType p.2 :=
  wf h _ (method_eq_ok.mp hm)

theorem typeObject {h t : Handle} (ho : a.object h = .ok (.typeObject t)) :
    ∃ n, a.type t = .ok n ∧ n.object = h :=
  wf h _ (object_eq_ok.mp ho)

theorem image {h : Handle} {n : ImageNode} (hn : a.image h = .ok n) :
    ∀ c ∈ n.classes, ∃ k, a.class_ c = .ok k ∧ k.image = h :=
  wf h _ (image_eq_ok.mp hn)

end WellFormed

end Arena

end VmMetadata
