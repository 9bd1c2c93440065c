import VmMetadata.Proofs.Load.Declared

/-!
The second pass of loading links every class to the classes it names and to its members. Main
statement: a class that was declared is linked as its description says, whatever other classes are
linked before and after it.
-/

namespace VmMetadata

/-- The first class of the name, null if there is none. -/
def Loader.named (l : Loader) (name : String) : Handle :=
  l.classes[name]?.getD .null

/-- The field as it lies in the arena. -/
def FieldDescription.node (f : FieldDescription) (type : Handle) : FieldNode where
  name := f.name
  type
  offset := f.offset
  flags := f.flags

/-- The method as it lies in the arena. An abstract method has no body. -/
def MethodDescription.node (m : MethodDescription) (cls returnType : Handle)
    (parameters : List (String × Handle)) : MethodNode where
  name := m.name
  «class» := cls
  returnType
  parameters
  flags := m.flags
  typeParameters := m.typeParameters
  inflated := false
  address := if m.isAbstract then none else m.address
  instantiations := m.instantiations
  result := m.result

/-- Every class of the core library that is on record is a class of the arena. -/
structure WellKnown.Valid (a : Arena) (known : WellKnown) : Prop where
  object : known.object = .null ∨ a.HasClass known.object
  valueType : known.valueType = .null ∨ a.HasClass known.valueType
  enumeration : known.enumeration = .null ∨ a.HasClass known.enumeration
  typeClass : known.typeClass = .null ∨ a.HasClass known.typeClass
  string : known.string = .null ∨ a.HasClass known.string

theorem WellKnown.Valid.mono {a b : Arena} (hab : a.Keeps b) {known : WellKnown}
    (hk : known.Valid a) : known.Valid b where
  object := hk.object.imp_right hab.hasClass
  valueType := hk.valueType.imp_right hab.hasClass
  enumeration := hk.enumeration.imp_right hab.hasClass
  typeClass := hk.typeClass.imp_right hab.hasClass
  string := hk.string.imp_right hab.hasClass

namespace Load

theorem classNamed_apply (name : String) (l : Loader) : classNamed name l = (l.named name, l) :=
  rfl

theorem mapM_classNamed (names : List String) (l : Loader) :
    (names.mapM fun name => classNamed (TypeName.normalized name)) l =
      (names.map fun name => l.named (TypeName.normalized name), l) := by
  induction names with
  | nil => rfl
  | cons name names ih =>
      rw [List.mapM_cons, bind_apply, bind_apply, classNamed_apply, ih]
      rfl

theorem named_valid {l : Loader} (hl : l.Sound) (name : String) :
    l.named name = .null ∨ l.arena.HasClass (l.named name) := by
  unfold Loader.named
  cases hn : l.classes[name]? with
  | none => exact Or.inl rfl
  | some h => exact Or.inr (hl.classes name h hn)

/-- The loader keeps the type under the key that the text has in the scope. -/
def TypeKept (l : Loader) (text : String) (classScope methodScope : List String)
    (type : Handle) : Prop :=
  l.types[(typeKey (TypeName.normalized text) classScope methodScope).1]? = some type

theorem TypeKept.mono {hs : List Handle} {l m : Loader} (hlm : l.GrowsBut hs m) {text : String}
    {classScope methodScope : List String} {type : Handle}
    (h : TypeKept l text classScope methodScope type) :
    TypeKept m text classScope methodScope type :=
  hlm.types _ _ h

/-- A type that the loader keeps is not made again. -/
theorem internType_known {l : Loader} {text : String} {classScope methodScope : List String}
    {type : Handle} (h : TypeKept l text classScope methodScope type) :
    internType text classScope methodScope l = (type, l) := by
  rw [TypeKept] at h
  simp only [internType, bind_apply, get_apply, h]
  rfl

theorem internType_new {l : Loader} {text : String} {classScope methodScope : List String}
    (h : l.types[(typeKey (TypeName.normalized text) classScope methodScope).1]? = none) :
    internType text classScope methodScope l = (l.arena.next, { l with
      arena := l.arena.push (.type {
        name := TypeName.normalized text
        kind := (typeKey (TypeName.normalized text) classScope methodScope).2
        «class» := .null
        object := .null })
      types := l.types.insert (typeKey (TypeName.normalized text) classScope methodScope).1
        l.arena.next }) := by
  simp only [internType, bind_apply, get_apply, h]
  rfl

theorem internType_grows {l : Loader} (hl : l.Sound) (text : String)
    (classScope methodScope : List String) :
    ∃ t m, internType text classScope methodScope l = (t, m) ∧ m.Sound ∧ l.Grows m ∧
      m.classes = l.classes ∧ TypeKept m text classScope methodScope t := by
  let key := (typeKey (TypeName.normalized text) classScope methodScope).1
  cases hkey : l.types[key]? with
  | some t => exact ⟨t, l, internType_known hkey, hl, .refl [] l, rfl, hkey⟩
  | none =>
      let node : TypeNode := {
        name := TypeName.normalized text
        kind := (typeKey (TypeName.normalized text) classScope methodScope).2
        «class» := .null
        object := .null }
      let m : Loader := { l with
        arena := l.arena.push (.type node)
        types := l.types.insert key l.arena.next }
      have hnew : m.arena.type l.arena.next = .ok node :=
        Arena.type_eq_ok.mpr (Arena.get?_push_next _ _)
      have hkeeps : l.arena.Keeps m.arena := by
        rw [show m.arena = _ from Arena.push_eq_append _ _]
        exact Arena.keeps_append _ _
      have htypes : ∀ (name : String) (h : Handle),
          m.types[name]? = some h → l.types[name]? = some h ∨ h = l.arena.next := by
        intro name h hn
        rw [Std.TreeMap.getElem?_insert] at hn
        split at hn
        · exact Or.inr (Option.some.inj hn).symm
        · exact Or.inl hn
      refine ⟨l.arena.next, m, internType_new hkey, ⟨?_, ?_, ?_⟩, ?_, rfl, ?_⟩
      · exact hl.arena.push ⟨Or.inl rfl, Or.inl rfl⟩
      · intro name h hn
        rcases htypes name h hn with hn | rfl
        · exact hkeeps.hasType (hl.types name h hn)
        · exact ⟨node, hnew⟩
      · exact fun name h hn => hkeeps.hasClass (hl.classes name h hn)
      · refine .of_append (Arena.push_eq_append _ _) (fun name h hn => ?_) (fun _ _ h => h)
        rw [Std.TreeMap.getElem?_insert, if_neg, hn]
        intro heq
        rw [Std.LawfulEqCmp.eq_of_compare heq, hn] at hkey
        cases hkey
      · exact Std.TreeMap.getElem?_insert_self

/-- The field lies in the arena as its description says. -/
def LinkedField (l : Loader) (c : ClassDescription) (f : FieldDescription) (h : Handle) : Prop :=
  ∃ t, TypeKept l f.type c.typeParameters [] t ∧ l.arena.field h = .ok (f.node t)

/-- The parameter has its name and the type that its description names. -/
def LinkedParameter (l : Loader) (c : ClassDescription) (m : MethodDescription)
    (p : ParameterDescription) (q : String × Handle) : Prop :=
  q.1 = p.name ∧ TypeKept l p.type c.typeParameters m.typeParameters q.2

/-- The method of the class `cls` lies in the arena as its description says. -/
def LinkedMethod (l : Loader) (cls : Handle) (c : ClassDescription) (m : MethodDescription)
    (h : Handle) : Prop :=
  ∃ ret ps, TypeKept l m.returnType c.typeParameters m.typeParameters ret ∧
    List.Forall₂ (LinkedParameter l c m) m.parameters ps ∧
    l.arena.method h = .ok (m.node cls ret ps)

variable {l m : Loader} {hs : List Handle}

theorem LinkedField.mono (hlm : l.GrowsBut hs m) {c : ClassDescription} {f : FieldDescription}
    {h : Handle} : LinkedField l c f h → LinkedField m c f h := by
  rintro ⟨t, ht, hf⟩
  exact ⟨t, ht.mono hlm, hlm.keeps.field hf⟩

theorem LinkedParameter.mono (hlm : l.GrowsBut hs m) {c : ClassDescription}
    {d : MethodDescription} {p : ParameterDescription} {q : String × Handle} :
    LinkedParameter l c d p q → LinkedParameter m c d p q :=
  fun h => ⟨h.1, h.2.mono hlm⟩

theorem LinkedMethod.mono (hlm : l.GrowsBut hs m) {cls : Handle} {c : ClassDescription}
    {d : MethodDescription} {h : Handle} : LinkedMethod l cls c d h → LinkedMethod m cls c d h := by
  rintro ⟨ret, ps, hret, hps, hm⟩
  exact ⟨ret, ps, hret.mono hlm, hps.imp fun _ _ => LinkedParameter.mono hlm, hlm.keeps.method hm⟩

/-- A sound loader with the table of classes that the first pass has left. -/
def Linking (names : Std.TreeMap String Handle) (l : Loader) : Prop :=
  l.Sound ∧ l.classes = names

theorem linkField_grows {names : Std.TreeMap String Handle} (c : ClassDescription) (l : Loader)
    (f : FieldDescription) (hl : Linking names l) :
    Linking names (linkField c f l).2 ∧ l.Grows (linkField c f l).2 ∧
      LinkedField (linkField c f l).2 c f (linkField c f l).1 := by
  obtain ⟨t, l₁, hrun, hl₁, hgrow, hclasses, ht⟩ :=
    internType_grows hl.1 f.type c.typeParameters []
  have hfield : linkField c f l =
      (l₁.arena.next, { l₁ with arena := l₁.arena.push (.field (f.node t)) }) := by
    rw [linkField, bind_apply, hrun]
    rfl
  rw [hfield]
  have hgrow' := Loader.GrowsBut.push l₁ (.field (f.node t))
  refine ⟨⟨hl₁.push ?_, hclasses.trans hl.2⟩, hgrow.trans hgrow', t, ht.mono hgrow', ?_⟩
  · exact hgrow'.keeps.hasType (hl₁.types _ _ ht)
  · exact Arena.field_eq_ok.mpr (Arena.get?_push_next _ _)

/-- The step for one parameter of a method. -/
def linkParameter (c : ClassDescription) (m : MethodDescription) (p : ParameterDescription) :
    Load (String × Handle) := do
  pure (p.name, ← internType p.type c.typeParameters m.typeParameters)

theorem linkParameter_grows {names : Std.TreeMap String Handle} (c : ClassDescription)
    (d : MethodDescription) (l : Loader) (p : ParameterDescription) (hl : Linking names l) :
    Linking names (linkParameter c d p l).2 ∧ l.Grows (linkParameter c d p l).2 ∧
      LinkedParameter (linkParameter c d p l).2 c d p (linkParameter c d p l).1 := by
  obtain ⟨t, l₁, hrun, hl₁, hgrow, hclasses, ht⟩ :=
    internType_grows hl.1 p.type c.typeParameters d.typeParameters
  rw [linkParameter, bind_apply, hrun, pure_apply]
  exact ⟨⟨hl₁, hclasses.trans hl.2⟩, hgrow, rfl, ht⟩

theorem linkMethod_grows {names : Std.TreeMap String Handle} {cls : Handle} (c : ClassDescription)
    (l : Loader) (d : MethodDescription) (hl : Linking names l ∧ l.arena.HasClass cls) :
    (Linking names (linkMethod cls c d l).2 ∧ (linkMethod cls c d l).2.arena.HasClass cls) ∧
      l.Grows (linkMethod cls c d l).2 ∧
      LinkedMethod (linkMethod cls c d l).2 cls c d (linkMethod cls c d l).1 := by
  obtain ⟨ret, l₁, hrun, hl₁, hgrow₁, hclasses, hret⟩ :=
    internType_grows hl.1.1 d.returnType c.typeParameters d.typeParameters
  obtain ⟨hl₂, hgrow₂, hps⟩ := mapM_grows (G := Linking names) (R := (LinkedParameter · c d))
    (linkParameter_grows c d) (fun hlm => LinkedParameter.mono hlm) d.parameters l₁
    ⟨hl₁, hclasses.trans hl.1.2⟩
  generalize hparams : d.parameters.mapM (linkParameter c d) l₁ = r at hl₂ hgrow₂ hps
  obtain ⟨ps, l₂⟩ := r
  have hmethod : linkMethod cls c d l =
      (l₂.arena.next, { l₂ with arena := l₂.arena.push (.method (d.node cls ret ps)) }) := by
    rw [linkMethod, bind_apply, hrun]
    change (d.parameters.mapM (linkParameter c d) >>= fun ps =>
      Load.push (.method (d.node cls ret ps))) l₁ = _
    rw [bind_apply, hparams]
    rfl
  rw [hmethod]
  have hgrow₃ := Loader.GrowsBut.push l₂ (.method (d.node cls ret ps))
  have hcls := hgrow₃.keeps.hasClass (hgrow₂.keeps.hasClass (hgrow₁.keeps.hasClass hl.2))
  refine ⟨⟨⟨hl₂.1.push ⟨hcls, ?_, fun q hq => ?_⟩, hl₂.2⟩, hcls⟩,
    hgrow₁.trans (hgrow₂.trans hgrow₃),
    ret, ps, (hret.mono hgrow₂).mono hgrow₃, ?_, ?_⟩
  · exact (hgrow₂.trans hgrow₃).keeps.hasType (hl₁.types _ _ hret)
  · obtain ⟨i, hi, rfl⟩ := List.getElem_of_mem hq
    have := (hps.get (i := i) (by rw [hps.length_eq]; exact hi) hi).2
    exact hgrow₃.keeps.hasType (hl₂.1.types _ _ this)
  · exact hps.imp fun _ _ => LinkedParameter.mono hgrow₃
  · exact Arena.method_eq_ok.mpr (Arena.get?_push_next _ _)

/-- The base class that `parentOf` finds. -/
def parentIn (l : Loader) (known : WellKnown) (cls : Handle) (c : ClassDescription) : Handle :=
  match c.parent, c.kind with
  | some name, _ => l.named (TypeName.normalized name)
  | none, .class_ => if cls = known.object then .null else known.object
  | none, .struct => known.valueType
  | none, .enum => known.enumeration
  | none, .interface => .null

/-- The enclosing class that `declaringOf` finds. -/
def declaringIn (l : Loader) (c : ClassDescription) : Handle :=
  match c.declaringType with
  | some name => l.named name
  | none => .null

def interfacesIn (l : Loader) (c : ClassDescription) : List Handle :=
  (c.interfaces.map fun name => l.named (TypeName.normalized name)).filter (!·.isNull)

theorem parentOf_apply (known : WellKnown) (cls : Handle) (c : ClassDescription) (l : Loader) :
    parentOf known cls c l = (parentIn l known cls c, l) := by
  unfold parentOf parentIn
  cases c.parent with
  | some name => rfl
  | none => cases c.kind <;> rfl

theorem declaringOf_apply (c : ClassDescription) (l : Loader) :
    declaringOf c l = (declaringIn l c, l) := by
  unfold declaringOf declaringIn
  cases c.declaringType <;> rfl

/-- What a class is linked to lies in the arena. -/
theorem parentIn_valid {l : Loader} (hl : l.Sound) {known : WellKnown}
    (hknown : known.Valid l.arena) (cls : Handle) (c : ClassDescription) :
    parentIn l known cls c = .null ∨ l.arena.HasClass (parentIn l known cls c) := by
  unfold parentIn
  split
  · exact named_valid hl _
  · split
    · exact Or.inl rfl
    · exact hknown.object
  · exact hknown.valueType
  · exact hknown.enumeration
  · exact Or.inl rfl

theorem declaringIn_valid {l : Loader} (hl : l.Sound) (c : ClassDescription) :
    declaringIn l c = .null ∨ l.arena.HasClass (declaringIn l c) := by
  unfold declaringIn
  split
  · exact named_valid hl _
  · exact Or.inl rfl

theorem hasClass_of_mem_interfacesIn {l : Loader} (hl : l.Sound) {c : ClassDescription}
    {i : Handle} (hi : i ∈ interfacesIn l c) : l.arena.HasClass i := by
  simp only [interfacesIn, List.mem_filter, List.mem_map] at hi
  obtain ⟨⟨name, _, rfl⟩, hnull⟩ := hi
  refine (named_valid hl _).resolve_left fun hnone => ?_
  rw [hnone] at hnull
  cases hnull

/-- A class with its links. -/
def linkedClass (l : Loader) (known : WellKnown) (image type cls : Handle)
    (c : ClassDescription) (fields methods : List Handle) : ClassNode :=
  { declaredClass image type c with
    parent := parentIn l known cls c
    declaring := declaringIn l c
    interfaces := interfacesIn l c
    fields
    methods }

theorem linkClass_apply {known : WellKnown} {cls : Handle} {c : ClassDescription} {l l₁ l₂ : Loader}
    {fields methods : List Handle} {node : ClassNode}
    (hfields : c.fields.mapM (linkField c) l = (fields, l₁))
    (hmethods : c.methods.mapM (linkMethod cls c) l₁ = (methods, l₂))
    (hnode : l₂.arena.get? cls = some (.class_ node)) :
    linkClass known cls c l = ((), { l₂ with
      arena := l₂.arena.set cls (.class_ { node with
        parent := parentIn l known cls c
        declaring := declaringIn l c
        interfaces := interfacesIn l c
        fields
        methods }) }) := by
  rw [linkClass, bind_apply, parentOf_apply, bind_apply, declaringOf_apply, bind_apply,
    mapM_classNamed, bind_apply, hfields, bind_apply, hmethods, modify_apply]
  simp only [hnode]
  rfl

/-- The class lies in the arena with its type and all links that its description asks for. -/
def LinkedAt (l : Loader) (known : WellKnown) (image : Handle) (c : ClassDescription)
    (h : Handle) : Prop :=
  ∃ t fields methods,
    l.arena.class_ h = .ok (linkedClass l known image t h c fields methods) ∧
    l.arena.type t = .ok (c.typeNode h) ∧
    List.Forall₂ (LinkedField l c) c.fields fields ∧
    List.Forall₂ (LinkedMethod l h c) c.methods methods

theorem linkedClass_congr (hlm : m.classes = l.classes) (known : WellKnown)
    (image type cls : Handle) (c : ClassDescription) (fields methods : List Handle) :
    linkedClass m known image type cls c fields methods =
      linkedClass l known image type cls c fields methods := by
  simp only [linkedClass, parentIn, declaringIn, interfacesIn, Loader.named, hlm]

/-- A linked class stays as it is while others are linked. -/
theorem LinkedAt.mono (hlm : l.GrowsBut hs m) (hclasses : m.classes = l.classes)
    (hcls : ∀ k ∈ hs, l.arena.HasClass k) {known : WellKnown} {image h : Handle}
    {c : ClassDescription} (hh : h ∉ hs) :
    LinkedAt l known image c h → LinkedAt m known image c h := by
  rintro ⟨t, fields, methods, hc, ht, hf, hm⟩
  rw [Arena.class_eq_ok] at hc
  refine ⟨t, fields, methods, ?_, hlm.type hcls ht, hf.imp fun _ _ => LinkedField.mono hlm,
    hm.imp fun _ _ => LinkedMethod.mono hlm⟩
  rw [Arena.class_eq_ok, linkedClass_congr hclasses]
  exact hlm.arena _ _ hh hc

/-- A class with its links is well linked where its type and its members are. -/
theorem linkedClass_wellLinked (hl : l.Sound) {known : WellKnown} (hknown : known.Valid l.arena)
    {image t cls : Handle} {c : ClassDescription} {fields methods : List Handle} {a : Arena}
    (hkeeps : l.arena.Keeps a) (himage : l.arena.HasImage image)
    (htype : a.type t = .ok (c.typeNode cls))
    (hfields : ∀ f ∈ fields, ∃ n, a.field f = .ok n ∧ a.HasType n.type)
    (hmethods : ∀ k ∈ methods, ∃ n, a.method k = .ok n ∧ n.class = cls) :
    (linkedClass l known image t cls c fields methods).WellLinked a cls where
  type := ⟨_, htype, rfl⟩
  image := hkeeps.hasImage himage
  parent := (parentIn_valid hl hknown cls c).imp_right hkeeps.hasClass
  declaring := (declaringIn_valid hl c).imp_right hkeeps.hasClass
  interfaces _ hi := hkeeps.hasClass (hasClass_of_mem_interfacesIn hl hi)
  fields := hfields
  methods := hmethods
  definition := Or.inl rfl

theorem linkClass_links {names : Std.TreeMap String Handle} {known : WellKnown}
    {image cls : Handle} {c : ClassDescription} (hl : Linking names l)
    (hknown : known.Valid l.arena) (hc : DeclaredAt l.arena image c cls) :
    ∃ m, linkClass known cls c l = ((), m) ∧ Linking names m ∧ l.GrowsBut [cls] m ∧
      LinkedAt m known image c cls := by
  obtain ⟨t, hcls, htype⟩ := hc
  obtain ⟨hl₁, hgrow₁, hf⟩ := mapM_grows (G := Linking names) (R := (LinkedField · c))
    (linkField_grows c) (fun hlm => LinkedField.mono hlm) c.fields l hl
  generalize hfields : c.fields.mapM (linkField c) l = r at hl₁ hgrow₁ hf
  obtain ⟨fields, l₁⟩ := r
  obtain ⟨⟨hl₂, _⟩, hgrow₂, hm⟩ := mapM_grows
    (G := fun l => Linking names l ∧ l.arena.HasClass cls) (R := (LinkedMethod · cls c))
    (linkMethod_grows c) (fun hlm => LinkedMethod.mono hlm) c.methods l₁
    ⟨hl₁, hgrow₁.keeps.hasClass ⟨_, hcls⟩⟩
  generalize hmethods : c.methods.mapM (linkMethod cls c) l₁ = r at hl₂ hgrow₂ hm
  obtain ⟨methods, l₂⟩ := r
  have hgrow := hgrow₁.trans hgrow₂
  have hnode : l₂.arena.get? cls = some (.class_ (declaredClass image t c)) :=
    hgrow.get? (Arena.class_eq_ok.mp hcls)
  let node : ClassNode := linkedClass l known image t cls c fields methods
  let l₃ : Loader := { l₂ with arena := l₂.arena.set cls (.class_ node) }
  have hkeep : Node.Keeps (.class_ (declaredClass image t c)) (.class_ node) := .class_ rfl rfl rfl
  have hgrow₃ : l₂.GrowsBut [cls] l₃ := .set hnode hkeep
  have hkeeps : l₂.arena.Keeps l₃.arena := hgrow₃.keeps
  have hall := hgrow.keeps.trans hkeeps
  have hnew : l₃.arena.class_ cls = .ok node := Arena.class_eq_ok.mpr (Arena.get?_set_same hnode _)
  -- the type of the class is another object, so it is still the declared one
  have htype₃ : l₃.arena.type t = .ok (c.typeNode cls) := by
    refine Arena.type_eq_ok.mpr ?_
    rw [Arena.type_eq_ok] at htype
    refine hgrow₃.arena t _ (fun ht => ?_) (hgrow.get? htype)
    rw [List.mem_singleton] at ht
    rw [ht, hgrow.get? (ht ▸ htype)] at hnode
    cases hnode
  have hlinked : node.WellLinked l₃.arena cls := by
    refine linkedClass_wellLinked hl.1 hknown hall (hl.1.arena.class_ hcls).image htype₃
      (fun f hff => ?_) fun k hk => ?_
    · obtain ⟨d, _, u, hu, hfield⟩ := mem_of_forall₂ hf hff
      exact ⟨_, (hgrow₂.keeps.trans hkeeps).field hfield,
        (hgrow₂.keeps.trans hkeeps).hasType (hl₁.1.types _ _ hu)⟩
    · obtain ⟨d, _, ret, ps, _, _, hmethod⟩ := mem_of_forall₂ hm hk
      exact ⟨_, hkeeps.method hmethod, rfl⟩
  refine ⟨l₃, linkClass_apply hfields hmethods hnode, ⟨hl₂.1.set hnode hkeep hlinked, hl₂.2⟩,
    Loader.GrowsBut.trans hgrow hgrow₃, t, fields, methods, ?_, htype₃, ?_, ?_⟩
  · rw [linkedClass_congr (l := l) (m := l₃) (hl₂.2.trans hl.2.symm)]
    exact hnew
  · exact hf.imp fun _ _ h => (h.mono hgrow₂).mono hgrow₃
  · exact hm.imp fun _ _ h => h.mono hgrow₃

/-- Linking classes one after the other links each of them, as no two share a handle. -/
theorem forM_linkClass {names : Std.TreeMap String Handle} {known : WellKnown} :
    ∀ (pending : List (Handle × ClassDescription)) (l : Loader), Linking names l →
      known.Valid l.arena → (pending.map Prod.fst).Nodup →
      (∀ q ∈ pending, ∃ image, DeclaredAt l.arena image q.2 q.1) →
      ∃ m, (pending.forM fun (cls, c) => linkClass known cls c) l = ((), m) ∧
        Linking names m ∧ l.GrowsBut (pending.map Prod.fst) m ∧
        ∀ q ∈ pending, ∀ image, DeclaredAt l.arena image q.2 q.1 →
          LinkedAt m known image q.2 q.1
  | [], l, hl, _, _, _ => ⟨l, rfl, hl, .refl _ l, by simp⟩
  | (cls, c) :: rest, l, hl, hknown, hnodup, hdeclared => by
      rw [List.map_cons, List.nodup_cons] at hnodup
      obtain ⟨image, hc⟩ := hdeclared _ List.mem_cons_self
      obtain ⟨l₁, hrun₁, hl₁, hgrow₁, -⟩ := linkClass_links hl hknown hc
      have hcls : ∀ k ∈ [cls], l.arena.HasClass k := by
        obtain ⟨t, hclass, _⟩ := hc
        simpa using ⟨_, hclass⟩
      have hother : ∀ q ∈ rest, q.1 ∉ [cls] := fun q hq hmem => by
        obtain rfl := List.mem_singleton.mp hmem
        exact hnodup.1 (List.mem_map.mpr ⟨q, hq, rfl⟩)
      have hrest : ∀ q ∈ rest, ∀ image, DeclaredAt l.arena image q.2 q.1 →
          DeclaredAt l₁.arena image q.2 q.1 :=
        fun q hq _ => DeclaredAt.mono hgrow₁ hcls (hother q hq)
      have hdeclared₁ : ∀ q ∈ rest, ∃ image, DeclaredAt l₁.arena image q.2 q.1 := fun q hq => by
        obtain ⟨image, h⟩ := hdeclared q (List.mem_cons_of_mem _ hq)
        exact ⟨image, hrest q hq image h⟩
      obtain ⟨m, hrun, hm, hgrow₂, hlinked⟩ := forM_linkClass rest l₁ hl₁
        (hknown.mono hgrow₁.keeps) hnodup.2 hdeclared₁
      refine ⟨m, ?_, hm, hgrow₁.trans hgrow₂, ?_⟩
      · change (linkClass known cls c >>= fun _ => rest.forM _) l = _
        rw [bind_apply, hrun₁]
        exact hrun
      · intro q hq image' hq'
        rcases List.mem_cons.mp hq with rfl | hq
        · obtain ⟨l₁', hrun₁', -, -, hlink⟩ := linkClass_links hl hknown hq'
          obtain rfl : l₁' = l₁ := congrArg Prod.snd (hrun₁'.symm.trans hrun₁)
          refine hlink.mono hgrow₂ (hm.2.trans hl₁.2.symm) (fun k hk => ?_) hnodup.1
          obtain ⟨q, hq, rfl⟩ := List.mem_map.mp hk
          obtain ⟨image, t, hclass, _⟩ := hdeclared₁ q hq
          exact ⟨_, hclass⟩
        · exact hlinked q hq image' (hrest q hq image' hq')

end Load

end VmMetadata
