import VmMetadata.Inspect.Closing
import VmMetadata.Proofs.Session.Getters

/-!
Closing generic definitions. The array that is handed to the machine holds the types of the
classes, a slot for each; so a class is closed over these types, and a method instantiated with
them, unless the definition takes another number of arguments.
-/

namespace VmMetadata

open Query (Agree Agrees)

namespace Vm

variable {vm : Vm} {h : Handle}

/-- Every class of a well-formed machine has a type. -/
theorem WellFormed.tells_classType (wf : vm.WellFormed) (hc : vm.arena.HasClass h) :
    ∃ t, vm.Tells (.classType h) t ∧ vm.arena.HasType t := by
  obtain ⟨n, hn⟩ := hc
  obtain ⟨t, ht, _⟩ := (wf.arena.class_ hn).type
  exact ⟨n.type, Vm.tells_classType.mpr ⟨n, hn, rfl⟩, t, ht⟩

theorem WellFormed.tellsTypeName (wf : vm.WellFormed) (hc : vm.arena.HasClass h) :
    ∃ name, vm.TellsTypeName h name := by
  obtain ⟨t, ht, n, hn⟩ := wf.tells_classType hc
  exact ⟨n.name, t, Arena.ne_null_of_get? (Arena.type_eq_ok.mp hn), ht, tells_typeName.mpr
    ⟨n, hn, rfl⟩⟩

end Vm

namespace Session

/-- The types of the classes. -/
def TypesOf (s : Session) (cs : List Class) (types : List Handle) : Prop :=
  List.Forall₂ (fun c t => s.vm.Tells (.classType c.handle) t) cs types

/-- Type arguments can be made of the classes. -/
structure Arguable (s : Session) (cs : List Class) : Prop where
  count : cs.length < 0x1_0000_0000
  classes : ∀ c ∈ cs, s.vm.arena.HasClass c.handle
  reflection : ∃ k, s.KnowsClass "System" "Type" k

variable {s t : Session} {cs : List Class}

/-- Classes have one list of types. -/
theorem TypesOf.unique {types types' : List Handle} (h : s.TypesOf cs types)
    (h' : s.TypesOf cs types') : types = types' :=
  List.right_unique_forall₂' (fun _ _ _ ht ht' => ht.unique ht') h h'

theorem TypesOf.later {types : List Handle} (h : s.TypesOf cs types) (hst : s.Later t) :
    t.TypesOf cs types :=
  h.imp fun _ _ ht => ht.later rfl hst.vm

theorem Arguable.later (h : s.Arguable cs) (hst : s.Later t) : t.Arguable cs where
  count := h.count
  classes := fun c hc => hst.vm.arena.keeps.hasClass (h.classes c hc)
  reflection := by
    obtain ⟨k, hk⟩ := h.reflection
    exact ⟨k, hk.later hst⟩

theorem KnowsClass.hasClass {namespace_ name : String} {k : Handle}
    (h : s.KnowsClass namespace_ name k) : s.vm.arena.HasClass k :=
  h.2.hasClass h.1

end Session

variable {s₁ s₂ : Session}

/-! ## Arrays of reflection objects -/

namespace ArrayView

/-- The slots in front of the index are done; those behind it are null. -/
theorem fill_agrees (array : ArrayView) (cls : Handle) : ∀ (objects : List Object)
    (done : List Handle) {s₁ s₂ : Session}, s₁.Alike s₂ →
      s₁.vm.arena.object array.handle =
        .ok (.array cls (done ++ List.replicate objects.length .null)) →
      Agrees (array.fill done.length objects) s₁ s₂
        (fun _ t => t.vm.arena.object array.handle =
          .ok (.array cls (done ++ objects.map View.handle))) False
  | [], done, _, _, h, harray => .pure h harray
  | o :: rest, done, s₁, s₂, h, harray => by
      have hset := (Agree.ask h (c := .arraySet array.handle done.length o.handle) rfl
        (Access.arraySet_steps s₁.vm array.handle done.length o.handle)).weaken
        (F := False) (fun _ _ _ ha => ha) fun hno => hno ⟨cls, _, harray, by simp⟩
      refine hset.bind fun _ t₁ t₂ on harray' => ?_
      obtain ⟨cls', items, hold, harena⟩ := harray'
      rw [harray] at hold
      cases hold
      -- one slot less is null
      have hnew : t₁.vm.arena.object array.handle =
          .ok (.array cls (done ++ [o.handle] ++ List.replicate rest.length .null)) := by
        rw [harena]
        refine Arena.object_eq_ok.mpr
          ((Arena.get?_set_same (Arena.object_eq_ok.mp harray) _).trans ?_)
        simp [List.replicate_succ]
      have hrest := fill_agrees array cls rest (done ++ [o.handle]) on.alike hnew
      simpa using hrest

theorem ofObjects_agrees (h : s₁.Alike s₂) (cls : Class) (objects : List Object) :
    Agrees (ArrayView.ofObjects cls objects) s₁ s₂
      (fun a t => t.Shows a ∧
        t.vm.arena.object a.handle = .ok (.array cls.handle (objects.map View.handle)))
      ¬(objects.length < 0x1_0000_0000 ∧ s₁.vm.arena.HasClass cls.handle) := by
  unfold ArrayView.ofObjects
  by_cases hlong : 0x1_0000_0000 ≤ objects.length
  · rw [if_pos hlong]
    exact .throw h _ fun hn => absurd hn.1 (Nat.not_lt.mpr hlong)
  · rw [if_neg hlong]
    have hnew := (Agree.ask h (c := .arrayNew cls.handle objects.length) rfl
      (Access.arrayNew_steps s₁.vm cls.handle objects.length)).weaken
      (F := ¬(objects.length < 0x1_0000_0000 ∧ s₁.vm.arena.HasClass cls.handle))
      (fun _ _ _ ha => ha) fun hno hn => hno hn.2
    refine hnew.bind fun a t₁ t₂ on ha => ?_
    refine ((Agree.viewAlone on.alike .array a).weaken (fun _ _ _ hv => hv) fun hnull => absurd
      hnull (Arena.ne_null_of_get? (Arena.object_eq_ok.mp ha))).bind fun v u₁ u₂ on' hv => ?_
    obtain ⟨⟨hshows, rfl⟩, hsame⟩ := hv
    have hfill := fill_agrees v cls.handle objects [] on'.alike (hsame ▸ ha)
    refine (hfill.weaken (fun _ _ _ hf => hf) False.elim).bind fun _ v₁ v₂ on'' hfilled => ?_
    exact .pure on''.alike ⟨hshows.later on''.left, hfilled⟩

end ArrayView

theorem exists_between {P : α → γ → Prop} {Q : β → γ → Prop} {as : List α} {bs : List β}
    (h : List.Forall₂ (fun a b => ∃ x, P a x ∧ Q b x) as bs) :
    ∃ xs, List.Forall₂ P as xs ∧ List.Forall₂ Q bs xs := by
  induction h with
  | nil => exact ⟨[], .nil, .nil⟩
  | cons hab _ ih =>
      obtain ⟨x, ha, hb⟩ := hab
      obtain ⟨xs, has, hbs⟩ := ih
      exact ⟨x :: xs, .cons ha has, .cons hb hbs⟩

/-- The types of classes have reflection objects. -/
theorem typeObjects_agrees (h : s₁.Alike s₂) {cs : List Class} (hcs : ∀ c ∈ cs, s₁.Shows c) :
    Agrees (cs.mapM fun c => do (← c.type).object) s₁ s₂
      (fun os t => List.Forall₂ (fun c (o : Object) => ∃ type,
        t.vm.Tells (.classType c.handle) type ∧
          t.vm.arena.object o.handle = .ok (.typeObject type)) cs os)
      ¬∀ c ∈ cs, s₁.vm.arena.HasClass c.handle := by
  let R : Class → Object → Session → Prop := fun c o t => ∃ type,
    t.vm.Tells (.classType c.handle) type ∧ t.vm.arena.object o.handle = .ok (.typeObject type)
  -- later calls leave the reflection objects as they are
  refine Agree.mapM (R := R) (I := s₁.Later) (fun hst ht => ht.trans hst)
    (fun _ hst ⟨type, htype, ho⟩ =>
      ⟨type, htype.later rfl hst.vm, hst.vm.arena.typeObject ho⟩) h (.refl s₁) ?_
  intro c hc t₁ t₂ ht hlater
  refine ((Class.type_agrees ht ((hcs c hc).later hlater)).weaken (fun _ _ _ hv => hv)
    fun hnull hall => ?_).bind fun type u₁ u₂ on htype => ?_
  · obtain ⟨k, hk, _, hnode⟩ := ht.left.vm.tells_classType
      (hlater.vm.arena.keeps.hasClass (hall c hc))
    exact Arena.ne_null_of_get? (Arena.type_eq_ok.mp hnode) (hnull k hk)
  · refine (TypeView.object_agrees on.alike htype.1).weaken (fun o v hlater' ho => ?_) ?_
    · exact ⟨type.handle, htype.2.later rfl hlater'.vm, ho.2⟩
    · intro hno hall
      obtain ⟨k, hk, hhas⟩ := on.alike.left.vm.tells_classType
        ((hlater.trans on.left).vm.arena.keeps.hasClass (hall c hc))
      exact hno (hk.unique htype.2 ▸ hhas)

/-- The reflection objects of the types of the classes, in their order. -/
theorem argumentArray_agrees (h : s₁.Alike s₂) {cs : List Class} (hcs : ∀ c ∈ cs, s₁.Shows c) :
    Agrees (argumentArray cs) s₁ s₂
      (fun a t => t.Shows a ∧ ∃ types, t.TypesOf cs types ∧ t.vm.arena.Arguments a.handle types)
      ¬s₁.Arguable cs := by
  have hobjects := (typeObjects_agrees h hcs).weaken (F := ¬s₁.Arguable cs) (fun _ _ _ ho => ho)
    fun hno hargs => hno hargs.classes
  refine hobjects.bind fun objects t₁ t₂ on hall => ?_
  refine ((Query.reflectionClass_agrees on.alike).weaken (fun _ _ _ hk => hk) fun hnone hargs => by
    obtain ⟨k, hk⟩ := hargs.reflection
    exact hnone k (hk.later on.left)).bind fun element u₁ u₂ on' helement => ?_
  refine (ArrayView.ofObjects_agrees on'.alike element objects).weaken ?_ fun hno hargs => hno
    ⟨hall.length_eq ▸ hargs.count, helement.2.hasClass⟩
  rintro a v hlater ⟨hshows, harray⟩
  obtain ⟨types, htypes, hobjects⟩ := exists_between hall
  have hlater := on'.left.trans hlater
  refine ⟨hshows, types, Session.TypesOf.later htypes hlater, element.handle, _, harray, ?_⟩
  exact List.forall₂_map_left_iff.mpr (hobjects.imp fun _ _ ho => hlater.vm.arena.typeObject ho)

/-! ## Classes -/

/-- The definition takes as many arguments as there are classes. -/
structure Session.CanClose (s : Session) (cls : Handle) (cs : List Class) : Prop where
  arguable : s.Arguable cs
  definition : ∃ d, s.vm.arena.class_ cls = .ok d ∧ d.isOpen = true ∧
    d.typeParameters.length = cs.length

theorem Session.CanClose.later {s t : Session} {cls : Handle} {cs : List Class}
    (h : s.CanClose cls cs) (hst : s.Later t) : t.CanClose cls cs where
  arguable := h.arguable.later hst
  definition := by
    obtain ⟨d, hd, hshape⟩ := h.definition
    exact ⟨d, hst.vm.arena.class_ hd, hshape⟩

theorem checkArity_agrees (h : s₁.Alike s₂) (name : String) (expected : Nat) (cs : List Class) :
    Agrees (checkArity name expected cs) s₁ s₂ (fun _ _ => expected = cs.length)
      (expected ≠ cs.length) := by
  unfold checkArity
  split
  · rename_i heq
    exact .pure h heq.symm
  · rename_i hne
    exact .throw h _ (Ne.symm hne)

namespace Class

/-- Behind the checks, the machine closes the class over the reflection objects. -/
theorem closeOver_agrees (h : s₁.Alike s₂) (c : Class) {cs : List Class}
    (hcs : ∀ d ∈ cs, s₁.Shows d) :
    Agrees (do
        let array ← argumentArray cs
        Query.view .class_ (← Query.ask (.classInflate c.handle array.handle))) s₁ s₂
      (fun v t => t.Shows v ∧ ∃ types d n, t.TypesOf cs types ∧
        t.vm.arena.ClosedOver c.handle types d v.handle n)
      ¬s₁.CanClose c.handle cs := by
  refine ((argumentArray_agrees h hcs).weaken (fun _ _ _ hv => hv)
    fun hno hclose => hno hclose.arguable).bind fun array t₁ t₂ on harray => ?_
  obtain ⟨_, types, htypes, hargs⟩ := harray
  refine ((Agree.ask on.alike (c := .classInflate c.handle array.handle) rfl
    (Access.inflateClass_steps on.alike.left.vm c.handle array.handle)).weaken
    (fun _ _ _ hv => hv) fun hno hclose => hno ?_).bind fun k u₁ u₂ on' hk => ?_
  · obtain ⟨d, hd, hopen, harity⟩ := (hclose.later on.left).definition
    exact ⟨types, d, hargs, hd, hopen, harity.trans htypes.length_eq⟩
  · obtain ⟨args, d, n, hargs', hclosed⟩ := hk
    cases Access.arguments_unique hargs' hargs
    refine (Agree.view on'.alike .class_ k).weaken ?_ fun hnull => ?_
    · rintro v z hlater ⟨hshows, rfl⟩
      exact ⟨hshows, types, d, n, htypes.later (on'.left.trans hlater),
        hclosed.later hlater.vm.arena on'.alike.left.vm.arena⟩
    · exact absurd hnull (Arena.ne_null_of_get? (Arena.class_eq_ok.mp hclosed.result))

theorem inflate_agrees (h : s₁.Alike s₂) {c : Class} (hc : s₁.Shows c) {cs : List Class}
    (hcs : ∀ d ∈ cs, s₁.Shows d) :
    Agrees (c.inflate cs) s₁ s₂
      (fun v t => t.Shows v ∧ ∃ types d n, t.TypesOf cs types ∧
        t.vm.arena.ClosedOver c.handle types d v.handle n)
      ¬s₁.CanClose c.handle cs := by
  unfold Class.inflate
  refine ((typeName_agrees h hc).weaken (fun _ _ _ hv => hv) fun hnone hclose => ?_).bind
    fun name t₁ t₂ on _ => ?_
  · obtain ⟨d, hd, _⟩ := hclose.definition
    obtain ⟨name, hname⟩ := h.left.vm.tellsTypeName ⟨d, hd⟩
    exact hnone name hname
  refine ((isGeneric_agrees on.alike (hc.later on.left)).weaken (fun _ _ _ hv => hv)
    fun hnone hclose => ?_).bind fun isOpen u₁ u₂ on' hopen => ?_
  · obtain ⟨d, hd, _⟩ := (hclose.later on.left).definition
    exact hnone _ (Vm.tells_classIsGeneric.mpr ⟨d, hd, rfl⟩)
  have hlater := on.left.trans on'.left
  -- what the call can be refused for, in the session as it is now
  have hreason : s₁.CanClose c.handle cs → ∃ d, u₁.vm.arena.class_ c.handle = .ok d ∧
      d.isOpen = isOpen ∧ d.isOpen = true ∧ d.typeParameters.length = cs.length := by
    intro hclose
    obtain ⟨d, hd, hshape⟩ := (hclose.later hlater).definition
    exact ⟨d, hd, (Vm.tells_classIsGeneric.mpr ⟨d, hd, rfl⟩).unique hopen, hshape⟩
  cases isOpen with
  | false =>
      refine Agree.throw on'.alike (.notGeneric name) fun hclose => ?_
      obtain ⟨d, _, hfalse, htrue, _⟩ := hreason hclose
      rw [hfalse] at htrue
      cases htrue
  | true =>
      refine ((typeParameterCount_agrees on'.alike (hc.later hlater)).weaken (fun _ _ _ hv => hv)
        fun hnone hclose => ?_).bind fun count v₁ v₂ on'' hcount => ?_
      · obtain ⟨d, hd, _⟩ := hreason hclose
        exact hnone _ (Vm.tells_classParameterCount.mpr ⟨d, hd, rfl⟩)
      have hlater := hlater.trans on''.left
      refine ((checkArity_agrees on''.alike name count cs).weaken (fun _ _ _ hv => hv)
        fun hne hclose => hne ?_).bind fun _ w₁ w₂ on₃ _ => ?_
      · obtain ⟨d, hd, _, _, harity⟩ := hreason hclose
        rw [← word32_eq_self_iff.mpr hclose.arguable.count, ← harity]
        exact hcount.unique (Vm.tells_classParameterCount.mpr
          ⟨d, on''.left.vm.arena.class_ hd, rfl⟩)
      have hlater := hlater.trans on₃.left
      exact (closeOver_agrees on₃.alike c fun d hd => (hcs d hd).later hlater).weaken
        (fun _ _ _ hv => hv) fun hno hclose => hno (hclose.later hlater)

end Class

/-! ## Methods -/

theorem Arena.namesType_unique {a : Arena} : Relator.RightUnique a.NamesType := by
  rintro type name name' ⟨n, hn, rfl⟩ ⟨m, hm, rfl⟩
  cases hn.symm.trans hm
  rfl

theorem Arena.namesTypes_unique {a : Arena} {types : List Handle} {names names' : List String}
    (h : List.Forall₂ a.NamesType types names) (h' : List.Forall₂ a.NamesType types names') :
    names = names' :=
  List.right_unique_forall₂' Arena.namesType_unique h h'

/-- The method can be instantiated with the types: it is compiled for them, or they are as many as
its type parameters. -/
def Arena.Takes (a : Arena) (m : MethodNode) (types : List Handle) : Prop :=
  (∃ names address, List.Forall₂ a.NamesType types names ∧
    compiledAddress? names m.instantiations = some address) ∨ m.typeParameters.length = types.length

theorem Arena.Takes.later {a b : Arena} {m : MethodNode} {types : List Handle} (hab : a.Later b)
    (h : a.Takes m types) : b.Takes m types :=
  h.imp_left fun ⟨names, address, hnames, haddress⟩ =>
    ⟨names, address, hnames.imp fun _ _ => Arena.NamesType.later hab, haddress⟩

/-- The generic method says that it takes as many arguments as there are classes, and it does. -/
structure Session.CanInstantiate (s : Session) (method : Handle) (cs : List Class) : Prop where
  arguable : s.Arguable cs
  definition : ∃ m types, s.vm.arena.method method = .ok m ∧ m.typeParameters ≠ [] ∧
    word32 m.typeParameters.length = cs.length ∧ s.TypesOf cs types ∧ s.vm.arena.Takes m types

/-- Classes as many as the type parameters will do, if they can be counted. -/
theorem Session.CanInstantiate.of_count {s : Session} {method : Handle} {cs : List Class}
    (arguable : s.Arguable cs) {m : MethodNode} (hm : s.vm.arena.method method = .ok m)
    (hgeneric : m.typeParameters ≠ []) (hcount : m.typeParameters.length = cs.length)
    {types : List Handle} (htypes : s.TypesOf cs types) : s.CanInstantiate method cs :=
  ⟨arguable, m, types, hm, hgeneric,
    (word32_eq_self_iff.mpr (hcount ▸ arguable.count)).trans hcount, htypes,
    .inr (hcount.trans htypes.length_eq)⟩

theorem Session.CanInstantiate.later {s t : Session} {method : Handle} {cs : List Class}
    (h : s.CanInstantiate method cs) (hst : s.Later t) : t.CanInstantiate method cs where
  arguable := h.arguable.later hst
  definition := by
    obtain ⟨m, types, hm, hgeneric, hcount, htypes, htakes⟩ := h.definition
    exact ⟨m, types, hst.vm.arena.method hm, hgeneric, hcount, htypes.later hst,
      htakes.later hst.vm.arena⟩

/-- The method `k` is `m` with the types in the place of its type parameters. Its body is the one
compiled for these types, else that of `m` itself. -/
def Arena.InstantiatedOver (a : Arena) (m : Handle) (types : List Handle) (k : Handle) : Prop :=
  ∃ node names, a.method m = .ok node ∧ List.Forall₂ a.NamesType types names ∧
    a.method k = .ok (node.instantiated a types
      ((compiledAddress? names node.instantiations).or node.address))

/-- An instance that is made of what there was before. -/
theorem Arena.Later.instantiatedOver {a b : Arena} (hab : a.Later b) (wf : a.WellFormed)
    {m k : Handle} {node : MethodNode} (hm : a.method m = .ok node) {types : List Handle}
    {names : List String} (hnames : List.Forall₂ a.NamesType types names)
    (hk : b.method k = .ok (node.instantiated a types
      ((compiledAddress? names node.instantiations).or node.address))) :
    b.InstantiatedOver m types k := by
  refine ⟨node, names, hab.method hm, hnames.imp fun _ _ => Arena.NamesType.later hab, ?_⟩
  rw [hab.instantiated wf hm]
  exact hk

theorem Arena.InstantiatedOver.later {a b : Arena} (hab : a.Later b) (wf : a.WellFormed)
    {m k : Handle} {types : List Handle} (h : a.InstantiatedOver m types k) :
    b.InstantiatedOver m types k := by
  obtain ⟨node, names, hm, hnames, hk⟩ := h
  exact hab.instantiatedOver wf hm hnames (hab.method hk)

/-- The registered instantiation if there is one, else a new one. -/
theorem Method.instantiate_agrees (h : s₁.Alike s₂) {m : Method} {array : ArrayView}
    {types : List Handle} (hargs : s₁.vm.arena.Arguments array.handle types) :
    Agrees (m.instantiate array) s₁ s₂
      (fun k t => t.vm.arena.InstantiatedOver m.handle types k ∧
        ∃ node, s₁.vm.arena.method m.handle = .ok node ∧ s₁.vm.arena.Takes node types)
      ¬∃ node, s₁.vm.arena.method m.handle = .ok node ∧ s₁.vm.arena.Takes node types := by
  have hfind := (Agree.ask h (c := .methodFindInflated m.handle array.handle) rfl
    (Access.findInflatedMethod_steps h.left.vm m.handle array.handle)).weaken
    (F := ¬∃ node, s₁.vm.arena.method m.handle = .ok node ∧ s₁.vm.arena.Takes node types)
    (fun _ _ _ hv => hv) fun hno ⟨node, hm, _⟩ => hno ⟨types, node, hargs, hm⟩
  refine hfind.bind fun k t₁ t₂ on hk => ?_
  obtain ⟨args, hargs', ⟨node, names, hm, hnames, hcompiled⟩, hsame⟩ := hk
  cases Access.arguments_unique hargs' hargs
  have hlater := on.left.vm.arena
  cases haddress : compiledAddress? names node.instantiations with
  | some address =>
      simp only [haddress] at hcompiled
      have hne := Arena.ne_null_of_get? (Arena.method_eq_ok.mp hcompiled)
      rw [Handle.nonNull?_of_ne_null hne]
      refine .pure on.alike ⟨hlater.instantiatedOver h.left.vm.arena hm hnames ?_, node, hm,
        .inl ⟨names, address, hnames, haddress⟩⟩
      rw [haddress]
      exact hcompiled
  | none =>
      simp only [haddress] at hcompiled
      subst hcompiled
      have hvm := hsame rfl
      refine (Agree.ask on.alike (c := .methodInflateRaw m.handle array.handle) rfl
        (Access.inflateMethodRaw_steps on.alike.left.vm m.handle array.handle)).weaken ?_ ?_
      · rintro r u hlater' ⟨args, node', hargs'', hm', harity, hr⟩
        rw [hvm] at hargs'' hm' hr
        cases Access.arguments_unique hargs'' hargs
        rw [hm] at hm'
        cases hm'
        have hlater := hlater.trans hlater'.vm.arena
        refine ⟨hlater.instantiatedOver h.left.vm.arena hm hnames ?_, node, hm, .inr harity⟩
        rw [haddress]
        exact hr
      · rintro hno ⟨node', hm', htakes⟩
        rw [hm] at hm'
        cases hm'
        rw [hvm] at hno
        refine hno ⟨types, node, hargs, hm, htakes.resolve_left ?_⟩
        rintro ⟨names', address, hnames', hfound⟩
        cases Arena.namesTypes_unique hnames' hnames
        rw [haddress] at hfound
        cases hfound

namespace Method

/-- Behind the checks, the method is instantiated over the reflection objects. -/
theorem instantiateOver_agrees (h : s₁.Alike s₂) (m : Method) {cs : List Class}
    (hcs : ∀ d ∈ cs, s₁.Shows d) :
    Agrees (do Query.view .method (← m.instantiate (← argumentArray cs))) s₁ s₂
      (fun v t => t.Shows v ∧ ∃ types, t.TypesOf cs types ∧
        t.vm.arena.InstantiatedOver m.handle types v.handle)
      ¬s₁.CanInstantiate m.handle cs := by
  refine ((argumentArray_agrees h hcs).weaken (fun _ _ _ hv => hv)
    fun hno hcan => hno hcan.arguable).bind fun array t₁ t₂ on harray => ?_
  obtain ⟨_, types, htypes, hargs⟩ := harray
  refine ((instantiate_agrees on.alike hargs).weaken (fun _ _ _ hv => hv)
    fun hno hcan => ?_).bind fun k u₁ u₂ on' hk => ?_
  · obtain ⟨node, types', hnode, _, _, htypes', htakes⟩ := (hcan.later on.left).definition
    exact hno ⟨node, hnode, htypes'.unique htypes ▸ htakes⟩
  · refine (Agree.view on'.alike .method k).weaken ?_ fun hnull => ?_
    · rintro v z hlater ⟨hshows, rfl⟩
      exact ⟨hshows, types, htypes.later (on'.left.trans hlater),
        hk.1.later hlater.vm.arena on'.alike.left.vm.arena⟩
    · obtain ⟨⟨_, _, _, _, hresult⟩, _⟩ := hk
      exact absurd hnull (Arena.ne_null_of_get? (Arena.method_eq_ok.mp hresult))

theorem inflate_agrees (h : s₁.Alike s₂) {m : Method} (hm : s₁.Shows m) {cs : List Class}
    (hcs : ∀ d ∈ cs, s₁.Shows d) :
    Agrees (m.inflate cs) s₁ s₂
      (fun v t => t.Shows v ∧ ∃ types, t.TypesOf cs types ∧
        t.vm.arena.InstantiatedOver m.handle types v.handle)
      ¬s₁.CanInstantiate m.handle cs := by
  unfold Method.inflate
  refine ((name_agrees h hm).weaken (fun _ _ _ hv => hv) fun hnone hcan => ?_).bind
    fun name t₁ t₂ on _ => ?_
  · obtain ⟨node, _, hnode, _⟩ := hcan.definition
    exact hnone _ (Vm.tells_methodName.mpr ⟨node, hnode, rfl⟩)
  refine ((isGeneric_agrees on.alike (hm.later on.left)).weaken (fun _ _ _ hv => hv)
    fun hnone hcan => ?_).bind fun isGeneric u₁ u₂ on' hgeneric => ?_
  · obtain ⟨node, _, hnode, _⟩ := (hcan.later on.left).definition
    exact hnone _ (Vm.tells_methodIsGeneric.mpr ⟨node, hnode, rfl⟩)
  have hlater := on.left.trans on'.left
  cases isGeneric with
  | false =>
      refine Agree.throw on'.alike (.notGeneric name) fun hcan => ?_
      obtain ⟨node, _, hnode, hne, _⟩ := (hcan.later hlater).definition
      have := hgeneric.unique (Vm.tells_methodIsGeneric.mpr ⟨node, hnode, rfl⟩)
      simp [hne] at this
  | true =>
      refine ((typeParameterCount_agrees on'.alike (hm.later hlater)).weaken (fun _ _ _ hv => hv)
        fun hnone hcan => ?_).bind fun count v₁ v₂ on'' hcount => ?_
      · obtain ⟨node, _, hnode, _⟩ := (hcan.later hlater).definition
        exact hnone _ (Vm.tells_methodTypeParameterCount.mpr ⟨node, hnode, rfl⟩)
      have hlater := hlater.trans on''.left
      refine ((checkArity_agrees on''.alike name count cs).weaken (fun _ _ _ hv => hv)
        fun hne hcan => hne ?_).bind fun _ w₁ w₂ on₃ _ => ?_
      · obtain ⟨node, _, hnode, _, harity, _⟩ := (hcan.later hlater).definition
        rw [← harity]
        exact hcount.unique (Vm.tells_methodTypeParameterCount.mpr ⟨node, hnode, rfl⟩)
      have hlater := hlater.trans on₃.left
      exact (instantiateOver_agrees on₃.alike m fun d hd => (hcs d hd).later hlater).weaken
        (fun _ _ _ hv => hv) fun hno hcan => hno (hcan.later hlater)

end Method

/-! ## Closed stand-ins -/

theorem forall₂_replicate {R : α → β → Prop} {a : α} {b : β} (h : R a b) (n : Nat) :
    List.Forall₂ R (List.replicate n a) (List.replicate n b) := by
  induction n with
  | zero => exact .nil
  | succ n ih => exact .cons h ih

namespace Session

/-- The type of the root class. -/
def RootType (s : Session) (type : Handle) : Prop :=
  ∃ root, s.KnowsClass "System" "Object" root ∧ s.vm.Tells (.classType root) type

/-- The root class can take the place of type parameters. -/
structure CanFill (s : Session) : Prop where
  root : ∃ k, s.KnowsClass "System" "Object" k
  reflection : ∃ k, s.KnowsClass "System" "Type" k

variable {s t : Session}

theorem RootType.later {type : Handle} (h : s.RootType type) (hst : s.Later t) :
    t.RootType type := by
  obtain ⟨root, hroot, htype⟩ := h
  exact ⟨root, hroot.later hst, htype.later rfl hst.vm⟩

theorem CanFill.later (h : s.CanFill) (hst : s.Later t) : t.CanFill where
  root := h.root.imp fun _ hk => hk.later hst
  reflection := h.reflection.imp fun _ hk => hk.later hst

theorem CanFill.arguable (h : s.CanFill) {root : Class}
    (hroot : s.KnowsClass "System" "Object" root.handle) {n : Nat} (hn : n < 0x1_0000_0000) :
    s.Arguable (List.replicate n root) where
  count := by simpa using hn
  classes := List.forall_mem_replicate.mpr (Or.inr hroot.hasClass)
  reflection := h.reflection

/-- The class at `v` is the class at `c`, or that class closed over the root class. -/
def ClassStandIn (s : Session) (c v : Handle) : Prop :=
  ∃ d, s.vm.arena.class_ c = .ok d ∧ (d.isOpen = false → v = c) ∧
    (d.isOpen = true → ∃ type n, s.RootType type ∧
      s.vm.arena.ClosedOver c (List.replicate d.typeParameters.length type) d v n)

/-- The class can be closed if it has to be. -/
def Closable (s : Session) (c : Handle) : Prop :=
  ∃ d, s.vm.arena.class_ c = .ok d ∧
    (d.isOpen = true → s.CanFill ∧ d.typeParameters.length < 0x1_0000_0000)

/-- The method at `v` is the method at `m`, or that method instantiated with the root class. -/
def MethodStandIn (s : Session) (classWasGeneric : Bool) (m v : Handle) : Prop :=
  (classWasGeneric = true → v = m) ∧ (classWasGeneric = false →
    ∃ node, s.vm.arena.method m = .ok node ∧ (node.typeParameters = [] → v = m) ∧
      (node.typeParameters ≠ [] → ∃ type, s.RootType type ∧
        s.vm.arena.InstantiatedOver m (List.replicate (word32 node.typeParameters.length) type) v))

/-- The root class can take the place of the type parameters of the method. -/
def CanFillMethod (s : Session) (node : MethodNode) : Prop :=
  s.CanFill ∧ ∃ type, s.RootType type ∧
    s.vm.arena.Takes node (List.replicate (word32 node.typeParameters.length) type)

/-- The method can be instantiated if it has to be. -/
def Instantiable (s : Session) (classWasGeneric : Bool) (m : Handle) : Prop :=
  classWasGeneric = false → ∃ node, s.vm.arena.method m = .ok node ∧
    (node.typeParameters ≠ [] → s.CanFillMethod node)

theorem ClassStandIn.later {c v : Handle} (h : s.ClassStandIn c v) (hs : s.Sound)
    (hst : s.Later t) : t.ClassStandIn c v := by
  obtain ⟨d, hd, hclosed, hopen⟩ := h
  refine ⟨d, hst.vm.arena.class_ hd, hclosed, fun htrue => ?_⟩
  obtain ⟨type, n, htype, hn⟩ := hopen htrue
  exact ⟨type, n, htype.later hst, hn.later hst.vm.arena hs.vm.arena⟩

theorem MethodStandIn.later {classWasGeneric : Bool} {m v : Handle}
    (h : s.MethodStandIn classWasGeneric m v) (hs : s.Sound) (hst : s.Later t) :
    t.MethodStandIn classWasGeneric m v := by
  refine ⟨h.1, fun hfalse => ?_⟩
  obtain ⟨node, hnode, hself, hinstance⟩ := h.2 hfalse
  refine ⟨node, hst.vm.arena.method hnode, hself, fun hne => ?_⟩
  obtain ⟨type, htype, hover⟩ := hinstance hne
  exact ⟨type, htype.later hst, hover.later hst.vm.arena hs.vm.arena⟩

theorem RootType.unique {type type' : Handle} (h : s.RootType type) (h' : s.RootType type') :
    type = type' := by
  obtain ⟨root, hroot, htype⟩ := h
  obtain ⟨root', hroot', htype'⟩ := h'
  cases hroot.2.unique hroot'.2
  exact htype.unique htype'

theorem CanFillMethod.later {node : MethodNode} (h : s.CanFillMethod node) (hst : s.Later t) :
    t.CanFillMethod node := by
  obtain ⟨hfill, type, htype, htakes⟩ := h
  exact ⟨hfill.later hst, type, htype.later hst, htakes.later hst.vm.arena⟩

/-- A method that can count its type parameters takes as many times the root class. -/
theorem CanFill.method (h : s.CanFill) (wf : s.vm.WellFormed) {node : MethodNode}
    (hcount : node.typeParameters.length < 0x1_0000_0000) : s.CanFillMethod node := by
  obtain ⟨root, hroot⟩ := h.root
  obtain ⟨type, htype, _⟩ := wf.tells_classType hroot.hasClass
  refine ⟨h, type, ⟨root, hroot, htype⟩, .inr ?_⟩
  rw [List.length_replicate, word32_eq_self_iff.mpr hcount]

theorem Instantiable.later {classWasGeneric : Bool} {m : Handle}
    (h : s.Instantiable classWasGeneric m) (hst : s.Later t) :
    t.Instantiable classWasGeneric m := by
  intro hfalse
  obtain ⟨node, hnode, hfill⟩ := h hfalse
  exact ⟨node, hst.vm.arena.method hnode, fun hne => (hfill hne).later hst⟩

theorem TypesOf.replicate {c : Class} {type : Handle}
    (htype : s.vm.Tells (.classType c.handle) type) (n : Nat) :
    s.TypesOf (List.replicate n c) (List.replicate n type) :=
  forall₂_replicate (R := fun (c : Class) t => s.vm.Tells (.classType c.handle) t) htype n

theorem TypesOf.eq_replicate {n : Nat} {c : Class} {type : Handle}
    (htype : s.vm.Tells (.classType c.handle) type) {types : List Handle}
    (h : s.TypesOf (List.replicate n c) types) : types = List.replicate n type := by
  refine List.eq_replicate_iff.mpr ⟨?_, fun t ht => ?_⟩
  · rw [← h.length_eq, List.length_replicate]
  · obtain ⟨d, hd, htells⟩ := Load.mem_of_forall₂ h ht
    rw [List.eq_of_mem_replicate hd] at htells
    exact htells.unique htype

end Session

/-- The root class, so many times. -/
theorem placeholderArguments_agrees (h : s₁.Alike s₂) (count : Nat) :
    Agrees (placeholderArguments count) s₁ s₂
      (fun cs t => ∃ root, cs = List.replicate count root ∧ t.Shows root ∧
        t.KnowsClass "System" "Object" root.handle)
      (∀ k, ¬s₁.KnowsClass "System" "Object" k) :=
  (Query.rootClass_agrees h).bind fun root _ _ on hroot =>
    .pure on.alike ⟨root, rfl, hroot.1, hroot.2⟩

namespace Class

variable {c : Class} {d : ClassNode}

/-- An open class is closed over the root class, taken as many times as the class has type
parameters. -/
theorem inflateOverRoot_agrees (h : s₁.Alike s₂) (hc : s₁.Shows c)
    (hd : s₁.vm.arena.class_ c.handle = .ok d) (hopen : d.isOpen = true) (count : Nat) :
    Agrees (placeholderArguments count >>= c.inflate) s₁ s₂
      (fun v t => t.Shows v ∧ ∃ type n, t.RootType type ∧ t.vm.arena.ClosedOver c.handle
        (List.replicate d.typeParameters.length type) d v.handle n)
      ¬(s₁.CanFill ∧ d.typeParameters.length = count ∧ count < 0x1_0000_0000) := by
  refine ((placeholderArguments_agrees h _).weaken (fun _ _ _ hv => hv) fun hnone hfill => ?_).bind
    fun cs t₁ t₂ on hcs => ?_
  · obtain ⟨k, hk⟩ := hfill.1.root
    exact hnone k hk
  obtain ⟨root, rfl, hroot, hknown⟩ := hcs
  obtain ⟨type, htype, _⟩ := on.alike.left.vm.tells_classType hknown.hasClass
  have hd := on.left.vm.arena.class_ hd
  refine (inflate_agrees on.alike (hc.later on.left)
    (List.forall_mem_replicate.mpr (Or.inr hroot))).weaken ?_ ?_
  · rintro v w hlater ⟨hshows, types, d', n, htypes, hclosed⟩
    cases (hlater.vm.arena.class_ hd).symm.trans hclosed.definition
    have htype := htype.later rfl hlater.vm
    cases htypes.eq_replicate htype
    have harity := hclosed.arity
    rw [List.length_replicate] at harity
    rw [← harity] at hclosed
    exact ⟨hshows, type, n, ⟨root.handle, hknown.later hlater, htype⟩, hclosed⟩
  · rintro hno ⟨hfill, rfl, hcount⟩
    exact hno ⟨(hfill.later on.left).arguable hknown hcount, d, hd, hopen, by simp⟩

/-- An open class is closed over the root class, any other stands for itself. -/
theorem representative_agrees (h : s₁.Alike s₂) (hc : s₁.Shows c) :
    Agrees c.representative s₁ s₂ (fun v t => t.Shows v ∧ t.ClassStandIn c.handle v.handle)
      ¬s₁.Closable c.handle := by
  unfold Class.representative
  refine ((isGeneric_agrees h hc).weaken (fun _ _ _ hv => hv) fun hnone ⟨d, hd, _⟩ =>
    hnone _ (Vm.tells_classIsGeneric.mpr ⟨d, hd, rfl⟩)).bind fun isOpen t₁ t₂ on hopen => ?_
  obtain ⟨d, hd, hopen⟩ := Vm.tells_classIsGeneric.mp hopen
  cases isOpen with
  | false =>
      refine .pure on.alike ⟨hc.later on.left, d, hd, fun _ => rfl, fun htrue => ?_⟩
      rw [← hopen] at htrue
      cases htrue
  | true =>
      have hcount := Vm.tells_classParameterCount.mpr ⟨d, hd, rfl⟩
      refine ((typeParameterCount_agrees on.alike (hc.later on.left)).weaken (fun _ _ _ hv => hv)
        fun hnone => absurd hcount (hnone _)).bind fun count u₁ u₂ on' hcount' => ?_
      cases hcount'.unique (hcount.later rfl on'.left.vm)
      have hlater := on.left.trans on'.left
      refine (inflateOverRoot_agrees on'.alike (hc.later hlater) (on'.left.vm.arena.class_ hd)
        hopen.symm _).weaken ?_ ?_
      · rintro v w hlater' ⟨hshows, type, n, htype, hclosed⟩
        refine ⟨hshows, d, hclosed.definition, fun hfalse => ?_, fun _ => ⟨type, n, htype, hclosed⟩⟩
        rw [hfalse] at hopen
        cases hopen
      · rintro hno ⟨d', hd', hfill⟩
        cases (on.left.vm.arena.class_ hd').symm.trans hd
        obtain ⟨hfill, hcount⟩ := hfill hopen.symm
        have heq := word32_eq_self_iff.mpr hcount
        exact hno ⟨hfill.later hlater, heq.symm, heq.symm ▸ hcount⟩

end Class

namespace Method

/-- A generic method is instantiated with the root class. -/
theorem inflateOverRoot_agrees (h : s₁.Alike s₂) {m : Method} (hm : s₁.Shows m)
    {node : MethodNode} (hnode : s₁.vm.arena.method m.handle = .ok node)
    (hne : node.typeParameters ≠ []) :
    Agrees (placeholderArguments (word32 node.typeParameters.length) >>= m.inflate) s₁ s₂
      (fun v t => t.Shows v ∧ ∃ type, t.RootType type ∧ t.vm.arena.InstantiatedOver m.handle
        (List.replicate (word32 node.typeParameters.length) type) v.handle)
      ¬s₁.CanFillMethod node := by
  refine ((placeholderArguments_agrees h _).weaken (fun _ _ _ hv => hv) fun hnone hfill => ?_).bind
    fun cs t₁ t₂ on hcs => ?_
  · obtain ⟨k, hk⟩ := hfill.1.root
    exact hnone k hk
  obtain ⟨root, rfl, hroot, hknown⟩ := hcs
  obtain ⟨type, htype, _⟩ := on.alike.left.vm.tells_classType hknown.hasClass
  refine (inflate_agrees on.alike (hm.later on.left)
    (List.forall_mem_replicate.mpr (Or.inr hroot))).weaken ?_ ?_
  · rintro v w hlater ⟨hshows, types, htypes, hinstantiated⟩
    have htype := htype.later rfl hlater.vm
    cases htypes.eq_replicate htype
    exact ⟨hshows, type, ⟨root.handle, hknown.later hlater, htype⟩, hinstantiated⟩
  · rintro hno hfill
    obtain ⟨hfill, type', htype', htakes⟩ := hfill.later on.left
    cases htype'.unique ⟨root.handle, hknown, htype⟩
    exact hno ⟨hfill.arguable hknown (Nat.mod_lt _ (by decide)), node, _,
      on.left.vm.arena.method hnode, hne, by simp, .replicate htype _, htakes⟩

/-- A generic method is instantiated with the root class, any other stands for itself. So does
every method of a class that was generic. -/
theorem representative_agrees (h : s₁.Alike s₂) {m : Method} (hm : s₁.Shows m)
    (classWasGeneric : Bool) :
    Agrees (m.representative classWasGeneric) s₁ s₂
      (fun v t => t.Shows v ∧ t.MethodStandIn classWasGeneric m.handle v.handle)
      ¬s₁.Instantiable classWasGeneric m.handle := by
  unfold Method.representative
  cases classWasGeneric with
  | true => exact .pure h ⟨hm, fun _ => rfl, fun hfalse => by cases hfalse⟩
  | false =>
      refine ((isGeneric_agrees h hm).weaken (fun _ _ _ hv => hv) fun hnone hok => ?_).bind
        fun isGeneric t₁ t₂ on hgeneric => ?_
      · obtain ⟨node, hnode, _⟩ := hok rfl
        exact hnone _ (Vm.tells_methodIsGeneric.mpr ⟨node, hnode, rfl⟩)
      obtain ⟨node, hnode, hgeneric⟩ := Vm.tells_methodIsGeneric.mp hgeneric
      cases isGeneric with
      | false =>
          have hempty : node.typeParameters = [] := by simpa using hgeneric.symm
          exact .pure on.alike ⟨hm.later on.left, fun _ => rfl, fun _ =>
            ⟨node, hnode, fun _ => rfl, fun hne => absurd hempty hne⟩⟩
      | true =>
          have hne : node.typeParameters ≠ [] := by simpa using hgeneric.symm
          have hcount := Vm.tells_methodTypeParameterCount.mpr ⟨node, hnode, rfl⟩
          refine ((typeParameterCount_agrees on.alike (hm.later on.left)).weaken
            (fun _ _ _ hv => hv) fun hnone => absurd hcount (hnone _)).bind
            fun count u₁ u₂ on' hcount' => ?_
          cases hcount'.unique (hcount.later rfl on'.left.vm)
          have hlater := on.left.trans on'.left
          have hnode := on'.left.vm.arena.method hnode
          refine (inflateOverRoot_agrees on'.alike (hm.later hlater) hnode hne).weaken ?_ ?_
          · rintro v w hlater' ⟨hshows, hover⟩
            exact ⟨hshows, (fun hfalse => by cases hfalse), fun _ =>
              ⟨node, hlater'.vm.arena.method hnode, fun hempty => absurd hempty hne,
                fun _ => hover⟩⟩
          · intro hno hok
            obtain ⟨node', hnode', hfill⟩ := hok rfl
            cases (hlater.vm.arena.method hnode').symm.trans hnode
            exact hno ((hfill hne).later hlater)

end Method

end VmMetadata
