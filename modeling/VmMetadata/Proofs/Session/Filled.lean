import VmMetadata.Proofs.Session.Closed

/-!
What a client gets who closes a class. The closed class is its definition with the types of the
arguments in the place of the type parameters; of several parameters of one name the first counts.
Everything else is as in the definition, but that the class is closed and has a type and members of
its own. Main statement: the client gets just this class, unless the class is no open definition or
takes another number of arguments; then the client is told so, and the machine is left as it was.
-/

namespace VmMetadata

open Query (Runs)

/-! ## The closed class -/

namespace Substitution

@[simp] theorem find?_empty (name : String) : empty.find? name = none :=
  rfl

/-- A name is none of the parameters, or it has the type at its first place. -/
theorem find?_cases (σ : Substitution) (arity : σ.names.length = σ.types.length) (name : String) :
    (σ.find? name = none ∧ name ∉ σ.names) ∨
      ∃ i type, σ.find? name = some type ∧ σ.names[i]? = some name ∧ name ∉ σ.names.take i ∧
        σ.types[i]? = some type := by
  unfold find?
  cases hidx : σ.names.idxOf? name with
  | none => exact Or.inl ⟨rfl, List.idxOf?_eq_none_iff.mp hidx⟩
  | some i =>
      obtain ⟨hi, hat, hbefore⟩ := List.findIdx?_eq_some_iff_getElem.mp hidx
      have hfilled := List.getElem?_eq_getElem (arity ▸ hi : i < σ.types.length)
      refine Or.inr ⟨i, _, hfilled, List.getElem?_eq_some_iff.mpr ⟨hi, by simpa using hat⟩,
        fun hmem => ?_, hfilled⟩
      obtain ⟨j, hj, hname⟩ := List.mem_take_iff_getElem.mp hmem
      exact hbefore j (by omega) (by simpa using hname)

end Substitution

namespace Arena

section

variable {a : Arena} {type : Handle} {n : TypeNode} (hn : a.type type = .ok n)
include hn

theorem substitute_var (hkind : n.kind = .var) (σ τ : Substitution) :
    a.substitute σ τ type = (σ.find? n.name).getD type := by
  simp only [substitute, hn, hkind]

theorem substitute_mvar (hkind : n.kind = .mvar) (σ τ : Substitution) :
    a.substitute σ τ type = (τ.find? n.name).getD type := by
  simp only [substitute, hn, hkind]

theorem substitute_of_ne (hvar : n.kind ≠ .var) (hmvar : n.kind ≠ .mvar) (σ τ : Substitution) :
    a.substitute σ τ type = type := by
  simp only [substitute, hn]

end

/-- The type stands for a type parameter of the name. -/
def IsParameter (a : Arena) (type : Handle) (name : String) : Prop :=
  ∃ n, a.type type = .ok n ∧ n.kind = .var ∧ n.name = name

/-- What becomes of a type of a definition. A parameter gives way to the argument at its place, which
is the first that has its name; any other type stays. -/
inductive Fills (a : Arena) (parameters : List String) (args : List Handle) (type : Handle) :
    Handle → Prop
  | argument {name : String} {i : Nat} {arg : Handle} (known : a.IsParameter type name)
      (place : parameters[i]? = some name) (first : name ∉ parameters.take i)
      (filled : args[i]? = some arg) : Fills a parameters args type arg
  | other (unknown : ∀ name ∈ parameters, ¬a.IsParameter type name) :
      Fills a parameters args type type

variable {a : Arena} {parameters : List String} {args : List Handle}

theorem IsParameter.unique {type : Handle} {name name' : String} (h : a.IsParameter type name)
    (h' : a.IsParameter type name') : name = name' := by
  obtain ⟨n, hn, _, rfl⟩ := h
  obtain ⟨m, hm, _, rfl⟩ := h'
  cases hn.symm.trans hm
  rfl

theorem fills_substitute (arity : parameters.length = args.length) {type : Handle}
    (htype : a.HasType type) :
    a.Fills parameters args type (a.substitute ⟨parameters, args⟩ .empty type) := by
  obtain ⟨n, hn⟩ := htype
  by_cases hvar : n.kind = .var
  · have hparameter : a.IsParameter type n.name := ⟨n, hn, hvar, rfl⟩
    rw [substitute_var hn hvar]
    rcases Substitution.find?_cases ⟨parameters, args⟩ arity n.name with
      ⟨hfind, hunknown⟩ | ⟨i, arg, hfind, place, first, filled⟩
    · rw [hfind]
      refine .other fun name hname h => hunknown ?_
      rwa [h.unique hparameter] at hname
    · rw [hfind]
      exact .argument hparameter place first filled
  · have hsame : a.substitute ⟨parameters, args⟩ .empty type = type := by
      by_cases hmvar : n.kind = .mvar
      · rw [substitute_mvar hn hmvar, Substitution.find?_empty, Option.getD_none]
      · exact substitute_of_ne hn hvar hmvar _ _
    rw [hsame]
    refine .other fun name _ ⟨m, hm, hvar', _⟩ => hvar ?_
    cases hn.symm.trans hm
    exact hvar'

/-- The field `g` is the field `f` with another type. -/
def FillsField (a : Arena) (parameters : List String) (args : List Handle) (f g : Handle) : Prop :=
  ∃ n type, a.field f = .ok n ∧ a.Fills parameters args n.type type ∧
    a.field g = .ok { n with type }

end Arena

/-- A call about any object of a kind. -/
abbrev Inquiry := (r : Reply) × (Handle → Call r)

/-- What a closed class has from its definition. -/
def Inquiry.inherited : List Inquiry :=
  [⟨_, .className⟩, ⟨_, .classNamespace⟩, ⟨_, .classImage⟩, ⟨_, .classParent⟩,
    ⟨_, .classDeclaringType⟩, ⟨_, .classInterfaces⟩, ⟨_, .classFlags⟩, ⟨_, .classIsValueType⟩,
    ⟨_, .classIsEnum⟩, ⟨_, .classIsInterface⟩]

open Access (classNode_eq_ok typeNode_eq_ok)

namespace Vm

/-- The method `k` of the class `r` is the method `m` with other types. Its body is that of `m`,
unless it has type parameters of its own. -/
def FillsMethod (vm : Vm) (r : Handle) (parameters : List String) (args : List Handle)
    (m k : Handle) : Prop :=
  ∃ n returnType ps, vm.arena.method m = .ok n ∧
    vm.arena.Fills parameters args n.returnType returnType ∧
    List.Forall₂ (fun p q => q.1 = p.1 ∧ vm.arena.Fills parameters args p.2 q.2)
      n.parameters ps ∧
    vm.arena.method k =
      .ok { n with «class» := r, returnType, parameters := ps, inflated := true } ∧
    vm.Tells (.methodPointer k) (if n.typeParameters = [] then n.address.getD 0 else 0)

/-- The class `r` is the definition `d` at `c` with its type parameters filled; the types that fill
them have the names. -/
structure FillsClass (vm : Vm) (c : Handle) (d : ClassNode) (args : List Handle)
    (names : List String) (r : Handle) : Prop where
  isGeneric : vm.Tells (.classIsGeneric r) false
  isInflated : vm.Tells (.classIsInflated r) true
  type : ∃ type, vm.Tells (.classType r) type ∧
    vm.Tells (.typeName type) (genericName d.fullName names) ∧
    vm.Tells (.typeKind type) TypeKind.genericInst.tag ∧ vm.Tells (.typeClass type) r
  inherited : ∀ x ∈ Inquiry.inherited, ∀ v, vm.Tells (x.2 r) v ↔ vm.Tells (x.2 c) v
  fields : ∃ gs, vm.Tells (.classFields r) gs ∧
    List.Forall₂ (vm.arena.FillsField d.typeParameters args) d.fields gs
  methods : ∃ ks, vm.Tells (.classMethods r) ks ∧
    List.Forall₂ (vm.FillsMethod r d.typeParameters args) d.methods ks

/-- What is inherited does not depend on the members, the type and the definition. -/
theorem tells_inherited (vm : Vm) {x : Inquiry} (hx : x ∈ Inquiry.inherited) :
    ∃ part : ClassNode → x.1.Value,
      (∀ h v, vm.Tells (x.2 h) v ↔ ∃ n, vm.arena.class_ h = .ok n ∧ v = part n) ∧
      ∀ (n : ClassNode) definition type fields methods,
        part { n with definition, type, fields, methods } = part n := by
  simp only [Inquiry.inherited, List.mem_cons, List.not_mem_nil, or_false] at hx
  -- each of the calls reads one part of the node
  rcases hx with rfl | rfl | rfl | rfl | rfl | rfl | rfl | rfl | rfl | rfl
  · exact ⟨ClassNode.name, fun _ _ => told_iff _ classNode_eq_ok, fun _ _ _ _ _ => rfl⟩
  · exact ⟨ClassNode.namespace, fun _ _ => told_iff _ classNode_eq_ok, fun _ _ _ _ _ => rfl⟩
  · exact ⟨ClassNode.image, fun _ _ => told_iff _ classNode_eq_ok, fun _ _ _ _ _ => rfl⟩
  · exact ⟨ClassNode.parent, fun _ _ => told_iff _ classNode_eq_ok, fun _ _ _ _ _ => rfl⟩
  · exact ⟨ClassNode.declaring, fun _ _ => told_iff _ classNode_eq_ok, fun _ _ _ _ _ => rfl⟩
  · exact ⟨ClassNode.interfaces, fun _ _ => told_iff _ classNode_eq_ok, fun _ _ _ _ _ => rfl⟩
  · exact ⟨ClassNode.flags, fun _ _ => told_iff _ classNode_eq_ok, fun _ _ _ _ _ => rfl⟩
  · exact ⟨fun n => n.kind == .struct || n.kind == .enum,
      fun _ _ => told_iff (fun n : ClassNode => n.kind == .struct || n.kind == .enum)
        classNode_eq_ok, fun _ _ _ _ _ => rfl⟩
  · exact ⟨fun n => n.kind == .enum,
      fun _ _ => told_iff (fun n : ClassNode => n.kind == .enum) classNode_eq_ok,
      fun _ _ _ _ _ => rfl⟩
  · exact ⟨fun n => n.kind == .interface,
      fun _ _ => told_iff (fun n : ClassNode => n.kind == .interface) classNode_eq_ok,
      fun _ _ _ _ _ => rfl⟩

section

variable {vm : Vm} {c r : Handle} {args : List Handle} {d n : ClassNode}

theorem fillsField_of_closed (wf : vm.WellFormed) (arity : d.typeParameters.length = args.length)
    {f g : Handle} (h : vm.arena.ClosedField ⟨d.typeParameters, args⟩ f g) :
    vm.arena.FillsField d.typeParameters args f g := by
  obtain ⟨n, hn, hg⟩ := h
  exact ⟨n, _, hn, Arena.fills_substitute arity (wf.arena.field hn), hg⟩

theorem fillsMethod_of_closed (wf : vm.WellFormed) (h : vm.arena.ClosedOver c args d r n)
    {m k : Handle} (hm : vm.arena.ClosedMethod r ⟨d.typeParameters, args⟩ m k) :
    vm.FillsMethod r d.typeParameters args m k := by
  obtain ⟨node, hnode, hk⟩ := hm
  obtain ⟨_, hreturn, hparameters⟩ := wf.arena.method hnode
  refine ⟨node, _, _, hnode, Arena.fills_substitute h.arity hreturn, ?_, hk, ?_⟩
  · refine List.forall₂_map_right_iff.mpr (List.forall₂_same.mpr fun p hp => ⟨rfl, ?_⟩)
    exact Arena.fills_substitute h.arity (hparameters p hp)
  · have hpointer := tells_methodPointer hk h.result
    rw [h.isOpen_result, Bool.false_or] at hpointer
    by_cases hempty : node.typeParameters = []
    · simpa [MethodNode.closed, MethodNode.substituted, hempty] using hpointer
    · simpa [MethodNode.closed, MethodNode.substituted, hempty] using hpointer

/-- A class that is closed over types is its definition with the type parameters filled. -/
theorem fillsClass_of_closedOver (wf : vm.WellFormed) (h : vm.arena.ClosedOver c args d r n)
    {names : List String} (hnames : List.Forall₂ vm.arena.NamesType args names) :
    vm.FillsClass c d args names r where
  isGeneric := tells_classIsGeneric.mpr ⟨n, h.result, h.isOpen_result.symm⟩
  isInflated := by
    refine (told_iff (fun n : ClassNode => !n.definition.isNull) classNode_eq_ok).mpr
      ⟨n, h.result, ?_⟩
    have hne : n.definition ≠ .null := by
      rw [h.shape]
      exact Arena.ne_null_of_get? (Arena.class_eq_ok.mp h.definition)
    rw [Bool.eq_false_iff.mpr fun hnull => hne (Handle.isNull_iff.mp hnull)]
    rfl
  type := by
    obtain ⟨t, names', ht, hclass, hkind, hnames', hname⟩ := h.type
    have hsame : names' = names := Arena.namesTypes_unique hnames' hnames
    exact ⟨n.type, tells_classType.mpr ⟨n, h.result, rfl⟩, tells_typeName.mpr ⟨t, ht, by rw [hname, hsame]⟩,
      (told_iff (fun t : TypeNode => t.kind.tag) typeNode_eq_ok).mpr ⟨t, ht, by rw [hkind]⟩,
      (told_iff TypeNode.class typeNode_eq_ok).mpr ⟨t, ht, hclass.symm⟩⟩
  inherited := by
    intro x hx v
    obtain ⟨part, htells, hpart⟩ := tells_inherited vm hx
    have hsame : part n = part d := by
      rw [h.shape]
      exact hpart d c n.type n.fields n.methods
    rw [htells, htells]
    constructor
    · rintro ⟨m, hm, rfl⟩
      cases hm.symm.trans h.result
      exact ⟨d, h.definition, hsame⟩
    · rintro ⟨m, hm, rfl⟩
      cases hm.symm.trans h.definition
      exact ⟨n, h.result, hsame.symm⟩
  fields := ⟨n.fields, (told_iff ClassNode.fields classNode_eq_ok).mpr ⟨n, h.result, rfl⟩,
    h.fields.imp fun _ _ hf => fillsField_of_closed wf h.arity hf⟩
  methods := ⟨n.methods, tells_classMethods.mpr ⟨n, h.result, rfl⟩,
    h.methods.imp fun _ _ hm => fillsMethod_of_closed wf h hm⟩

end

end Vm

/-! ## What is read before anything is made -/

section

variable {s : Session}

/-- A call that reads leaves the machine as it is. -/
theorem Query.Runs.reads (hs : s.Sound) {c : Call r} (hc : c.isStable = true) :
    Runs (Query.ask c) s (fun a t => t.vm.Tells c a ∧ t.vm = s.vm) (∀ a, ¬s.vm.Tells c a) :=
  (Runs.ask hs (Query.tells_steps s.vm hc)).weaken (fun _ _ _ ha => ha.1) id

namespace Class

variable (hs : s.Sound) {c : Class} (hc : s.Shows c)
include hs hc

theorem typeName_reads {name : String} (hname : s.vm.TellsTypeName c.handle name) :
    Runs c.typeName s (fun text t => text = name ∧ t.vm = s.vm) False := by
  obtain ⟨type, hne, htype, htext⟩ := hname
  have hview : Runs c.type s (fun v t => t.ShowsAt (.classType c.handle) v ∧ t.vm = s.vm)
      False := by
    refine .rememberAnd (f := .classType) hs hc.2 rfl (fun _ _ ht => ht) ?_
    refine ((Runs.reads hs rfl).weaken (fun _ _ _ hk => hk) fun hno => hno _ htype).bind
      fun k t later sound hk => ?_
    have hk' := hk.1.unique (htype.later rfl later.vm)
    refine (Query.Agree.viewAlone (.refl sound) .type k).runs.weaken
      (fun v u later' hv => ?_) fun hnull => hne (hk'.symm.trans hnull)
    obtain ⟨⟨hshows, rfl⟩, hvm⟩ := hv
    exact ⟨⟨hshows, hk.1.later rfl later'.vm⟩, hvm.trans hk.2⟩
  refine hview.bind fun v t later sound hv => ?_
  have htext : t.vm.Tells (.typeName v.handle) name := by
    rw [hv.1.2.unique (htype.later rfl later.vm)]
    exact htext.later rfl later.vm
  have hread : Runs v.name t (fun text u => u.vm.Tells (.typeName v.handle) text ∧ u.vm = t.vm)
      (∀ text, ¬t.vm.Tells (.typeName v.handle) text) :=
    .rememberAnd (f := .typeName) sound hv.1.1.2 rfl (fun _ _ ht => ht) (Runs.reads sound rfl)
  refine hread.weaken (fun text u later' htold => ?_) fun hno => hno _ htext
  exact ⟨htold.1.unique (htext.later rfl later'.vm), htold.2.trans hv.2⟩

variable {d : ClassNode} (hd : s.vm.arena.class_ c.handle = .ok d)
include hd

theorem isGeneric_reads :
    Runs c.isGeneric s (fun isOpen t => isOpen = d.isOpen ∧ t.vm = s.vm) False := by
  have htold := Vm.tells_classIsGeneric.mpr ⟨d, hd, rfl⟩
  have hread : Runs c.isGeneric s
      (fun isOpen t => t.vm.Tells (.classIsGeneric c.handle) isOpen ∧ t.vm = s.vm)
      (∀ isOpen, ¬s.vm.Tells (.classIsGeneric c.handle) isOpen) :=
    .rememberAnd (f := .classIsGeneric) hs hc.2 rfl (fun _ _ ht => ht) (Runs.reads hs rfl)
  exact hread.weaken (fun _ _ later h => ⟨h.1.unique (htold.later rfl later.vm), h.2⟩)
    fun hno => hno _ htold

theorem typeParameterCount_reads :
    Runs c.typeParameterCount s
      (fun count t => count = word32 d.typeParameters.length ∧ t.vm = s.vm) False := by
  have htold := Vm.tells_classParameterCount.mpr ⟨d, hd, rfl⟩
  have hread : Runs c.typeParameterCount s
      (fun count t => t.vm.Tells (.classParameterCount c.handle) count ∧ t.vm = s.vm)
      (∀ count, ¬s.vm.Tells (.classParameterCount c.handle) count) :=
    .rememberAnd (f := .classParameterCount) hs hc.2 rfl (fun _ _ ht => ht) (Runs.reads hs rfl)
  exact hread.weaken (fun _ _ later h => ⟨h.1.unique (htold.later rfl later.vm), h.2⟩)
    fun hno => hno _ htold

variable {name : String} (hname : s.vm.TellsTypeName c.handle name) (cs : List Class)
include hname

/-- What is no open definition is refused before anything is made. -/
theorem inflate_of_closed (hclosed : d.isOpen = false) :
    ∃ t, c.inflate cs s = .error (.notGeneric name) t ∧ t.vm = s.vm := by
  obtain ⟨_, t, hrun, later, sound, rfl, hvm⟩ := (typeName_reads hs hc hname).exists_ok
  obtain ⟨_, u, hrun', _, _, rfl, hvm'⟩ :=
    (isGeneric_reads sound (hc.later later) (later.vm.arena.class_ hd)).exists_ok
  refine ⟨u, ?_, hvm'.trans hvm⟩
  rw [Class.inflate, Query.bind_ok hrun, Query.bind_ok hrun', hclosed]
  rfl

/-- So is a wrong number of arguments. -/
theorem inflate_of_arity (hopen : d.isOpen = true)
    (harity : cs.length ≠ word32 d.typeParameters.length) :
    ∃ t, c.inflate cs s =
      .error (.genericArity name (word32 d.typeParameters.length) cs.length) t ∧ t.vm = s.vm := by
  obtain ⟨_, t, hrun, later, sound, rfl, hvm⟩ := (typeName_reads hs hc hname).exists_ok
  obtain ⟨_, u, hrun', later', sound', rfl, hvm'⟩ :=
    (isGeneric_reads sound (hc.later later) (later.vm.arena.class_ hd)).exists_ok
  have later := later.trans later'
  obtain ⟨_, v, hrun'', _, _, rfl, hvm''⟩ :=
    (typeParameterCount_reads sound' (hc.later later) (later.vm.arena.class_ hd)).exists_ok
  refine ⟨v, ?_, hvm''.trans (hvm'.trans hvm)⟩
  rw [Class.inflate, Query.bind_ok hrun, Query.bind_ok hrun', hopen]
  change ((c.typeParameterCount >>= _) u : EStateM.Result Error Session Class) = _
  rw [Query.bind_ok hrun'']
  unfold checkArity
  rw [if_neg harity]
  rfl

end Class

end

/-! ## What the client gets -/

/-- The machine tells the name of a described class. -/
theorem ClassDescription.LiesAt.tellsTypeName {vm : Vm} {c : ClassDescription} {h : Handle}
    {n : ClassNode} (hn : c.LiesAt vm.arena h n) : vm.TellsTypeName h c.typeName := by
  obtain ⟨type, htype, hname⟩ := hn.type
  exact ⟨n.type, Arena.ne_null_of_get? (Arena.type_eq_ok.mp htype),
    Vm.tells_classType.mpr ⟨n, hn.node, rfl⟩, Vm.tells_typeName.mpr ⟨type, htype, hname.symm⟩⟩

namespace Session

variable {s t : Session} {cs : List Class}

theorem TypesOf.exists (wf : s.vm.WellFormed) (hcs : ∀ c ∈ cs, s.vm.arena.HasClass c.handle) :
    ∃ types, s.TypesOf cs types :=
  Access.exists_forall₂ fun c hc => by
    obtain ⟨type, htype, _⟩ := wf.tells_classType (hcs c hc)
    exact ⟨type, htype⟩

/-- The types of the classes have the names. -/
def TypeNamesOf (s : Session) (cs : List Class) (names : List String) : Prop :=
  List.Forall₂ (fun c name => s.vm.TellsTypeName c.handle name) cs names

theorem TypeNamesOf.exists (wf : s.vm.WellFormed)
    (hcs : ∀ c ∈ cs, s.vm.arena.HasClass c.handle) : ∃ names, s.TypeNamesOf cs names :=
  Access.exists_forall₂ fun c hc => wf.tellsTypeName (hcs c hc)

theorem TypeNamesOf.unique {names names' : List String} (h : s.TypeNamesOf cs names)
    (h' : s.TypeNamesOf cs names') : names = names' :=
  List.right_unique_forall₂' (fun _ _ _ hn hn' => hn.unique hn') h h'

theorem TypeNamesOf.later {names : List String} (h : s.TypeNamesOf cs names) (hst : s.Later t) :
    t.TypeNamesOf cs names :=
  h.imp fun _ _ hname => hname.later hst.vm

theorem TypeNamesOf.namesType {types : List Handle} {names : List String}
    (h : s.TypeNamesOf cs names) (htypes : s.TypesOf cs types) :
    List.Forall₂ s.vm.arena.NamesType types names := by
  refine forall₂_compose htypes.flip (fun type c name htype hname => ?_) h
  obtain ⟨type', _, htype', htext⟩ := hname
  cases htype'.unique htype
  obtain ⟨n, hn, hname⟩ := Vm.tells_typeName.mp htext
  exact ⟨n, hn, hname.symm⟩

/-- Whatever the client does from now on, the class `r` is the definition `d` at `c` with its type
parameters filled, and its getters say so. -/
def HoldsClosed (s : Session) (c : Handle) (d : ClassNode) (args : List Handle)
    (names : List String) (r : Class) : Prop :=
  ∀ t, s.History t → t.vm.FillsClass c d args names r.handle ∧
    (∃ u, r.isGeneric t = .ok false u) ∧ (∃ u, r.isInflated t = .ok true u) ∧
    ∃ u, r.typeName t = .ok (genericName d.fullName names) u

theorem getters_of_fillsClass (hs : s.Sound) {r : Class} (hr : s.Shows r) {c : Handle}
    {d : ClassNode} {args : List Handle} {names : List String}
    (h : s.vm.FillsClass c d args names r.handle) :
    (∃ u, r.isGeneric s = .ok false u) ∧ (∃ u, r.isInflated s = .ok true u) ∧
      ∃ u, r.typeName s = .ok (genericName d.fullName names) u := by
  have hinflated : Runs r.isInflated s
      (fun b t => t.vm.Tells (.classIsInflated r.handle) b ∧ t.vm = s.vm)
      (∀ b, ¬s.vm.Tells (.classIsInflated r.handle) b) :=
    .rememberAnd (f := .classIsInflated) hs hr.2 rfl (fun _ _ ht => ht) (Runs.reads hs rfl)
  obtain ⟨n, hn, hopen⟩ := Vm.tells_classIsGeneric.mp h.isGeneric
  obtain ⟨type, htype, hname, _⟩ := h.type
  have hne : type ≠ .null := by
    obtain ⟨m, hm, _⟩ := Vm.tells_typeName.mp hname
    exact Arena.ne_null_of_get? (Arena.type_eq_ok.mp hm)
  refine ⟨?_, ?_, ?_⟩
  · obtain ⟨_, u, hrun, _, _, rfl, _⟩ := (Class.isGeneric_reads hs hr hn).exists_ok
    exact ⟨u, hopen ▸ hrun⟩
  · obtain ⟨b, u, hrun, later, _, hb, _⟩ :=
      (hinflated.weaken (fun _ _ _ hb => hb) fun hno => hno _ h.isInflated).exists_ok
    cases hb.unique (h.isInflated.later rfl later.vm)
    exact ⟨u, hrun⟩
  · obtain ⟨_, u, hrun, _, _, rfl, _⟩ :=
      (Class.typeName_reads hs hr ⟨type, hne, htype, hname⟩).exists_ok
    exact ⟨u, hrun⟩

end Session

/-- A class that can be closed over the classes is closed over their types. -/
theorem Class.inflate_closes {s : Session} (hs : s.Sound) {c : Class} (hc : s.Shows c)
    {cs : List Class} (hcs : ∀ a ∈ cs, s.Shows a) {d : ClassNode}
    (hd : s.vm.arena.class_ c.handle = .ok d) {args : List Handle} (hargs : s.TypesOf cs args)
    (can : s.CanClose c.handle cs) :
    Runs (c.inflate cs) s (fun r t => t.Shows r ∧ ∃ n,
      t.vm.arena.ClosedOver c.handle args d r.handle n) False := by
  refine (inflate_agrees (.refl hs) hc hcs).runs.weaken ?_ fun hno => hno can
  rintro r t later ⟨hr, args', d', n, hargs', hclosed⟩
  cases hclosed.definition.symm.trans (later.vm.arena.class_ hd)
  cases hargs'.unique (hargs.later later)
  exact ⟨hr, n, hclosed⟩

/-- Closing a class that is no open definition fails, and so does closing it over another number of
arguments than it counts type parameters; the machine is left as it was. Otherwise it yields the
definition with its type parameters filled, unless these are too many to be counted. -/
theorem Class.inflate_exact {snapshot : Snapshot} {vm : Vm} {config : Config} {s t : Session}
    (hvm : Vm.ofSnapshot snapshot = .ok vm) (hattach : Session.attach vm config = .ok s)
    (hreflection : (firstNamed? "System" "Type" snapshot.corlibSite.described).isSome)
    (history : s.History t) {c : Class} (hc : t.Shows c) {d : ClassNode}
    (hd : t.vm.arena.class_ c.handle = .ok d) {cs : List Class}
    (hcs : ∀ a ∈ cs, t.Shows a ∧ t.vm.arena.HasClass a.handle) :
    ∃ name args names, t.vm.TellsTypeName c.handle name ∧ t.TypesOf cs args ∧
      t.TypeNamesOf cs names ∧
      (d.isOpen = false →
        ∃ u, c.inflate cs t = .error (.notGeneric name) u ∧ u.vm = t.vm) ∧
      (d.isOpen = true → cs.length ≠ word32 d.typeParameters.length →
        ∃ u, c.inflate cs t =
          .error (.genericArity name (word32 d.typeParameters.length) cs.length) u ∧
          u.vm = t.vm) ∧
      (d.isOpen = true → cs.length = word32 d.typeParameters.length →
        if d.typeParameters.length < 0x1_0000_0000 then
          ∃ r u, c.inflate cs t = .ok r u ∧ u.Shows r ∧ u.HoldsClosed c.handle d args names r ∧
            ∀ desc, snapshot.Describes c.handle desc → d.fullName = desc.fullName ∧
              ∀ w, u.History w → ∃ ks, w.vm.Tells (.classMethods r.handle) ks ∧
                List.Forall₂ (fun (m : MethodDescription) k =>
                  w.vm.Tells (.methodPointer k) (m.closedAddress?.getD 0)) desc.methods ks
        else ∃ u, c.inflate cs t =
          .error (.accessor (.wrongArity d.fullName d.typeParameters.length)) u) := by
  have hs := Session.On.of_attach hvm hattach
  obtain ⟨later, sound⟩ := history.sound hs
  have ht := hs.later later sound
  have hshown : ∀ a ∈ cs, t.Shows a := fun a ha => (hcs a ha).1
  have hclasses : ∀ a ∈ cs, t.vm.arena.HasClass a.handle := fun a ha => (hcs a ha).2
  obtain ⟨name, hname⟩ := sound.vm.tellsTypeName ⟨d, hd⟩
  obtain ⟨args, hargs⟩ := Session.TypesOf.exists sound.vm hclasses
  obtain ⟨names, hnames⟩ := Session.TypeNamesOf.exists sound.vm hclasses
  refine ⟨name, args, names, hname, hargs, hnames, inflate_of_closed sound hc hd hname cs,
    inflate_of_arity sound hc hd hname cs, fun hopen harity => ?_⟩
  split
  · rename_i hcount
    have hlength := harity.trans (word32_eq_self_iff.mpr hcount)
    have hclose : t.CanClose c.handle cs :=
      ⟨⟨hlength ▸ hcount, hclasses, ht.knowsClass_iff.mpr hreflection⟩, d, hd, hopen, hlength.symm⟩
    obtain ⟨r, u, hrun, later', sound', hr, n, hclosed⟩ :=
      (inflate_closes sound hc hshown hd hargs hclose).exists_ok
    have hu := ht.later later' sound'
    refine ⟨r, u, hrun, hr, fun w hw => ?_, fun desc hdesc => ⟨?_, fun w hw => ?_⟩⟩
    · obtain ⟨later'', sound''⟩ := hw.sound hu
      have hfilled := (hnames.later (later'.trans later'')).namesType
        (hargs.later (later'.trans later''))
      have hfills := Vm.fillsClass_of_closedOver sound''.vm
        (hclosed.later later''.vm.arena sound'.vm.arena) hfilled
      exact ⟨hfills, Session.getters_of_fillsClass sound'' (hr.later later'') hfills⟩
    · obtain ⟨n', hn'⟩ := ht.liesAt hdesc
      cases hn'.node.symm.trans hd
      exact hn'.fullName
    · obtain ⟨later'', sound''⟩ := hw.sound hu
      obtain ⟨n', hn'⟩ := (hu.later later'' sound'').liesAt hdesc
      have hclosed := hclosed.later later''.vm.arena sound'.vm.arena
      cases hclosed.definition.symm.trans hn'.node
      refine ⟨n.methods, Vm.tells_classMethods.mpr ⟨n, hclosed.result, rfl⟩, ?_⟩
      exact forall₂_compose hn'.methods
        (fun m k j ⟨ret, ps, hk⟩ hj => (Vm.tells_closedMethod hk hclosed hj).2) hclosed.methods
  · rename_i hcount
    have hne : d.typeParameters.length ≠ cs.length := fun heq =>
      hcount (word32_eq_self_iff.mp (harity.symm.trans heq.symm))
    obtain ⟨u, hrun, _⟩ := inflate_fails ht hc hd hopen harity.symm hshown hclasses
      ((Snapshot.inflateError?_eq hreflection _).trans (congrArg _ (if_neg hne)))
    exact ⟨u, hrun⟩

theorem Class.inflate_exact_mapping :
    let s := Session.new Snapshot.mapping.machine ⟨2020, 3, 1, some "f1"⟩ .current
    let c : Class := ⟨Arena.handleAt 2, s.notebook.next⟩
    let v := (Query.view .class_ c.handle).leaves s
    let root : Class := ⟨Arena.handleAt 6, v.notebook.next⟩
    let t := (Query.view .class_ root.handle).leaves v
    s.History t ∧ ∃ r u, c.inflate [root] t = .ok r u ∧ (∃ x, r.isGeneric u = .ok false x) ∧
      ∃ x, r.typeName u = .ok "Pool<System.Object>" x := by
  intro s c v root t
  have hvm := Vm.ofSnapshot_machine (s := Snapshot.mapping) (Or.inr rfl)
  have hattach : Session.attach Snapshot.mapping.machine = .ok s :=
    Session.attach_eq_ok.mpr ⟨_, _, by decide +kernel, rfl⟩
  have history : s.History t :=
    (Session.History.start.view .class_ c.handle).view .class_ root.handle
  have hs := Session.On.of_attach hvm hattach
  obtain ⟨later, sound⟩ := history.sound hs
  have ht := hs.later later sound
  have hpool : Snapshot.mapping.Describes c.handle Snapshot.mapping.sites[0].described[0] :=
    Snapshot.describes_of_site (i := 0) (by decide) (by decide +kernel)
  have hobject : Snapshot.mapping.Describes root.handle Snapshot.mapping.sites[1].described[0] :=
    Snapshot.describes_of_site (i := 1) (by decide) (by decide +kernel)
  obtain ⟨d, hd⟩ := ht.liesAt hpool
  obtain ⟨n, hn⟩ := ht.liesAt hobject
  have hc : t.Shows c := ⟨by decide +kernel, by decide +kernel⟩
  have hargument : ∀ a ∈ [root], t.Shows a ∧ t.vm.arena.HasClass a.handle := by
    simpa using ⟨⟨by decide +kernel, by decide +kernel⟩, n, hn.node⟩
  obtain ⟨_, args, names, _, _, hnames, _, _, hclose⟩ :=
    Class.inflate_exact hvm hattach (by decide +kernel) history hc hd.node hargument
  have hname : Snapshot.mapping.sites[1].described[0].typeName = "System.Object" := by
    decide +kernel
  have hroot : t.TypeNamesOf [root] ["System.Object"] := .cons (hname ▸ hn.tellsTypeName) .nil
  have hclose := hclose (hd.isOpen_eq.trans (by decide +kernel))
    (hd.typeParameters.symm ▸ by decide +kernel)
  rw [if_pos (hd.typeParameters.symm ▸ by decide +kernel)] at hclose
  obtain ⟨r, u, hrun, _, hclosed, hdescribed⟩ := hclose
  obtain ⟨_, hgeneric, _, htypeName⟩ := hclosed u .start
  refine ⟨history, r, u, hrun, hgeneric, ?_⟩
  have hfull : genericName d.fullName names = "Pool<System.Object>" := by
    rw [hnames.unique hroot, hd.fullName]
    decide +kernel
  exact hfull ▸ htypeName

end VmMetadata
