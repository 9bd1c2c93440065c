import VmMetadata.Proofs.Dump.Declaration
import VmMetadata.Proofs.Machine.Answer

/-!
In a well-formed machine every look that makes up a declaration finds something: the nodes that it
is passed on to are of the right kind. Main statement: every class has its declaration.
-/

namespace VmMetadata

namespace Look

variable {v : Vm} {h : Handle}

theorem exists_bind {x : Look α} {f : α → Look β} (hx : ∃ a, x.Finds v a)
    (hf : ∀ a, x.Finds v a → ∃ b, (f a).Finds v b) : ∃ b, (x >>= f).Finds v b := by
  obtain ⟨a, ha⟩ := hx
  obtain ⟨b, hb⟩ := hf a ha
  exact ⟨b, finds_bind.mpr ⟨a, ha, hb⟩⟩

theorem exists_pure (a : α) : ∃ b, (pure a : Look α).Finds v b :=
  ⟨a, finds_pure.mpr rfl⟩

theorem exists_mapM {β γ : Type} {f : β → Look γ} {bs : List β}
    (hf : ∀ b ∈ bs, ∃ c, (f b).Finds v c) : ∃ cs, (bs.mapM f).Finds v cs := by
  obtain ⟨cs, hcs⟩ := Access.exists_forall₂ hf
  exact ⟨cs, finds_mapM.mpr hcs⟩

/-! ## Parts of nodes -/

theorem finds_class {n : ClassNode} (hn : v.arena.class_ h = .ok n) (c : Call r)
    (part : ClassNode → r.Value)
    (hanswer : Vm.answer c = (do pure (part (← Access.classNode h))))
    (hc : c.isStable = true) : (ask c hc).Finds v (part n) := by
  change Vm.answer c v = _
  rw [hanswer]
  exact (Vm.told_iff part Access.classNode_eq_ok).mpr ⟨n, hn, rfl⟩

theorem finds_field {n : FieldNode} (hn : v.arena.field h = .ok n) (c : Call r)
    (part : FieldNode → r.Value)
    (hanswer : Vm.answer c = (do pure (part (← Access.fieldNode h))))
    (hc : c.isStable = true) : (ask c hc).Finds v (part n) := by
  change Vm.answer c v = _
  rw [hanswer]
  exact (Vm.told_iff part Access.fieldNode_eq_ok).mpr ⟨n, hn, rfl⟩

theorem finds_method {n : MethodNode} (hn : v.arena.method h = .ok n) (c : Call r)
    (part : MethodNode → r.Value)
    (hanswer : Vm.answer c = (do pure (part (← Access.methodNode h))))
    (hc : c.isStable = true) : (ask c hc).Finds v (part n) := by
  change Vm.answer c v = _
  rw [hanswer]
  exact (Vm.told_iff part Access.methodNode_eq_ok).mpr ⟨n, hn, rfl⟩

theorem exists_typeName (ht : v.arena.HasType h) :
    ∃ name, (ask (.typeName h) rfl).Finds v name := by
  obtain ⟨n, hn⟩ := ht
  exact ⟨n.name, Vm.tells_typeName.mpr ⟨n, hn, rfl⟩⟩

/-- The type that a call names has a name to go on with. -/
theorem exists_typeNameThen {c : Call .handle} {hc : c.isStable = true} {f : String → Look β}
    (hasks : (ask c hc).Finds v h) (ht : v.arena.HasType h)
    (hf : ∀ name, ∃ b, (f name).Finds v b) :
    ∃ b, (object c hc >>= fun t => ask (.typeName t) rfl >>= f).Finds v b := by
  obtain ⟨n, hn⟩ := ht
  have hne := Arena.ne_null_of_get? (Arena.type_eq_ok.mp hn)
  refine exists_bind ⟨h, finds_object.mpr ⟨hasks, hne⟩⟩ fun t htype => ?_
  cases (finds_object.mp htype).1.unique hasks
  exact exists_bind (exists_typeName ⟨n, hn⟩) fun name _ => hf name

/-! ## Fields -/

section

variable {n : FieldNode} (hn : v.arena.field h = .ok n)
include hn

theorem finds_fieldFlag {bit : UInt32} {set : Bool} (hset : (n.flags &&& bit != 0) = set) :
    (fieldFlag h bit).Finds v set :=
  finds_bind.mpr ⟨_, finds_field hn (.fieldFlags h) FieldNode.flags rfl rfl, finds_pure.mpr hset.symm⟩

theorem exists_fieldModifiers : ∃ text, (fieldModifiers h).Finds v text := by
  refine exists_bind ⟨_, finds_fieldFlag hn rfl⟩ fun isLiteral _ => ?_
  cases isLiteral with
  | true => exact exists_pure _
  | false =>
      refine exists_bind ⟨_, finds_fieldFlag hn rfl⟩ fun isStatic _ => ?_
      exact exists_bind ⟨_, finds_fieldFlag hn rfl⟩ fun isReadOnly _ => exists_pure _

theorem exists_fieldPlace : ∃ text, (fieldPlace h).Finds v text := by
  refine exists_bind ⟨_, finds_fieldFlag hn rfl⟩ fun isLiteral _ => ?_
  cases isLiteral with
  | true => exact exists_pure _
  | false =>
      exact exists_bind ⟨_, finds_field hn (.fieldOffset h) FieldNode.offset rfl rfl⟩
        fun _ _ => exists_pure _

theorem exists_fieldDeclaration (ht : v.arena.HasType n.type) :
    ∃ text, (fieldDeclaration h).Finds v text := by
  refine exists_bind (exists_fieldModifiers hn) fun modifiers _ => ?_
  refine exists_typeNameThen (finds_field hn (.fieldType h) FieldNode.type rfl rfl) ht
    fun type => ?_
  refine exists_bind ⟨_, finds_field hn (.fieldName h) FieldNode.name rfl rfl⟩ fun name _ => ?_
  exact exists_bind (exists_fieldPlace hn) fun place _ => exists_pure _

end

/-! ## Methods -/

section

variable {n : MethodNode} (hn : v.arena.method h = .ok n)
include hn

theorem finds_methodFlag {bit : UInt32} {set : Bool} (hset : (n.flags &&& bit != 0) = set) :
    (methodFlag h bit).Finds v set :=
  finds_bind.mpr ⟨_, finds_method hn (.methodFlags h) MethodNode.flags rfl rfl, finds_pure.mpr hset.symm⟩

theorem exists_dispatch : ∃ text, (dispatch h).Finds v text := by
  refine exists_bind ⟨_, finds_methodFlag hn rfl⟩ fun isAbstract _ => ?_
  cases isAbstract with
  | true => exact exists_pure _
  | false => exact exists_bind ⟨_, finds_methodFlag hn rfl⟩ fun _ _ => exists_pure _

theorem exists_ownParameters : ∃ text, (ownParameters h).Finds v text := by
  refine exists_bind ⟨_, Vm.tells_methodIsGeneric.mpr ⟨n, hn, rfl⟩⟩ fun isGeneric _ => ?_
  cases isGeneric with
  | true =>
      exact exists_bind ⟨_, Vm.tells_methodTypeParameterCount.mpr ⟨n, hn, rfl⟩⟩
        fun _ _ => exists_pure _
  | false => exact exists_pure _

theorem tells_parameter {k : Nat} {p : String × Handle} (hp : n.parameters[k]? = some p) :
    v.Tells (.methodParameterName h k) p.1 ∧ v.Tells (.methodParameterType h k) p.2 := by
  have hparameter : Access.parameter h k v = .ok p v := by
    change (Access.methodNode h >>= _) v = _
    rw [Access.bind_ok (Access.methodNode_eq_ok.mpr ⟨hn, rfl⟩), hp]
    rfl
  exact ⟨Access.bind_ok hparameter, Access.bind_ok hparameter⟩

/-- The parameters are those of the node, as far as they can be counted. -/
theorem finds_parameters (htypes : ∀ p ∈ n.parameters, v.arena.HasType p.2) :
    (parameters h).Finds v (counted n.parameters) := by
  refine finds_bind.mpr ⟨_, finds_method hn (.methodParameterCount h)
    (fun n => word32 n.parameters.length) rfl rfl,
    finds_parametersFrom.mpr ⟨length_counted _, fun k p hp => ?_⟩⟩
  have hp := getElem?_of_counted hp
  obtain ⟨t, ht⟩ := htypes p (List.mem_of_getElem? hp)
  rw [Nat.zero_add]
  exact ⟨(tells_parameter hn hp).1, (tells_parameter hn hp).2,
    Arena.ne_null_of_get? (Arena.type_eq_ok.mp ht)⟩

theorem exists_methodPlace (hc : v.arena.HasClass n.class) :
    ∃ text, (methodPlace h).Finds v text := by
  obtain ⟨d, hd⟩ := hc
  refine exists_bind ⟨_, finds_token?.mpr ⟨_, Vm.tells_methodPointer hn hd, rfl⟩⟩
    fun token? _ => ?_
  cases token? with
  | some _ => exact exists_pure _
  | none => exact exists_pure _

end

theorem exists_methodDeclaration (wf : v.arena.WellFormed) {n : MethodNode}
    (hn : v.arena.method h = .ok n) : ∃ text, (methodDeclaration h).Finds v text := by
  obtain ⟨hclass, hreturn, htypes⟩ := wf.method hn
  refine exists_bind ⟨_, finds_methodFlag hn rfl⟩ fun isStatic _ => ?_
  refine exists_bind (exists_dispatch hn) fun dispatch _ => ?_
  refine exists_typeNameThen (finds_method hn (.methodReturnType h) MethodNode.returnType rfl rfl)
    hreturn fun type => ?_
  refine exists_bind ⟨_, finds_method hn (.methodName h) MethodNode.name rfl rfl⟩ fun name _ => ?_
  refine exists_bind (exists_ownParameters hn) fun generic _ => ?_
  refine exists_bind ⟨_, finds_parameters hn htypes⟩ fun ps hps => ?_
  cases hps.unique (finds_parameters hn htypes)
  refine exists_bind (exists_mapM fun p hp => ?_) fun texts _ => ?_
  · exact exists_bind (exists_typeName (htypes p (mem_of_mem_counted hp))) fun _ _ => exists_pure _
  · exact exists_bind (exists_methodPlace hn hclass) fun place _ => exists_pure _

/-! ## Classes -/

section

variable {n : ClassNode} (hn : v.arena.class_ h = .ok n)
include hn

theorem finds_classFlag {bit : UInt32} {set : Bool} (hset : (n.flags &&& bit != 0) = set) :
    (classFlag h bit).Finds v set :=
  finds_bind.mpr ⟨_, finds_class hn (.classFlags h) ClassNode.flags rfl rfl, finds_pure.mpr hset.symm⟩

theorem exists_kind : ∃ k, (kind h).Finds v k := by
  refine exists_bind ⟨_, finds_class hn (.classIsInterface h) (·.kind == .interface) rfl rfl⟩
    fun isInterface _ => ?_
  cases isInterface with
  | true => exact exists_pure _
  | false =>
      refine exists_bind ⟨_, finds_class hn (.classIsEnum h) (·.kind == .enum) rfl rfl⟩
        fun isEnum _ => ?_
      cases isEnum with
      | true => exact exists_pure _
      | false =>
          refine exists_bind ⟨_, finds_class hn (.classIsValueType h)
            (fun n => n.kind == .struct || n.kind == .enum) rfl rfl⟩ fun isValueType _ => ?_
          cases isValueType <;> exact exists_pure _

theorem exists_modifierText (kind : ClassKind) :
    ∃ text, (modifierText h kind).Finds v text := by
  unfold modifierText
  split
  · refine exists_bind ⟨_, finds_classFlag hn rfl⟩ fun isAbstract _ => ?_
    exact exists_bind ⟨_, finds_classFlag hn rfl⟩ fun isSealed _ => exists_pure _
  · exact exists_pure _

/-- The objects that a class names are found, unless one of them is null. -/
theorem finds_objects_class (c : Call .handles) (part : ClassNode → List Handle)
    (hanswer : Vm.answer c = (do pure (part (← Access.classNode h))))
    (hc : c.isStable = true) (hnull : Handle.null ∉ part n) : (objects c hc).Finds v (part n) :=
  finds_objects.mpr ⟨finds_class hn c part hanswer hc, hnull⟩

end

variable (wf : v.arena.WellFormed)
include wf

theorem exists_className (hc : v.arena.HasClass h) : ∃ name, (className h).Finds v name := by
  obtain ⟨n, hn⟩ := hc
  obtain ⟨t, ht, _⟩ := (wf.class_ hn).type
  have hasks := finds_class hn (.classType h) ClassNode.type rfl rfl
  refine exists_bind ⟨_, finds_object.mpr ⟨hasks, Arena.ne_null_of_get?
    (Arena.type_eq_ok.mp ht)⟩⟩ fun type htype => ?_
  cases (finds_object.mp htype).1.unique hasks
  exact exists_typeName ⟨t, ht⟩

variable {n : ClassNode} (hn : v.arena.class_ h = .ok n)
include hn

theorem exists_parentName (kind : ClassKind) : ∃ names, (parentName h kind).Finds v names := by
  have hasks := finds_class hn (.classParent h) ClassNode.parent rfl rfl
  refine exists_bind ⟨_, hasks⟩ fun parent hparent => ?_
  cases hparent.unique hasks
  unfold Handle.nonNull?
  by_cases hnull : n.parent.isNull = true
  · rw [if_pos hnull]
    exact exists_pure _
  · rw [if_neg hnull]
    have hclass := (wf.class_ hn).parent.resolve_left fun h => hnull (Handle.isNull_iff.mpr h)
    simp only []
    split
    · exact exists_bind (exists_className wf hclass) fun _ _ => exists_pure _
    · exact exists_pure _

theorem exists_inherited (kind : ClassKind) : ∃ names, (inherited h kind).Finds v names := by
  have hinterfaces := (wf.class_ hn).interfaces
  have hfound := finds_objects_class hn (.classInterfaces h) ClassNode.interfaces rfl rfl
    fun hnull => by
      obtain ⟨_, hnode⟩ := hinterfaces _ hnull
      exact Arena.ne_null_of_get? (Arena.class_eq_ok.mp hnode) rfl
  refine exists_bind (exists_parentName wf hn kind) fun parent _ => ?_
  refine exists_bind ⟨_, hfound⟩ fun interfaces his => ?_
  cases his.unique hfound
  exact exists_bind (exists_mapM fun i hi => exists_className wf (hinterfaces i hi))
    fun _ _ => exists_pure _

/-- Every class has its declaration. -/
theorem exists_classDeclaration : ∃ text, (classDeclaration h).Finds v text := by
  have hlinks := wf.class_ hn
  obtain ⟨image, himage⟩ := hlinks.image
  have hasks := finds_class hn (.classImage h) ClassNode.image rfl rfl
  have hfields := finds_objects_class hn (.classFields h) ClassNode.fields rfl rfl
    hlinks.null_not_mem_fields
  have hmethods := finds_objects_class hn (.classMethods h) ClassNode.methods rfl rfl
    hlinks.null_not_mem_methods
  refine exists_bind (exists_kind hn) fun kind _ => ?_
  refine exists_bind ⟨_, finds_object.mpr ⟨hasks, Arena.ne_null_of_get?
    (Arena.image_eq_ok.mp himage)⟩⟩ fun i hi => ?_
  cases (finds_object.mp hi).1.unique hasks
  refine exists_bind ⟨_, Vm.tells_imageName.mpr ⟨image, himage, rfl⟩⟩ fun imageName _ => ?_
  refine exists_bind (exists_modifierText hn kind) fun modifiers _ => ?_
  refine exists_bind (exists_className wf ⟨n, hn⟩) fun name _ => ?_
  refine exists_bind (exists_inherited wf hn kind) fun inherited _ => ?_
  refine exists_bind ⟨_, hfields⟩ fun fs hfs => ?_
  cases hfs.unique hfields
  refine exists_bind (exists_mapM fun f hf => ?_) fun fields _ => ?_
  · obtain ⟨node, hnode, htype⟩ := hlinks.fields f hf
    exact exists_fieldDeclaration hnode htype
  refine exists_bind ⟨_, hmethods⟩ fun ms hms => ?_
  cases hms.unique hmethods
  refine exists_bind (exists_mapM fun m hm => ?_) fun methods _ => exists_pure _
  obtain ⟨node, hnode, _⟩ := hlinks.methods m hm
  exact exists_methodDeclaration wf hnode

end Look

end VmMetadata
