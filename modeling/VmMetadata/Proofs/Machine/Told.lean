import VmMetadata.Proofs.Machine.Reading

/-!
What a machine tells about the objects of its arena: the answer to a call about an object is a part
of its node, and there is an answer only if there is a node of the kind.
-/

namespace VmMetadata

/-! ## Counts -/

/-- What is seen of a list of which a word of 32 bits tells the length. -/
def counted (l : List α) : List α :=
  l.take (word32 l.length)

@[simp] theorem length_counted (l : List α) : (counted l).length = word32 l.length := by
  rw [counted, List.length_take, Nat.min_eq_left (word32_le _)]

/-- Of a list that can be counted all is seen. -/
theorem counted_eq {l : List α} (h : l.length < 0x1_0000_0000) : counted l = l := by
  rw [counted, word32_eq_self_iff.mpr h, List.take_length]

@[simp] theorem counted_map (f : α → β) (l : List α) : counted (l.map f) = (counted l).map f := by
  rw [counted, counted, List.length_map, List.map_take]

theorem mem_of_mem_counted {l : List α} {a : α} (h : a ∈ counted l) : a ∈ l :=
  List.mem_of_mem_take h

theorem forall₂_counted {R : α → β → Prop} {l : List α} {k : List β} (h : List.Forall₂ R l k) :
    List.Forall₂ R (counted l) (counted k) := by
  rw [counted, counted, h.length_eq]
  exact List.forall₂_take _ h

theorem getElem?_of_counted {l : List α} {i : Nat} {a : α} (h : (counted l)[i]? = some a) :
    l[i]? = some a := by
  rw [counted, List.getElem?_take] at h
  split at h
  · exact h
  · cases h

namespace Vm

/-- The call is answered so, and the machine stays as it is. -/
def Tells (vm : Vm) (c : Call r) (v : r.Value) : Prop :=
  answer c vm = .ok v vm

variable {v w : Vm} {c : Call r} {a b : r.Value}

theorem Tells.later (h : v.Tells c a) (hc : c.isStable = true) (hvw : v.Later w) : w.Tells c a :=
  (answer_stable hc).later hvw h

theorem Tells.unique (ha : v.Tells c a) (hb : v.Tells c b) : a = b := by
  unfold Tells at ha hb
  rw [ha] at hb
  cases hb
  rfl

/-- A part of a node that was looked up. -/
theorem told_iff {node : Access ν} {look : Except Error ν} (part : ν → α) {x : α}
    (hnode : ∀ {n w}, node v = .ok n w ↔ look = .ok n ∧ w = v) :
    (do pure (part (← node)) : Access α) v = .ok x v ↔ ∃ n, look = .ok n ∧ x = part n := by
  rw [Access.bind_eq_ok]
  constructor
  · rintro ⟨n, w, hn, hx⟩
    cases hx
    exact ⟨n, (hnode.mp hn).1, rfl⟩
  · rintro ⟨n, hn, rfl⟩
    exact ⟨n, v, hnode.mpr ⟨hn, rfl⟩, rfl⟩

variable {h : Handle}

/-! ## Assemblies and images -/

theorem tells_domainAssemblies : v.Tells (.domainAssemblies v.domain) v.assemblies := by
  change (if v.domain = v.domain then Access.read (·.assemblies)
    else Access.refuse (.unknown v.domain "domain") : Access (List Handle)) v = _
  rw [if_pos rfl]
  rfl

theorem tells_assemblyImage {i : Handle} :
    v.Tells (.assemblyImage h) i ↔ v.arena.assembly h = .ok i := by
  change Access.lift (v.arena.assembly h) v = .ok i v ↔ _
  simp [Access.lift_eq_ok]

theorem tells_imageName {name : String} :
    v.Tells (.imageName h) name ↔ ∃ n, v.arena.image h = .ok n ∧ name = n.name :=
  told_iff ImageNode.name Access.imageNode_eq_ok

theorem tells_imageClassCount {count : Nat} :
    v.Tells (.imageClassCount h) count ↔
      ∃ n, v.arena.image h = .ok n ∧ count = word32 n.classes.size :=
  told_iff (fun n : ImageNode => word32 n.classes.size) Access.imageNode_eq_ok

/-- Where the machine says that the window of the image begins. -/
def startOf (vm : Vm) (n : ImageNode) : Nat :=
  if vm.isLegacy then n.classStart else 0

theorem tells_imageClassStart {start : Nat} :
    v.Tells (.imageClassStart h) start ↔
      ∃ n, v.arena.image h = .ok n ∧ start = v.startOf n := by
  change (Access.imageNode h >>= fun n => Access.read fun vm =>
    if vm.isLegacy then n.classStart else 0) v = .ok start v ↔ _
  rw [Access.bind_eq_ok]
  constructor
  · rintro ⟨n, w, hn, hstart⟩
    obtain ⟨hn, rfl⟩ := Access.imageNode_eq_ok.mp hn
    cases hstart
    exact ⟨n, hn, rfl⟩
  · rintro ⟨n, hn, rfl⟩
    exact ⟨n, v, Access.imageNode_eq_ok.mpr ⟨hn, rfl⟩, rfl⟩

/-- A current build hands out the class of an image at an index. -/
theorem tells_imageGetClass {n : ImageNode} (hn : v.arena.image h = .ok n)
    (hcurrent : v.isLegacy = false) (index : Nat) :
    v.Tells (.imageGetClass h index) (n.classes[index]?.getD .null) := by
  change (if v.isLegacy then throw (.missingExport "il2cpp_image_get_class")
    else (do pure ((← Access.imageNode h).classes[index]?.getD .null)) : Access Handle) v = _
  rw [hcurrent, if_neg Bool.false_ne_true,
    Access.bind_ok (Access.imageNode_eq_ok.mpr ⟨hn, rfl⟩)]
  rfl

theorem not_tells_imageGetClass (hlegacy : v.isLegacy = true) (index : Nat) (k : Handle) :
    ¬v.Tells (.imageGetClass h index) k := by
  change ¬(if v.isLegacy then throw (.missingExport "il2cpp_image_get_class")
    else (do pure ((← Access.imageNode h).classes[index]?.getD .null)) : Access Handle) v = _
  rw [hlegacy, if_pos rfl]
  rintro ⟨⟩

/-- A class that is found by name is one of those that were looked through. -/
theorem findClass_ok {a : Arena} {namespace_ name : String} : ∀ {hs : List Handle} {h : Handle},
    findClass a namespace_ name hs = .ok h → h = .null ∨ a.HasClass h
  | [], h, hfound => by
      cases hfound
      exact Or.inl rfl
  | k :: rest, h, hfound => by
      unfold findClass at hfound
      cases hk : a.class_ k with
      | error e =>
          rw [hk] at hfound
          cases hfound
      | ok n =>
          rw [hk] at hfound
          change (if n.namespace = namespace_ ∧ n.name = name then pure k
            else findClass a namespace_ name rest) = .ok h at hfound
          split at hfound
          · cases hfound
            exact Or.inr ⟨n, hk⟩
          · exact findClass_ok hfound

theorem Tells.hasClass {i : Handle} {namespace_ name : String}
    (hc : v.Tells (.classFromName i namespace_ name) h) (hne : h ≠ .null) :
    v.arena.HasClass h := by
  have hlift : (do findClass v.arena namespace_ name (← v.arena.image i).classes.toList) = .ok h :=
    (Access.lift_eq_ok.mp hc).1
  cases hi : v.arena.image i with
  | error e =>
      rw [hi] at hlift
      cases hlift
  | ok n =>
      rw [hi] at hlift
      exact (findClass_ok hlift).resolve_left hne

/-! ## Classes and types -/

theorem tells_classImage {i : Handle} :
    v.Tells (.classImage h) i ↔ ∃ n, v.arena.class_ h = .ok n ∧ i = n.image :=
  told_iff ClassNode.image Access.classNode_eq_ok

theorem tells_classMethods {ms : List Handle} :
    v.Tells (.classMethods h) ms ↔ ∃ n, v.arena.class_ h = .ok n ∧ ms = n.methods :=
  told_iff ClassNode.methods Access.classNode_eq_ok

theorem tells_classType {t : Handle} :
    v.Tells (.classType h) t ↔ ∃ n, v.arena.class_ h = .ok n ∧ t = n.type :=
  told_iff ClassNode.type Access.classNode_eq_ok

theorem tells_classIsGeneric {b : Bool} :
    v.Tells (.classIsGeneric h) b ↔ ∃ n, v.arena.class_ h = .ok n ∧ b = n.isOpen :=
  told_iff ClassNode.isOpen Access.classNode_eq_ok

theorem tells_classParameterCount {count : Nat} :
    v.Tells (.classParameterCount h) count ↔
      ∃ n, v.arena.class_ h = .ok n ∧ count = word32 n.typeParameters.length :=
  told_iff (fun n : ClassNode => word32 n.typeParameters.length) Access.classNode_eq_ok

theorem tells_typeName {name : String} :
    v.Tells (.typeName h) name ↔ ∃ n, v.arena.type h = .ok n ∧ name = n.name :=
  told_iff TypeNode.name Access.typeNode_eq_ok

/-! ## Methods -/

theorem tells_methodName {name : String} :
    v.Tells (.methodName h) name ↔ ∃ n, v.arena.method h = .ok n ∧ name = n.name :=
  told_iff MethodNode.name Access.methodNode_eq_ok

theorem tells_methodClass {c : Handle} :
    v.Tells (.methodClass h) c ↔ ∃ n, v.arena.method h = .ok n ∧ c = n.class :=
  told_iff MethodNode.class Access.methodNode_eq_ok

theorem tells_methodIsGeneric {b : Bool} :
    v.Tells (.methodIsGeneric h) b ↔
      ∃ n, v.arena.method h = .ok n ∧ b = !n.typeParameters.isEmpty :=
  told_iff (fun n : MethodNode => !n.typeParameters.isEmpty) Access.methodNode_eq_ok

theorem tells_methodTypeParameterCount {count : Nat} :
    v.Tells (.methodTypeParameterCount h) count ↔
      ∃ n, v.arena.method h = .ok n ∧ count = word32 n.typeParameters.length :=
  told_iff (fun n : MethodNode => word32 n.typeParameters.length) Access.methodNode_eq_ok

theorem Tells.hasMethod {p : Nat} (hp : v.Tells (.methodPointer h) p) : v.arena.HasMethod h := by
  obtain ⟨m, w, hm, _⟩ := Access.bind_eq_ok.mp hp
  exact ⟨m, (Access.methodNode_eq_ok.mp hm).1⟩

/-- The body that a method reports. In an open class, or open itself, it reports none. -/
theorem tells_methodPointer {m : MethodNode} {n : ClassNode} (hm : v.arena.method h = .ok m)
    (hn : v.arena.class_ m.class = .ok n) :
    v.Tells (.methodPointer h)
      (if n.isOpen || !m.typeParameters.isEmpty then 0 else m.address.getD 0) := by
  change (Access.methodNode h >>= _) v = _
  rw [Access.bind_ok (Access.methodNode_eq_ok.mpr ⟨hm, rfl⟩),
    Access.bind_ok (Access.classNode_eq_ok.mpr ⟨hn, rfl⟩)]
  rfl

end Vm

end VmMetadata
