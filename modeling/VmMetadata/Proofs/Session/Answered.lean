import VmMetadata.Proofs.Dump.Words
import VmMetadata.Proofs.Load.Placed
import VmMetadata.Proofs.Session.Client

/-!
Queries whose outcome is known before they are made. What the machine says about an object follows
from its node, and so does what a getter yields, whatever the session has noted before. Main
statements: the rules for queries that are made of such getters, and the getters of an object whose
node is known.
-/

namespace VmMetadata

open Query (Runs Sees SeesAll SeesAny)

/-- Whenever the query is made from here on it does not fail, and it yields something of which `P`
holds. -/
def Session.Answers (b : Session) (x : Query α) (P : α → Session → Prop) : Prop :=
  ∀ t, b.Later t → t.Sound → Runs x t P False

/-- Whenever the query is made from here on it yields this value. -/
abbrev Session.Yields (b : Session) (x : Query α) (v : α) : Prop :=
  b.Answers x fun a _ => a = v

namespace Session

variable {b c : Session} {x : Query α} {P Q : α → Session → Prop}

namespace Answers

theorem later (h : b.Answers x P) (hbc : b.Later c) : c.Answers x P :=
  fun t hct ht => h t (hbc.trans hct) ht

theorem weaken (h : b.Answers x P) (hPQ : ∀ a t, b.Later t → P a t → Q a t) : b.Answers x Q :=
  fun t hbt ht => (h t hbt ht).weaken (fun a u htu ha => hPQ a u (hbt.trans htu) ha) id

theorem pure {a : α} (h : ∀ t, b.Later t → P a t) : b.Answers (Pure.pure a) P :=
  fun t hbt ht => .pure ht (h t hbt)

theorem bind {f : α → Query β} {R : β → Session → Prop} (hx : b.Answers x P)
    (hf : ∀ a t, b.Later t → t.Sound → P a t → t.Answers (f a) R) : b.Answers (x >>= f) R :=
  fun t hbt ht => (hx t hbt ht).bind fun a u htu hu ha =>
    hf a u (hbt.trans htu) hu ha u (.refl u) hu

/-- What is known of the value does not depend on the session. -/
theorem andThen {f : α → Query β} {P : α → Prop} {R : β → Session → Prop}
    (hx : b.Answers x fun a _ => P a) (hf : ∀ a, P a → b.Answers (f a) R) :
    b.Answers (x >>= f) R :=
  hx.bind fun a _ later _ ha => (hf a ha).later later

/-- What is known of the value stays true until the end. -/
theorem andKeep {f : α → Query β} {R : β → Session → Prop} (hx : b.Answers x P)
    (hP : ∀ a (s t : Session), s.Later t → P a s → P a t)
    (hf : ∀ a, b.Answers (f a) fun r t => P a t → R r t) : b.Answers (x >>= f) R :=
  hx.bind fun a _ later _ ha => ((hf a).later later).weaken fun _ _ hlater hr =>
    hr (hP _ _ _ hlater ha)

theorem assoc {g : α → Query β} {k : β → Query γ} {R : γ → Session → Prop}
    (h : b.Answers ((x >>= g) >>= k) R) : b.Answers (x >>= fun a => g a >>= k) R :=
  bind_assoc x g k ▸ h

/-- One query for each element. What is known of an earlier value stays true. -/
theorem mapM {f : α → Query β} {R : δ → β → Session → Prop}
    (hR : ∀ d a (s t : Session), s.Later t → R d a s → R d a t) :
    ∀ {b : Session} {ds : List δ} {as : List α},
      List.Forall₂ (fun d a => b.Answers (f a) (R d)) ds as →
      b.Answers (as.mapM f) fun rs t => List.Forall₂ (fun d r => R d r t) ds rs
  | _, _, _, .nil => by
      rw [List.mapM_nil]
      exact .pure fun _ _ => .nil
  | _, _, _, .cons h hrest => by
      rw [List.mapM_cons]
      refine h.andKeep (hR _) fun r => (mapM hR hrest).andKeep
        (fun _ _ _ hst hrs => hrs.imp fun _ _ => hR _ _ _ _ hst) fun rs => .pure fun t _ hrs hr => ?_
      exact .cons hr hrs

/-- A query is made of the view that another one yields. -/
theorem throughView {x : Query (View e)} {k : Handle} {g : View e → Query β}
    {R : β → Session → Prop} (hx : b.Answers x fun v t => v.handle = k ∧ t.Shows v)
    (hg : ∀ v t, b.Later t → t.Sound → t.Shows v → v.handle = k → t.Answers (g v) R) :
    b.Answers (x >>= g) R :=
  hx.bind fun v t later sound hv => hg v t later sound hv.2 hv.1

/-- A query is made of each of the views that another one yields. -/
theorem throughViews {x : Query (List (View e))} {ks : List Handle} {g : View e → Query β}
    {ds : List δ} {G : δ → Handle → Prop} {R : δ → β → Session → Prop}
    (hR : ∀ d r (s t : Session), s.Later t → R d r s → R d r t)
    (hx : b.Answers x fun vs t => vs.map View.handle = ks ∧ ∀ v ∈ vs, t.Shows v)
    (hks : List.Forall₂ G ds ks)
    (hg : ∀ d v t, b.Later t → t.Sound → t.Shows v → G d v.handle → t.Answers (g v) (R d)) :
    b.Answers (do (← x).mapM g) fun rs t => List.Forall₂ (fun d r => R d r t) ds rs := by
  refine hx.bind fun vs t later sound hvs => .mapM hR ?_
  obtain ⟨rfl, hshown⟩ := hvs
  rw [List.forall₂_map_right_iff] at hks
  refine List.forall₂_iff_get.mpr ⟨hks.length_eq, fun i hi hi' => ?_⟩
  exact hg _ _ t later sound (hshown _ (List.get_mem vs ⟨i, hi'⟩)) (hks.get hi hi')

end Answers

theorem Yields.bind {v : α} {f : α → Query β} {R : β → Session → Prop} (hx : b.Yields x v)
    (hf : b.Answers (f v) R) : b.Answers (x >>= f) R :=
  hx.andThen fun a ha => by
    rw [ha]
    exact hf

theorem Yields.pure (v : α) : b.Yields (Pure.pure v) v :=
  Answers.pure fun _ _ => rfl

/-! ## What looks find -/

/-- The query yields what the look finds. -/
theorem Answers.of_finds {look : Look β} {part : α → β} {S : α → Session → Prop} {v : β}
    (hv : look.Finds b.vm v)
    (hx : ∀ t, b.Later t → t.Sound → x.Finds t t look part S) :
    b.Answers x fun a t => part a = v ∧ S a t := by
  intro t later sound
  have hv := hv.later later.vm
  refine (hx t later sound).runs.weaken (fun a u hlater ha => ?_) fun hnone => hnone v hv
  exact ⟨ha.1.unique (hv.later hlater.vm), ha.2⟩

theorem Yields.of_finds {look : Look α} {v : α} (hv : look.Finds b.vm v)
    (hx : ∀ t, b.Later t → t.Sound → x.Says t t look) : b.Yields x v :=
  (Answers.of_finds hv hx).weaken fun _ _ _ ha => ha.1

/-- A view of an object that need not be there. -/
theorem Answers.of_seesAny {x : Query (Option (View e))} {look : Look Handle} {k? : Option Handle}
    (hk : look.Finds b.vm (k?.getD .null)) (hne : ∀ k ∈ k?, k ≠ .null)
    (hx : ∀ t, b.Later t → t.Sound → x.SeesAny t t look) :
    b.Answers x fun v? _ => v?.map View.handle = k? := by
  refine (Answers.of_finds hk hx).weaken fun v? t _ hv => ?_
  obtain ⟨hsame, hshown⟩ := hv
  cases v? with
  | none =>
      cases k? with
      | none => rfl
      | some k => exact absurd hsame.symm (hne k rfl)
  | some v =>
      cases k? with
      | none => exact absurd hsame (hshown v rfl).1
      | some k => exact congrArg some hsame

end Session

/-! ## Kinds and tags -/

namespace TypeKind

/-- The kind has a tag of its own. -/
def HasTag (k : TypeKind) : Prop :=
  ofTag k.tag = k

theorem hasTag_of_named : ∀ k ∈ named, k.HasTag := by
  unfold HasTag
  decide

end TypeKind

/-- A type that stands for a reference is of a kind that has a tag. -/
theorem Snapshot.hasTag_typeNode (s : Snapshot) (r : TypeRef) : (s.typeNode r).kind.HasTag := by
  cases r with
  | ofMethod | ofClass => exact rfl
  | global name => exact TypeKind.hasTag_of_named _ (TypeRef.kind_nodeIn_global _ name)

/-! ## Getters -/

variable {b : Session}

theorem Look.finds_typeName {v : Vm} {t : Handle} {n : TypeNode} (ht : v.arena.HoldsType t n) :
    (ask (.typeName t) rfl).Finds v n.name := by
  obtain ⟨m, hm, hname, _⟩ := ht
  exact Vm.tells_typeName.mpr ⟨m, hm, hname.symm⟩

namespace TypeView

variable {t : TypeView} (ht : b.Shows t) {n : TypeNode}
  (hn : b.vm.arena.HoldsType t.handle n)
include ht hn

theorem name_yields : b.Yields t.name n.name :=
  .of_finds (Look.finds_typeName hn) fun _ later sound =>
    .of_tells (.typeName _) (name_agrees (.refl sound) (ht.later later)) rfl

theorem kind_yields (hkind : n.kind.HasTag) : b.Yields t.kind n.kind := by
  obtain ⟨m, hm, _, hsame, _⟩ := hn
  have htag : b.vm.Tells (.typeKind t.handle) n.kind.tag :=
    (Vm.told_iff (fun n : TypeNode => n.kind.tag) Access.typeNode_eq_ok).mpr
      ⟨m, hm, by rw [hsame]⟩
  intro s later sound
  have htag := htag.later rfl later.vm
  refine (Runs.remember (f := .typeKind) sound (ht.later later).2 ((Runs.tell sound rfl).map.weaken
    (fun _ _ _ ⟨tag, htold, hk⟩ => ⟨tag, htold.1, hk⟩) id)).weaken (fun k u hlater hk => ?_)
    fun hnone => hnone _ htag
  obtain ⟨tag, htold, rfl⟩ := hk
  rw [htold.unique (htag.later rfl hlater.vm)]
  exact hkind

/-- The class of the type, if it has one. -/
theorem class?_answers :
    b.Answers t.class? fun c? _ => c?.map View.handle = n.class.nonNull? := by
  obtain ⟨m, hm, _, _, hsame⟩ := hn
  have hclass : b.vm.Tells (.typeClass t.handle) n.class :=
    (Vm.told_iff TypeNode.class Access.typeNode_eq_ok).mpr ⟨m, hm, hsame.symm⟩
  have hnote : b.Yields (Query.remember t.page .typeClass
      (Handle.nonNull? <$> Query.ask (.typeClass t.handle))) n.class.nonNull? := by
    intro s later sound
    have hclass := hclass.later rfl later.vm
    refine (Runs.remember (f := .typeClass) sound (ht.later later).2 ((Runs.tell sound rfl).map.weaken
      (fun _ _ _ ⟨c, htold, hk⟩ => ⟨c, htold.1, hk⟩) id)).weaken (fun h? u hlater hh => ?_)
      fun hnone => hnone _ hclass
    obtain ⟨c, htold, rfl⟩ := hh
    rw [htold.unique (hclass.later rfl hlater.vm)]
  refine hnote.bind ?_
  cases hclass : n.class.nonNull? with
  | none => exact Session.Answers.pure fun _ _ => rfl
  | some k =>
      refine fun s _ sound => (Runs.view sound .class_ k).map.weaken ?_ ?_
      · rintro _ _ _ ⟨v, hv, rfl⟩
        exact congrArg some hv.2
      · rintro rfl
        exact Handle.ne_null_of_nonNull? hclass rfl

end TypeView

namespace Field

variable {f : Field} (hf : b.Shows f) {n : FieldNode} (hn : b.vm.arena.field f.handle = .ok n)
include hf hn

theorem name_yields : b.Yields f.name n.name :=
  .of_finds (Look.finds_field hn (.fieldName _) FieldNode.name rfl rfl) fun _ later sound =>
    .of_tells (.fieldName _) (name_agrees (.refl sound) (hf.later later)) rfl

theorem type_answers (hne : n.type ≠ .null) :
    b.Answers f.type fun v t => v.handle = n.type ∧ t.Shows v :=
  .of_finds (Look.finds_object.mpr
    ⟨Look.finds_field hn (.fieldType _) FieldNode.type rfl rfl, hne⟩) fun _ later sound =>
    Sees.of_showsAt (.fieldType _) (type_agrees (.refl sound) (hf.later later)) rfl

theorem offset_yields : b.Yields f.offset n.offset :=
  .of_finds (Look.finds_field hn (.fieldOffset _) FieldNode.offset rfl rfl) fun _ later sound =>
    .of_tells (.fieldOffset _) (offset_agrees (.refl sound) (hf.later later)) rfl

theorem flags_yields : b.Yields f.flags n.flags :=
  .of_finds (Look.finds_field hn (.fieldFlags _) FieldNode.flags rfl rfl) fun _ later sound =>
    .of_tells (.fieldFlags _) (flags_agrees (.refl sound) (hf.later later)) rfl

end Field

namespace Method

variable {m : Method} (hm : b.Shows m)
include hm

section

variable {n : MethodNode} (hn : b.vm.arena.method m.handle = .ok n)
include hn

theorem name_yields : b.Yields m.name n.name :=
  .of_finds (Look.finds_method hn (.methodName _) MethodNode.name rfl rfl) fun _ later sound =>
    .of_tells (.methodName _) (name_agrees (.refl sound) (hm.later later)) rfl

theorem class_answers (hne : n.class ≠ .null) :
    b.Answers m.class_ fun v t => v.handle = n.class ∧ t.Shows v :=
  .of_finds (Look.finds_object.mpr
    ⟨Look.finds_method hn (.methodClass _) MethodNode.class rfl rfl, hne⟩) fun _ later sound =>
    Sees.of_showsAt (.methodClass _) (class_agrees (.refl sound) (hm.later later)) rfl

theorem returnType_answers (hne : n.returnType ≠ .null) :
    b.Answers m.returnType fun v t => v.handle = n.returnType ∧ t.Shows v :=
  .of_finds (Look.finds_object.mpr
    ⟨Look.finds_method hn (.methodReturnType _) MethodNode.returnType rfl rfl, hne⟩)
    fun _ later sound =>
    Sees.of_showsAt (.methodReturnType _) (returnType_agrees (.refl sound) (hm.later later)) rfl

theorem flags_yields : b.Yields m.flags n.flags :=
  .of_finds (Look.finds_method hn (.methodFlags _) MethodNode.flags rfl rfl) fun _ later sound =>
    .of_tells (.methodFlags _) (flags_agrees (.refl sound) (hm.later later)) rfl

theorem isGeneric_yields : b.Yields m.isGeneric (!n.typeParameters.isEmpty) :=
  .of_finds (Look.finds_method hn (.methodIsGeneric _) (fun n => !n.typeParameters.isEmpty) rfl rfl)
    fun _ later sound =>
    .of_tells (.methodIsGeneric _) (isGeneric_agrees (.refl sound) (hm.later later)) rfl

theorem typeParameterCount_yields :
    b.Yields m.typeParameterCount (word32 n.typeParameters.length) :=
  .of_finds (Look.finds_method hn (.methodTypeParameterCount _)
    (fun n => word32 n.typeParameters.length) rfl rfl) fun _ later sound =>
    .of_tells (.methodTypeParameterCount _)
      (typeParameterCount_agrees (.refl sound) (hm.later later)) rfl

theorem isInflated_yields : b.Yields m.isInflated n.inflated :=
  .of_finds (Look.finds_method hn (.methodIsInflated _) MethodNode.inflated rfl rfl)
    fun _ later sound => .of_tells (.methodIsInflated _)
      (.remember (.refl sound) (hm.later later).2 rfl (.tell (.refl sound) rfl rfl)) rfl

/-- The parameters with the types that they name, as far as they can be counted. -/
theorem parameters_answers (htypes : ∀ p ∈ n.parameters, b.vm.arena.HasType p.2) :
    b.Answers m.parameters fun ps t => ps.map parameterKey = counted n.parameters ∧
      ∀ p ∈ ps, t.Shows p.type := by
  refine (Session.Answers.of_finds (Look.finds_parameters hn htypes) fun _ later sound =>
    parameters_finds (.refl sound) (hm.later later)).weaken fun ps t _ hps => ⟨hps.1, ?_⟩
  intro p hp
  obtain ⟨k, hk⟩ := List.mem_iff_getElem?.mp hp
  exact (hps.2 k p hk).2

end

theorem addressToken_yields {pointer : Nat}
    (hpointer : b.vm.Tells (.methodPointer m.handle) pointer) :
    b.Yields m.addressToken? (b.vm.token? pointer) :=
  .of_finds (Look.finds_token?.mpr ⟨pointer, hpointer, rfl⟩) fun _ later sound =>
    token_finds (.refl sound) (hm.later later)

end Method

/-- The kind of a class is the one of its node. -/
theorem Look.finds_kind_class {v : Vm} {h : Handle} {n : ClassNode}
    (hn : v.arena.class_ h = .ok n) : (Look.kind h).Finds v n.kind := by
  have hinterface := finds_class hn (.classIsInterface h) (·.kind == .interface) rfl rfl
  have henum := finds_class hn (.classIsEnum h) (·.kind == .enum) rfl rfl
  have hvalue := finds_class hn (.classIsValueType h)
    (fun n => n.kind == .struct || n.kind == .enum) rfl rfl
  unfold Look.kind
  cases hkind : n.kind <;> rw [hkind] at hinterface henum hvalue
  · exact finds_bind.mpr ⟨_, hinterface, finds_bind.mpr ⟨_, henum,
      finds_bind.mpr ⟨_, hvalue, finds_pure.mpr rfl⟩⟩⟩
  · exact finds_bind.mpr ⟨_, hinterface, finds_bind.mpr ⟨_, henum,
      finds_bind.mpr ⟨_, hvalue, finds_pure.mpr rfl⟩⟩⟩
  · exact finds_bind.mpr ⟨_, hinterface, finds_bind.mpr ⟨_, henum, finds_pure.mpr rfl⟩⟩
  · exact finds_bind.mpr ⟨_, hinterface, finds_pure.mpr rfl⟩

theorem Image.name_yields {i : Image} (hi : b.Shows i) {n : ImageNode}
    (hn : b.vm.arena.image i.handle = .ok n) : b.Yields i.name n.name := by
  have hlook : (Look.ask (.imageName i.handle) rfl).Finds b.vm n.name :=
    Vm.tells_imageName.mpr ⟨n, hn, rfl⟩
  exact .of_finds hlook fun _ later sound =>
    .of_tells (.imageName _) (name_agrees (.refl sound) (hi.later later)) rfl

namespace Class

variable {c : Class} (hc : b.Shows c) {n : ClassNode} (hn : b.vm.arena.class_ c.handle = .ok n)
include hc hn

theorem name_yields : b.Yields c.name n.name :=
  .of_finds (Look.finds_class hn (.className _) ClassNode.name rfl rfl) fun _ later sound =>
    .of_tells (.className _)
      (.remember (.refl sound) (hc.later later).2 rfl (.tell (.refl sound) rfl rfl)) rfl

theorem namespace_yields : b.Yields c.namespace_ n.namespace :=
  .of_finds (Look.finds_class hn (.classNamespace _) ClassNode.namespace rfl rfl)
    fun _ later sound => .of_tells (.classNamespace _)
      (.remember (.refl sound) (hc.later later).2 rfl (.tell (.refl sound) rfl rfl)) rfl

theorem type_answers (hne : n.type ≠ .null) :
    b.Answers c.type fun v t => v.handle = n.type ∧ t.Shows v :=
  .of_finds (Look.finds_object.mpr
    ⟨Look.finds_class hn (.classType _) ClassNode.type rfl rfl, hne⟩) fun _ later sound =>
    Sees.of_showsAt (.classType _) (type_agrees (.refl sound) (hc.later later)) rfl

theorem image_answers (hne : n.image ≠ .null) :
    b.Answers c.image fun v t => v.handle = n.image ∧ t.Shows v :=
  .of_finds (Look.finds_object.mpr
    ⟨Look.finds_class hn (.classImage _) ClassNode.image rfl rfl, hne⟩) fun _ later sound =>
    Sees.of_showsAt (.classImage _) (image_agrees (.refl sound) (hc.later later)) rfl

theorem assemblyName_yields {i : ImageNode} (hi : b.vm.arena.image n.image = .ok i) :
    b.Yields c.assemblyName (assemblyNameOf i.name) := by
  refine (image_answers hc hn (Arena.ne_null_of_get? (Arena.image_eq_ok.mp hi))).throughView
    fun v t later _ hv hhandle => ?_
  exact (Image.name_yields hv (hhandle ▸ later.vm.arena.image hi)).bind (Session.Yields.pure _)

/-- The base class, if there is one. -/
theorem parent_answers {k : Option Handle} (hparent : n.parent = k.getD .null)
    (hne : ∀ h ∈ k, h ≠ .null) : b.Answers c.parent fun v? _ => v?.map View.handle = k :=
  .of_seesAny (hparent ▸ Look.finds_class hn (.classParent _) ClassNode.parent rfl rfl) hne
    fun _ later sound =>
    SeesAny.of_showsAny (.classParent _) (parent_agrees (.refl sound) (hc.later later)) rfl

/-- The enclosing class, if there is one. -/
theorem declaringClass_answers {k : Option Handle} (hdeclaring : n.declaring = k.getD .null)
    (hne : ∀ h ∈ k, h ≠ .null) :
    b.Answers c.declaringClass fun v? _ => v?.map View.handle = k :=
  .of_seesAny (hdeclaring ▸ Look.finds_class hn (.classDeclaringType _) ClassNode.declaring rfl rfl)
    hne fun _ later sound => SeesAny.of_showsAny (.classDeclaringType _)
      (.remember (.refl sound) (hc.later later).2 rfl (.viewAnyOf (.refl sound) .class_ rfl rfl))
      rfl

theorem interfaces_answers (hnull : Handle.null ∉ n.interfaces) :
    b.Answers c.interfaces fun vs t =>
      vs.map View.handle = n.interfaces ∧ ∀ v ∈ vs, t.Shows v :=
  .of_finds (Look.finds_objects_class hn (.classInterfaces _) ClassNode.interfaces rfl rfl hnull)
    fun _ later sound =>
    SeesAll.of_showsAll (.classInterfaces _) (interfaces_agrees (.refl sound) (hc.later later)) rfl

theorem fields_answers (hnull : Handle.null ∉ n.fields) :
    b.Answers c.fields fun vs t => vs.map View.handle = n.fields ∧ ∀ v ∈ vs, t.Shows v :=
  .of_finds (Look.finds_objects_class hn (.classFields _) ClassNode.fields rfl rfl hnull)
    fun _ later sound =>
    SeesAll.of_showsAll (.classFields _) (fields_agrees (.refl sound) (hc.later later)) rfl

theorem methods_answers (hnull : Handle.null ∉ n.methods) :
    b.Answers c.methods fun vs t => vs.map View.handle = n.methods ∧ ∀ v ∈ vs, t.Shows v :=
  .of_finds (Look.finds_objects_class hn (.classMethods _) ClassNode.methods rfl rfl hnull)
    fun _ later sound =>
    SeesAll.of_showsAll (.classMethods _) (methods_agrees (.refl sound) (hc.later later)) rfl

theorem flags_yields : b.Yields c.flags n.flags :=
  .of_finds (Look.finds_class hn (.classFlags _) ClassNode.flags rfl rfl) fun _ later sound =>
    .of_tells (.classFlags _) (flags_agrees (.refl sound) (hc.later later)) rfl

theorem kind_yields : b.Yields c.kind n.kind :=
  .of_finds (Look.finds_kind_class hn) fun _ later sound =>
    kind_finds (.refl sound) (hc.later later)

theorem isGeneric_yields : b.Yields c.isGeneric n.isOpen :=
  .of_finds (Look.finds_class hn (.classIsGeneric _) ClassNode.isOpen rfl rfl)
    fun _ later sound =>
    .of_tells (.classIsGeneric _) (isGeneric_agrees (.refl sound) (hc.later later)) rfl

theorem typeParameterCount_yields :
    b.Yields c.typeParameterCount (word32 n.typeParameters.length) :=
  .of_finds (Look.finds_class hn (.classParameterCount _)
    (fun n => word32 n.typeParameters.length) rfl rfl) fun _ later sound =>
    .of_tells (.classParameterCount _)
      (typeParameterCount_agrees (.refl sound) (hc.later later)) rfl

end Class

end VmMetadata
