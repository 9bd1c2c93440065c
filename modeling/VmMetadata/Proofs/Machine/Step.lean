import VmMetadata.Proofs.Machine.State

/-!
What a call can do to a machine. The cases of `Vm.Step` are all there are: nothing happens, scratch
memory is used, an object is made, a reflection object is tied to its type, a slot is filled, a
class is closed, or a method is instantiated. Main statement: each of them takes a well-formed
machine to a well-formed later one.
-/

namespace VmMetadata

open Arena (handleAt)

namespace Arena

/-- The class that closing a definition makes, with its type, fields and methods behind it. -/
def closedClass (a : Arena) (cls : Handle) (d : ClassNode) : ClassNode :=
  { d with
    definition := cls
    type := handleAt (a.nodes.size + 1)
    fields := (List.range' (a.nodes.size + 2) d.fields.length).map handleAt
    methods := (List.range' (a.nodes.size + 2 + d.fields.length) d.methods.length).map handleAt }

/-- The type of that class. -/
def closedType (a : Arena) (d : ClassNode) (names : List String) : TypeNode where
  name := genericName d.fullName names
  kind := .genericInst
  «class» := a.next
  object := .null

def closedField (a : Arena) (σ : Substitution) (f : FieldNode) : Node :=
  .field { f with type := a.substitute σ .empty f.type }

def closedMethod (a : Arena) (σ : Substitution) (m : MethodNode) : Node :=
  .method (m.closed a σ a.next)

/-- All that closing a definition adds to the arena. -/
def closedNodes (a : Arena) (cls : Handle) (args : List Handle) (d : ClassNode)
    (names : List String) (fields : List FieldNode) (methods : List MethodNode) : List Node :=
  .class_ (a.closedClass cls d) :: .type (a.closedType d names) ::
    (fields.map (a.closedField ⟨d.typeParameters, args⟩) ++
      methods.map (a.closedMethod ⟨d.typeParameters, args⟩))

/-- The definition can be closed over the types, and its members are known. -/
structure Closing (a : Arena) (cls : Handle) (args : List Handle) (d : ClassNode)
    (names : List String) (fields : List FieldNode) (methods : List MethodNode) : Prop where
  definition : a.class_ cls = .ok d
  isOpen : d.isOpen = true
  arity : d.typeParameters.length = args.length
  names : List.Forall₂ a.NamesType args names
  fields : List.Forall₂ (fun h n => a.field h = .ok n) d.fields fields
  methods : List.Forall₂ (fun h n => a.method h = .ok n) d.methods methods

/-- Types for types leave a type. -/
theorem hasType_substitute {a : Arena} {cls method : Substitution} {t : Handle}
    (hcls : ∀ u ∈ cls.types, a.HasType u) (hmethod : ∀ u ∈ method.types, a.HasType u)
    (ht : a.HasType t) : a.HasType (a.substitute cls method t) := by
  have hfind : ∀ (σ : Substitution) (name : String), (∀ u ∈ σ.types, a.HasType u) →
      a.HasType ((σ.find? name).getD t) := fun σ name hσ => by
    cases hu : σ.find? name with
    | none => exact ht
    | some u =>
        obtain ⟨i, _, hi⟩ := Option.bind_eq_some_iff.mp hu
        exact hσ u (List.mem_of_getElem? hi)
  unfold Arena.substitute
  split
  · split
    · exact hfind cls _ hcls
    · exact hfind method _ hmethod
    · exact ht
  · exact ht

namespace Closing

variable {a : Arena} {cls : Handle} {args : List Handle} {d : ClassNode} {names : List String}
  {fields : List FieldNode} {methods : List MethodNode}

/-- The `j`-th field lies behind the class and its type. -/
theorem field_at {j : Nat} {f : FieldNode} (hj : fields[j]? = some f) :
    (a.append (a.closedNodes cls args d names fields methods)).get?
      (handleAt (a.nodes.size + 2 + j)) = some (a.closedField ⟨d.typeParameters, args⟩ f) := by
  have hlt := (List.getElem?_eq_some_iff.mp hj).1
  rw [Nat.add_assoc]
  refine get?_append_new a ?_
  rw [closedNodes, Nat.add_comm 2 j, List.getElem?_cons_succ, List.getElem?_cons_succ,
    List.getElem?_append_left (by simpa using hlt), List.getElem?_map, hj]
  rfl

theorem class_at : (a.append (a.closedNodes cls args d names fields methods)).class_ a.next =
    .ok (a.closedClass cls d) :=
  class_eq_ok.mpr (get?_append_new a (i := 0) rfl)

theorem type_at : (a.append (a.closedNodes cls args d names fields methods)).type
    (handleAt (a.nodes.size + 1)) = .ok (a.closedType d names) :=
  type_eq_ok.mpr (get?_append_new a (i := 1) rfl)

variable (h : a.Closing cls args d names fields methods)
include h

theorem hasType_args {t : Handle} (ht : t ∈ args) : a.HasType t := by
  obtain ⟨_, _, n, hn, _⟩ := Load.mem_of_forall₂ h.names.flip ht
  exact ⟨n, hn⟩

/-- The `j`-th method lies behind all fields. -/
theorem method_at {j : Nat} {m : MethodNode} (hj : methods[j]? = some m) :
    (a.append (a.closedNodes cls args d names fields methods)).get?
      (handleAt (a.nodes.size + 2 + d.fields.length + j)) =
        some (a.closedMethod ⟨d.typeParameters, args⟩ m) := by
  have hlen := h.fields.length_eq
  rw [show a.nodes.size + 2 + d.fields.length + j = a.nodes.size + (d.fields.length + j + 2) by
    omega]
  refine get?_append_new a ?_
  rw [closedNodes, List.getElem?_cons_succ, List.getElem?_cons_succ,
    List.getElem?_append_right (by simp [hlen]), List.length_map, hlen, Nat.add_sub_cancel_left,
    List.getElem?_map, hj]
  rfl

variable (wf : a.WellFormed)
include wf

theorem closedClass_wellLinked : (a.closedClass cls d).WellLinked
    (a.append (a.closedNodes cls args d names fields methods)) a.next := by
  have hkeeps := keeps_append a (a.closedNodes cls args d names fields methods)
  have hold := (wf.class_ h.definition).mono hkeeps
  refine {
    type := ⟨_, type_at, rfl⟩
    image := hold.image
    parent := hold.parent
    declaring := hold.declaring
    interfaces := hold.interfaces
    fields := fun g hg => ?_
    methods := fun k hk => ?_
    definition := Or.inr ⟨d, (later_append a _).class_ h.definition, h.isOpen⟩ }
  · simp only [closedClass, List.mem_map, List.mem_range'] at hg
    obtain ⟨_, ⟨j, hj, rfl⟩, rfl⟩ := hg
    rw [Nat.one_mul]
    have hlt : j < fields.length := h.fields.length_eq ▸ hj
    obtain ⟨f, _, hf⟩ := Load.mem_of_forall₂ h.fields (List.getElem_mem hlt)
    refine ⟨_, field_eq_ok.mpr (field_at (List.getElem?_eq_getElem hlt)), hkeeps.hasType ?_⟩
    exact hasType_substitute (fun u hu => h.hasType_args hu) (by simp [Substitution.empty])
      (wf.field hf)
  · simp only [closedClass, List.mem_map, List.mem_range'] at hk
    obtain ⟨_, ⟨j, hj, rfl⟩, rfl⟩ := hk
    rw [Nat.one_mul]
    have hlt : j < methods.length := h.methods.length_eq ▸ hj
    exact ⟨_, method_eq_ok.mpr (h.method_at (List.getElem?_eq_getElem hlt)), rfl⟩

theorem wellFormed :
    (a.append (a.closedNodes cls args d names fields methods)).WellFormed := by
  have hkeeps := keeps_append a (a.closedNodes cls args d names fields methods)
  have hsub : ∀ {t : Handle}, a.HasType t →
      (a.append (a.closedNodes cls args d names fields methods)).HasType
        (a.substitute ⟨d.typeParameters, args⟩ .empty t) := fun ht =>
    hkeeps.hasType (hasType_substitute (fun u hu => h.hasType_args hu)
      (by simp [Substitution.empty]) ht)
  refine wf.append fun i n hi => ?_
  match i with
  | 0 =>
      cases hi
      exact h.closedClass_wellLinked wf
  | 1 =>
      cases hi
      exact ⟨Or.inr ⟨_, class_at, rfl⟩, Or.inl rfl⟩
  | i + 2 =>
      simp only [closedNodes, List.getElem?_cons_succ] at hi
      have hmem := List.mem_of_getElem? hi
      rcases List.mem_append.mp hmem with hmem | hmem
      · obtain ⟨f, hf, rfl⟩ := List.mem_map.mp hmem
        obtain ⟨_, _, hfield⟩ := Load.mem_of_forall₂ h.fields hf
        exact hsub (wf.field hfield)
      · obtain ⟨m, hm, rfl⟩ := List.mem_map.mp hmem
        obtain ⟨_, _, hmethod⟩ := Load.mem_of_forall₂ h.methods hm
        obtain ⟨_, hret, hps⟩ := wf.method hmethod
        refine ⟨⟨_, class_at⟩, hsub hret, fun p hp => ?_⟩
        obtain ⟨q, hq, rfl⟩ := List.mem_map.mp hp
        exact hsub (hps q hq)

theorem closedOver :
    (a.append (a.closedNodes cls args d names fields methods)).ClosedOver cls args d a.next
      (a.closedClass cls d) where
  definition := (later_append a _).class_ h.definition
  isOpen := h.isOpen
  arity := h.arity
  arguments := fun t ht => (keeps_append a _).hasType (h.hasType_args ht)
  result := class_at
  shape := rfl
  type := ⟨_, names, type_at, rfl, rfl,
    h.names.imp fun _ _ => NamesType.later (later_append a _), rfl⟩
  fields := by
    have hlater := later_append a (a.closedNodes cls args d names fields methods)
    refine List.forall₂_iff_get.mpr ⟨by simp [closedClass], fun j hj hj' => ?_⟩
    have hlt : j < fields.length := h.fields.length_eq ▸ hj
    have hold : a.field d.fields[j] = .ok fields[j] := h.fields.get hj hlt
    refine ⟨fields[j], hlater.field hold, ?_⟩
    rw [hlater.substitute (wf.field hold)]
    simp only [closedClass, List.get_eq_getElem, List.getElem_map, List.getElem_range', Nat.one_mul]
    exact field_eq_ok.mpr (field_at (List.getElem?_eq_getElem hlt))
  methods := by
    have hlater := later_append a (a.closedNodes cls args d names fields methods)
    refine List.forall₂_iff_get.mpr ⟨by simp [closedClass], fun j hj hj' => ?_⟩
    have hlt : j < methods.length := h.methods.length_eq ▸ hj
    have hold : a.method d.methods[j] = .ok methods[j] := h.methods.get hj hlt
    refine ⟨methods[j], hlater.method hold, ?_⟩
    rw [hlater.closed wf hold]
    simp only [closedClass, List.get_eq_getElem, List.getElem_map, List.getElem_range', Nat.one_mul]
    exact method_eq_ok.mpr (h.method_at (List.getElem?_eq_getElem hlt))

end Closing

end Arena

namespace Arena

/-- The arena with a new reflection object for a type. -/
def tieObject (a : Arena) (t : Handle) (node : TypeNode) : Arena :=
  (a.push (.object (.typeObject t))).set t (.type { node with object := a.next })

variable {a : Arena} {t : Handle} {node : TypeNode} (ht : a.type t = .ok node)
include ht

theorem tieObject_type :
    (a.tieObject t node).type t = .ok { node with object := a.next } :=
  type_eq_ok.mpr (get?_set_same (get?_push_of_get? (type_eq_ok.mp ht) _) _)

theorem tieObject_object : (a.tieObject t node).object a.next = .ok (.typeObject t) := by
  refine object_eq_ok.mpr ?_
  rw [tieObject, get?_set_of_ne (ne_next_of_get? (type_eq_ok.mp ht)).symm]
  exact get?_push_next a _

variable (missing : node.object = .null)
include missing

theorem later_tieObject : a.Later (a.tieObject t node) :=
  (later_push a _).trans (later_set (get?_push_of_get? (type_eq_ok.mp ht) _) (.type _ missing))

theorem wellFormed_tieObject (wf : a.WellFormed) : (a.tieObject t node).WellFormed := by
  have hlater := later_tieObject ht missing
  refine wf.of_keeps hlater.keeps fun h n hn hold => ?_
  rcases (get?_set_iff (get?_push_of_get? (type_eq_ok.mp ht) _)).mp hn with
    ⟨rfl, rfl⟩ | ⟨_, hn⟩
  · refine ⟨(wf.type ht).1.imp_right ?_, Or.inr (tieObject_object ht)⟩
    rintro ⟨c, hc, hch⟩
    exact ⟨c, hlater.class_ hc, hch⟩
  · rcases get?_push_iff.mp hn with hn | ⟨rfl, rfl⟩
    · exact absurd hn hold
    · exact ⟨_, tieObject_type ht, rfl⟩

omit ht missing in
/-- An instantiation of a method is as well linked as the method. -/
theorem WellFormed.instantiated (wf : a.WellFormed) {method : Handle} {m : MethodNode}
    {args : List Handle} (hm : a.method method = .ok m) (hargs : ∀ t ∈ args, a.HasType t)
    (address : Option Nat) : (a.push (.method (m.instantiated a args address))).WellFormed := by
  obtain ⟨hcls, hret, hps⟩ := wf.method hm
  have hkeeps := (later_push a (.method (m.instantiated a args address))).keeps
  have hsub : ∀ {u : Handle}, a.HasType u →
      a.HasType (a.substitute .empty ⟨m.typeParameters, args⟩ u) :=
    hasType_substitute (by simp [Substitution.empty]) hargs
  refine wf.push ⟨hkeeps.hasClass hcls, hkeeps.hasType (hsub hret), fun p hp => ?_⟩
  obtain ⟨q, hq, rfl⟩ := List.mem_map.mp hp
  exact hkeeps.hasType (hsub (hps q hq))

end Arena

namespace Vm

/-- What a call can do to a machine. -/
inductive Step (vm : Vm) : Vm → Prop
  | idle : Step vm vm
  | scratch {m : Scratch} (used : vm.scratch.Step m) : Step vm { vm with scratch := m }
  | string (value : String) : Step vm { vm with arena := vm.arena.push (.object (.string value)) }
  | array {cls : Handle} (length : Nat) (known : vm.arena.HasClass cls) :
      Step vm { vm with
        arena := vm.arena.push (.object (.array cls (List.replicate length .null))) }
  | slot {array cls : Handle} {items : List Handle} (index : Nat) (value : Handle)
      (known : vm.arena.object array = .ok (.array cls items)) :
      Step vm { vm with
        arena := vm.arena.set array (.object (.array cls (items.set index value))) }
  | reflect {t : Handle} {node : TypeNode} (known : vm.arena.type t = .ok node)
      (missing : node.object = .null) : Step vm { vm with arena := vm.arena.tieObject t node }
  | close {cls : Handle} {args : List Handle} {d : ClassNode} {names : List String}
      {fields : List FieldNode} {methods : List MethodNode}
      (new : Instance.find? cls args vm.classInstances = none)
      (closing : vm.arena.Closing cls args d names fields methods) :
      Step vm { vm with
        arena := vm.arena.append (vm.arena.closedNodes cls args d names fields methods)
        classInstances := ⟨cls, args, vm.arena.next⟩ :: vm.classInstances }
  | instantiate {method : Handle} {m : MethodNode} {args : List Handle} (address : Option Nat)
      (known : vm.arena.method method = .ok m) (types : ∀ t ∈ args, vm.arena.HasType t) :
      Step vm { vm with arena := vm.arena.push (.method (m.instantiated vm.arena args address)) }
  | compile {method : Handle} {m : MethodNode} {args : List Handle} {names : List String}
      {address : Nat} (new : Instance.find? method args vm.methodInstances = none)
      (known : vm.arena.method method = .ok m)
      (named : List.Forall₂ vm.arena.NamesType args names)
      (compiled : compiledAddress? names m.instantiations = some address) :
      Step vm { vm with
        arena := vm.arena.push (.method (m.instantiated vm.arena args (some address)))
        methodInstances := ⟨method, args, vm.arena.next⟩ :: vm.methodInstances }

theorem hasType_of_named {a : Arena} {args : List Handle} {names : List String}
    (h : List.Forall₂ a.NamesType args names) : ∀ t ∈ args, a.HasType t := by
  intro t ht
  obtain ⟨_, _, n, hn, _⟩ := Load.mem_of_forall₂ h.flip ht
  exact ⟨n, hn⟩

theorem Step.later {v w : Vm} (wf : v.WellFormed) (h : v.Step w) : v.Later w := by
  cases h with
  | idle => exact .refl v
  | scratch used =>
      exact ⟨rfl, .refl _, List.suffix_refl _, List.suffix_refl _, used.later wf.scratch⟩
  | string value => exact .of_arena (Arena.later_push _ _)
  | array length known => exact .of_arena (Arena.later_push _ _)
  | slot index value known =>
      exact .of_arena (Arena.later_set (Arena.object_eq_ok.mp known)
        (.array _ List.length_set))
  | reflect known missing => exact .of_arena (Arena.later_tieObject known missing)
  | close new closing =>
      exact ⟨rfl, Arena.later_append _ _, List.suffix_cons _ _, List.suffix_refl _, .refl _⟩
  | instantiate address known types => exact .of_arena (Arena.later_push _ _)
  | compile new known named compiled =>
      exact ⟨rfl, Arena.later_push _ _, List.suffix_refl _, List.suffix_cons _ _, .refl _⟩

theorem Step.wellFormed {v w : Vm} (wf : v.WellFormed) (h : v.Step w) : w.WellFormed := by
  cases h with
  | idle => exact wf
  | scratch used => exact { wf with scratch := used.wellFormed wf.scratch }
  | string value => exact wf.of_arena (Arena.later_push _ _) (wf.arena.push trivial)
  | @array cls length known =>
      have hlater := Arena.later_push v.arena (.object (.array cls (List.replicate length .null)))
      exact wf.of_arena hlater (wf.arena.push (hlater.keeps.hasClass known))
  | slot index value known =>
      have hget := Arena.object_eq_ok.mp known
      have hlater := Arena.later_set hget (.array _ (List.length_set (i := index) (a := value)))
      exact wf.of_arena hlater (wf.arena.set hget (.array _ _ _)
        (hlater.keeps.hasClass (wf.arena _ _ hget)))
  | reflect known missing =>
      exact wf.of_arena (Arena.later_tieObject known missing)
        (Arena.wellFormed_tieObject known missing wf.arena)
  | close new closing =>
      have hgrown := wf.of_arena (Arena.later_append _ _) (closing.wellFormed wf.arena)
      exact { hgrown with
        classInstances := fun i hi => by
          rcases List.mem_cons.mp hi with rfl | hi
          · exact ⟨_, _, closing.closedOver wf.arena⟩
          · exact hgrown.classInstances i hi }
  | instantiate address known types =>
      exact wf.of_arena (Arena.later_push _ _) (wf.arena.instantiated known types address)
  | @compile method m args names address new known named compiled =>
      have types := hasType_of_named named
      have hlater := Arena.later_push v.arena (.method (m.instantiated v.arena args (some address)))
      have hgrown := wf.of_arena hlater (wf.arena.instantiated known types (some address))
      have hcompiled :
          (v.arena.push (.method (m.instantiated v.arena args (some address)))).Compiled
            method args m v.arena.next := {
        definition := hlater.method known
        arguments := fun t ht => hlater.hasType (types t ht)
        result := by
          refine ⟨names, address, named.imp fun _ _ => Arena.NamesType.later hlater, compiled, ?_⟩
          rw [hlater.instantiated wf.arena known]
          exact Arena.method_eq_ok.mpr (Arena.get?_push_next _ _) }
      exact { hgrown with
        methodInstances := fun i hi => by
          rcases List.mem_cons.mp hi with rfl | hi
          · exact ⟨m, hcompiled⟩
          · exact hgrown.methodInstances i hi }

end Vm

end VmMetadata
