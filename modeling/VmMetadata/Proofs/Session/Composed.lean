import VmMetadata.Proofs.Machine.Parameters
import VmMetadata.Proofs.Session.Identity
import VmMetadata.Proofs.Session.Surveyed

/-!
What a client gets who closes a class and then instantiates a method of it. The types of the method
are filled twice, first from the classes that the class is closed over and then from those of the
method. Neither pass sees what the other has put in, as no class has a type parameter for its type.
Main statement: the client gets the method with all its type parameters filled at once, those of the
class from the first list and those of the method from the second.
-/

namespace VmMetadata

open Query (Runs)

/-! ## Two substitutions -/

/-- There is one first place of a name. -/
theorem Substitution.place_unique {σ : Substitution} {name : String} {i j : Nat}
    (hi : σ.names[i]? = some name) (hi' : name ∉ σ.names.take i) (hj : σ.names[j]? = some name)
    (hj' : name ∉ σ.names.take j) : i = j := by
  have hle : ∀ {k l : Nat}, σ.names[k]? = some name → name ∉ σ.names.take l → l ≤ k := by
    intro k l hk hl
    by_contra hlt
    exact hl (List.mem_of_getElem? ((List.getElem?_take_of_lt (Nat.not_le.mp hlt)).trans hk))
  exact Nat.le_antisymm (hle hj hi') (hle hi hj')

namespace Arena

/-- The type stands for a type parameter that a method has of its own. -/
def IsOwnParameter (a : Arena) (type : Handle) (name : String) : Prop :=
  ∃ n, a.type type = .ok n ∧ n.kind = .mvar ∧ n.name = name

def NoParameter (a : Arena) (type : Handle) : Prop :=
  ∃ n, a.type type = .ok n ∧ n.kind.isParameter = false

/-- What becomes of a type if the parameters of a class and those of a method are filled at once.
Each gives way to the type at its place, which is the first that has its name; any other type
stays. A parameter of the one is none of the other, even if it has the same name. -/
inductive FillsBoth (a : Arena) (σ τ : Substitution) (type : Handle) : Handle → Prop
  | ofClass {name : String} {i : Nat} {arg : Handle} (known : a.IsParameter type name)
      (place : σ.names[i]? = some name) (first : name ∉ σ.names.take i)
      (filled : σ.types[i]? = some arg) : FillsBoth a σ τ type arg
  | ofMethod {name : String} {i : Nat} {arg : Handle} (known : a.IsOwnParameter type name)
      (place : τ.names[i]? = some name) (first : name ∉ τ.names.take i)
      (filled : τ.types[i]? = some arg) : FillsBoth a σ τ type arg
  | other (unknown : ∀ name ∈ σ.names, ¬a.IsParameter type name)
      (unowned : ∀ name ∈ τ.names, ¬a.IsOwnParameter type name) : FillsBoth a σ τ type type

variable {a b : Arena} {σ τ : Substitution} {type : Handle}

theorem NoParameter.later (h : a.NoParameter type) (hab : a.Later b) : b.NoParameter type := by
  obtain ⟨n, hn, hkind⟩ := h
  obtain ⟨m, hm, _, hsame, _⟩ := hab.typeClass hn
  exact ⟨m, hm, hsame ▸ hkind⟩

theorem IsOwnParameter.later {name : String} (h : a.IsOwnParameter type name) (hab : a.Later b) :
    b.IsOwnParameter type name := by
  obtain ⟨n, hn, hkind, hname⟩ := h
  obtain ⟨m, hm, hsame, hsame', _⟩ := hab.typeClass hn
  exact ⟨m, hm, hsame'.trans hkind, hsame.trans hname⟩

theorem IsParameter.kind_name {n : TypeNode} {name : String} (h : a.IsParameter type name)
    (hn : a.type type = .ok n) : n.kind = .var ∧ n.name = name := by
  obtain ⟨m, hm, hkind, hname⟩ := h
  cases hm.symm.trans hn
  exact ⟨hkind, hname⟩

theorem IsOwnParameter.kind_name {n : TypeNode} {name : String} (h : a.IsOwnParameter type name)
    (hn : a.type type = .ok n) : n.kind = .mvar ∧ n.name = name := by
  obtain ⟨m, hm, hkind, hname⟩ := h
  cases hm.symm.trans hn
  exact ⟨hkind, hname⟩

theorem NoParameter.substitute_eq (h : a.NoParameter type) (σ τ : Substitution) :
    a.substitute σ τ type = type := by
  obtain ⟨n, hn, hkind⟩ := h
  refine substitute_of_ne hn (fun hvar => ?_) (fun hmvar => ?_) σ τ
  · rw [hvar] at hkind
    cases hkind
  · rw [hmvar] at hkind
    cases hkind

/-- The second pass leaves alone what the first has put in, so both can be made at once. -/
theorem substitute_substitute (hσ : ∀ t ∈ σ.types, a.NoParameter t) (htype : a.HasType type) :
    a.substitute .empty τ (a.substitute σ .empty type) = a.substitute σ τ type := by
  obtain ⟨n, hn⟩ := htype
  by_cases hvar : n.kind = .var
  · rw [substitute_var hn hvar, substitute_var hn hvar]
    cases hfind : σ.find? n.name with
    | none => rw [Option.getD_none, substitute_var hn hvar, Substitution.find?_empty,
        Option.getD_none]
    | some arg =>
        obtain ⟨i, _, hi⟩ := Option.bind_eq_some_iff.mp hfind
        exact (hσ arg (List.mem_of_getElem? hi)).substitute_eq .empty τ
  by_cases hmvar : n.kind = .mvar
  · rw [substitute_mvar hn hmvar σ, Substitution.find?_empty, Option.getD_none,
      substitute_mvar hn hmvar, substitute_mvar hn hmvar]
  · rw [substitute_of_ne hn hvar hmvar σ, substitute_of_ne hn hvar hmvar,
      substitute_of_ne hn hvar hmvar]

theorem fillsBoth_substitute (hσ : σ.names.length = σ.types.length)
    (hτ : τ.names.length = τ.types.length) (htype : a.HasType type) :
    a.FillsBoth σ τ type (a.substitute σ τ type) := by
  obtain ⟨n, hn⟩ := htype
  by_cases hvar : n.kind = .var
  · rw [substitute_var hn hvar]
    rcases σ.find?_cases hσ n.name with
      ⟨hfind, hunknown⟩ | ⟨i, arg, hfind, place, first, filled⟩
    · rw [hfind]
      refine .other (fun name hname h => hunknown ((h.kind_name hn).2 ▸ hname)) fun name _ h => ?_
      cases hvar.symm.trans (h.kind_name hn).1
    · rw [hfind]
      exact .ofClass ⟨n, hn, hvar, rfl⟩ place first filled
  by_cases hmvar : n.kind = .mvar
  · rw [substitute_mvar hn hmvar]
    rcases τ.find?_cases hτ n.name with
      ⟨hfind, hunknown⟩ | ⟨i, arg, hfind, place, first, filled⟩
    · rw [hfind]
      refine .other (fun name _ h => ?_) fun name hname h => hunknown ((h.kind_name hn).2 ▸ hname)
      cases hmvar.symm.trans (h.kind_name hn).1
    · rw [hfind]
      exact .ofMethod ⟨n, hn, hmvar, rfl⟩ place first filled
  · rw [substitute_of_ne hn hvar hmvar]
    exact .other (fun _ _ h => hvar (h.kind_name hn).1) fun _ _ h => hmvar (h.kind_name hn).1

/-- A type becomes one thing only. -/
theorem FillsBoth.unique {t u : Handle} (ht : a.FillsBoth σ τ type t)
    (hu : a.FillsBoth σ τ type u) : t = u := by
  have hapart : ∀ {x y : String}, a.IsParameter type x → ¬a.IsOwnParameter type y := by
    rintro x y ⟨n, hn, hvar, _⟩ hown
    cases hvar.symm.trans (hown.kind_name hn).1
  cases ht with
  | ofClass known place first filled =>
      cases hu with
      | ofClass known' place' first' filled' =>
          cases known.unique known'
          cases Substitution.place_unique place first place' first'
          exact Option.some.inj (filled.symm.trans filled')
      | ofMethod known' => exact absurd known' (hapart known)
      | other unknown => exact absurd known (unknown _ (List.mem_of_getElem? place))
  | ofMethod known place first filled =>
      cases hu with
      | ofClass known' => exact absurd known (hapart known')
      | ofMethod known' place' first' filled' =>
          obtain ⟨n, hn, _, rfl⟩ := known
          obtain rfl := (known'.kind_name hn).2
          cases Substitution.place_unique place first place' first'
          exact Option.some.inj (filled.symm.trans filled')
      | other _ unowned => exact absurd known (unowned _ (List.mem_of_getElem? place))
  | other unknown unowned =>
      cases hu with
      | ofClass known place => exact absurd known (unknown _ (List.mem_of_getElem? place))
      | ofMethod known place => exact absurd known (unowned _ (List.mem_of_getElem? place))
      | other => rfl

end Arena

namespace MethodNode

variable (n : MethodNode) (a : Arena) (σ τ : Substitution) (r : Handle) (address : Option Nat)

/-- The method of the class `r` with all its type parameters filled at once. -/
def composed : MethodNode :=
  { n.substituted a σ τ with
    «class» := r
    typeParameters := []
    inflated := true
    address
    instantiations := [] }

variable {n a σ}

/-- Closing the class and then instantiating the method fills all type parameters at once. -/
theorem instantiated_closed {h : Handle} (wf : a.WellFormed) (hn : a.method h = .ok n)
    (hσ : ∀ t ∈ σ.types, a.NoParameter t) (owns : List Handle) :
    (n.closed a σ r).instantiated a owns address =
      n.composed a σ ⟨n.typeParameters, owns⟩ r address := by
  obtain ⟨_, hreturn, hparameters⟩ := wf.method hn
  have hps : (n.closed a σ r).parameters.map (fun p =>
        (p.1, a.substitute .empty ⟨n.typeParameters, owns⟩ p.2)) =
      n.parameters.map fun p => (p.1, a.substitute σ ⟨n.typeParameters, owns⟩ p.2) := by
    rw [closed, substituted, List.map_map]
    refine List.map_congr_left fun p hp => ?_
    exact congrArg (p.1, ·) (Arena.substitute_substitute hσ (hparameters p hp))
  have hret : a.substitute .empty ⟨n.typeParameters, owns⟩ (n.closed a σ r).returnType =
      a.substitute σ ⟨n.typeParameters, owns⟩ n.returnType :=
    Arena.substitute_substitute hσ hreturn
  unfold instantiated composed substituted
  rw [← hps, ← hret]
  rfl

end MethodNode

/-! ## Texts -/

/-- The type stands for what a text refers to: a type parameter of the method, else one of the
class, else none of them. -/
inductive Arena.StandsFor (a : Arena) (type : Handle) : TypeRef → Prop
  | ofMethod {name : String} (own : a.IsOwnParameter type name) : StandsFor a type (.ofMethod name)
  | ofClass {name : String} (known : a.IsParameter type name) : StandsFor a type (.ofClass name)
  | global {name : String} (bare : a.NoParameter type) : StandsFor a type (.global name)

theorem Arena.HoldsType.standsFor {a : Arena} {type : Handle} {s : Snapshot} {r : TypeRef}
    (h : a.HoldsType type (s.typeNode r)) : a.StandsFor type r := by
  obtain ⟨n, hn, hname, hkind, _⟩ := h
  cases r with
  | ofMethod => exact .ofMethod ⟨n, hn, hkind, hname⟩
  | ofClass => exact .ofClass ⟨n, hn, hkind, hname⟩
  | global name =>
      have hnamed := TypeKind.isParameter_of_named _ (TypeRef.kind_nodeIn_global s.entries name)
      exact .global ⟨n, hn, hkind ▸ hnamed⟩

/-- The method of the class has the type parameters that are described, and its types stand for what
their texts refer to. -/
structure MethodDescription.ReadsAs (m : MethodDescription) (c : ClassDescription) (a : Arena)
    (n : MethodNode) : Prop where
  typeParameters : n.typeParameters = m.typeParameters
  returnType : a.StandsFor n.returnType (.ofText m.returnType c.typeParameters m.typeParameters)
  parameters : List.Forall₂ (fun (p : ParameterDescription) (q : String × Handle) =>
    q.1 = p.name ∧ a.StandsFor q.2 (.ofText p.type c.typeParameters m.typeParameters))
    m.parameters n.parameters

theorem MethodDescription.StandsAt.readsAs {m : MethodDescription} {c : ClassDescription}
    {s : Snapshot} {place : TypeRef → Handle} {a : Arena} {cls h : Handle}
    (hm : m.StandsAt s place a c cls h) : ∃ n, a.method h = .ok n ∧ m.ReadsAs c a n := by
  refine ⟨_, hm.node, rfl, hm.returnType.standsFor, List.forall₂_map_right_iff.mpr ?_⟩
  exact List.forall₂_same.mpr fun p hp => ⟨rfl, (hm.parameters p hp).standsFor⟩

/-- The methods of a class whose names are kept apart read as they are described. -/
theorem Session.On.methods_readAs {snapshot : Snapshot} {vm : Vm} {config : Config}
    {s t : Session} (hvm : Vm.ofSnapshot snapshot = .ok vm)
    (hattach : Session.attach vm config = .ok s) (hplain : snapshot.Plain) (later : s.Later t)
    {h : Handle} {c : ClassDescription} (hc : snapshot.Describes h c) {d : ClassNode}
    (hd : t.vm.arena.class_ h = .ok d) :
    d.typeParameters = c.typeParameters ∧ List.Forall₂ (fun (m : MethodDescription) k =>
      ∃ n, t.vm.arena.method k = .ok n ∧ m.ReadsAs c t.vm.arena n) c.methods d.methods := by
  obtain ⟨place, hstands⟩ := Session.stands_of_attach hvm hattach hplain
  obtain ⟨p, hp, hmem⟩ := hc
  obtain ⟨type, fields, methods, hclass, _, _, _, hmethods⟩ :=
    (List.forall₂_iff_zip.mp (hstands.later later.vm.arena p hp)).2 hmem
  cases hclass.symm.trans hd
  exact ⟨rfl, hmethods.imp fun m k hm => hm.readsAs⟩

/-! ## What the client is told -/

namespace Session

variable {s t : Session}

/-- Whatever a client does, types that stand for type parameters are the types of no class. -/
theorem History.bare {snapshot : Snapshot} {vm : Vm} {config : Config} (history : s.History t)
    (hvm : Vm.ofSnapshot snapshot = .ok vm) (hattach : Session.attach vm config = .ok s) :
    t.vm.arena.Bare := by
  obtain ⟨version, layout, _, rfl⟩ := Session.attach_eq_ok.mp hattach
  have wf := Vm.wellFormed_ofSnapshot hvm
  have onward := history.course.onward (Session.intact_new wf version layout)
  exact onward.machine.bare wf (Vm.bare_ofSnapshot hvm)

/-- The types of classes are no type parameters. -/
theorem TypesOf.noParameter (wf : s.vm.WellFormed) (hbare : s.vm.arena.Bare) {cs : List Class}
    {types : List Handle} (h : s.TypesOf cs types) : ∀ t ∈ types, s.vm.arena.NoParameter t := by
  intro type hmem
  obtain ⟨c, _, htype⟩ := Load.mem_of_forall₂ h hmem
  obtain ⟨d, hd, rfl⟩ := Vm.tells_classType.mp htype
  obtain ⟨n, hn, _⟩ := (wf.arena.class_ hd).type
  exact ⟨n, hn, wf.isParameter_classType hbare htype hn⟩

/-- The view shows the method of the class `r` that is `n` with its type parameters filled, and its
getters say so whatever the client does in between. -/
structure ShowsComposed (s : Session) (n : MethodNode) (r : Handle) (σ τ : Substitution)
    (q : Method) : Prop where
  shown : s.Shows q
  isGeneric : s.Yields q.isGeneric false
  isInflated : s.Yields q.isInflated true
  name : s.Yields q.name n.name
  flags : s.Yields q.flags n.flags
  class_ : s.Answers q.class_ fun c _ => c.handle = r
  returnType : s.Answers q.returnType fun t _ =>
    s.vm.arena.FillsBoth σ τ n.returnType t.handle
  parameters : s.Answers q.parameters fun ps _ => List.Forall₂ (fun p x =>
    x.name = p.1 ∧ s.vm.arena.FillsBoth σ τ p.2 x.type.handle) (counted n.parameters) ps

theorem showsComposed_of_node (hs : s.Sound) {q : Method} (hq : s.Shows q) {k r : Handle}
    {n : MethodNode} (hn : s.vm.arena.method k = .ok n) {σ τ : Substitution}
    (hσ : σ.names.length = σ.types.length) (hτ : τ.names.length = τ.types.length)
    {address : Option Nat}
    (hnode : s.vm.arena.method q.handle = .ok (n.composed s.vm.arena σ τ r address)) :
    s.ShowsComposed n r σ τ q := by
  obtain ⟨_, hreturn, hparameters⟩ := hs.vm.arena.method hn
  obtain ⟨⟨cls, hcls⟩, ⟨type, htype⟩, htypes⟩ := hs.vm.arena.method hnode
  constructor
  case shown => exact hq
  case isGeneric => exact Method.isGeneric_yields hq hnode
  case isInflated => exact Method.isInflated_yields hq hnode
  case name => exact (Method.name_yields hq hnode :)
  case flags => exact (Method.flags_yields hq hnode :)
  case class_ =>
    have hne := Arena.ne_null_of_get? (Arena.class_eq_ok.mp hcls)
    exact (Method.class_answers hq hnode hne).weaken fun _ _ _ h => h.1
  case returnType =>
    have hne := Arena.ne_null_of_get? (Arena.type_eq_ok.mp htype)
    refine (Method.returnType_answers hq hnode hne).weaken fun _ _ _ h => h.1 ▸ ?_
    exact Arena.fillsBoth_substitute hσ hτ hreturn
  case parameters =>
    refine (Method.parameters_answers hq hnode htypes).weaken fun ps _ _ hps => ?_
    -- the parameters are those of the node, which are those of `n` with their types replaced
    have hkeys : List.Forall₂ (fun p x => x.1 = p.1 ∧ s.vm.arena.FillsBoth σ τ p.2 x.2)
        (counted n.parameters) (ps.map Method.parameterKey) := by
      rw [hps.1, MethodNode.composed, MethodNode.substituted, counted_map]
      refine List.forall₂_map_right_iff.mpr (List.forall₂_same.mpr fun p hp => ⟨rfl, ?_⟩)
      exact Arena.fillsBoth_substitute hσ hτ (hparameters p (mem_of_mem_counted hp))
    exact List.forall₂_map_right_iff.mp hkeys

/-- The method `m` of the class `r`, which is `n` of the definition, can be instantiated over all
classes: if they can be counted the client gets `n` with all its type parameters filled. -/
def Composes (s : Session) (n : MethodNode) (r : Handle) (σ : Substitution) (m : Method) : Prop :=
  ∀ bs : List Class, (∀ b ∈ bs, s.Shows b ∧ s.vm.arena.HasClass b.handle) →
    bs.length = n.typeParameters.length → ∃ owns, s.TypesOf bs owns ∧
      if bs.length < 0x1_0000_0000 then
        ∃ q t, m.inflate bs s = .ok q t ∧ t.ShowsComposed n r σ ⟨n.typeParameters, owns⟩ q
      else ∃ t, m.inflate bs s = .error
        (.genericArity n.name (word32 n.typeParameters.length) bs.length) t

/-- A method of a closed class composes. -/
theorem On.composes {snapshot : Snapshot} (hs : s.On snapshot)
    (hreflection : (firstNamed? "System" "Type" snapshot.corlibSite.described).isSome)
    {k r : Handle} {n : MethodNode} (hn : s.vm.arena.method k = .ok n)
    (hgeneric : n.typeParameters ≠ []) {σ : Substitution} (hσ : σ.names.length = σ.types.length)
    (hbare : ∀ t ∈ σ.types, s.vm.arena.NoParameter t) {m : Method} (hm : s.Shows m)
    (hclosed : s.vm.arena.method m.handle = .ok (n.closed s.vm.arena σ r)) :
    s.Composes n r σ m := by
  intro bs hbs hlength
  have hshown : ∀ b ∈ bs, s.Shows b := fun b hb => (hbs b hb).1
  have hclasses : ∀ b ∈ bs, s.vm.arena.HasClass b.handle := fun b hb => (hbs b hb).2
  obtain ⟨owns, howns⟩ := TypesOf.exists hs.sound.vm hclasses
  have hτ : n.typeParameters.length = owns.length := hlength.symm.trans howns.length_eq
  refine ⟨owns, howns, ?_⟩
  split
  · rename_i hcount
    have can : s.CanInstantiate m.handle bs :=
      .of_count ⟨hcount, hclasses, hs.knowsClass_iff.mpr hreflection⟩ hclosed hgeneric hlength.symm
        howns
    obtain ⟨q, t, run, later, sound, hq, types, htypes, node, names, hnode, _, hinstance⟩ :=
      ((Method.inflate_agrees (.refl hs.sound) hm hshown).runs.weaken (fun _ _ _ hv => hv)
        fun hno => hno can).exists_ok
    cases htypes.unique (howns.later later)
    cases hnode.symm.trans (later.vm.arena.method hclosed)
    have hn' := later.vm.arena.method hn
    have hbare' : ∀ t' ∈ σ.types, t.vm.arena.NoParameter t' :=
      fun t' ht' => (hbare t' ht').later later.vm.arena
    rw [← later.vm.arena.closed hs.sound.vm.arena hn σ r,
      MethodNode.instantiated_closed r _ sound.vm.arena hn' hbare'] at hinstance
    exact ⟨q, t, run, showsComposed_of_node sound hq hn' hσ hτ hinstance⟩
  · rename_i hcount
    obtain ⟨t, run, _⟩ := Method.inflate_of_arity hs.sound hm hclosed hgeneric fun heq =>
      hcount (hlength ▸ word32_eq_self_iff.mp (heq.symm.trans hlength))
    exact ⟨t, run⟩

end Session

/-- Closing a class and then instantiating a method of it fills all type parameters at once: those
of the class with the types that it is closed over, those of the method with its own. This goes for
all classes, as long as they can be counted. If the names of the snapshot are kept apart, a
text stands for a parameter of the method before it stands for one of the class. -/
theorem Class.inflate_composes {snapshot : Snapshot} {vm : Vm} {config : Config} {s t : Session}
    (hvm : Vm.ofSnapshot snapshot = .ok vm) (hattach : Session.attach vm config = .ok s)
    (hreflection : (firstNamed? "System" "Type" snapshot.corlibSite.described).isSome)
    (history : s.History t) {c : Class} (hc : t.Shows c) {d : ClassNode}
    (hd : t.vm.arena.class_ c.handle = .ok d) (hopen : d.isOpen = true) {cs : List Class}
    (hcs : ∀ a ∈ cs, t.Shows a ∧ t.vm.arena.HasClass a.handle)
    (harity : cs.length = d.typeParameters.length) :
    ∃ args, t.TypesOf cs args ∧
      (if cs.length < 0x1_0000_0000 then
        ∃ r u, c.inflate cs t = .ok r u ∧ ∀ w, u.History w → ∃ ms x, r.methods w = .ok ms x ∧
          List.Forall₂ (fun k (m : Method) => ∃ n, t.vm.arena.method k = .ok n ∧
            (n.typeParameters ≠ [] → ∀ y, x.History y →
              y.Composes n r.handle ⟨d.typeParameters, args⟩ m)) d.methods ms
      else ∃ name u, t.vm.TellsTypeName c.handle name ∧ c.inflate cs t =
        .error (.genericArity name (word32 d.typeParameters.length) cs.length) u) ∧
      (snapshot.Plain → ∀ desc, snapshot.Describes c.handle desc →
        d.typeParameters = desc.typeParameters ∧
          List.Forall₂ (fun (m : MethodDescription) k =>
            ∃ n, t.vm.arena.method k = .ok n ∧ m.ReadsAs desc t.vm.arena n)
            desc.methods d.methods) := by
  have hs := Session.On.of_attach hvm hattach
  obtain ⟨later, sound⟩ := history.sound hs
  have ht := hs.later later sound
  have hshown : ∀ a ∈ cs, t.Shows a := fun a ha => (hcs a ha).1
  have hclasses : ∀ a ∈ cs, t.vm.arena.HasClass a.handle := fun a ha => (hcs a ha).2
  obtain ⟨args, hargs⟩ := Session.TypesOf.exists sound.vm hclasses
  refine ⟨args, hargs, ?_, fun hplain desc hdesc =>
    Session.On.methods_readAs hvm hattach hplain later hdesc hd⟩
  split
  · rename_i hcount
    have hbare := hargs.noParameter sound.vm (history.bare hvm hattach)
    have hclose : t.CanClose c.handle cs :=
      ⟨⟨hcount, hclasses, ht.knowsClass_iff.mpr hreflection⟩, d, hd, hopen, harity.symm⟩
    obtain ⟨r, u, run, later', sound', hr, e, hclosed⟩ :=
      (inflate_closes sound hc hshown hd hargs hclose).exists_ok
    have hu := ht.later later' sound'
    refine ⟨r, u, run, fun w hw => ?_⟩
    obtain ⟨laterw, soundw⟩ := hw.sound hu
    obtain ⟨ms, x, hms, laterx, soundx, hall⟩ := (methods_of_closedOver soundw
      (hr.later laterw) (hclosed.later laterw.vm.arena sound'.vm.arena)).exists_ok
    have hx := (hu.later laterw soundw).later laterx soundx
    have hlater := (later'.trans laterw).trans laterx
    have hmethods : ∀ k ∈ d.methods, ∃ n, t.vm.arena.method k = .ok n ∧ n.class = c.handle :=
      (sound.vm.arena.class_ hd).methods
    refine ⟨ms, x, hms, ((List.forall₂_and_left _ _).mpr ⟨hmethods, hall⟩).imp
      fun k m ⟨⟨n, hn, _⟩, hm, hcopy⟩ => ?_⟩
    refine ⟨n, hn, fun hgeneric y hy => ?_⟩
    obtain ⟨latery, soundy⟩ := hy.sound hx
    obtain ⟨n', hn', hcopy⟩ := hcopy.later latery.vm.arena soundx.vm.arena
    have hlater := hlater.trans latery
    cases hn'.symm.trans (hlater.vm.arena.method hn)
    exact (hx.later latery soundy).composes hreflection hn' hgeneric hclosed.arity
      (fun type htype => (hbare type htype).later hlater.vm.arena) (hm.later latery) hcopy
  · rename_i hcount
    obtain ⟨name, hname⟩ := sound.vm.tellsTypeName ⟨d, hd⟩
    obtain ⟨u, run, _⟩ := inflate_of_arity sound hc hd hname cs hopen fun heq =>
      hcount (harity ▸ word32_eq_self_iff.mp (heq.symm.trans harity))
    exact ⟨name, u, hname, run⟩

/-- A generic class with a method whose type parameter has the name of the one of the class. -/
def Snapshot.shadowing : Snapshot :=
  { Snapshot.small with
    assemblies :=
      { image := "Game.dll"
        classes := [
          { name := "Pool"
            typeParameters := ["T"]
            methods := [
              { name := "Swap", returnType := "T", parameters := [{ name := "item", type := "T" }],
                typeParameters := ["T"], address := some 0x1040 }] }] } ::
        Snapshot.small.assemblies.drop 1 }

/-- The class is closed over one class and the method is instantiated over another: the method
returns the other. -/
theorem Class.inflate_composes_shadowing :
    let s := Session.new Snapshot.shadowing.machine ⟨2020, 3, 1, some "f1"⟩ .current
    let c : Class := ⟨Arena.handleAt 2, s.notebook.next⟩
    let v := (Query.view .class_ c.handle).leaves s
    let root : Class := ⟨Arena.handleAt 6, v.notebook.next⟩
    let w := (Query.view .class_ root.handle).leaves v
    let mirror : Class := ⟨Arena.handleAt 8, w.notebook.next⟩
    let t := (Query.view .class_ mirror.handle).leaves w
    s.History t ∧ ∃ r u ms x, c.inflate [root] t = .ok r u ∧ r.methods u = .ok ms x ∧
      ∃ m ∈ ms, ∃ q z, m.inflate [mirror] x = .ok q z ∧ (∃ y, q.isGeneric z = .ok false y) ∧
        ∃ type y, q.returnType z = .ok type y ∧
          t.vm.Tells (.classType mirror.handle) type.handle := by
  intro s c v root w mirror t
  have hvm := Vm.ofSnapshot_machine (s := Snapshot.shadowing) (Or.inr rfl)
  have hattach : Session.attach Snapshot.shadowing.machine = .ok s :=
    Session.attach_eq_ok.mpr ⟨_, _, by decide +kernel, rfl⟩
  have history : s.History t :=
    ((Session.History.start.view .class_ c.handle).view .class_ root.handle).view .class_
      mirror.handle
  have hs := Session.On.of_attach hvm hattach
  obtain ⟨later, sound⟩ := history.sound hs
  have ht := hs.later later sound
  have hpool : Snapshot.shadowing.Describes c.handle Snapshot.shadowing.sites[0].described[0] :=
    Snapshot.describes_of_site (i := 0) (by decide) (by decide +kernel)
  have hobject : Snapshot.shadowing.Describes root.handle
      Snapshot.shadowing.sites[1].described[0] :=
    Snapshot.describes_of_site (i := 1) (by decide) (by decide +kernel)
  have htype : Snapshot.shadowing.Describes mirror.handle
      Snapshot.shadowing.sites[1].described[1] :=
    Snapshot.describes_of_site (i := 1) (by decide) (by decide +kernel)
  obtain ⟨d, hd⟩ := ht.liesAt hpool
  obtain ⟨n, hn⟩ := ht.liesAt hobject
  obtain ⟨n', hn'⟩ := ht.liesAt htype
  have hc : t.Shows c := ⟨by decide +kernel, by decide +kernel⟩
  have hargument : ∀ a ∈ [root], t.Shows a ∧ t.vm.arena.HasClass a.handle := by
    simpa using ⟨⟨by decide +kernel, by decide +kernel⟩, n, hn.node⟩
  have hmirror : t.Shows mirror := ⟨by decide +kernel, by decide +kernel⟩
  obtain ⟨args, _, hclose, hreads⟩ :=
    Class.inflate_composes hvm hattach (by decide +kernel) history hc hd.node
      (hd.isOpen_eq.trans (by decide +kernel)) hargument
      (hd.typeParameters.symm ▸ by decide +kernel)
  have hcount : [root].length < 0x1_0000_0000 := by decide
  rw [if_pos hcount] at hclose
  obtain ⟨r, u, hrun, hclose⟩ := hclose
  obtain ⟨ms, x, hms, hall⟩ := hclose u .start
  -- the one method reads as it is described
  obtain ⟨_, hreads⟩ := hreads (by decide +kernel) _ hpool
  obtain ⟨k, _, ⟨node, hnode, hswap⟩, _, hmethods⟩ := List.forall₂_cons_left_iff.mp hreads
  rw [hmethods] at hall
  obtain ⟨m, others, ⟨node', hnode', hcomposes⟩, _, rfl⟩ := List.forall₂_cons_left_iff.mp hall
  cases hnode'.symm.trans hnode
  obtain ⟨later₁, sound₁, hr, _⟩ := (Class.inflate_agrees (.refl sound) hc
    fun a ha => (hargument a ha).1).runs.of_ok hrun
  obtain ⟨later₂, sound₂, hm, _⟩ := (Class.methods_agrees (.refl sound₁) hr).runs.of_ok hms
  have hx := later₁.trans later₂
  have hmirrors : ∀ b ∈ [mirror], x.Shows b ∧ x.vm.arena.HasClass b.handle := by
    simpa using ⟨hmirror.later hx, n', hx.vm.arena.class_ hn'.node⟩
  have hparameters : node.typeParameters = ["T"] := hswap.typeParameters
  obtain ⟨owns, howns, hcompose⟩ := hcomposes (hparameters ▸ List.cons_ne_nil _ _) x .start [mirror]
    hmirrors (hparameters ▸ rfl)
  rw [if_pos (by decide : [mirror].length < 0x1_0000_0000)] at hcompose
  obtain ⟨q, z, hinflate, hq⟩ := hcompose
  obtain ⟨later₃, sound₃, _⟩ := (Method.inflate_agrees (.refl sound₂) (hm _ List.mem_cons_self)
    fun b hb => (hmirrors b hb).1).runs.of_ok hinflate
  obtain ⟨_, y, hgeneric, _, _, rfl⟩ := (hq.isGeneric z (.refl z) sound₃).exists_ok
  obtain ⟨type, y', hreturn, _, _, hfills⟩ := (hq.returnType z (.refl z) sound₃).exists_ok
  refine ⟨history, r, u, m :: others, x, hrun, hms, ?_⟩
  refine ⟨m, List.mem_cons_self, q, z, hinflate, ⟨y, hgeneric⟩, type, y', hreturn, ?_⟩
  -- its text stands for its own parameter, whose place the other class takes
  have href : TypeRef.ofText "T" ["T"] ["T"] = .ofMethod "T" := by decide +kernel
  have hown : t.vm.arena.IsOwnParameter node.returnType "T" := by
    have hreturn := hswap.returnType
    change t.vm.arena.StandsFor node.returnType (.ofText "T" ["T"] ["T"]) at hreturn
    rw [href] at hreturn
    cases hreturn with
    | ofMethod own => exact own
  obtain ⟨o, rest, ho, _, rfl⟩ := List.forall₂_cons_left_iff.mp howns
  have hfilled : z.vm.arena.FillsBoth ⟨d.typeParameters, args⟩ ⟨node.typeParameters, o :: rest⟩
      node.returnType o :=
    .ofMethod (hown.later (hx.trans later₃).vm.arena) (hparameters ▸ List.getElem?_cons_zero)
      (by simp) List.getElem?_cons_zero
  cases hfills.unique hfilled
  obtain ⟨o', ho', _⟩ := sound.vm.tells_classType ⟨n', hn'.node⟩
  exact ho.unique (ho'.later rfl hx.vm) ▸ ho'

end VmMetadata
