import VmMetadata.Inspect.Declaration
import VmMetadata.Inspect.Domain
import VmMetadata.Proofs.Session.Agree

/-!
Getters of views. Each getter yields what the machine tells about the object, whether it is asked
now or the answer was noted before, and it fails only if the machine tells nothing that will do.
-/

namespace VmMetadata

open Query (Agree Agrees)

namespace Vm

theorem TellsTypeName.later {v w : Vm} {cls : Handle} {name : String}
    (h : v.TellsTypeName cls name) (hvw : v.Later w) : w.TellsTypeName cls name :=
  hvw.repeats.typeName h

theorem TellsTypeName.unique {vm : Vm} {cls : Handle} {name name' : String}
    (h : vm.TellsTypeName cls name) (k : vm.TellsTypeName cls name') : name = name' := by
  obtain ⟨t, _, ht, hname⟩ := h
  obtain ⟨u, _, hu, hname'⟩ := k
  rw [ht.unique hu] at hname
  exact hname.unique hname'

theorem TellsTypeName.ne_null {vm : Vm} {cls : Handle} {name : String}
    (h : vm.TellsTypeName cls name) : cls ≠ .null := by
  obtain ⟨_, _, ht, _⟩ := h
  obtain ⟨n, hn, _⟩ := tells_classType.mp ht
  exact Arena.ne_null_of_get? (Arena.class_eq_ok.mp hn)

/-- The address column of a method whose body lies at the pointer. -/
def token? (vm : Vm) (pointer : Nat) : Option String :=
  if pointer = 0 then none else some (addressToken vm.moduleBase vm.pointerSize pointer)

theorem Later.token? {v w : Vm} (h : v.Later w) (pointer : Nat) :
    w.token? pointer = v.token? pointer := by
  unfold Vm.token?
  rw [h.catalog]

end Vm

variable {s₁ s₂ : Session}

/-! ## Types and fields -/

namespace TypeView

variable (h : s₁.Alike s₂) {t : TypeView} (ht : s₁.Shows t)
include h ht

theorem name_agrees : Agrees t.name s₁ s₂ (fun v t₁ => t₁.vm.Tells (.typeName t.handle) v)
    (∀ v, ¬s₁.vm.Tells (.typeName t.handle) v) :=
  .remember h ht.2 rfl (.tell h rfl rfl)

theorem object_agrees : Agrees t.object s₁ s₂
    (fun o t₁ => t₁.Shows o ∧ t₁.vm.arena.object o.handle = .ok (.typeObject t.handle))
    ¬s₁.vm.arena.HasType t.handle := by
  have hmake := Agree.ask h (c := .typeObject t.handle) rfl
    (Access.typeObject_steps h.left.vm t.handle)
  have hnote : Agrees (Query.remember t.page .typeObject do
      Query.lift ((← Query.ask (.typeObject t.handle)).require "type object")) s₁ s₂
      (fun o t₁ => o ≠ .null ∧ t₁.vm.arena.object o = .ok (.typeObject t.handle))
      ¬s₁.vm.arena.HasType t.handle := by
    refine .remember h ht.2 rfl (hmake.bind fun o t₁ t₂ on ho => ?_)
    refine (Agree.require on.alike o "type object").weaken ?_ fun hnull => ?_
    · rintro k u hlater ⟨rfl, hne⟩
      exact ⟨hne, hlater.vm.arena.typeObject ho⟩
    · exact absurd hnull (Arena.ne_null_of_get? (Arena.object_eq_ok.mp ho))
  refine hnote.bind fun o t₁ t₂ on ho => (Agree.view on.alike .object o).weaken ?_ fun hnull => ?_
  · rintro v u hlater ⟨hshows, rfl⟩
    exact ⟨hshows, hlater.vm.arena.typeObject ho.2⟩
  · exact absurd hnull ho.1

end TypeView

namespace Field

variable (h : s₁.Alike s₂) {f : Field} (hf : s₁.Shows f)
include h hf

theorem name_agrees : Agrees f.name s₁ s₂ (fun v t => t.vm.Tells (.fieldName f.handle) v)
    (∀ v, ¬s₁.vm.Tells (.fieldName f.handle) v) :=
  .remember h hf.2 rfl (.tell h rfl rfl)

theorem type_agrees : Agrees f.type s₁ s₂ (fun v t => t.ShowsAt (.fieldType f.handle) v)
    (∀ k, s₁.vm.Tells (.fieldType f.handle) k → k = .null) :=
  .remember h hf.2 rfl (.viewOf h .type rfl rfl)

theorem offset_agrees : Agrees f.offset s₁ s₂ (fun v t => t.vm.Tells (.fieldOffset f.handle) v)
    (∀ v, ¬s₁.vm.Tells (.fieldOffset f.handle) v) :=
  .remember h hf.2 rfl (.tell h rfl rfl)

theorem flags_agrees : Agrees f.flags s₁ s₂ (fun v t => t.vm.Tells (.fieldFlags f.handle) v)
    (∀ v, ¬s₁.vm.Tells (.fieldFlags f.handle) v) :=
  .remember h hf.2 rfl (.tell h rfl rfl)

end Field

/-! ## Images and assemblies -/

namespace Image

variable (h : s₁.Alike s₂) {i : Image} (hi : s₁.Shows i)
include h hi

theorem name_agrees : Agrees i.name s₁ s₂ (fun v t => t.vm.Tells (.imageName i.handle) v)
    (∀ v, ¬s₁.vm.Tells (.imageName i.handle) v) :=
  .remember h hi.2 rfl (.tell h rfl rfl)

theorem classCount_agrees : Agrees i.classCount s₁ s₂
    (fun v t => t.vm.Tells (.imageClassCount i.handle) v)
    (∀ v, ¬s₁.vm.Tells (.imageClassCount i.handle) v) :=
  .remember h hi.2 rfl (.tell h rfl rfl)

end Image

namespace Assembly

variable (h : s₁.Alike s₂) {a : Assembly} (ha : s₁.Shows a)
include h ha

theorem image_agrees : Agrees a.image s₁ s₂ (fun v t => t.ShowsAt (.assemblyImage a.handle) v)
    (∀ k, s₁.vm.Tells (.assemblyImage a.handle) k → k = .null) :=
  .remember h ha.2 rfl (.viewOf h .image rfl rfl)

theorem name_agrees : Agrees a.name s₁ s₂
    (fun v t => ∃ image text, t.vm.Tells (.assemblyImage a.handle) image ∧
      t.vm.Tells (.imageName image) text ∧ v = assemblyNameOf text)
    (∀ image text, image ≠ .null → s₁.vm.Tells (.assemblyImage a.handle) image →
      ¬s₁.vm.Tells (.imageName image) text) := by
  refine .remember h ha.2 rfl ?_
  have himage := (image_agrees h ha).weaken (F := ∀ image text, image ≠ .null →
      s₁.vm.Tells (.assemblyImage a.handle) image → ¬s₁.vm.Tells (.imageName image) text)
    (fun _ _ _ hv => hv) fun hnull image _ hne himage => absurd (hnull image himage) hne
  refine himage.bind fun i t₁ t₂ on hi => ?_
  have hname := (Image.name_agrees on.alike hi.1).weaken (F := ∀ image text, image ≠ .null →
      s₁.vm.Tells (.assemblyImage a.handle) image → ¬s₁.vm.Tells (.imageName image) text)
    (fun _ _ _ hv => hv) fun hnone image text _ himage htext => by
      rw [(himage.later rfl on.left.vm).unique hi.2] at htext
      exact hnone text (htext.later rfl on.left.vm)
  exact hname.bind fun text u₁ u₂ on' htext =>
    .pure on'.alike ⟨i.handle, text, hi.2.later rfl on'.left.vm, htext, rfl⟩

end Assembly

namespace Domain

theorem assemblies_agrees (h : s₁.Alike s₂) {d : Domain} (hd : s₁.Shows d) :
    Agrees d.assemblies s₁ s₂ (fun as t => t.ShowsAll (.domainAssemblies d.handle) as)
      (∀ ks, s₁.vm.Tells (.domainAssemblies d.handle) ks → Handle.null ∈ ks) :=
  .remember h hd.2 rfl (.viewsOf h .assembly rfl rfl)

end Domain

/-! ## Classes -/

namespace Class

variable (h : s₁.Alike s₂) {c : Class} (hc : s₁.Shows c)
include h hc

theorem type_agrees : Agrees c.type s₁ s₂ (fun v t => t.ShowsAt (.classType c.handle) v)
    (∀ k, s₁.vm.Tells (.classType c.handle) k → k = .null) :=
  .remember h hc.2 rfl (.viewOf h .type rfl rfl)

theorem typeName_agrees : Agrees c.typeName s₁ s₂ (fun v t => t.vm.TellsTypeName c.handle v)
    (∀ v, ¬s₁.vm.TellsTypeName c.handle v) := by
  have htype := (type_agrees h hc).weaken (F := ∀ v, ¬s₁.vm.TellsTypeName c.handle v)
    (fun _ _ _ hv => hv) fun hnull v ⟨t, hne, ht, _⟩ => absurd (hnull t ht) hne
  refine htype.bind fun t t₁ t₂ on ht => (TypeView.name_agrees on.alike ht.1).weaken ?_ ?_
  · exact fun v u hlater hv => ⟨t.handle, ht.1.1, ht.2.later rfl hlater.vm, hv⟩
  · rintro hnone v ⟨k, _, hk, hv⟩
    rw [(hk.later rfl on.left.vm).unique ht.2] at hv
    exact hnone v (hv.later rfl on.left.vm)

theorem image_agrees : Agrees c.image s₁ s₂ (fun v t => t.ShowsAt (.classImage c.handle) v)
    (∀ k, s₁.vm.Tells (.classImage c.handle) k → k = .null) :=
  .remember h hc.2 rfl (.viewOf h .image rfl rfl)

theorem parent_agrees : Agrees c.parent s₁ s₂ (fun v t => t.ShowsAny (.classParent c.handle) v)
    (∀ k, ¬s₁.vm.Tells (.classParent c.handle) k) :=
  .remember h hc.2 rfl (.viewAnyOf h .class_ rfl rfl)

theorem interfaces_agrees : Agrees c.interfaces s₁ s₂
    (fun v t => t.ShowsAll (.classInterfaces c.handle) v)
    (∀ ks, s₁.vm.Tells (.classInterfaces c.handle) ks → Handle.null ∈ ks) :=
  .remember h hc.2 rfl (.viewsOf h .class_ rfl rfl)

theorem fields_agrees : Agrees c.fields s₁ s₂ (fun v t => t.ShowsAll (.classFields c.handle) v)
    (∀ ks, s₁.vm.Tells (.classFields c.handle) ks → Handle.null ∈ ks) :=
  .remember h hc.2 rfl (.viewsOf h .field rfl rfl)

theorem methods_agrees : Agrees c.methods s₁ s₂ (fun v t => t.ShowsAll (.classMethods c.handle) v)
    (∀ ks, s₁.vm.Tells (.classMethods c.handle) ks → Handle.null ∈ ks) :=
  .remember h hc.2 rfl (.viewsOf h .method rfl rfl)

theorem flags_agrees : Agrees c.flags s₁ s₂ (fun v t => t.vm.Tells (.classFlags c.handle) v)
    (∀ v, ¬s₁.vm.Tells (.classFlags c.handle) v) :=
  .remember h hc.2 rfl (.tell h rfl rfl)

theorem isGeneric_agrees : Agrees c.isGeneric s₁ s₂
    (fun v t => t.vm.Tells (.classIsGeneric c.handle) v)
    (∀ v, ¬s₁.vm.Tells (.classIsGeneric c.handle) v) :=
  .remember h hc.2 rfl (.tell h rfl rfl)

theorem typeParameterCount_agrees : Agrees c.typeParameterCount s₁ s₂
    (fun v t => t.vm.Tells (.classParameterCount c.handle) v)
    (∀ v, ¬s₁.vm.Tells (.classParameterCount c.handle) v) :=
  .remember h hc.2 rfl (.tell h rfl rfl)

/-- The machine is asked until the kind is known. -/
theorem kind_agrees : Agrees c.kind s₁ s₂ (fun v t => t.TellsKind c.handle v) True := by
  refine .remember h hc.2 rfl ?_
  refine (Agree.tell h rfl rfl).loose.bind fun isInterface t₁ t₂ on hi => ?_
  cases isInterface with
  | true => exact .pure on.alike hi
  | false =>
      refine (Agree.tell on.alike rfl rfl).loose.bind fun isEnum u₁ u₂ on' he => ?_
      have hi := hi.later rfl on'.left.vm
      cases isEnum with
      | true => exact .pure on'.alike ⟨hi, he⟩
      | false =>
          refine (Agree.tell on'.alike rfl rfl).loose.bind fun isValueType w₁ w₂ on'' hv => ?_
          have hi := hi.later rfl on''.left.vm
          have he := he.later rfl on''.left.vm
          cases isValueType with
          | true => exact .pure on''.alike ⟨hi, he, hv⟩
          | false => exact .pure on''.alike ⟨hi, he, hv⟩

end Class

/-! ## Methods -/

namespace Method

variable (h : s₁.Alike s₂) {m : Method} (hm : s₁.Shows m)
include h hm

theorem name_agrees : Agrees m.name s₁ s₂ (fun v t => t.vm.Tells (.methodName m.handle) v)
    (∀ v, ¬s₁.vm.Tells (.methodName m.handle) v) :=
  .remember h hm.2 rfl (.tell h rfl rfl)

theorem class_agrees : Agrees m.class_ s₁ s₂ (fun v t => t.ShowsAt (.methodClass m.handle) v)
    (∀ k, s₁.vm.Tells (.methodClass m.handle) k → k = .null) :=
  .remember h hm.2 rfl (.viewOf h .class_ rfl rfl)

theorem returnType_agrees : Agrees m.returnType s₁ s₂
    (fun v t => t.ShowsAt (.methodReturnType m.handle) v)
    (∀ k, s₁.vm.Tells (.methodReturnType m.handle) k → k = .null) :=
  .remember h hm.2 rfl (.viewOf h .type rfl rfl)

theorem flags_agrees : Agrees m.flags s₁ s₂ (fun v t => t.vm.Tells (.methodFlags m.handle) v)
    (∀ v, ¬s₁.vm.Tells (.methodFlags m.handle) v) :=
  .remember h hm.2 rfl (.tell h rfl rfl)

theorem isGeneric_agrees : Agrees m.isGeneric s₁ s₂
    (fun v t => t.vm.Tells (.methodIsGeneric m.handle) v)
    (∀ v, ¬s₁.vm.Tells (.methodIsGeneric m.handle) v) :=
  .remember h hm.2 rfl (.tell h rfl rfl)

theorem typeParameterCount_agrees : Agrees m.typeParameterCount s₁ s₂
    (fun v t => t.vm.Tells (.methodTypeParameterCount m.handle) v)
    (∀ v, ¬s₁.vm.Tells (.methodTypeParameterCount m.handle) v) :=
  .remember h hm.2 rfl (.tell h rfl rfl)

theorem virtualAddress_agrees : Agrees m.virtualAddress s₁ s₂
    (fun v t => ∃ p, t.vm.Tells (.methodPointer m.handle) p ∧ v = if p = 0 then none else some p)
    (∀ p, ¬s₁.vm.Tells (.methodPointer m.handle) p) := by
  have hpointer : Agrees
      (Query.remember m.page .methodPointer (Query.ask (.methodPointer m.handle))) s₁ s₂
      (fun v t => t.vm.Tells (.methodPointer m.handle) v)
      (∀ p, ¬s₁.vm.Tells (.methodPointer m.handle) p) := .remember h hm.2 rfl (.tell h rfl rfl)
  exact hpointer.bind fun p _ _ on hp => .pure on.alike ⟨p, hp, rfl⟩

theorem addressToken_agrees : Agrees m.addressToken? s₁ s₂
    (fun v t => ∃ p, t.vm.Tells (.methodPointer m.handle) p ∧ v = t.vm.token? p)
    (∀ p, ¬s₁.vm.Tells (.methodPointer m.handle) p) := by
  refine (virtualAddress_agrees h hm).bind fun address t₁ t₂ on haddress => ?_
  obtain ⟨p, hp, rfl⟩ := haddress
  by_cases hzero : p = 0
  · rw [if_pos hzero]
    exact .pure on.alike ⟨p, hp, (if_pos hzero).symm⟩
  · rw [if_neg hzero]
    have hbase : t₁.vm.Tells .moduleBase t₁.vm.moduleBase := rfl
    refine (Agree.known rfl hbase (.tell on.alike rfl rfl)).weaken
      (fun _ _ _ hb => hb) False.elim |>.bind fun base u₁ u₂ on' hbase => ?_
    subst hbase
    have hp := hp.later rfl on'.left.vm
    have htoken : u₁.vm.token? p = some (addressToken t₁.vm.moduleBase t₁.vm.pointerSize p) := by
      rw [on'.left.vm.token? p]
      exact if_neg hzero
    cases hrelative : relativeTo? t₁.vm.moduleBase p with
    | some offset =>
        refine .pure on'.alike ⟨p, hp, ?_⟩
        rw [htoken, addressToken, hrelative]
    | none =>
        have hsize : u₁.vm.Tells .pointerSize u₁.vm.pointerSize := rfl
        refine (Agree.known rfl hsize (.tell on'.alike rfl rfl)).weaken
          (fun _ _ _ hb => hb) False.elim |>.bind fun size w₁ w₂ on'' hsize => ?_
        subst hsize
        refine .pure on''.alike ⟨p, hp.later rfl on''.left.vm, ?_⟩
        rw [on''.left.vm.token? p, htoken, addressToken, hrelative, on'.left.pointerSize]

end Method

namespace Method

theorem readParameters_agrees (m : Method) : ∀ (count position : Nat) {s₁ s₂ : Session},
    s₁.Alike s₂ → Agrees (m.readParameters position count) s₁ s₂
      (fun ps t => ps.length = count ∧
        ∀ k p, ps[k]? = some p → t.ShowsParameter m.handle (position + k) p) True
  | 0, _, _, _, h => .pure h ⟨rfl, fun _ _ hp => by simp at hp⟩
  | count + 1, position, _, _, h => by
      refine (Agree.tell h rfl rfl).loose.bind fun name t₁ t₂ on hname => ?_
      refine (Agree.tell on.alike rfl rfl).loose.bind fun k u₁ u₂ on' hk => ?_
      refine (Agree.view on'.alike .type k).loose.bind fun type v₁ v₂ on'' htype => ?_
      refine (readParameters_agrees m count (position + 1) on''.alike).bind
        fun rest w₁ w₂ on₃ hrest => .pure on₃.alike ⟨by rw [List.length_cons, hrest.1], ?_⟩
      intro j p hp
      cases j with
      | zero =>
          cases hp
          have hlater := on'.left.trans (on''.left.trans on₃.left)
          refine ⟨rfl, hname.later rfl hlater.vm, htype.1.later on₃.left, ?_⟩
          rw [htype.2]
          exact hk.later rfl (on''.left.trans on₃.left).vm
      | succ j =>
          rw [show position + (j + 1) = position + 1 + j by omega]
          exact hrest.2 j p hp

theorem parameters_agrees (h : s₁.Alike s₂) {m : Method} (hm : s₁.Shows m) :
    Agrees m.parameters s₁ s₂ (fun ps t => t.vm.Tells (.methodParameterCount m.handle) ps.length ∧
      ∀ k p, ps[k]? = some p → t.ShowsParameter m.handle k p) True := by
  refine .remember h hm.2 rfl ?_
  refine (Agree.tell h rfl rfl).loose.bind fun count t₁ t₂ on hcount => ?_
  refine (readParameters_agrees m count 0 on.alike).weaken (fun ps u hlater hps => ⟨?_, ?_⟩) id
  · rw [hps.1]
    exact hcount.later rfl hlater.vm
  · intro k p hp
    simpa using hps.2 k p hp

end Method

/-! ## The session's own views -/

namespace Query

theorem domain_agrees (h : s₁.Alike s₂) :
    Agrees Query.domain s₁ s₂ (fun d t => t.ShowsAt .domainGet d) False := by
  refine (Agree.viewOf h .domain rfl rfl).weaken (fun _ _ _ hd => hd) fun hnull => ?_
  exact Arena.ne_null_of_get? h.left.vm.domain (hnull s₁.vm.domain rfl)

/-- The assemblies of the domain, in the order of the machine. -/
theorem assemblies_agrees (h : s₁.Alike s₂) :
    Agrees (do (← Query.domain).assemblies) s₁ s₂
      (fun as t => (∀ a ∈ as, t.Shows a) ∧ as.map View.handle = t.vm.assemblies)
      (Handle.null ∈ s₁.vm.assemblies) := by
  refine ((domain_agrees h).weaken (fun _ _ _ hd => hd) False.elim).bind fun d t₁ t₂ on hd => ?_
  have hdomain : d.handle = t₁.vm.domain :=
    hd.2.unique (show t₁.vm.Tells .domainGet t₁.vm.domain from rfl)
  have htells : t₁.vm.Tells (.domainAssemblies d.handle) t₁.vm.assemblies := by
    rw [hdomain]
    exact Vm.tells_domainAssemblies
  refine (Domain.assemblies_agrees on.alike hd.1).weaken (fun as u hlater has => ?_) fun hnull => ?_
  · refine ⟨has.1, (has.2.unique (htells.later rfl hlater.vm)).trans ?_⟩
    exact (congrArg Catalog.assemblies hlater.vm.catalog).symm
  · have hsame : t₁.vm.assemblies = s₁.vm.assemblies :=
      congrArg Catalog.assemblies on.left.vm.catalog
    exact hsame ▸ hnull _ htells

theorem corlib_agrees (h : s₁.Alike s₂) :
    Agrees Query.corlib s₁ s₂ (fun i t => t.ShowsAt .corlib i) False := by
  refine (Agree.viewOf h .image rfl rfl).weaken (fun _ _ _ hi => hi) fun hnull => ?_
  obtain ⟨n, hn⟩ := h.left.vm.corlib
  exact Arena.ne_null_of_get? (Arena.image_eq_ok.mp hn) (hnull s₁.vm.corlib rfl)

theorem corlibClass_agrees (h : s₁.Alike s₂) (namespace_ name : String) :
    Agrees (Query.corlibClass namespace_ name) s₁ s₂ (fun k t => t.KnowsClass namespace_ name k)
      (∀ k, ¬s₁.KnowsClass namespace_ name k) := by
  have hcorlib : s₁.vm.Tells .corlib s₁.vm.corlib := rfl
  obtain ⟨n, hn⟩ := h.left.vm.corlib
  have hne := Arena.ne_null_of_get? (Arena.image_eq_ok.mp hn)
  refine ((Agree.known rfl hcorlib (.tell h rfl rfl)).weaken (fun _ _ _ hb => hb)
    False.elim).bind fun image t₁ t₂ on himage => ?_
  subst himage
  refine ((Agree.require on.alike _ _).weaken (fun _ _ _ hb => hb.1)
    fun hnull => absurd hnull hne).bind fun image u₁ u₂ on' himage => ?_
  subst himage
  have hlater := on.left.trans on'.left
  have hsame : u₁.vm.corlib = s₁.vm.corlib := congrArg Catalog.corlib hlater.vm.catalog
  refine ((Agree.tell on'.alike rfl rfl).weaken (fun _ _ _ hb => hb) fun hnone k hk =>
    hnone k (hk.2.later rfl hlater.vm)).bind fun k v₁ v₂ on'' hk => ?_
  refine (Agree.require on''.alike k _).weaken (fun b w hlater' hb => ?_) fun hnull j hj => ?_
  · obtain ⟨rfl, hb⟩ := hb
    have hcorlib : w.vm.corlib = s₁.vm.corlib := by
      rw [← hsame, congrArg Catalog.corlib (on''.left.trans hlater').vm.catalog]
    exact ⟨hb, hcorlib ▸ hk.later rfl hlater'.vm⟩
  · have := (hj.2.later rfl (hlater.trans on''.left).vm).unique hk
    exact hj.1 (this.trans hnull)

/-- A view of a class of the core library that is noted on the front page. -/
theorem viewKnown_agrees {x : Query Handle} {namespace_ name : String}
    (hx : Agrees x s₁ s₂ (fun k t => t.KnowsClass namespace_ name k)
      (∀ k, ¬s₁.KnowsClass namespace_ name k)) :
    Agrees (do Query.view .class_ (← x)) s₁ s₂
      (fun c t => t.Shows c ∧ t.KnowsClass namespace_ name c.handle)
      (∀ k, ¬s₁.KnowsClass namespace_ name k) := by
  refine hx.bind fun k t₁ t₂ on hk => (Agree.view on.alike .class_ k).weaken ?_ ?_
  · rintro c u hlater ⟨hshows, rfl⟩
    exact ⟨hshows, hk.later hlater⟩
  · exact fun hnull => absurd hnull hk.1

theorem rootClass_agrees (h : s₁.Alike s₂) : Agrees Query.rootClass s₁ s₂
    (fun c t => t.Shows c ∧ t.KnowsClass "System" "Object" c.handle)
    (∀ k, ¬s₁.KnowsClass "System" "Object" k) :=
  viewKnown_agrees (.remember h h.left.front rfl (corlibClass_agrees h _ _))

theorem reflectionClass_agrees (h : s₁.Alike s₂) : Agrees Query.reflectionClass s₁ s₂
    (fun c t => t.Shows c ∧ t.KnowsClass "System" "Type" c.handle)
    (∀ k, ¬s₁.KnowsClass "System" "Type" k) :=
  viewKnown_agrees (.remember h h.left.front rfl (corlibClass_agrees h _ _))

end Query

end VmMetadata
