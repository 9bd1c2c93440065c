import VmMetadata.Dump.Content
import VmMetadata.Proofs.Session.Closing

/-!
The lines of a class in a dump of methods. A line tells where the body of a method lies, the type
name of its class, and its name; of a generic class the lines are those of its closed stand-in, and
a generic method is replaced by its instantiation.
-/

namespace VmMetadata

open Query (Agree Agrees Runs)

namespace Vm

/-- The line of the method, or none if it reports no body. -/
def TellsLine (vm : Vm) (method : Handle) (line? : Option String) : Prop :=
  ∃ p cls type name, vm.Tells (.methodPointer method) p ∧ vm.Tells (.methodClass method) cls ∧
    vm.TellsTypeName cls type ∧ vm.Tells (.methodName method) name ∧
    line? = (vm.token? p).map fun token => token ++ " " ++ type ++ "." ++ name ++ "\n"

variable {v w : Vm} {method : Handle}

theorem TellsLine.later {line? : Option String} (h : v.TellsLine method line?) (hvw : v.Later w) :
    w.TellsLine method line? := by
  obtain ⟨p, cls, type, name, hp, hcls, htype, hname, rfl⟩ := h
  exact ⟨p, cls, type, name, hp.later rfl hvw, hcls.later rfl hvw, htype.later hvw,
    hname.later rfl hvw, by rw [hvw.token?]⟩

/-- Every method has its line, or has none. -/
theorem WellFormed.tellsLine (wf : v.WellFormed) (hm : v.arena.HasMethod method) :
    ∃ line?, v.TellsLine method line? := by
  obtain ⟨node, hnode⟩ := hm
  obtain ⟨⟨d, hd⟩, _⟩ := wf.arena.method hnode
  obtain ⟨type, htype⟩ := wf.tellsTypeName ⟨d, hd⟩
  exact ⟨_, _, node.class, type, node.name, tells_methodPointer hnode hd,
    tells_methodClass.mpr ⟨node, hnode, rfl⟩, htype, tells_methodName.mpr ⟨node, hnode, rfl⟩, rfl⟩

end Vm

namespace Session

variable {s t : Session}

/-- The stand-in is the class itself or the closed one. -/
theorem ClassStandIn.hasClass {c k : Handle} (h : s.ClassStandIn c k) : s.vm.arena.HasClass k := by
  obtain ⟨d, hd, hself, hclosed⟩ := h
  cases hopen : d.isOpen with
  | false => exact hself hopen ▸ ⟨d, hd⟩
  | true =>
      obtain ⟨_, n, _, hn⟩ := hclosed hopen
      exact ⟨n, hn.result⟩

theorem MethodStandIn.hasMethod {classWasGeneric : Bool} {m k : Handle}
    (h : s.MethodStandIn classWasGeneric m k) (hm : s.vm.arena.HasMethod m) :
    s.vm.arena.HasMethod k := by
  cases classWasGeneric with
  | true => exact h.1 rfl ▸ hm
  | false =>
      obtain ⟨node, hnode, hself, hinstance⟩ := h.2 rfl
      by_cases hempty : node.typeParameters = []
      · exact hself hempty ▸ hm
      · obtain ⟨_, _, node', _, _, _, hk⟩ := hinstance hempty
        exact ⟨_, hk⟩

/-- The line of the method's stand-in. -/
def TellsLineOf (s : Session) (classWasGeneric : Bool) (m : Handle) (line? : Option String) :
    Prop :=
  ∃ k, s.MethodStandIn classWasGeneric m k ∧ s.vm.TellsLine k line?

/-- The lines of the class, one for each method of its stand-in that reports a body. -/
def TellsLines (s : Session) (c : Handle) (lines : List String) : Prop :=
  ∃ d v ms line?s, s.vm.arena.class_ c = .ok d ∧ s.ClassStandIn c v ∧
    s.vm.Tells (.classMethods v) ms ∧ List.Forall₂ (s.TellsLineOf d.isOpen) ms line?s ∧
    lines = line?s.filterMap id

/-- The class and its methods can be closed if they have to be. -/
def Writable (s : Session) (c : Handle) : Prop :=
  ∃ d, s.vm.arena.class_ c = .ok d ∧
    (d.isOpen = true → s.CanFill ∧ d.typeParameters.length < 0x1_0000_0000) ∧
    (d.isOpen = false → ∀ m ∈ d.methods, s.Instantiable false m)

theorem TellsLineOf.later {classWasGeneric : Bool} {m : Handle} {line? : Option String}
    (h : s.TellsLineOf classWasGeneric m line?) (hs : s.Sound) (hst : s.Later t) :
    t.TellsLineOf classWasGeneric m line? := by
  obtain ⟨k, hk, hline⟩ := h
  exact ⟨k, hk.later hs hst, hline.later hst.vm⟩

end Session

variable {s₁ s₂ : Session}

theorem methodLine_agrees (h : s₁.Alike s₂) {m : Method} (hm : s₁.Shows m)
    (classWasGeneric : Bool) :
    Agrees (methodLine classWasGeneric m) s₁ s₂
      (fun line? t => t.TellsLineOf classWasGeneric m.handle line?)
      ¬(s₁.vm.arena.HasMethod m.handle ∧ s₁.Instantiable classWasGeneric m.handle) := by
  refine ((Method.representative_agrees h hm classWasGeneric).weaken (fun _ _ _ hv => hv)
    fun hno hok => hno hok.2).bind fun v t₁ t₂ on hv => ?_
  obtain ⟨hv, hstands⟩ := hv
  refine ((Method.addressToken_agrees on.alike hv).weaken (fun _ _ _ hp => hp)
    fun hnone hok => ?_).bind fun token? u₁ u₂ on' htoken => ?_
  · have hmethod := hstands.hasMethod (on.left.vm.arena.keeps.hasMethod hok.1)
    obtain ⟨_, p, _, _, _, hp, _⟩ := on.alike.left.vm.tellsLine hmethod
    exact hnone p hp
  obtain ⟨p, hp, rfl⟩ := htoken
  obtain ⟨_, p', cls, type, name, hp', hcls, htype, hname, _⟩ :=
    on'.alike.left.vm.tellsLine (Vm.Tells.hasMethod hp)
  cases hp.unique hp'
  have hstands := hstands.later on.alike.left on'.left
  have hv := hv.later on'.left
  -- without a body there is no line, and nothing more is asked
  cases htoken : u₁.vm.token? p with
  | none =>
      exact .pure on'.alike ⟨v.handle, hstands, p, cls, type, name, hp, hcls, htype, hname,
        by rw [htoken]; rfl⟩
  | some token =>
      refine ((Method.class_agrees on'.alike hv).weaken (fun _ _ _ hc => hc)
        fun hnull => absurd (hnull _ hcls) htype.ne_null).bind fun c v₁ v₂ on'' hc => ?_
      cases hc.2.unique (hcls.later rfl on''.left.vm)
      have htype := htype.later on''.left.vm
      refine ((Class.typeName_agrees on''.alike hc.1).weaken (fun _ _ _ hn => hn)
        fun hnone => absurd htype (hnone _)).bind fun type' w₁ w₂ on₃ htype' => ?_
      have htype := htype.later on₃.left.vm
      cases htype'.unique htype
      have hlater := on''.left.trans on₃.left
      have hname := hname.later rfl hlater.vm
      refine ((Method.name_agrees on₃.alike (hv.later hlater)).weaken (fun _ _ _ hn => hn)
        fun hnone => absurd hname (hnone _)).bind fun name' x₁ x₂ on₄ hname' => ?_
      have hlater' := hlater.trans on₄.left
      cases hname'.unique (hname.later rfl on₄.left.vm)
      refine .pure on₄.alike ⟨v.handle, hstands.later on'.alike.left hlater', p, c.handle, type,
        name, hp.later rfl hlater'.vm, hcls.later rfl hlater'.vm, htype.later on₄.left.vm,
        hname', ?_⟩
      rw [hlater'.vm.token?, htoken]
      rfl

/-- A class that can be closed, and whose methods can, has its lines written. -/
theorem methodLines_agrees (h : s₁.Alike s₂) {c : Class} (hc : s₁.Shows c) :
    Agrees (methodLines c) s₁ s₂ (fun lines t => t.TellsLines c.handle lines)
      ¬s₁.Writable c.handle := by
  refine ((Class.isGeneric_agrees h hc).weaken (fun _ _ _ hv => hv)
    fun hnone ⟨d, hd, _⟩ => hnone _ (Vm.tells_classIsGeneric.mpr ⟨d, hd, rfl⟩)).bind
    fun isGeneric t₁ t₂ on hgeneric => ?_
  obtain ⟨d, hd, rfl⟩ := Vm.tells_classIsGeneric.mp hgeneric
  -- what the class needs does not change
  have hwritable : s₁.Writable c.handle →
      (d.isOpen = true → t₁.CanFill ∧ d.typeParameters.length < 0x1_0000_0000) ∧
      (d.isOpen = false → ∀ m ∈ d.methods, t₁.Instantiable false m) := by
    rintro ⟨d', hd', hfill, hmethods⟩
    cases (on.left.vm.arena.class_ hd').symm.trans hd
    exact ⟨fun htrue => (hfill htrue).imp_left (·.later on.left),
      fun hfalse m hm => (hmethods hfalse m hm).later on.left⟩
  refine ((Class.representative_agrees on.alike (hc.later on.left)).weaken (fun _ _ _ hv => hv)
    fun hno hok => hno ⟨d, hd, (hwritable hok).1⟩).bind fun v u₁ u₂ on' hv => ?_
  obtain ⟨hv, hstands⟩ := hv
  obtain ⟨n, hn⟩ := hstands.hasClass
  have hstands' := hstands
  obtain ⟨d', hd', hself, -⟩ := hstands'
  cases (on'.left.vm.arena.class_ hd).symm.trans hd'
  have hms := Vm.tells_classMethods.mpr ⟨n, hn, rfl⟩
  refine ((Class.methods_agrees on'.alike hv).weaken (fun _ _ _ hm => hm)
    fun hnull hok => ?_).bind fun ms v₁ v₂ on'' hshown => ?_
  · exact (on'.alike.left.vm.arena.class_ hn).null_not_mem_methods (hnull _ hms)
  obtain ⟨hshown, htells⟩ := hshown
  have hsame := htells.unique (hms.later rfl on''.left.vm)
  -- the methods of a class that was generic are left alone, so only the others can be refused
  have hline : ∀ m ∈ ms, ∀ w₁ w₂, w₁.Alike w₂ → v₁.Later w₁ →
      Agrees (methodLine d.isOpen m) w₁ w₂
        (fun line? t => t.TellsLineOf d.isOpen m.handle line?) ¬s₁.Writable c.handle := by
    intro m hm w₁ w₂ halike hlater
    have hmem : m.handle ∈ n.methods := by
      rw [← hsame]
      exact List.mem_map_of_mem hm
    have hlater' := on''.left.trans hlater
    refine (methodLine_agrees halike ((hshown m hm).later hlater) d.isOpen).weaken
      (fun _ _ _ hl => hl) fun hno hok => hno ⟨?_, fun hfalse => ?_⟩
    · obtain ⟨node, hnode, _⟩ := (on'.alike.left.vm.arena.class_ hn).methods _ hmem
      exact ⟨node, hlater'.vm.arena.method hnode⟩
    · rw [hself hfalse, hd'] at hn
      cases hn
      exact ((hwritable hok).2 hfalse _ hmem).later (on'.left.trans hlater') rfl
  have hlines := Agree.mapM (R := fun (m : Method) line? t => t.TellsLineOf d.isOpen m.handle line?)
    (I := v₁.Later) (fun hst hi => hi.trans hst) (fun hs hst hr => hr.later hs hst)
    on''.alike (.refl v₁) hline
  refine hlines.bind fun line?s w₁ w₂ on₃ hall => ?_
  have hlater := on''.left.trans on₃.left
  refine .pure on₃.alike ⟨d, v.handle, ms.map View.handle, line?s, hlater.vm.arena.class_ hd',
    hstands.later on'.alike.left hlater, htells.later rfl on₃.left.vm, ?_, rfl⟩
  rw [List.forall₂_map_left_iff]
  exact hall

end VmMetadata
