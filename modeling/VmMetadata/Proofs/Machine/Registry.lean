import Mathlib.Logic.Relation
import VmMetadata.Proofs.Machine.Permanence

/-!
Instantiations on record and off it. A class is on record once it has been closed, and so is a method
that is compiled for its arguments; any other instantiation of a method is on no record and stays off
it. Main statements: whatever is called, what is on record stays there, no two entries have one
result, and what was made off the record is never handed out again.
-/

namespace VmMetadata

namespace Vm

/-- One step after the other. -/
abbrev Steps (v w : Vm) : Prop :=
  Relation.ReflTransGen Step v w

theorem Steps.wellFormed {v w : Vm} (wf : v.WellFormed) (h : v.Steps w) : w.WellFormed := by
  induction h with
  | refl => exact wf
  | tail _ step ih => exact step.wellFormed ih

/-- What every step keeps is kept. -/
theorem Steps.keep {P : Vm → Prop} (hP : ∀ v w : Vm, v.WellFormed → v.Step w → P v → P w)
    {v w : Vm} (wf : v.WellFormed) (h : v.Steps w) (hv : P v) : P w := by
  induction h with
  | refl => exact hv
  | tail before step ih => exact hP _ _ (Steps.wellFormed wf before) step ih

/-! ## What is on record -/

/-- A method is put on record only where there is none for the definition and the types. -/
theorem Step.find?_method {v w : Vm} (h : v.Step w) {method result : Handle} {args : List Handle}
    (hfind : Instance.find? method args v.methodInstances = some result) :
    Instance.find? method args w.methodInstances = some result := by
  cases h with
  | compile new _ _ _ => exact find?_cons_of_new new hfind
  | _ => exact hfind

section

variable {v w : Vm} (wf : v.WellFormed) (h : v.Steps w) {definition result : Handle}
  {args : List Handle}
include wf h

theorem Steps.find?_class
    (hfind : Instance.find? definition args v.classInstances = some result) :
    Instance.find? definition args w.classInstances = some result :=
  h.keep (P := fun u => Instance.find? definition args u.classInstances = some result)
    (fun _ _ _ step hfind => step.find?_class hfind) wf hfind

theorem Steps.find?_method
    (hfind : Instance.find? definition args v.methodInstances = some result) :
    Instance.find? definition args w.methodInstances = some result :=
  h.keep (P := fun u => Instance.find? definition args u.methodInstances = some result)
    (fun _ _ _ step hfind => step.find?_method hfind) wf hfind

end

/-! ## One result for each entry -/

/-- No two entries have one result. -/
structure Apart (vm : Vm) : Prop where
  classes : (vm.classInstances.map Instance.result).Nodup
  methods : (vm.methodInstances.map Instance.result).Nodup

variable {v w : Vm}

/-- What is on record has been made before. -/
theorem WellFormed.class_ne_next (wf : v.WellFormed) {i : Instance} (hi : i ∈ v.classInstances) :
    i.result ≠ v.arena.next := by
  obtain ⟨d, c, hclosed⟩ := wf.classInstances i hi
  exact Arena.ne_next_of_get? (Arena.class_eq_ok.mp hclosed.result)

theorem WellFormed.method_ne_next (wf : v.WellFormed) {i : Instance}
    (hi : i ∈ v.methodInstances) : i.result ≠ v.arena.next := by
  obtain ⟨m, hcompiled⟩ := wf.methodInstances i hi
  obtain ⟨_, _, _, _, hresult⟩ := hcompiled.result
  exact Arena.ne_next_of_get? (Arena.method_eq_ok.mp hresult)

theorem Step.apart (wf : v.WellFormed) (h : v.Step w) (hv : v.Apart) : w.Apart := by
  cases h with
  | close new closing =>
      refine ⟨List.nodup_cons.mpr ⟨fun hmem => ?_, hv.classes⟩, hv.methods⟩
      obtain ⟨i, hi, hresult⟩ := List.mem_map.mp hmem
      exact wf.class_ne_next hi hresult
  | compile new known named compiled =>
      refine ⟨hv.classes, List.nodup_cons.mpr ⟨fun hmem => ?_, hv.methods⟩⟩
      obtain ⟨i, hi, hresult⟩ := List.mem_map.mp hmem
      exact wf.method_ne_next hi hresult
  | _ => exact ⟨hv.classes, hv.methods⟩

theorem Steps.apart (wf : v.WellFormed) (h : v.Steps w) (hv : v.Apart) : w.Apart :=
  h.keep (fun _ _ wf step hu => step.apart wf hu) wf hv

theorem apart_ofSnapshot {s : Snapshot} {vm : Vm} (h : ofSnapshot s = .ok vm) : vm.Apart := by
  obtain ⟨_, known, l, rfl, _⟩ := ofSnapshot_eq_ok h
  exact ⟨List.nodup_nil, List.nodup_nil⟩

end Vm

/-- The key of an entry follows from its result. -/
theorem Instance.key_of_result {known : List Instance}
    (apart : (known.map Instance.result).Nodup) {d d' r : Handle} {args args' : List Handle}
    (h : Instance.find? d args known = some r) (h' : Instance.find? d' args' known = some r) :
    d = d' ∧ args = args' := by
  have heq := List.inj_on_of_nodup_map apart (Access.mem_of_find? h) (Access.mem_of_find? h') rfl
  cases heq
  exact ⟨rfl, rfl⟩

/-! ## Off the record -/

namespace Vm

/-- The method is none of those on record. -/
structure OffRecord (vm : Vm) (r : Handle) : Prop where
  made : vm.arena.HasMethod r
  absent : ∀ i ∈ vm.methodInstances, i.result ≠ r

variable {v w : Vm} {r : Handle}

theorem Step.offRecord (wf : v.WellFormed) (h : v.Step w) (hr : v.OffRecord r) :
    w.OffRecord r := by
  have hmade := (h.later wf).arena.keeps.hasMethod hr.made
  cases h with
  | compile new known named compiled =>
      refine ⟨hmade, List.forall_mem_cons.mpr ⟨fun hnext => ?_, hr.absent⟩⟩
      obtain ⟨m, hm⟩ := hr.made
      exact Arena.ne_next_of_get? (Arena.method_eq_ok.mp hm) hnext.symm
  | _ => exact ⟨hmade, hr.absent⟩

theorem Steps.offRecord (wf : v.WellFormed) (h : v.Steps w) (hr : v.OffRecord r) :
    w.OffRecord r :=
  h.keep (fun _ _ wf step hu => step.offRecord wf hu) wf hr

end Vm

/-! ## What the calls hand out -/

namespace Access

variable {v w : Vm} {method array r : Handle} {args : List Handle}

/-- A method that is found is on record. -/
theorem findInflatedMethod_find? (hargs : typeArguments array v = .ok args v)
    (h : findInflatedMethod method array v = .ok r w) (hne : r ≠ .null) :
    Instance.find? method args w.methodInstances = some r := by
  rw [findInflatedMethod, bind_ok hargs] at h
  obtain ⟨known, u, hknown, h⟩ := bind_eq_ok.mp h
  cases hknown
  cases hfind : Instance.find? method args v.methodInstances with
  | some known =>
      rw [hfind] at h
      cases h
      exact hfind
  | none =>
      rw [hfind] at h
      obtain ⟨names, u, _, h⟩ := bind_eq_ok.mp h
      obtain ⟨m, x, _, h⟩ := bind_eq_ok.mp h
      cases haddress : compiledAddress? names m.instantiations with
      | none =>
          rw [haddress] at h
          cases h
          exact absurd rfl hne
      | some address =>
          rw [haddress] at h
          obtain ⟨made, y, _, h⟩ := bind_eq_ok.mp h
          obtain ⟨_, z, hrecord, hdone⟩ := bind_eq_ok.mp h
          cases hrecord
          cases hdone
          simp [Instance.find?]

/-- A method that is made without being looked for is new, and it is off the record. -/
theorem inflateMethodRaw_offRecord (wf : v.WellFormed)
    (h : inflateMethodRaw method array v = .ok r w) : r = v.arena.next ∧ w.OffRecord r := by
  obtain ⟨args, u, hargs, hrest⟩ := bind_eq_ok.mp h
  obtain ⟨rfl, _⟩ := typeArguments_eq_ok.mp hargs
  obtain ⟨m, x, hm, hpush⟩ := bind_eq_ok.mp hrest
  obtain ⟨hm, rfl⟩ := methodNode_eq_ok.mp hm
  split at hpush
  · cases hpush
  · rw [pushMethodInstance_apply hm] at hpush
    cases hpush
    exact ⟨rfl, ⟨_, Arena.method_eq_ok.mpr (Arena.get?_push_next _ _)⟩,
      fun i hi => wf.method_ne_next hi⟩

end Access

end VmMetadata
