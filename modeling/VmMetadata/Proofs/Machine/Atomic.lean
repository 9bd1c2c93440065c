import VmMetadata.Proofs.Machine.Run

/-!
Calls that fail. An instantiation looks things up while it makes new objects, and a look-up may be
refused; the state that a failing computation has changed stays changed. Main statement: in every
state that a machine can reach, a call is refused before it has made or written anything.
-/

namespace VmMetadata

open Arena (handleAt)

namespace Vm

/-- No call stops half-way. -/
structure Atomic (v : Vm) : Prop where
  /-- A call that fails changes nothing. -/
  refused : ∀ {r : Reply} (c : Call r) {e : Error} {w : Vm}, answer c v = .error e w → w = v
  /-- Nor does looking for an instantiation that is not there. -/
  missing : ∀ {method array : Handle} {w : Vm},
    answer (.methodFindInflated method array) v = .ok .null w → w = v
  /-- Once a definition and as many types as it has parameters are found, closing it succeeds. -/
  closes : ∀ {cls array : Handle} {args : List Handle} {d : ClassNode},
    Access.typeArguments array v = .ok args v → Access.classNode cls v = .ok d v →
    d.isOpen = true → d.typeParameters.length = args.length →
      (∃ w, Access.closeClass cls d args v = .ok v.arena.next w) ∧
      ∃ result w, answer (.classInflate cls array) v = .ok result w
  /-- Once the types and the method are found, making a copy of the method succeeds. -/
  copies : ∀ {method array : Handle} {args : List Handle} {m : MethodNode},
    Access.typeArguments array v = .ok args v → Access.methodNode method v = .ok m v →
      (∀ address, ∃ w, Access.pushMethodInstance method args address v = .ok v.arena.next w) ∧
      (∃ result w, answer (.methodFindInflated method array) v = .ok result w) ∧
      (m.typeParameters.length = args.length →
        ∃ result w, answer (.methodInflateRaw method array) v = .ok result w)

end Vm

namespace Access

variable {v : Vm}

/-- A computation that fails for a reason only is answered where the reason is not given. -/
theorem Steps.exists_ok {x : Access α} {P : α → Vm → Prop} {E : Prop} (h : x.Steps v P E)
    (hE : ¬E) : ∃ a w, x v = .ok a w ∧ P a w := by
  unfold Steps at h
  cases hx : x v with
  | ok a w =>
      rw [hx] at h
      exact ⟨a, w, rfl, h.2⟩
  | error e w =>
      rw [hx] at h
      exact absurd h.2 hE

theorem Steps.eq_of_error {x : Access α} {P : α → Vm → Prop} {E : Prop} (h : x.Steps v P E)
    {e : Error} {w : Vm} (he : x v = .error e w) : w = v := by
  unfold Steps at h
  rw [he] at h
  exact h.1

theorem Steps.of_eq_ok {x : Access α} {P : α → Vm → Prop} {E : Prop} (h : x.Steps v P E)
    {a : α} {w : Vm} (ha : x v = .ok a w) : P a w := by
  unfold Steps at h
  rw [ha] at h
  exact h.2

end Access

namespace Vm

theorem WellFormed.atomic {v : Vm} (wf : v.WellFormed) : v.Atomic where
  refused := fun c _ _ he => (answer_steps wf c).eq_of_error he
  missing := fun {method array w} hnull => by
    obtain ⟨_, _, _, hsame⟩ := (Access.findInflatedMethod_steps wf method array).of_eq_ok hnull
    exact hsame rfl
  closes := fun {cls array args d} hargs hd hopen harity => by
    have hargs := Access.arguments_of_typeArguments hargs
    have hd := (Access.classNode_eq_ok.mp hd).1
    constructor
    · obtain ⟨_, _, _, hclosing⟩ :=
        Access.exists_closing wf.arena hd hopen harity (hargs.hasType wf.arena)
      exact ⟨_, Access.closeClass_apply wf hclosing⟩
    · have hclosable : Access.Closable v.arena cls array := ⟨args, d, hargs, hd, hopen, harity⟩
      obtain ⟨result, w, hrun, _⟩ :=
        (Access.inflateClass_steps wf cls array).exists_ok (not_not_intro hclosable)
      exact ⟨result, w, hrun⟩
  copies := fun {method array args m} hargs hm => by
    have hargs := Access.arguments_of_typeArguments hargs
    have hm := (Access.methodNode_eq_ok.mp hm).1
    refine ⟨fun address => ⟨_, Access.pushMethodInstance_apply hm args address⟩, ?_,
      fun harity => ?_⟩
    · obtain ⟨result, w, hrun, _⟩ := (Access.findInflatedMethod_steps wf method array).exists_ok
        (not_not_intro ⟨args, m, hargs, hm⟩)
      exact ⟨result, w, hrun⟩
    · obtain ⟨result, w, hrun, _⟩ := (Access.inflateMethodRaw_steps wf method array).exists_ok
        (not_not_intro ⟨args, m, hargs, hm, harity⟩)
      exact ⟨result, w, hrun⟩

/-- In no state that a machine can reach does a call stop half-way. -/
theorem atomic_of_snapshot {s : Snapshot} {vm : Vm} (h : ofSnapshot s = .ok vm)
    (calls : List AnyCall) : (vm.after calls).Atomic :=
  ((wellFormed_ofSnapshot h).after calls).1.atomic

/-- In the small snapshot a class that is closed is not closed again, and the state stays as it
was. -/
theorem atomic_of_snapshot_small :
    let calls : List AnyCall := [⟨_, .typeObject (handleAt 7)⟩, ⟨_, .arrayNew (handleAt 8) 1⟩,
      ⟨_, .arraySet (handleAt 16) 0 (handleAt 15)⟩,
      ⟨_, .classInflate (handleAt 2) (handleAt 16)⟩]
    let v := Snapshot.small.machine.after calls
    v.Atomic ∧ ∃ e, answer (.classInflate (handleAt 17) (handleAt 16)) v = .error e v := by
  intro calls v
  have hatomic : v.Atomic :=
    atomic_of_snapshot (ofSnapshot_machine (s := Snapshot.small) (Or.inr rfl)) calls
  refine ⟨hatomic, ?_⟩
  cases hrun : answer (.classInflate (handleAt 17) (handleAt 16)) v with
  | error e w => exact ⟨e, congrArg _ (hatomic.refused _ hrun)⟩
  | ok result w =>
      have hrefused :
          (answer (.classInflate (handleAt 17) (handleAt 16)) v) matches .error _ _ := by
        decide +kernel
      rw [hrun] at hrefused
      cases hrefused

end Vm

end VmMetadata
