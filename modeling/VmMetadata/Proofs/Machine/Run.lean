import VmMetadata.Proofs.Machine.Answer

/-!
Runs of a machine: calls with any arguments in any order, some of which fail. Main statement:
whatever is called, the machine of a snapshot stays well-formed.
-/

namespace VmMetadata

open Arena (handleAt)

namespace Vm

/-- The machine after a call, whether it was answered or failed. -/
def afterCall (vm : Vm) (c : AnyCall) : Vm :=
  match answer c.2 vm with
  | .ok _ vm => vm
  | .error _ vm => vm

/-- The machine after several calls. -/
def after (vm : Vm) (calls : List AnyCall) : Vm :=
  calls.foldl afterCall vm

/-- A call takes a machine one step on. -/
theorem afterCall_step {vm : Vm} (wf : vm.WellFormed) (c : AnyCall) :
    vm.Step (vm.afterCall c) := by
  have hsteps := answer_steps wf c.2
  unfold Access.Steps at hsteps
  unfold afterCall
  cases hrun : answer c.2 vm with
  | ok a w =>
      rw [hrun] at hsteps
      exact hsteps.1
  | error e w =>
      rw [hrun] at hsteps
      obtain ⟨rfl, _⟩ := hsteps
      exact .idle

/-- Every run of a well-formed machine leaves it well-formed and forgets nothing. -/
theorem WellFormed.after {vm : Vm} (wf : vm.WellFormed) (calls : List AnyCall) :
    (vm.after calls).WellFormed ∧ vm.Later (vm.after calls) := by
  induction calls generalizing vm with
  | nil => exact ⟨wf, .refl vm⟩
  | cons c calls ih =>
      have hstep := afterCall_step wf c
      obtain ⟨hwf, hlater⟩ := ih (hstep.wellFormed wf)
      exact ⟨hwf, (hstep.later wf).trans hlater⟩

/-- The links of a machine hold in every state that it can reach. -/
theorem wellFormed_of_snapshot {s : Snapshot} {vm : Vm} (h : ofSnapshot s = .ok vm)
    (calls : List AnyCall) : (vm.after calls).WellFormed :=
  ((wellFormed_ofSnapshot h).after calls).1

/-- In the small snapshot the generic class is closed over the root class; the closed class cannot
be closed again. -/
theorem wellFormed_of_snapshot_small :
    let calls : List AnyCall := [⟨_, .typeObject (handleAt 7)⟩, ⟨_, .arrayNew (handleAt 8) 1⟩,
      ⟨_, .arraySet (handleAt 16) 0 (handleAt 15)⟩,
      ⟨_, .classInflate (handleAt 2) (handleAt 16)⟩,
      ⟨_, .classInflate (handleAt 17) (handleAt 16)⟩]
    (Snapshot.small.machine.after calls).WellFormed ∧
      (Snapshot.small.machine.after calls).classInstances =
        [⟨handleAt 2, [handleAt 7], handleAt 17⟩] := by
  intro calls
  exact ⟨wellFormed_of_snapshot (ofSnapshot_machine (Or.inr rfl)) calls, by decide +kernel⟩

end Vm

end VmMetadata
