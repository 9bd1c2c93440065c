import VmMetadata.Proofs.Session.Agree

/-!
Calls through a probe that may spoil them. The probe writes a call down before anything else and
counts it against the fault of its entry point; then either the fault decides the outcome and the
machine is not asked, or the machine answers. Main statement: where faults make calls fail but never
answer falsely, a call that is answered is answered as if there were no faults.
-/

namespace VmMetadata

/-- The probe after it has written down a call. A fault may have been counted down, but what it does
to a call stays the same. -/
structure Probe.Counts (p : Probe) (c : AnyCall) (q : Probe) : Prop where
  calls : q.calls = c :: p.calls
  effects : ∀ x ∈ q.faults, ∃ y ∈ p.faults, x.2.effect = y.2.effect

theorem Fault.effect_step (f : Fault) : f.step.1.effect = f.effect := by
  unfold Fault.step
  split <;> rfl

theorem Probe.effects_setFault {p : Probe} {entry : String} {f g : Fault} (hf : (entry, f) ∈ p.faults)
    (hg : g.effect = f.effect) :
    ∀ x ∈ (p.setFault entry g).faults, ∃ y ∈ p.faults, x.2.effect = y.2.effect := by
  intro x hx
  rcases List.mem_cons.mp hx with rfl | hx
  · exact ⟨_, hf, hg⟩
  · exact ⟨x, (List.mem_filter.mp hx).1, rfl⟩

theorem Probe.mem_of_lookup {faults : List (String × Fault)} {entry : String} {f : Fault}
    (h : faults.lookup entry = some f) : (entry, f) ∈ faults := by
  induction faults with
  | nil => cases h
  | cons x rest ih =>
      obtain ⟨name, g⟩ := x
      rw [List.lookup_cons] at h
      split at h
      · rename_i heq
        cases h
        rw [eq_of_beq heq]
        exact List.mem_cons_self
      · exact List.mem_cons_of_mem _ (ih h)

/-- A session whose calls may fail but are never answered falsely. -/
def Session.Honest (s : Session) : Prop :=
  ∀ x ∈ s.probe.faults, ∃ text, x.2.effect = .fails text

/-- The session without its faults. -/
def Session.healed (s : Session) : Session :=
  { s with probe := s.probe.heal }

theorem Session.Honest.of_counts {s : Session} (h : s.Honest) {c : AnyCall} {p : Probe}
    (hp : s.probe.Counts c p) {t : Session} (ht : t.probe = p) : t.Honest := by
  intro x hx
  obtain ⟨y, hy, heq⟩ := hp.effects x (ht ▸ hx)
  rw [heq]
  exact h y hy

theorem Session.honest_of_faults_nil {s : Session} (h : s.probe.faults = []) : s.Honest := by
  intro x hx
  rw [h] at hx
  cases hx

namespace Query

/-- A call is either decided by a fault or answered by the machine. -/
theorem ask_cases (c : Call r) (s : Session) : ∃ p, s.probe.Counts ⟨r, c⟩ p ∧
    ((∃ result, c.isConstant = false ∧ ask c s = lift result { s with probe := p } ∧
        s.probe.faults ≠ [] ∧ (s.Honest → ∃ e, result = .error e)) ∨
      ask c s = access (Vm.answer c) { s with probe := p }) := by
  unfold ask Probe.intercept
  by_cases hconstant : c.isConstant = true
  · refine ⟨s.probe.record c, ⟨rfl, fun x hx => ⟨x, hx, rfl⟩⟩, Or.inr ?_⟩
    rw [if_pos hconstant]
  rw [if_neg hconstant]
  have hfaults : (s.probe.record c).faults = s.probe.faults := rfl
  cases hlookup : s.probe.faults.lookup c.name with
  | none =>
      refine ⟨s.probe.record c, ⟨rfl, fun x hx => ⟨x, hx, rfl⟩⟩, Or.inr ?_⟩
      simp only [hfaults, hlookup]
  | some f =>
      have hmem := Probe.mem_of_lookup hlookup
      have heffect := f.effect_step
      refine ⟨(s.probe.record c).setFault c.name f.step.1, ⟨rfl, ?_⟩, ?_⟩
      · exact Probe.effects_setFault (p := s.probe.record c) hmem heffect
      simp only [hfaults, hlookup]
      cases hresult : (if f.step.2 then f.step.1.effect.result? r else none) with
      | none => exact Or.inr rfl
      | some result =>
          refine Or.inl ⟨result, by simpa using hconstant, rfl, List.ne_nil_of_mem hmem,
            fun honest => ?_⟩
          -- the effect of an honest fault is a failure
          obtain ⟨text, htext⟩ := honest _ hmem
          rw [heffect, htext] at hresult
          split at hresult
          · cases hresult
            exact ⟨_, rfl⟩
          · cases hresult

/-- A call that the machine answers. -/
theorem access_apply (x : Access α) (s : Session) :
    access x s = match x s.vm with
      | .ok a w => .ok a { s with vm := w }
      | .error e w => .error e { s with vm := w } := by
  unfold access
  cases x s.vm <;> rfl

end Query

end VmMetadata
