import VmMetadata.Proofs.Dump.Precedence
import VmMetadata.Proofs.Session.Contents

/-!
Finding out where a dump goes. A host is asked through getters, and of all calls that this takes
only the run of a getter makes an object, the text that it returns. Main statement: finding out a
path adds at most four objects to the arena.
-/

namespace VmMetadata

open Session (Spans)

/-! ## One call -/

theorem Call.isStill_of_readsHost {c : Call r} (hc : c.readsHost = true)
    (hruns : c.invoked? = none) : c.isStill = true := by
  cases c with
  | methodInvoke method object arguments => cases hruns
  | _ => first | rfl | cases hc

theorem Vm.afterCall_of_isStill {c : Call r} (hc : c.isStill = true) (v : Vm) :
    (v.afterCall ⟨r, c⟩).arena = v.arena := by
  have hstays := answer_stays hc v
  unfold Access.Stays at hstays
  unfold afterCall
  cases hanswer : answer c v with
  | ok a w => rwa [hanswer] at hstays
  | error e w => rwa [hanswer] at hstays

/-- To run a method makes the text that it returns, if it returns one, and nothing else. -/
theorem Vm.afterCall_methodInvoke (v : Vm) (method object : Handle) (arguments : List Handle) :
    (v.afterCall ⟨_, .methodInvoke method object arguments⟩).arena = v.arena ∨
      ∃ text, (v.afterCall ⟨_, .methodInvoke method object arguments⟩).arena =
        v.arena.push (.object (.string text)) := by
  have hinvoke : answer (.methodInvoke method object arguments) v = Access.invoke method v := rfl
  unfold afterCall
  rw [hinvoke, Access.invoke]
  cases hmethod : v.arena.method method with
  | error e =>
      have hnode : Access.methodNode method v = .error e v := by
        unfold Access.methodNode
        rw [hmethod]
        rfl
      rw [Access.bind_error hnode]
      exact Or.inl rfl
  | ok n =>
      rw [Access.bind_ok (Access.methodNode_eq_ok.mpr ⟨hmethod, rfl⟩)]
      cases n.result with
      | none => exact Or.inl rfl
      | some text => exact Or.inr ⟨text, rfl⟩

/-- A call that reads something of a host adds no object but what a getter returns. -/
theorem Vm.size_afterCall {c : Call r} (hc : c.readsHost = true) (v : Vm) :
    (v.afterCall ⟨r, c⟩).arena.nodes.size ≤ v.arena.nodes.size + c.invoked?.toList.length := by
  by_cases hruns : c.invoked? = none
  · rw [afterCall_of_isStill (Call.isStill_of_readsHost hc hruns), hruns]
    exact Nat.le_refl _
  · cases c with
    | methodInvoke method object arguments =>
        rcases v.afterCall_methodInvoke method object arguments with harena | ⟨text, harena⟩
        · rw [harena]
          exact Nat.le_add_right _ _
        · rw [harena, Arena.push_eq_append, Arena.size_append]
          exact Nat.le_refl _
    | _ => exact absurd rfl hruns

/-! ## One session after another -/

namespace Session

/-- From the one session to the other calls were made. If all of them read something of a host, they
added no more objects than they ran methods. -/
def ExtendsByRuns (s t : Session) : Prop :=
  ∃ calls : List AnyCall, t.probe.calls = calls ++ s.probe.calls ∧
    ((∀ c ∈ calls, c.2.readsHost = true) → t.vm.arena.nodes.size ≤
      s.vm.arena.nodes.size + (calls.filterMap fun c => c.2.invoked?).length)

/-- A call leaves the machine as it was if it is spoiled, and else as the machine makes it. -/
theorem vm_leaves_ask (s : Session) (c : Call r) :
    ((Query.ask c).leaves s).vm = s.vm ∨
      ((Query.ask c).leaves s).vm = s.vm.afterCall ⟨r, c⟩ := by
  obtain ⟨p, -, ⟨result, -, hrun, -⟩ | hrun⟩ := Query.ask_cases c s
  · left
    unfold Query.leaves
    rw [hrun]
    cases result <;> rfl
  · right
    unfold Query.leaves Vm.afterCall
    rw [hrun, Query.access_apply]
    cases Vm.answer c s.vm <;> rfl

theorem spans_extendsByRuns : Spans ExtendsByRuns where
  refl := fun s => ⟨[], rfl, fun _ => Nat.le_refl _⟩
  trans := by
    intro s t u hst htu
    obtain ⟨first, hfirst, hsize⟩ := hst
    obtain ⟨rest, hrest, hsize'⟩ := htu
    refine ⟨rest ++ first, by rw [hrest, hfirst, List.append_assoc], fun hcalls => ?_⟩
    obtain ⟨hrestReads, hfirstReads⟩ := List.forall_mem_append.mp hcalls
    have hfirstSize := hsize hfirstReads
    have hrestSize := hsize' hrestReads
    rw [List.filterMap_append, List.length_append]
    omega
  call := by
    intro s r c
    refine ⟨[⟨r, c⟩], Query.ask_calls c s, fun hcalls => ?_⟩
    have hsize := Vm.size_afterCall (hcalls ⟨r, c⟩ List.mem_cons_self) s.vm
    have hruns : [(⟨r, c⟩ : AnyCall)].filterMap (fun c => c.2.invoked?) = c.invoked?.toList := by
      cases hc : c.invoked? <;> simp [hc]
    rw [hruns]
    rcases vm_leaves_ask s c with hvm | hvm
    · rw [hvm]
      exact Nat.le_add_right _ _
    · rwa [hvm]
  page := fun s h => ⟨[], rfl, fun _ => Nat.le_refl _⟩
  note := by
    intro s t f page h find v _ _ _ _ inner
    exact inner
  copy := fun _ => ⟨[], rfl, fun _ => Nat.le_refl _⟩

end Session

/-- To find out where a dump goes takes four getters at most, and each of them adds one object at
most. -/
theorem Destination.size_of_path {s t : Session} (hs : s.Intact) {d : Destination}
    {kind : DumpKind} {now path : String} (h : d.path kind now s = .ok path t) :
    t.vm.arena.nodes.size ≤ s.vm.arena.nodes.size + 4 := by
  have htrail := (d.path_wanders hs kind now).leaves
  have hreads := d.path_readsHost kind now s
  have hruns := d.path_runsAtMost kind now s
  rw [Query.leaves_of_ok h] at htrail hreads hruns
  obtain ⟨calls, hcalls, hsize⟩ := Session.spans_extendsByRuns.trail htrail
  obtain ⟨calls', hreads, hcalls'⟩ := hreads
  obtain ⟨ms, hran, hfew⟩ := hruns
  -- all three facts are about the same calls, those that were recorded on the way
  obtain rfl := List.append_cancel_right (hcalls.symm.trans hcalls')
  have hms : ms = (calls.filterMap fun c => c.2.invoked?).reverse := by
    rw [Session.ran, Session.ran, hcalls, List.filterMap_append, List.reverse_append] at hran
    exact (List.append_cancel_left hran).symm
  rw [hms, List.length_reverse] at hfew
  have hsize := hsize hreads
  split at hfew <;> split at hfew <;> omega

/-- Where there is room for four objects more below scratch memory, no object reaches it on the way
to a path. -/
theorem Destination.belowScratch_of_path {s t : Session} (hs : s.Intact) {d : Destination}
    {kind : DumpKind} {now path : String} (h : d.path kind now s = .ok path t)
    (hroom : (Arena.handleAt (s.vm.arena.nodes.size + 4)).address ≤ Scratch.base) :
    t.vm.arena.BelowScratch := by
  have hsize := size_of_path hs h
  intro k n hn
  obtain ⟨i, rfl, -⟩ := Arena.get?_eq_some_iff.mp hn
  have hlt := Arena.lt_size_of_get? hn
  simp only [Arena.handleAt, Arena.stride] at hroom ⊢
  omega

end VmMetadata
