import VmMetadata.Proofs.Session.Trail

/-!
What a query does to a session, whatever comes of it. A relation between the session before and the
one after that does not look at the notebook, and that can be carried on, is one for every query
that is made of calls for which it holds. Main statements: the rules for such relations, and which
calls a query makes.
-/

namespace VmMetadata

/-- The relation does not look at the notebook, and it can be carried on. -/
class Session.IgnoresNotes (R : Session → Session → Prop) : Prop where
  noted : ∀ s notebook, R s { s with notebook }
  trans : ∀ {s t u}, R s t → R t u → R s u

/-- The query takes every session to a related one, whether it fails or not. -/
def Query.Moves (R : Session → Session → Prop) (x : Query α) : Prop :=
  ∀ s, R s (x.leaves s)

namespace Query.Moves

variable {R : Session → Session → Prop} {x : Query α}

theorem of_ok (hx : x.Moves R) {s t : Session} {a : α} (h : x s = .ok a t) : R s t :=
  leaves_of_ok h ▸ hx s

/-- What a query yields, and where it leads. -/
theorem runs (hx : x.Moves R) {s : Session} {P : α → Session → Prop} {E : Prop}
    (h : Runs x s P E) : Runs x s (fun a t => P a t ∧ R s t) E := by
  cases h with
  | ok run later sound post => exact .ok run later sound ⟨post, hx.of_ok run⟩
  | error run later sound reason => exact .error run later sound reason

variable [Session.IgnoresNotes R]

theorem of_notes (h : ∀ s, ∃ notebook, x.leaves s = { s with notebook }) : x.Moves R := by
  intro s
  obtain ⟨notebook, hleaves⟩ := h s
  rw [hleaves]
  exact Session.IgnoresNotes.noted s notebook

theorem pure (a : α) : Moves R (Pure.pure a) :=
  of_notes fun s => ⟨s.notebook, rfl⟩

theorem throw (e : Error) : Moves R (MonadExcept.throw e : Query α) :=
  of_notes fun s => ⟨s.notebook, rfl⟩

theorem lift (r : Except Error α) : (Query.lift r).Moves R :=
  of_notes fun s => ⟨s.notebook, by cases r <;> rfl⟩

theorem bind {f : α → Query β} (hx : x.Moves R) (hf : ∀ a, (f a).Moves R) :
    (x >>= f).Moves R := by
  intro s
  rw [leaves_bind]
  cases hrun : x s with
  | ok a t => exact Session.IgnoresNotes.trans (hx.of_ok hrun) (hf a t)
  | error e t => exact leaves_of_error hrun ▸ hx s

theorem map (hx : x.Moves R) (f : α → β) : (f <$> x).Moves R := by
  rw [map_eq_pure_bind]
  exact hx.bind fun _ => .pure _

omit [Session.IgnoresNotes R] in
theorem get {f : Session → Query α} (hf : ∀ s, (f s).Moves R) :
    Moves R (MonadState.get >>= f) :=
  fun s => hf s s

theorem remember {page : Nat} {f : Fact} {find : Query f.Value} (hfind : find.Moves R) :
    (Query.remember page f find).Moves R := by
  refine .get fun s => ?_
  cases s.notebook.find? page f with
  | some v => exact .pure v
  | none => exact hfind.bind fun v => .bind (.of_notes fun _ => ⟨_, rfl⟩) fun _ => .pure v

theorem view (e : Entity) (h : Handle) : (Query.view e h).Moves R :=
  (lift _).bind fun _ => .of_notes fun _ => ⟨_, rfl⟩

theorem viewAny (e : Entity) (h : Handle) : (Query.view? e h).Moves R := by
  unfold Query.view?
  cases h.nonNull? with
  | none => exact .pure none
  | some k => exact (view e k).map some

theorem mapM {f : α → Query β} (hf : ∀ a, (f a).Moves R) : ∀ as : List α, (as.mapM f).Moves R
  | [] => by
      rw [List.mapM_nil]
      exact .pure []
  | a :: as => by
      rw [List.mapM_cons]
      exact (hf a).bind fun _ => (mapM hf as).bind fun _ => .pure _

theorem foldlM {f : β → α → Query β} (hf : ∀ b a, (f b a).Moves R) :
    ∀ (as : List α) (b : β), (as.foldlM f b).Moves R
  | [], b => .pure b
  | a :: as, b => by
      rw [List.foldlM_cons]
      exact (hf b a).bind fun c => foldlM hf as c

end Query.Moves

/-! ## Calls -/

instance (P : AnyCall → Prop) : Session.IgnoresNotes (fun s t => s.CallsOnly t P) where
  noted := fun _ _ => .of_probe rfl
  trans := .trans

/-- The query makes no calls but of such a kind. -/
abbrev Query.CallsOnly (x : Query α) (P : AnyCall → Prop) : Prop :=
  x.Moves fun s t => s.CallsOnly t P

namespace Query

/-- A call is written down, whatever becomes of it. -/
theorem ask_calls (c : Call r) (s : Session) :
    ((ask c).leaves s).probe.calls = ⟨r, c⟩ :: s.probe.calls := by
  obtain ⟨p, hp, ⟨result, -, hrun, -⟩ | hrun⟩ := ask_cases c s
  · unfold leaves
    rw [hrun]
    cases result <;> exact hp.calls
  · unfold leaves
    rw [hrun, access_apply]
    cases Vm.answer c s.vm <;> exact hp.calls

namespace CallsOnly

variable {P Q : AnyCall → Prop}

theorem ask {c : Call r} (hc : P ⟨r, c⟩) : (Query.ask c).CallsOnly P :=
  fun s => ⟨[⟨r, c⟩], List.forall_mem_singleton.mpr hc, ask_calls c s⟩

theorem weaken {x : Query α} (hx : x.CallsOnly P) (hPQ : ∀ c, P c → Q c) : x.CallsOnly Q :=
  fun s => (hx s).weaken hPQ

end CallsOnly

end Query

/-! ## Methods that were run -/

/-- The method that the call runs, if it runs one. -/
def Call.invoked? : Call r → Option Handle
  | .methodInvoke method _ _ => some method
  | _ => none

namespace Session

/-- The methods that were run in the session, one after the other. -/
def ran (s : Session) : List Handle :=
  (s.probe.calls.filterMap fun c => c.2.invoked?).reverse

variable {s t : Session}

theorem ran_of_calls {c : Call r} (h : t.probe.calls = ⟨r, c⟩ :: s.probe.calls) :
    t.ran = s.ran ++ c.invoked?.toList := by
  rw [ran, ran, h, List.filterMap_cons]
  cases c.invoked? <;> simp

theorem CallsOnly.ran_eq {P : AnyCall → Prop} (h : s.CallsOnly t P)
    (hP : ∀ c, P c → c.2.invoked? = none) : t.ran = s.ran := by
  obtain ⟨calls, hcalls, ht⟩ := h
  have hnone : calls.filterMap (fun c => c.2.invoked?) = [] :=
    List.filterMap_eq_nil_iff.mpr fun c hc => hP c (hcalls c hc)
  rw [ran, ran, ht, List.filterMap_append, hnone, List.nil_append]

end Session

/-- The query runs no method. -/
abbrev Query.RunsNone (x : Query α) : Prop :=
  x.CallsOnly fun c => c.2.invoked? = none

theorem Query.RunsNone.runs {x : Query α} (hx : x.RunsNone) {s : Session}
    {P : α → Session → Prop} {E : Prop} (h : Runs x s P E) :
    Runs x s (fun a t => P a t ∧ t.ran = s.ran) E :=
  (Moves.runs hx h).weaken (fun _ _ _ ha => ⟨ha.1, ha.2.ran_eq fun _ => id⟩) id

/-- From the one session to the other, so many methods were run at most. -/
def Session.RunsAtMost (n : Nat) (s t : Session) : Prop :=
  ∃ ms, t.ran = s.ran ++ ms ∧ ms.length ≤ n

/-- The query runs so many methods at most. -/
abbrev Query.RunsAtMost (n : Nat) (x : Query α) : Prop :=
  x.Moves (Session.RunsAtMost n)

namespace Query.RunsAtMost

variable {x : Query α} {n m : Nat}

theorem of_runsNone (hx : x.RunsNone) : x.RunsAtMost n :=
  fun s => ⟨[], by rw [(hx s).ran_eq fun _ => id, List.append_nil], Nat.zero_le n⟩

theorem ask (c : Call r) : (Query.ask c).RunsAtMost 1 :=
  fun s => ⟨_, Session.ran_of_calls (ask_calls c s), by cases c.invoked? <;> simp⟩

theorem bind {f : α → Query β} (hx : x.RunsAtMost n) (hf : ∀ a, (f a).RunsAtMost m) :
    (x >>= f).RunsAtMost (n + m) := by
  intro s
  rw [leaves_bind]
  cases hrun : x s with
  | ok a t =>
      obtain ⟨ms, hms, hn⟩ := hx.of_ok hrun
      obtain ⟨ms', hms', hm⟩ := hf a t
      refine ⟨ms ++ ms', by rw [hms', hms, List.append_assoc], ?_⟩
      rw [List.length_append]
      omega
  | error e t =>
      obtain ⟨ms, hms, hn⟩ := hx s
      rw [leaves_of_error hrun] at hms
      exact ⟨ms, hms, by omega⟩

end Query.RunsAtMost

end VmMetadata
