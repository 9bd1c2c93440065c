import VmMetadata.Proofs.Session.Enumerated
import VmMetadata.Proofs.Session.Faithful

/-!
Rules for two queries, the one in a session with failures, the other in one without. They match if
the other succeeds wherever the one does, and they find the same. There is a rule for each way in
which queries are built. The rule for notes does not care which of the two sessions has the note
already: what is missing in the one was to be found at the beginning, and is found again.
-/

namespace VmMetadata

open Session (Beside Strides)

namespace Query

/-- Where `x` succeeds in the session `s`, so does `y` in `r`, and `P` holds of what they find. The
sessions stay faithful, also where `x` fails. -/
inductive Matches (b : Session) (x : Query α) (y : Query β) (s r : Session)
    (P : Session → Session → α → β → Prop) : Prop
  | ok {a : α} {c : β} {t u : Session} (left : x s = .ok a t) (right : y r = .ok c u)
      (on : b.Strides s r t u) (post : P t u a c)
  | error {e : Error} {t : Session} (left : x s = .error e t) (faithful : b.Faithful t)

variable {b s r : Session} {x : Query α} {y : Query β} {P Q : Session → Session → α → β → Prop}

namespace Matches

theorem weaken (h : Matches b x y s r P) (hPQ : ∀ t u a c, P t u a c → Q t u a c) :
    Matches b x y s r Q := by
  cases h with
  | ok left right on post => exact .ok left right on (hPQ _ _ _ _ post)
  | error left faithful => exact .error left faithful

theorem of_ok {a : α} {t : Session} (h : Matches b x y s r P) (hx : x s = .ok a t) :
    ∃ c u, y r = .ok c u ∧ b.Strides s r t u ∧ P t u a c := by
  cases h with
  | ok left right on post =>
      cases left.symm.trans hx
      exact ⟨_, _, right, on, post⟩
  | error left _ => cases left.symm.trans hx

theorem leaves (h : Matches b x y s r P) : b.Faithful (x.leaves s) := by
  cases h with
  | ok left _ on _ => exact leaves_of_ok left ▸ on.left
  | error left faithful => exact leaves_of_error left ▸ faithful

theorem pure (on : b.Beside s r) {a : α} {c : β} (h : P s r a c) :
    Matches b (Pure.pure a) (Pure.pure c) s r P :=
  .ok rfl rfl on.strides h

theorem throw (on : b.Beside s r) (e : Error) : Matches b (MonadExcept.throw e) y s r P :=
  .error rfl on.left

theorem bind {f : α → Query γ} {g : β → Query δ} {R : Session → Session → γ → δ → Prop}
    (hx : Matches b x y s r P)
    (hf : ∀ t u a c, b.Strides s r t u → P t u a c → Matches b (f a) (g c) t u R) :
    Matches b (x >>= f) (y >>= g) s r R := by
  cases hx with
  | ok left right on post =>
      cases hf _ _ _ _ on post with
      | ok left' right' on' post' =>
          exact .ok ((bind_ok left).trans left') ((bind_ok right).trans right') (on.trans on') post'
      | error left' faithful => exact .error ((bind_ok left).trans left') faithful
  | error left faithful => exact .error (bind_error left) faithful

/-- What follows from the same values is the same. -/
theorem map {x y : Query α} (hx : Matches b x y s r fun _ _ a c => a = c) (f : α → γ) :
    Matches b (do Pure.pure (f (← x))) (do Pure.pure (f (← y))) s r fun _ _ a c => a = c :=
  hx.bind fun _ _ _ _ on h => .pure on.toBeside (congrArg f h)

/-- Through a session in which no call is spoiled. -/
theorem trans {s₀ : Session} {z : Query γ} {Q : Session → Session → γ → β → Prop}
    {R : Session → Session → α → β → Prop} {P : Session → Session → α → γ → Prop}
    (hx : Matches b x z s s₀ P) (hz : Matches b z y s₀ r Q)
    (hR : ∀ t t₀ u a m c, P t t₀ a m → Q t₀ u m c → R t u a c) : Matches b x y s r R := by
  cases hx with
  | ok left right on post =>
      obtain ⟨c, u, hy, on', post'⟩ := hz.of_ok right
      exact .ok left hy ⟨⟨on.left, on'.right, on'.clean⟩, on.grows, on'.grows'⟩
        (hR _ _ _ _ _ _ post post')
  | error left faithful => exact .error left faithful

theorem get {f : Session → Query α} {g : Session → Query β} (h : Matches b (f s) (g r) s r P) :
    Matches b (MonadState.get >>= f) (MonadState.get >>= g) s r P := by
  cases h with
  | ok left right on post => exact .ok left right on post
  | error left faithful => exact .error left faithful

/-! ## Calls -/

/-- An honest fault makes a call fail before the machine is asked. -/
theorem ask_outcome (hs : b.Faithful s) (c : Call ρ) : ∃ p, s.probe.Counts ⟨ρ, c⟩ p ∧
    ((s.probe.faults ≠ [] ∧ ∃ e, Query.ask c s = .error e { s with probe := p }) ∨
      Query.ask c s = access (Vm.answer c) { s with probe := p }) := by
  obtain ⟨p, hp, ⟨result, _, hrun, hfaults, hfails⟩ | hrun⟩ := ask_cases c s
  · obtain ⟨e, rfl⟩ := hfails hs.honest
    exact ⟨p, hp, Or.inl ⟨hfaults, e, hrun⟩⟩
  · exact ⟨p, hp, Or.inr hrun⟩

theorem ask_clean (on : b.Beside s r) (c : Call ρ) : ∃ p, r.probe.Counts ⟨ρ, c⟩ p ∧
    Query.ask c r = access (Vm.answer c) { r with probe := p } := by
  obtain ⟨p, hp, ⟨hfaults, _⟩ | hrun⟩ := ask_outcome on.right c
  · exact absurd on.clean hfaults
  · exact ⟨p, hp, hrun⟩

theorem ask (on : b.Beside s r) {c : Call ρ} (hc : c.isStable = true) :
    Matches b (Query.ask c) (Query.ask c) s r fun _ _ a d => a = d := by
  obtain ⟨q, hq⟩ := b.exists_answer hc
  obtain ⟨p, hp, hleft⟩ := ask_outcome on.left c
  obtain ⟨p', hp', hright⟩ := ask_clean on c
  have on' := on.called hp hp' on.left.scratch on.right.scratch
  rcases hleft with ⟨_, e, hleft⟩ | hleft
  · exact .error hleft on'.left
  · rw [access_apply, hq s on.left] at hleft
    rw [access_apply, hq r on.right] at hright
    cases q with
    | ok a => exact .ok hleft hright on' rfl
    | error e => exact .error hleft on'.left

theorem require (on : b.Beside s r) (h : Handle) (kind : String) :
    Matches b (lift (h.require kind)) (lift (h.require kind)) s r
      fun _ _ k k' => k = k' ∧ k ≠ .null := by
  by_cases hnull : h = .null
  · subst hnull
    exact .error rfl on.left
  · rw [Handle.require_of_ne_null hnull]
    exact .ok rfl rfl on.strides ⟨rfl, hnull⟩

/-! ## Views -/

theorem view (on : b.Beside s r) (e : Entity) (h : Handle) :
    Matches b (Query.view e h) (Query.view e h) s r fun t u v w => t.Twins u v w := by
  by_cases hnull : h = .null
  · subst hnull
    exact .error (view_null e s) on.left
  · refine .ok (view_of_ne_null hnull e s) (view_of_ne_null hnull e r) (on.paged h h) ?_
    exact ⟨⟨hnull, s.shown?_paged h⟩, ⟨hnull, r.shown?_paged h⟩, rfl⟩

theorem viewAny (on : b.Beside s r) (e : Entity) (h : Handle) :
    Matches b (Query.view? e h) (Query.view? e h) s r fun t u v w => Option.Rel (t.Twins u) v w := by
  unfold Query.view?
  cases h.nonNull? with
  | none => exact .pure on .none
  | some k =>
      exact (view on e k).bind fun _ _ _ _ on' h => .pure on'.toBeside (.some h)

theorem viewOf (on : b.Beside s r) (e : Entity) {c : Call .handle} (hc : c.isStable = true) :
    Matches b (do Query.view e (← Query.ask c)) (do Query.view e (← Query.ask c)) s r
      fun t u v w => t.Twins u v w :=
  (ask on hc).bind fun _ _ h _ on' heq => heq ▸ view on'.toBeside e h

theorem callView (on : b.Beside s r) (e : Entity) {c : Call .handle} (hc : c.isStable = true) :
    Matches b (do Query.view? e (← Query.ask c)) (do Query.view? e (← Query.ask c)) s r
      fun t u v w => Option.Rel (t.Twins u) v w :=
  (ask on hc).bind fun _ _ h _ on' heq => heq ▸ viewAny on'.toBeside e h

/-! ## Lists -/

/-- Queries over lists whose elements correspond. -/
theorem mapM {f : α → Query γ} {g : β → Query δ} {G : Session → Session → α → β → Prop}
    {R : Session → Session → γ → δ → Prop}
    (hG : ∀ s r t u a c, b.Strides s r t u → G s r a c → G t u a c)
    (hR : ∀ s r t u a c, b.Strides s r t u → R s r a c → R t u a c)
    (hf : ∀ s r a c, b.Beside s r → G s r a c → Matches b (f a) (g c) s r R) :
    ∀ {as : List α} {cs : List β} {s r : Session}, b.Beside s r → List.Forall₂ (G s r) as cs →
      Matches b (as.mapM f) (cs.mapM g) s r fun t u as cs => List.Forall₂ (R t u) as cs := by
  intro as
  induction as with
  | nil =>
      intro cs s r on h
      cases List.forall₂_nil_left_iff.mp h
      rw [List.mapM_nil, List.mapM_nil]
      exact .pure on .nil
  | cons a as ih =>
      intro cs s r on h
      obtain ⟨c, cs, ha, has, rfl⟩ := List.forall₂_cons_left_iff.mp h
      rw [List.mapM_cons, List.mapM_cons]
      refine (hf s r a c on ha).bind fun t u _ _ on' hb => ?_
      refine (ih on'.toBeside (has.imp fun _ _ => hG _ _ _ _ _ _ on')).bind
        fun t' u' _ _ on'' hbs => ?_
      exact .pure on''.toBeside (.cons (hR _ _ _ _ _ _ on'' hb) hbs)

theorem views (on : b.Beside s r) (e : Entity) (hs : List Handle) :
    Matches b (hs.mapM (Query.view e)) (hs.mapM (Query.view e)) s r
      fun t u vs ws => List.Forall₂ (t.Twins u) vs ws :=
  mapM (G := fun _ _ h k => h = k) (fun _ _ _ _ _ _ _ h => h)
    (fun _ _ _ _ _ _ on h => h.grows on.grows on.grows')
    (fun _ _ h _ on heq => heq ▸ view on e h) on (List.forall₂_eq_eq_eq ▸ rfl)

theorem viewsOf (on : b.Beside s r) (e : Entity) {c : Call .handles} (hc : c.isStable = true) :
    Matches b (do (← Query.ask c).mapM (Query.view e)) (do (← Query.ask c).mapM (Query.view e)) s r
      fun t u vs ws => List.Forall₂ (t.Twins u) vs ws :=
  (ask on hc).bind fun _ _ hs _ on' heq => heq ▸ views on'.toBeside e hs

/-- A loop that takes its state from one element to the next. -/
theorem foldlM {f : γ → α → Query γ} {g : δ → β → Query δ} {G : Session → Session → α → β → Prop}
    {I : Session → Session → γ → δ → Prop}
    (hG : ∀ s r t u a c, b.Strides s r t u → G s r a c → G t u a c)
    (hf : ∀ s r i j a c, b.Beside s r → G s r a c → I s r i j → Matches b (f i a) (g j c) s r I) :
    ∀ {as : List α} {cs : List β} {i : γ} {j : δ} {s r : Session}, b.Beside s r →
      List.Forall₂ (G s r) as cs → I s r i j →
        Matches b (as.foldlM f i) (cs.foldlM g j) s r I := by
  intro as
  induction as with
  | nil =>
      intro cs i j s r on h hi
      cases List.forall₂_nil_left_iff.mp h
      exact .pure on hi
  | cons a as ih =>
      intro cs i j s r on h hi
      obtain ⟨c, cs, ha, has, rfl⟩ := List.forall₂_cons_left_iff.mp h
      rw [List.foldlM_cons, List.foldlM_cons]
      exact (hf s r i j a c on ha hi).bind fun t u _ _ on' hi' =>
        ih on'.toBeside (has.imp fun _ _ => hG _ _ _ _ _ _ on') hi'

/-! ## Notes -/

section

variable {page page' : Nat} {h : Handle} {f : Fact} {find : Nat → Query f.Value}
  (hb : b.Fresh) (hgetter : ∀ page, f.getter h page = Query.remember page f (find page))

include hb hgetter

/-- The getter of a fact made its search at the beginning, as nothing was noted then. -/
theorem told_iff {v : f.Value} : b.Told h f v ↔
    ∃ v₀ t₀, find b.notebook.next (b.paged h) = .ok v₀ t₀ ∧ f.Same v v₀ := by
  have hblank : (b.paged h).notebook.find? b.notebook.next f = none :=
    (Notebook.find?_addPage ..).trans (hb.find? _ f)
  unfold Session.Told
  rw [hgetter, remember_miss hblank]
  cases find b.notebook.next (b.paged h) with
  | ok v₀ t₀ => simp
  | error e t₀ => simp

theorem noted (hf : f ≠ .descriptor) (hp : s.notebook.shown? page = some h)
    (hmiss : s.notebook.find? page f = none) {t t₀ : Session} {v v₀ : f.Value}
    (hrun : find b.notebook.next (b.paged h) = .ok v₀ t₀) (ht : b.Faithful t) (grows : s.Grows t)
    (twins : f.Twins t t₀ v v₀) :
    b.Faithful (t.noted page f v) ∧ s.Grows (t.noted page f v) ∧
      f.Twins (t.noted page f v) t₀ v v₀ := by
  refine ⟨ht.noted hf (grows.shown _ _ hp) twins.left
    ((told_iff hb hgetter).mpr ⟨v₀, t₀, hrun, twins.same⟩), grows.noted hmiss v, ?_⟩
  exact ⟨twins.left.mono fun _ _ hk => (Notebook.shown?_add ..).trans hk, twins.right, twins.same⟩

variable (hfind : ∀ s r page page', b.Beside s r → s.notebook.shown? page = some h →
    r.notebook.shown? page' = some h →
      Matches b (find page) (find page') s r fun t u v w => f.Twins t u v w)

include hfind

/-- What is noted was to be found at the beginning, and it was faithful to look for it then. -/
theorem told {v : f.Value} (hs : b.Faithful s) (hf : f ≠ .descriptor)
    (hp : s.notebook.shown? page = some h) (hv : s.notebook.find? page f = some v) :
    ∃ v₀ t₀, find b.notebook.next (b.paged h) = .ok v₀ t₀ ∧ b.Faithful t₀ ∧
      t₀.probe.faults = [] ∧ (b.paged h).Grows t₀ ∧ f.Twins s t₀ v v₀ := by
  obtain ⟨hshown, htold⟩ := hs.notes page h f v hf hp hv
  obtain ⟨v₀, t₀, hrun, hsame⟩ := (told_iff hb hgetter).mp htold
  have on : b.Beside (b.paged h) (b.paged h) := ⟨hb.faithful.paged h, hb.faithful.paged h, hb.faults⟩
  obtain ⟨_, _, hrun', on', htwins⟩ :=
    (hfind _ _ _ _ on (b.shown?_paged h) (b.shown?_paged h)).of_ok hrun
  cases hrun'.symm.trans hrun
  exact ⟨v₀, t₀, hrun, on'.left, on'.clean, on'.grows, hshown, htwins.left, hsame⟩

/-- A getter that notes what it finds, beside the search that was made at the beginning. -/
theorem remember_left (hs : b.Faithful s) (hf : f ≠ .descriptor)
    (hp : s.notebook.shown? page = some h) :
    Matches b (Query.remember page f (find page)) (find b.notebook.next) s (b.paged h)
      fun t u v w => f.Twins t u v w := by
  cases hfound : s.notebook.find? page f with
  | some v =>
      obtain ⟨v₀, t₀, hrun, ht₀, hclean, hgrows, twins⟩ := told hb hgetter hfind hs hf hp hfound
      exact .ok (remember_hit hfound _) hrun ⟨⟨hs, ht₀, hclean⟩, .refl s, hgrows⟩ twins
  | none =>
      have hmiss := remember_miss hfound (find page)
      have hsearch := hfind s (b.paged h) page b.notebook.next
        ⟨hs, hb.faithful.paged h, hb.faults⟩ hp (b.shown?_paged h)
      cases hsearch with
      | ok left right on twins =>
          rw [left] at hmiss
          obtain ⟨ht, grows, twins⟩ := noted hb hgetter hf hp hfound right on.left on.grows twins
          exact .ok hmiss right ⟨⟨ht, on.right, on.clean⟩, grows, on.grows'⟩ twins
      | error left faithful =>
          rw [left] at hmiss
          exact .error hmiss faithful

/-- The search that was made at the beginning, beside a getter that notes what it finds. -/
theorem remember_right (hr : b.Faithful r) (hclean : r.probe.faults = []) (hf : f ≠ .descriptor)
    (hp : r.notebook.shown? page = some h) :
    Matches b (find b.notebook.next) (Query.remember page f (find page)) (b.paged h) r
      fun t u v w => f.Twins t u v w := by
  cases hfound : r.notebook.find? page f with
  | some w =>
      obtain ⟨v₀, t₀, hrun, ht₀, _, hgrows, twins⟩ := told hb hgetter hfind hr hf hp hfound
      exact .ok hrun (remember_hit hfound _) ⟨⟨ht₀, hr, hclean⟩, hgrows, .refl r⟩
        twins.symm
  | none =>
      have hmiss := remember_miss hfound (find page)
      have hsearch := hfind (b.paged h) r b.notebook.next page
        ⟨hb.faithful.paged h, hr, hclean⟩ (b.shown?_paged h) hp
      cases hsearch with
      | ok left right on twins =>
          rw [right] at hmiss
          obtain ⟨hu, grows, twins'⟩ := noted hb hgetter hf hp hfound left on.right on.grows'
            twins.symm
          exact .ok left hmiss ⟨⟨on.left, hu, on.clean⟩, on.grows, grows⟩
            ⟨twins.left, twins'.left, twins.same⟩
      | error left faithful => exact .error left faithful

/-- A getter that notes what it finds, whichever of the sessions has the note already. -/
theorem remember (on : b.Beside s r) (hf : f ≠ .descriptor) (hp : s.notebook.shown? page = some h)
    (hq : r.notebook.shown? page' = some h) :
    Matches b (Query.remember page f (find page)) (Query.remember page' f (find page')) s r
      fun t u v w => f.Twins t u v w :=
  (remember_left hb hgetter hfind on.left hf hp).trans
    (remember_right hb hgetter hfind on.right on.clean hf hq)
    fun _ _ _ _ _ _ hleft hright => ⟨hleft.left, hright.right, hleft.same.trans hright.same⟩

end

end Matches

end Query

end VmMetadata
