import VmMetadata.Proofs.Session.Alike

/-!
Rules for queries. `Runs` is about one session: a query leaves it later and sound, and its outcome
is as said. `Agree` is about two alike sessions: two queries have the same outcome in them and
leave them alike. There is a rule for each way in which queries are built.
-/

namespace VmMetadata

open Session (Together)

theorem Handle.require_of_ne_null {h : Handle} (hne : h ≠ .null) (kind : String) :
    h.require kind = .ok h :=
  if_neg fun hnull => hne (Handle.isNull_iff.mp hnull)

theorem Handle.nonNull?_of_ne_null {h : Handle} (hne : h ≠ .null) : h.nonNull? = some h :=
  if_neg (mt isNull_iff.mp hne)

theorem Handle.nonNull?_eq_some_iff {h k : Handle} : h.nonNull? = some k ↔ h = k ∧ h ≠ .null := by
  by_cases hnull : h = .null
  · subst hnull
    simp [nonNull?]
  · simp [nonNull?_of_ne_null hnull, hnull]

theorem Handle.nonNull?_eq_none_iff {h : Handle} : h.nonNull? = none ↔ h = .null := by
  by_cases hnull : h = .null
  · subst hnull
    simp [nonNull?]
  · simp [nonNull?_of_ne_null hnull, hnull]

theorem Handle.ne_null_of_nonNull? {h k : Handle} (hk : h.nonNull? = some k) : k ≠ .null := by
  obtain ⟨rfl, hne⟩ := nonNull?_eq_some_iff.mp hk
  exact hne

namespace Query

/-! ## Equations -/

theorem bind_apply (x : Query α) (f : α → Query β) (s : Session) :
    (x >>= f) s = match x s with
      | .ok a t => f a t
      | .error e t => .error e t := by
  change EStateM.bind x f s = _
  unfold EStateM.bind
  cases x s <;> rfl

theorem bind_ok {x : Query α} {f : α → Query β} {s t : Session} {a : α} (h : x s = .ok a t) :
    (x >>= f) s = f a t := by
  rw [bind_apply, h]

theorem bind_error {x : Query α} {f : α → Query β} {s t : Session} {e : Error}
    (h : x s = .error e t) : (x >>= f) s = .error e t := by
  rw [bind_apply, h]

theorem get_apply (s : Session) : (get : Query Session) s = .ok s s := rfl

@[simp] theorem lift_ok (a : α) : lift (.ok a) = pure a := rfl

@[simp] theorem lift_error (e : Error) : (lift (.error e) : Query α) = throw e := rfl

/-- A call that no fault is set for is answered by the machine. -/
theorem ask_unspoiled {s : Session} {c : Call r} (hc : ∀ x ∈ s.probe.faults, x.1 ≠ c.name) :
    ask c s = match Vm.answer c s.vm with
      | .ok v w => .ok v (s.called c w)
      | .error e w => .error e (s.called c w) := by
  have hlookup : (s.probe.record c).faults.lookup c.name = none := by
    rw [List.lookup_eq_none_iff]
    intro x hx
    simpa using Ne.symm (hc x hx)
  have hpass : (s.probe.record c).intercept c = (none, s.probe.record c) := by
    unfold Probe.intercept
    rw [hlookup]
    exact ite_self _
  unfold ask
  rw [hpass]
  change access (Vm.answer c) { s with probe := s.probe.record c } = _
  unfold access
  cases Vm.answer c s.vm <;> rfl

/-- A call through a probe that spoils nothing. -/
theorem ask_apply {s : Session} (hs : s.Sound) (c : Call r) :
    ask c s = match Vm.answer c s.vm with
      | .ok a w => .ok a (s.called c w)
      | .error e w => .error e (s.called c w) := by
  apply ask_unspoiled
  rw [hs.faults]
  exact fun x hx => absurd hx List.not_mem_nil

theorem remember_hit {s : Session} {page : Nat} {f : Fact} {v : f.Value}
    (h : s.notebook.find? page f = some v) (find : Query f.Value) :
    remember page f find s = .ok v s := by
  rw [remember, bind_ok (get_apply s)]
  simp only [h]
  rfl

theorem remember_miss {s : Session} {page : Nat} {f : Fact}
    (h : s.notebook.find? page f = none) (find : Query f.Value) :
    remember page f find s = match find s with
      | .ok v t => .ok v (t.noted page f v)
      | .error e t => .error e t := by
  rw [remember, bind_ok (get_apply s)]
  simp only [h, bind_apply]
  cases find s <;> rfl

section

variable {s t : Session} {page : Nat} {f : Fact} {find : Query f.Value}
  (fresh : s.notebook.find? page f = none)
include fresh

theorem remember_of_error {e : Error} (run : find s = .error e t) :
    remember page f find s = .error e t := by
  rw [remember_miss fresh, run]

theorem remember_of_ok {v : f.Value} (run : find s = .ok v t) :
    remember page f find s = .ok v (t.noted page f v) := by
  rw [remember_miss fresh, run]

end

/-- What is told of a fact was noted before, or it has been found out and is noted now. -/
theorem remember_eq_ok {s u : Session} {page : Nat} {f : Fact} {find : Query f.Value}
    {v : f.Value} (h : remember page f find s = .ok v u) :
    (s.notebook.find? page f = some v ∧ u = s) ∨
      (s.notebook.find? page f = none ∧ ∃ t, find s = .ok v t ∧ u = t.noted page f v) := by
  cases hnote : s.notebook.find? page f with
  | some w =>
      rw [remember_hit hnote] at h
      cases h
      exact Or.inl ⟨rfl, rfl⟩
  | none =>
      rw [remember_miss hnote] at h
      cases hfind : find s with
      | ok w t =>
          rw [hfind] at h
          cases h
          exact Or.inr ⟨rfl, t, rfl, rfl⟩
      | error e t =>
          rw [hfind] at h
          cases h

theorem view_of_ne_null {h : Handle} (hne : h ≠ .null) (e : Entity) (s : Session) :
    view e h s = .ok ⟨h, s.notebook.next⟩ (s.paged h) := by
  simp only [view, Handle.require_of_ne_null hne]
  rfl

theorem view_null (e : Entity) (s : Session) :
    view e .null s = .error (.invalidHandle e.label .null) s := rfl

/-! ## One session -/

/-- The query leaves the session later and sound. It yields something of which `P` holds, or it
fails and `E` is the reason. -/
inductive Runs (x : Query α) (s : Session) (P : α → Session → Prop) (E : Prop) : Prop
  | ok {a : α} {t : Session} (run : x s = .ok a t) (later : s.Later t) (sound : t.Sound)
      (post : P a t)
  | error {e : Error} {t : Session} (run : x s = .error e t) (later : s.Later t)
      (sound : t.Sound) (reason : E)

/-! ## Two sessions -/

/-- The queries have the same outcome in the two sessions and leave them alike. They yield
something of which `P` holds, or they fail and `E` is the reason. -/
inductive Agree (x y : Query α) (s₁ s₂ : Session) (P : α → Session → Prop) (E : Prop) : Prop
  | ok {a : α} {t₁ t₂ : Session} (left : x s₁ = .ok a t₁) (right : y s₂ = .ok a t₂)
      (on : Together s₁ s₂ t₁ t₂) (post : P a t₁)
  | error {e : Error} {t₁ t₂ : Session} (left : x s₁ = .error e t₁) (right : y s₂ = .error e t₂)
      (on : Together s₁ s₂ t₁ t₂) (reason : E)

/-- The query has the same outcome in the two sessions. -/
abbrev Agrees (x : Query α) (s₁ s₂ : Session) (P : α → Session → Prop) (E : Prop) : Prop :=
  Agree x x s₁ s₂ P E

variable {x y : Query α} {s₁ s₂ : Session} {P Q : α → Session → Prop} {E F : Prop}

namespace Runs

variable {s : Session}

theorem weaken (h : Runs x s P E) (hPQ : ∀ a t, s.Later t → P a t → Q a t) (hEF : E → F) :
    Runs x s Q F := by
  cases h with
  | ok run later sound post => exact .ok run later sound (hPQ _ _ later post)
  | error run later sound reason => exact .error run later sound (hEF reason)

/-- A query that cannot fail. -/
theorem exists_ok (h : Runs x s P False) : ∃ a t, x s = .ok a t ∧ s.Later t ∧ t.Sound ∧ P a t := by
  cases h with
  | ok run later sound post => exact ⟨_, _, run, later, sound, post⟩
  | error _ _ _ reason => cases reason

/-- A query that has not failed. -/
theorem of_ok {a : α} {t : Session} (h : Runs x s P E) (hrun : x s = .ok a t) :
    s.Later t ∧ t.Sound ∧ P a t := by
  cases h with
  | ok run later sound post =>
      cases run.symm.trans hrun
      exact ⟨later, sound, post⟩
  | error run _ _ _ => cases run.symm.trans hrun

theorem pure {a : α} (hs : s.Sound) (ha : P a s) : Runs (Pure.pure a) s P E :=
  .ok rfl (.refl s) hs ha

theorem lift (hs : s.Sound) {r : Except Error α} (hok : ∀ a, r = .ok a → P a s)
    (herror : ∀ e, r = .error e → E) : Runs (Query.lift r) s P E := by
  cases r with
  | ok a => exact .ok rfl (.refl s) hs (hok a rfl)
  | error e => exact .error rfl (.refl s) hs (herror e rfl)

theorem throw (hs : s.Sound) (e : Error) (he : E) : Runs (MonadExcept.throw e) s P E :=
  .error rfl (.refl s) hs he

theorem bind {R : β → Session → Prop} {f : α → Query β} (hx : Runs x s P E)
    (hf : ∀ a t, s.Later t → t.Sound → P a t → Runs (f a) t R E) : Runs (x >>= f) s R E := by
  cases hx with
  | @ok a t run later sound post =>
      cases hf a t later sound post with
      | ok run' later' sound' post' =>
          exact .ok ((bind_ok run).trans run') (later.trans later') sound' post'
      | error run' later' sound' reason =>
          exact .error ((bind_ok run).trans run') (later.trans later') sound' reason
  | error run later sound reason => exact .error (bind_error run) later sound reason

theorem get {f : Session → Query α} (hf : Runs (f s) s P E) :
    Runs (MonadState.get >>= f) s P E := by
  cases hf with
  | ok run later sound post => exact .ok run later sound post
  | error run later sound reason => exact .error run later sound reason

/-- A call does to the session what the machine does, and nothing else. -/
theorem ask (hs : s.Sound) {c : Call r} {R : r.Value → Vm → Prop}
    (hc : (Vm.answer c).Steps s.vm R E) :
    Runs (Query.ask c) s (fun a t => R a t.vm ∧ t = s.called c t.vm) E := by
  have hrun := ask_apply hs c
  unfold Access.Steps at hc
  cases hanswer : Vm.answer c s.vm with
  | ok a w =>
      rw [hanswer] at hrun hc
      have hlater := hc.1.later hs.vm
      exact .ok hrun (Session.later_called c hlater)
        (hs.called c hlater (hc.1.wellFormed hs.vm)) ⟨hc.2, rfl⟩
  | error e w =>
      rw [hanswer] at hrun hc
      obtain ⟨rfl, he⟩ := hc
      exact .error hrun (Session.later_called c (.refl _)) (hs.called c (.refl _) hs.vm) he

/-- What is noted is true; and what does not depend on the note stays true. -/
theorem rememberAnd {page : Nat} {k : Handle} {f : Fact} {find : Query f.Value} (hs : s.Sound)
    (hp : s.notebook.shown? page = some k) {I : Session → Prop} (hi : I s)
    (hI : ∀ t v, I t → I (t.noted page f v))
    (hfind : Runs find s (fun v t => f.Holds t k v ∧ I t) E) :
    Runs (Query.remember page f find) s (fun v t => f.Holds t k v ∧ I t) E := by
  cases hfound : s.notebook.find? page f with
  | some v =>
      exact .ok (remember_hit hfound find) (.refl s) hs ⟨hs.notes page k f v hp hfound, hi⟩
  | none =>
      have hrun := remember_miss hfound find
      cases hfind with
      | @ok v t run later sound post =>
          rw [run] at hrun
          have hlater := Session.later_noted t page f v
          exact .ok hrun (later.trans hlater) (sound.noted (later.shown _ _ hp) post.1)
            ⟨Fact.Holds.later hlater post.1, hI t v post.2⟩
      | error run later sound reason =>
          rw [run] at hrun
          exact .error hrun later sound reason

end Runs

namespace Agree

theorem runs (h : Agree x y s₁ s₂ P E) : Runs x s₁ P E := by
  cases h with
  | ok left right on post => exact .ok left on.left on.alike.left post
  | error left right on reason => exact .error left on.left on.alike.left reason

theorem weaken (h : Agree x y s₁ s₂ P E) (hPQ : ∀ a t, s₁.Later t → P a t → Q a t)
    (hEF : E → F) : Agree x y s₁ s₂ Q F := by
  cases h with
  | ok left right on post => exact .ok left right on (hPQ _ _ on.left post)
  | error left right on reason => exact .error left right on (hEF reason)

theorem pure {a : α} (h : s₁.Alike s₂) (ha : P a s₁) : Agrees (Pure.pure a) s₁ s₂ P E :=
  .ok rfl rfl h.together ha

theorem throw (h : s₁.Alike s₂) (e : Error) (he : E) :
    Agrees (MonadExcept.throw e) s₁ s₂ P E :=
  .error rfl rfl h.together he

theorem bind {R : β → Session → Prop} {f g : α → Query β} (hx : Agree x y s₁ s₂ P E)
    (hf : ∀ a t₁ t₂, Together s₁ s₂ t₁ t₂ → P a t₁ → Agree (f a) (g a) t₁ t₂ R E) :
    Agree (x >>= f) (y >>= g) s₁ s₂ R E := by
  cases hx with
  | @ok a t₁ t₂ left right on post =>
      cases hf a t₁ t₂ on post with
      | ok left' right' on' post' =>
          exact .ok ((bind_ok left).trans left') ((bind_ok right).trans right') (on.trans on') post'
      | error left' right' on' reason =>
          exact .error ((bind_ok left).trans left') ((bind_ok right).trans right') (on.trans on')
            reason
  | error left right on reason => exact .error (bind_error left) (bind_error right) on reason

/-- A query over a list that preserves the invariant step by step. -/
theorem mapMKeeping {f g : α → Query β} {R : α → β → Session → Prop} {I : Session → Prop}
    (hR : ∀ {a b} {s t : Session}, s.Sound → s.Later t → R a b s → R a b t) :
    ∀ {as : List α} {s₁ s₂ : Session}, s₁.Alike s₂ → I s₁ →
      (∀ a ∈ as, ∀ t₁ t₂, Together s₁ s₂ t₁ t₂ → I t₁ →
        Agree (f a) (g a) t₁ t₂ (fun b t => R a b t ∧ I t) E) →
      Agree (as.mapM f) (as.mapM g) s₁ s₂
        (fun bs t => List.Forall₂ (fun a b => R a b t) as bs ∧ I t) E
  | [], s₁, s₂, h, hi, _ => by
      rw [List.mapM_nil, List.mapM_nil]
      exact .pure h ⟨.nil, hi⟩
  | a :: as, s₁, s₂, h, hi, hf => by
      rw [List.mapM_cons, List.mapM_cons]
      refine (hf a List.mem_cons_self s₁ s₂ h.together hi).bind fun b t₁ t₂ on hb => ?_
      refine (mapMKeeping (R := R) hR on.alike hb.2 fun c hc u₁ u₂ on' =>
        hf c (List.mem_cons_of_mem a hc) u₁ u₂ (on.trans on')).bind fun bs u₁ u₂ on' hbs => ?_
      exact .pure on'.alike ⟨.cons (hR on.alike.left on'.left hb.1) hbs.1, hbs.2⟩

theorem mapM {f g : α → Query β} {R : α → β → Session → Prop} {I : Session → Prop}
    (hI : ∀ {s t : Session}, s.Later t → I s → I t)
    (hR : ∀ {a b} {s t : Session}, s.Sound → s.Later t → R a b s → R a b t) {as : List α}
    (h : s₁.Alike s₂) (hi : I s₁)
    (hf : ∀ a ∈ as, ∀ t₁ t₂, t₁.Alike t₂ → I t₁ → Agree (f a) (g a) t₁ t₂ (R a) E) :
    Agree (as.mapM f) (as.mapM g) s₁ s₂
      (fun bs t => List.Forall₂ (fun a b => R a b t) as bs) E :=
  (mapMKeeping (R := R) (I := I) hR h hi fun a ha t₁ t₂ on hi =>
    (hf a ha t₁ t₂ on.alike hi).weaken (fun _ _ hlater hb => ⟨hb, hI hlater hi⟩) id).weaken
    (fun _ _ _ hbs => hbs.1) id

/-- A call in which the build does not show. -/
theorem ask (h : s₁.Alike s₂) {c : Call r} (hc : c.isBlind = true) {R : r.Value → Vm → Prop}
    (hsteps : (Vm.answer c).Steps s₁.vm R E) :
    Agrees (Query.ask c) s₁ s₂ (fun a t => R a t.vm) E := by
  have hrun := ask_apply h.left c
  have hrun' := ask_apply h.right c
  have hvm : s₂.vm = s₁.vm.disguised s₂.vm.vmVersion s₂.vm.isLegacy s₂.vm.scratch := h.similar.vm
  have hsame := Vm.answer_blind hc s₁.vm s₂.vm.vmVersion s₂.vm.isLegacy s₂.vm.scratch
  rw [← hvm] at hsame
  have hright := Vm.answer_steps h.right.vm c
  unfold Access.Steps at hsteps hright
  cases hanswer : Vm.answer c s₁.vm with
  | ok a w =>
      rw [hanswer] at hrun hsteps hsame
      rw [hsame] at hrun' hright
      have hlater := hsteps.1.later h.left.vm
      have hlater' := hright.1.later h.right.vm
      exact .ok hrun hrun' ⟨Session.later_called c hlater, Session.later_called c hlater',
        ⟨h.similar.called c c rfl, h.left.called c hlater (hsteps.1.wellFormed h.left.vm),
          h.right.called c hlater' (hright.1.wellFormed h.right.vm)⟩⟩ hsteps.2
  | error e w =>
      rw [hanswer] at hrun hsteps hsame
      obtain ⟨rfl, he⟩ := hsteps
      change Vm.answer c s₂.vm = .error e (s₁.vm.disguised _ _ _) at hsame
      rw [← hvm] at hsame
      rw [hsame] at hrun'
      exact .error hrun hrun' ⟨Session.later_called c (.refl _), Session.later_called c (.refl _),
        ⟨h.similar.called c c h.similar.vm, h.left.called c (.refl _) h.left.vm,
          h.right.called c (.refl _) h.right.vm⟩⟩ he

/-- Two ways to find what is noted, if what is true in the one session is true in the other. -/
theorem rememberBoth {page : Nat} {k : Handle} {f : Fact} {find find' : Query f.Value}
    {Q : f.Value → Prop} (h : s₁.Alike s₂) (hp : s₁.notebook.shown? page = some k)
    (hf : f.isShared = true) (hknown : ∀ v, f.Holds s₁ k v → Q v)
    (hright : ∀ v t₁ t₂, Together s₁ s₂ t₁ t₂ → f.Holds t₁ k v → Q v → f.Holds t₂ k v)
    (hfind : Agree find find' s₁ s₂ (fun v t => f.Holds t k v ∧ Q v) E) :
    Agree (Query.remember page f find) (Query.remember page f find') s₁ s₂
      (fun v t => f.Holds t k v ∧ Q v) E := by
  have hfound := h.similar.found page f hf
  cases hnote : s₁.notebook.find? page f with
  | some v =>
      rw [hnote] at hfound
      have hv := h.left.notes page k f v hp hnote
      exact .ok (remember_hit hnote find) (remember_hit hfound find') h.together ⟨hv, hknown v hv⟩
  | none =>
      rw [hnote] at hfound
      have hrun := remember_miss hnote find
      have hrun' := remember_miss hfound find'
      cases hfind with
      | @ok v t₁ t₂ left right on post =>
          rw [left] at hrun
          rw [right] at hrun'
          have hp₁ := on.left.shown page k hp
          have hp₂ := (on.alike.similar.shown page).trans hp₁
          have hlater := Session.later_noted t₁ page f v
          exact .ok hrun hrun' ⟨on.left.trans hlater,
            on.right.trans (Session.later_noted t₂ page f v),
            ⟨on.alike.similar.noted v hp₁, on.alike.left.noted hp₁ post.1,
              on.alike.right.noted hp₂ (hright v t₁ t₂ on post.1 post.2)⟩⟩
            ⟨Fact.Holds.later hlater post.1, post.2⟩
      | error left right on reason =>
          rw [left] at hrun
          rw [right] at hrun'
          exact .error hrun hrun' on reason

theorem remember {page : Nat} {k : Handle} {f : Fact} {find : Query f.Value}
    (h : s₁.Alike s₂) (hp : s₁.notebook.shown? page = some k) (hf : f.isBlind = true)
    (hfind : Agrees find s₁ s₂ (fun v t => f.Holds t k v) E) :
    Agrees (Query.remember page f find) s₁ s₂ (fun v t => f.Holds t k v) E := by
  have hshared : f.isShared = true := by
    cases f <;> first | rfl | cases hf
  refine (rememberBoth (Q := fun _ => True) h hp hshared (fun _ _ => trivial)
    (fun v t₁ t₂ on hv _ => on.alike.similar.holds hf hv)
    (hfind.weaken (fun _ _ _ hv => ⟨hv, trivial⟩) id)).weaken (fun _ _ _ hv => hv.1) id

/-- A view is made without the machine. -/
theorem viewAlone (h : s₁.Alike s₂) (e : Entity) (k : Handle) :
    Agrees (Query.view e k) s₁ s₂ (fun v t => (t.Shows v ∧ v.handle = k) ∧ t.vm = s₁.vm)
      (k = .null) := by
  by_cases hnull : k = .null
  · subst hnull
    exact .error (view_null e s₁) (view_null e s₂) h.together rfl
  · refine .ok (view_of_ne_null hnull e s₁) ?_ ⟨Session.later_paged s₁ k,
      Session.later_paged s₂ k, ⟨h.similar.paged k, h.left.paged k, h.right.paged k⟩⟩
      ⟨⟨⟨hnull, ?_⟩, rfl⟩, rfl⟩
    · rw [view_of_ne_null hnull e s₂, h.similar.next]
    · simp [Session.paged, Notebook.shown?_addPage]

theorem view (h : s₁.Alike s₂) (e : Entity) (k : Handle) :
    Agrees (Query.view e k) s₁ s₂ (fun v t => t.Shows v ∧ v.handle = k) (k = .null) :=
  (viewAlone h e k).weaken (fun _ _ _ hv => hv.1) id

/-- So are several. -/
theorem viewsAlone (h : s₁.Alike s₂) (e : Entity) (ks : List Handle) :
    Agrees (ks.mapM (Query.view e)) s₁ s₂
      (fun vs t => ((∀ v ∈ vs, t.Shows v) ∧ vs.map View.handle = ks) ∧ t.vm = s₁.vm)
      (Handle.null ∈ ks) := by
  refine (mapMKeeping (R := fun k v t => t.Shows v ∧ v.handle = k) (I := fun t => t.vm = s₁.vm)
    (fun _ hlater hv => ⟨hv.1.later hlater, hv.2⟩) h rfl fun k hk t₁ t₂ on hvm =>
      (viewAlone on.alike e k).weaken (fun _ _ _ hv => ⟨hv.1, hv.2.trans hvm⟩)
        fun hnull => hnull ▸ hk).weaken (fun vs t _ hvs => ⟨⟨fun v hv => ?_, ?_⟩, hvs.2⟩) id
  · obtain ⟨k, _, hshows, _⟩ := Load.mem_of_forall₂ hvs.1 hv
    exact hshows
  · refine List.ext_getElem (by rw [List.length_map, hvs.1.length_eq]) fun j hj hj' => ?_
    rw [List.getElem_map]
    exact (hvs.1.get hj' (by simpa using hj)).2

theorem lift (h : s₁.Alike s₂) {r : Except Error α} (hok : ∀ a, r = .ok a → P a s₁)
    (herror : ∀ e, r = .error e → E) : Agrees (Query.lift r) s₁ s₂ P E := by
  cases r with
  | ok a => exact .ok rfl rfl h.together (hok a rfl)
  | error e => exact .error rfl rfl h.together (herror e rfl)

/-- A handle that must not be null. -/
theorem require (h : s₁.Alike s₂) (k : Handle) (kind : String) :
    Agrees (Query.lift (k.require kind)) s₁ s₂ (fun a _ => a = k ∧ k ≠ .null) (k = .null) := by
  by_cases hnull : k = .null
  · subst hnull
    exact lift h (fun a ha => by cases ha) fun _ _ => rfl
  · refine lift h (fun a ha => ?_) fun e he => ?_
    · rw [Handle.require_of_ne_null hnull] at ha
      cases ha
      exact ⟨rfl, hnull⟩
    · rw [Handle.require_of_ne_null hnull] at he
      cases he

/-- What is known of the one run alone. -/
theorem andRuns {R : α → Session → Prop} {F : Prop} (h : Agree x y s₁ s₂ P E)
    (hx : Runs x s₁ R F) : Agree x y s₁ s₂ (fun a t => P a t ∧ R a t) (E ∧ F) := by
  cases h with
  | ok left right on post =>
      cases hx with
      | ok run _ _ post' =>
          rw [left] at run
          cases run
          exact .ok left right on ⟨post, post'⟩
      | error run _ _ _ =>
          rw [left] at run
          cases run
  | error left right on reason =>
      cases hx with
      | ok run _ _ _ =>
          rw [left] at run
          cases run
      | error run _ _ reason' =>
          rw [left] at run
          cases run
          exact .error left right on ⟨reason, reason'⟩

/-- A step of the one query that the other session could not see. -/
theorem bindLeft {x : Query β} {f : β → Query α} {y : Query α} {R : β → Session → Prop}
    (h : s₁.Alike s₂) (hx : Runs x s₁ (fun b t => R b t ∧ s₁.Similar t) False)
    (hf : ∀ b t, s₁.Later t → t.Alike s₂ → R b t → Agree (f b) y t s₂ P E) :
    Agree (x >>= f) y s₁ s₂ P E := by
  cases hx with
  | ok run later sound post =>
      cases hf _ _ later ⟨post.2.symm.trans h.similar, sound, h.right⟩ post.1 with
      | ok left right on post' =>
          exact .ok ((bind_ok run).trans left) right ⟨later.trans on.left, on.right, on.alike⟩ post'
      | error left right on reason =>
          exact .error ((bind_ok run).trans left) right ⟨later.trans on.left, on.right, on.alike⟩
            reason
  | error _ _ _ impossible => exact impossible.elim

theorem getLeft {f : Session → Query α} (hf : Agree (f s₁) y s₁ s₂ P E) :
    Agree (MonadState.get >>= f) y s₁ s₂ P E := by
  cases hf with
  | ok left right on post => exact .ok left right on post
  | error left right on reason => exact .error left right on reason

theorem symm (h : Agree x y s₁ s₂ P E) : Agree y x s₂ s₁ (fun _ _ => True) E := by
  cases h with
  | ok left right on _ => exact .ok right left ⟨on.right, on.left, on.alike.symm⟩ trivial
  | error left right on reason => exact .error right left ⟨on.right, on.left, on.alike.symm⟩ reason

theorem trans {z : Query α} {s₃ : Session} (h : Agree x y s₁ s₂ P E) (k : Agree y z s₂ s₃ Q F) :
    Agree x z s₁ s₃ P E := by
  cases h with
  | ok left right on post =>
      cases k with
      | ok left' right' on' _ =>
          rw [right] at left'
          cases left'
          exact .ok left right' ⟨on.left, on'.right, on.alike.trans on'.alike⟩ post
      | error left' _ _ _ =>
          rw [right] at left'
          cases left'
  | error left right on reason =>
      cases k with
      | ok left' _ _ _ =>
          rw [right] at left'
          cases left'
      | error left' right' on' _ =>
          rw [right] at left'
          cases left'
          exact .error left right' ⟨on.left, on'.right, on.alike.trans on'.alike⟩ reason

/-- The reason of a failure does not matter. -/
theorem loose (h : Agree x y s₁ s₂ P E) : Agree x y s₁ s₂ P True :=
  h.weaken (fun _ _ _ ha => ha) fun _ => trivial

end Agree

/-! ## Calls that read -/

theorem tells_steps (vm : Vm) {c : Call r} (hc : c.isStable = true) :
    (Vm.answer c).Steps vm (fun a w => w.Tells c a ∧ w = vm) (∀ a, ¬vm.Tells c a) := by
  obtain ⟨q, hq⟩ := (Vm.answer_stable hc).reads vm
  cases q with
  | ok a => exact .of_ok hq .idle ⟨hq, rfl⟩
  | error e =>
      refine .of_error hq fun a ha => ?_
      unfold Vm.Tells at ha
      rw [hq] at ha
      cases ha

theorem Runs.tell {s : Session} (hs : s.Sound) {c : Call r} (hc : c.isStable = true) :
    Runs (Query.ask c) s (fun a t => t.vm.Tells c a ∧ s.Similar t) (∀ a, ¬s.vm.Tells c a) := by
  refine (Runs.ask hs (tells_steps s.vm hc)).weaken ?_ id
  rintro a t _ ⟨⟨ha, hvm⟩, ht⟩
  rw [ht, hvm]
  exact ⟨hvm ▸ ha, Session.similar_called c (.refl _)⟩

/-- An answer that is known beforehand. -/
theorem Runs.known {s : Session} (hs : s.Sound) {c : Call r} {a : r.Value} (ha : s.vm.Tells c a) :
    Runs (Query.ask c) s (fun b t => b = a ∧ s.Similar t) False := by
  have hsteps : (Vm.answer c).Steps s.vm (fun b w => b = a ∧ w = s.vm) False :=
    .of_ok ha .idle ⟨rfl, rfl⟩
  refine (Runs.ask hs hsteps).weaken ?_ id
  rintro b t _ ⟨⟨hb, hvm⟩, ht⟩
  rw [ht, hvm]
  exact ⟨hb, Session.similar_called c (.refl _)⟩

namespace Agree

theorem tell (h : s₁.Alike s₂) {c : Call r} (hb : c.isBlind = true) (hc : c.isStable = true) :
    Agrees (Query.ask c) s₁ s₂ (fun a t => t.vm.Tells c a) (∀ a, ¬s₁.vm.Tells c a) :=
  (Agree.ask h hb (tells_steps s₁.vm hc)).weaken (fun _ _ _ ha => ha.1) id

/-- An answer that is known beforehand. -/
theorem known {c : Call r} {x : Query r.Value} (hc : c.isStable = true) {a : r.Value}
    (ha : s₁.vm.Tells c a)
    (h : Agrees x s₁ s₂ (fun a t => t.vm.Tells c a) (∀ a, ¬s₁.vm.Tells c a)) :
    Agrees x s₁ s₂ (fun b _ => b = a) False :=
  h.weaken (fun _ _ hlater hb => hb.unique (ha.later hc hlater.vm)) fun hnone => hnone a ha

/-- A view of the object that a call names. -/
theorem viewOf (h : s₁.Alike s₂) (e : Entity) {c : Call .handle} (hb : c.isBlind = true)
    (hc : c.isStable = true) :
    Agrees (do Query.view e (← Query.ask c)) s₁ s₂ (fun v t => t.ShowsAt c v)
      (∀ k, s₁.vm.Tells c k → k = .null) := by
  have hask := (tell h hb hc).weaken (F := ∀ k, s₁.vm.Tells c k → k = .null)
    (fun _ _ _ ha => ha) fun hnone k hk => absurd hk (hnone k)
  refine hask.bind fun k t₁ t₂ on hk => (view on.alike e k).weaken ?_ ?_
  · rintro v u hlater ⟨hshows, rfl⟩
    exact ⟨hshows, hk.later hc hlater.vm⟩
  · intro hnull k' hk'
    rw [(hk'.later hc on.left.vm).unique hk, hnull]

/-- Views of the objects that a call names. -/
theorem viewsOf (h : s₁.Alike s₂) (e : Entity) {c : Call .handles} (hb : c.isBlind = true)
    (hc : c.isStable = true) :
    Agrees (do (← Query.ask c).mapM (Query.view e)) s₁ s₂ (fun vs t => t.ShowsAll c vs)
      (∀ ks, s₁.vm.Tells c ks → Handle.null ∈ ks) := by
  have hask := (tell h hb hc).weaken (F := ∀ ks, s₁.vm.Tells c ks → Handle.null ∈ ks)
    (fun _ _ _ ha => ha) fun hnone ks hks => absurd hks (hnone ks)
  refine hask.bind fun ks t₁ t₂ on hks => (viewsAlone on.alike e ks).weaken ?_ ?_
  · rintro vs u hlater ⟨⟨hshows, rfl⟩, _⟩
    exact ⟨hshows, hks.later hc hlater.vm⟩
  · intro hnull ks' hks'
    rw [(hks'.later hc on.left.vm).unique hks]
    exact hnull

/-- A view of the object that a call names, if it names one. -/
theorem viewAnyOf (h : s₁.Alike s₂) (e : Entity) {c : Call .handle} (hb : c.isBlind = true)
    (hc : c.isStable = true) :
    Agrees (do Query.view? e (← Query.ask c)) s₁ s₂ (fun v? t => t.ShowsAny c v?)
      (∀ k, ¬s₁.vm.Tells c k) := by
  refine (tell h hb hc).bind fun k t₁ t₂ on hk => ?_
  unfold Query.view?
  by_cases hnull : k = .null
  · subst hnull
    exact .pure on.alike hk
  · rw [Handle.nonNull?_of_ne_null hnull]
    have hview := (view on.alike e k).weaken (F := ∀ k, ¬s₁.vm.Tells c k)
      (fun _ _ _ hv => hv) fun hn => absurd hn hnull
    change Agrees (Query.view e k >>= fun v => Pure.pure (some v)) t₁ t₂ _ _
    refine hview.bind fun v u₁ u₂ on' hv => .pure on'.alike ⟨hv.1, ?_⟩
    rw [hv.2]
    exact hk.later hc on'.left.vm

end Agree

end Query

end VmMetadata
