import VmMetadata.Proofs.Session.Trail

/-!
Rules for queries whose calls may be spoiled. `Gathers` says that a query leaves a trail. `Memoizes`
says in addition that an answer is kept: whoever asks again, at any later time, gets the same answer,
and the machine is not asked. There is a rule for each way in which queries are built.
-/

namespace VmMetadata

open Session (Trail)

namespace Session

/-- Nothing was done but to call for what never changes. -/
def Hushed (u v : Session) : Prop :=
  ∃ calls : List AnyCall, (∀ c ∈ calls, c.2.isConstant = true) ∧
    v = { u with probe := { u.probe with calls := calls ++ u.probe.calls } }

namespace Hushed

theorem refl (u : Session) : u.Hushed u :=
  ⟨[], by simp, rfl⟩

theorem trans {u v w : Session} (huv : u.Hushed v) (hvw : v.Hushed w) : u.Hushed w := by
  obtain ⟨first, hfirst, rfl⟩ := huv
  obtain ⟨rest, hrest, rfl⟩ := hvw
  refine ⟨rest ++ first, fun c hc => ?_, by simp⟩
  rcases List.mem_append.mp hc with hc | hc
  · exact hrest c hc
  · exact hfirst c hc

theorem grows {u v : Session} (h : u.Hushed v) : u.Grows v := by
  obtain ⟨_, _, rfl⟩ := h
  exact grows_of_notebook rfl rfl rfl

end Hushed

end Session

namespace Query

theorem bind_eq_ok {x : Query α} {f : α → Query β} {s t : Session} {b : β} :
    (x >>= f) s = .ok b t ↔ ∃ a u, x s = .ok a u ∧ f a u = .ok b t := by
  rw [bind_apply]
  cases x s with
  | ok a u => simp
  | error e u => simp

/-- The query leaves a trail, and what it answers is as said. -/
inductive Gathers (n : Nat) (x : Query α) (s : Session) (P : α → Session → Prop) : Prop
  | ok {a : α} {t : Session} (run : x s = .ok a t) (trail : Trail n s t) (post : P a t)
  | error {e : Error} {t : Session} (run : x s = .error e t) (trail : Trail n s t)

/-- The query answers so at any later time, and the machine is not asked. -/
def Recalls (x : Query α) (t : Session) (a : α) : Prop :=
  ∀ u, t.Grows u → ∃ v, x u = .ok a v ∧ u.Hushed v

/-- The query leaves a trail, and what it has answered it goes on to answer. -/
structure Memoizes (n : Nat) (x : Query α) (s : Session)
    (P : α → Session → Prop) : Prop where
  gathers : x.Gathers n s P
  recalls : ∀ a t, x s = .ok a t → x.Recalls t a

/-- The query keeps what it has answered as a note of the fact, and a failure leaves no such
note. -/
structure Notes (n page : Nat) (f : Fact) (x : Query f.Value) (s : Session) :
    Prop extends Memoizes n x s (fun v t => f.Shown t v) where
  shape : ∃ find, x = Query.remember page f find
  blank : ∀ e t, x s = .error e t → t.notebook.find? page f = none

variable {n : Nat} {s t : Session} {x : Query α} {P Q : α → Session → Prop}

namespace Gathers

theorem weaken (h : x.Gathers n s P) (hPQ : ∀ a t, P a t → Q a t) : x.Gathers n s Q := by
  cases h with
  | ok run trail post => exact .ok run trail (hPQ _ _ post)
  | error run trail => exact .error run trail

theorem loose (h : x.Gathers n s P) : x.Gathers n s (fun _ _ => True) :=
  h.weaken fun _ _ _ => trivial

theorem of_ok {a : α} (h : x.Gathers n s P) (hrun : x s = .ok a t) :
    Trail n s t ∧ P a t := by
  cases h with
  | ok run trail post =>
      cases run.symm.trans hrun
      exact ⟨trail, post⟩
  | error run _ => cases run.symm.trans hrun

theorem leaves (h : x.Gathers n s P) : Trail n s (x.leaves s) := by
  cases h with
  | ok run trail _ => rwa [leaves_of_ok run]
  | error run trail => rwa [leaves_of_error run]

theorem pure {a : α} (ha : P a s) : Gathers n (Pure.pure a) s P :=
  .ok rfl (.refl n s) ha

theorem throw (e : Error) : Gathers n (MonadExcept.throw e) s P :=
  .error rfl (.refl n s)

theorem bind {f : α → Query β} {R : β → Session → Prop} (hs : s.Intact) (hx : x.Gathers n s P)
    (hf : ∀ a t, s.Grows t → t.Intact → P a t → (f a).Gathers n t R) :
    (x >>= f).Gathers n s R := by
  cases hx with
  | @ok a t run trail post =>
      obtain ⟨grows, ht⟩ := trail.grows hs
      cases hf a t grows ht post with
      | ok run' trail' post' =>
          exact .ok ((bind_ok run).trans run') (trail.trans trail') post'
      | error run' trail' => exact .error ((bind_ok run).trans run') (trail.trans trail')
  | error run trail => exact .error (bind_error run) trail

theorem map (hs : s.Intact) (hx : x.Gathers n s P) (f : α → β) :
    (f <$> x).Gathers n s (fun b t => ∃ a, P a t ∧ b = f a) := by
  rw [map_eq_pure_bind]
  exact hx.bind hs fun a _ _ _ ha => .pure ⟨a, ha, rfl⟩

theorem get {f : Session → Query α} (h : (f s).Gathers n s P) :
    Gathers n (MonadState.get >>= f) s P := by
  cases h with
  | ok run trail post => exact .ok run trail post
  | error run trail => exact .error run trail

/-- A call that names objects, spoiled or not. -/
theorem call (c : Call r) (serves : c.Serves n) : Gathers n (ask c) s (fun _ _ => True) := by
  have trail : Trail n s ((ask c).leaves s) := .call c serves.names serves.rank
  cases hrun : ask c s with
  | ok a t =>
      rw [leaves_of_ok hrun] at trail
      exact .ok hrun trail trivial
  | error e t =>
      rw [leaves_of_error hrun] at trail
      exact .error hrun trail

theorem lift (r : Except Error α) : Gathers n (Query.lift r) s (fun a _ => r = .ok a) := by
  cases r with
  | ok a => exact .ok rfl (.refl n s) rfl
  | error e => exact .error rfl (.refl n s)

theorem require (h : Handle) (kind : String) :
    Gathers n (Query.lift (h.require kind)) s (fun a _ => a = h ∧ h ≠ .null) := by
  by_cases hnull : h = .null
  · subst hnull
    exact .error rfl (.refl n s)
  · rw [Handle.require_of_ne_null hnull]
    exact .ok rfl (.refl n s) ⟨rfl, hnull⟩

theorem view (e : Entity) (h : Handle) :
    Gathers n (Query.view e h) s (fun v t => t.Shows v ∧ v.handle = h) := by
  by_cases hnull : h = .null
  · subst hnull
    exact .error (view_null e s) (.refl n s)
  · refine .ok (view_of_ne_null hnull e s) (.page h) ⟨⟨hnull, ?_⟩, rfl⟩
    simp [Session.paged, Notebook.shown?_addPage]

theorem viewOf (hs : s.Intact) (e : Entity) (c : Call .handle) (serves : c.Serves n) :
    Gathers n (do Query.view e (← ask c)) s (fun v t => t.Shows v) :=
  (call c serves).bind hs fun h _ _ _ _ => (view e h).weaken fun _ _ hv => hv.1

theorem viewAny (hs : s.Intact) (e : Entity) (h : Handle) :
    Gathers n (Query.view? e h) s (fun v? t => ∀ v ∈ v?, t.Shows v) := by
  unfold Query.view?
  cases h.nonNull? with
  | none => exact .pure (by simp)
  | some k =>
      refine ((view e k).map hs some).weaken ?_
      rintro _ t ⟨v, hv, rfl⟩ w hw
      cases hw
      exact hv.1

theorem callView (hs : s.Intact) (e : Entity) (c : Call .handle) (serves : c.Serves n) :
    Gathers n (do Query.view? e (← ask c)) s (fun v? t => ∀ v ∈ v?, t.Shows v) :=
  (call c serves).bind hs fun h _ _ ht _ => viewAny ht e h

/-- A query over a list. What is known of the elements, and of what was yielded, stays true. -/
theorem mapM {f : α → Query β} {G : α → Session → Prop} {R : β → Session → Prop}
    (hG : ∀ a s t, s.Grows t → G a s → G a t) (hR : ∀ b s t, s.Grows t → R b s → R b t) :
    ∀ {as : List α} {s : Session}, s.Intact → (∀ a ∈ as, G a s) →
      (∀ a ∈ as, ∀ t, t.Intact → G a t → (f a).Gathers n t R) →
      (as.mapM f).Gathers n s (fun bs t => ∀ b ∈ bs, R b t)
  | [], s, _, _, _ => by
      rw [List.mapM_nil]
      exact .pure (by simp)
  | a :: as, s, hs, has, hf => by
      obtain ⟨ha, has⟩ := List.forall_mem_cons.mp has
      rw [List.mapM_cons]
      refine (hf a List.mem_cons_self s hs ha).bind hs fun b t grows ht hb => ?_
      refine (mapM (R := R) hG hR ht (fun d hd => hG _ _ _ grows (has d hd)) fun d hd =>
        hf d (List.mem_cons_of_mem a hd)).bind ht fun bs u grows' _ hbs => .pure ?_
      exact List.forall_mem_cons.mpr ⟨hR _ _ _ grows' hb, hbs⟩

theorem views (hs : s.Intact) (e : Entity) (hs' : List Handle) :
    Gathers n (hs'.mapM (Query.view e)) s (fun vs t => ∀ v ∈ vs, t.Shows v) :=
  mapM (G := fun _ _ => True) (R := fun v t => t.Shows v) (fun _ _ _ _ _ => trivial)
    (fun _ _ _ grows hv => grows.shows hv) hs (fun _ _ => trivial) fun h _ _ _ _ =>
    (view e h).weaken fun _ _ hv => hv.1

theorem viewsOf (hs : s.Intact) (e : Entity) (c : Call .handles) (serves : c.Serves n) :
    Gathers n (do (← ask c).mapM (Query.view e)) s (fun vs t => ∀ v ∈ vs, t.Shows v) :=
  (call c serves).bind hs fun ks _ _ ht _ => views ht e ks

/-- A loop that takes its state from one element to the next. -/
theorem foldlM {f : β → α → Query β} {G : α → Session → Prop} {I : β → Session → Prop}
    (hG : ∀ a s t, s.Grows t → G a s → G a t) :
    ∀ {as : List α} {b : β} {s : Session}, s.Intact → (∀ a ∈ as, G a s) → I b s →
      (∀ b a t, t.Intact → G a t → I b t → (f b a).Gathers n t I) →
      (as.foldlM f b).Gathers n s I
  | [], _, _, _, _, hb, _ => .pure hb
  | a :: as, b, s, hs, has, hb, hf => by
      obtain ⟨ha, has⟩ := List.forall_mem_cons.mp has
      rw [List.foldlM_cons]
      exact (hf b a s hs ha hb).bind hs fun c t grows ht hc =>
        foldlM hG ht (fun d hd => hG _ _ _ grows (has d hd)) hc hf

end Gathers

/-! ## What is kept -/

namespace Memoizes

theorem weaken (h : x.Memoizes n s P) (hPQ : ∀ a t, P a t → Q a t) : x.Memoizes n s Q :=
  ⟨h.gathers.weaken hPQ, h.recalls⟩

theorem loose (h : x.Memoizes n s P) : x.Memoizes n s (fun _ _ => True) :=
  h.weaken fun _ _ _ => trivial

theorem pure {a : α} (ha : P a s) : Memoizes n (Pure.pure a) s P where
  gathers := .pure ha
  recalls := fun b t h u _ => by
    cases h
    exact ⟨u, rfl, .refl u⟩

theorem bind {f : α → Query β} {R : β → Session → Prop} (hs : s.Intact) (hx : x.Memoizes n s P)
    (hf : ∀ a t, s.Grows t → t.Intact → P a t → (f a).Memoizes n t R) :
    (x >>= f).Memoizes n s R where
  gathers := hx.gathers.bind hs fun a t grows ht ha => (hf a t grows ht ha).gathers
  recalls := fun b u h w huw => by
    obtain ⟨a, t, ha, hb⟩ := bind_eq_ok.mp h
    obtain ⟨trail, post⟩ := hx.gathers.of_ok ha
    obtain ⟨grows, ht⟩ := trail.grows hs
    have hrest := hf a t grows ht post
    have htu := ((hrest.gathers.of_ok hb).1.grows ht).1
    obtain ⟨v, hv, hwv⟩ := hx.recalls a t ha w (htu.trans huw)
    obtain ⟨v', hv', hvv'⟩ := hrest.recalls b u hb v (huw.trans hwv.grows)
    exact ⟨v', (bind_ok hv).trans hv', hwv.trans hvv'⟩

theorem map (hs : s.Intact) (hx : x.Memoizes n s P) (f : α → β) :
    Memoizes n (do Pure.pure (f (← x))) s (fun _ _ => True) :=
  hx.bind hs fun _ _ _ _ _ => .pure trivial

/-- What never changes is asked for each time, and the answer is the same each time. -/
theorem constant (c : Call r) (hc : c.isConstant = true) :
    Memoizes n (ask c) s (fun _ _ => True) := by
  cases c with
  | pointerSize =>
      refine ⟨.call _ (.of_none rfl rfl), fun a t h u htu => ?_⟩
      cases h
      have hsame : u.vm.pointerSize = s.vm.pointerSize := congrArg Catalog.pointerSize htu.catalog
      refine ⟨u.called .pointerSize u.vm, ?_, [⟨_, .pointerSize⟩], by simp [Call.isConstant], rfl⟩
      change ask .pointerSize u = .ok s.vm.pointerSize _
      rw [← hsame]
      rfl
  | moduleBase =>
      refine ⟨.call _ (.of_none rfl rfl), fun a t h u htu => ?_⟩
      cases h
      have hsame : u.vm.moduleBase = s.vm.moduleBase := congrArg Catalog.moduleBase htu.catalog
      refine ⟨u.called .moduleBase u.vm, ?_, [⟨_, .moduleBase⟩], by simp [Call.isConstant], rfl⟩
      change ask .moduleBase u = .ok s.vm.moduleBase _
      rw [← hsame]
      rfl
  | _ => cases hc

theorem mapM {f : α → Query β} {G : α → Session → Prop} {R : β → Session → Prop}
    (hG : ∀ a s t, s.Grows t → G a s → G a t) (hR : ∀ b s t, s.Grows t → R b s → R b t) :
    ∀ {as : List α} {s : Session}, s.Intact → (∀ a ∈ as, G a s) →
      (∀ a ∈ as, ∀ t, t.Intact → G a t → (f a).Memoizes n t R) →
      (as.mapM f).Memoizes n s (fun bs t => ∀ b ∈ bs, R b t)
  | [], s, _, _, _ => by
      rw [List.mapM_nil]
      exact .pure (by simp)
  | a :: as, s, hs, has, hf => by
      obtain ⟨ha, has⟩ := List.forall_mem_cons.mp has
      rw [List.mapM_cons]
      refine (hf a List.mem_cons_self s hs ha).bind hs fun b t grows ht hb => ?_
      refine (mapM (R := R) hG hR ht (fun d hd => hG _ _ _ grows (has d hd)) fun d hd =>
        hf d (List.mem_cons_of_mem a hd)).bind ht fun bs u grows' _ hbs => .pure ?_
      exact List.forall_mem_cons.mpr ⟨hR _ _ _ grows' hb, hbs⟩

end Memoizes

/-- What is found by means of facts of lower ranks can be kept as a note. -/
theorem Notes.remember {page : Nat} {h : Handle} {f : Fact} {find : Query f.Value} (hs : s.Intact)
    (hp : s.notebook.shown? page = some h) (rank : f.rank < n)
    (getter : f.getter h page = Query.remember page f find)
    (hfind : find.Gathers f.rank s (fun v t => f.Shown t v)) :
    Notes n page f (Query.remember page f find) s := by
  cases hfound : s.notebook.find? page f with
  | some v =>
      have hrun := remember_hit hfound find
      refine ⟨⟨.ok hrun (.refl n s) (hs.notes page f v hfound), fun a t hrun' u htu => ?_⟩,
        ⟨find, rfl⟩, fun e t hfails => ?_⟩
      · cases hrun.symm.trans hrun'
        exact ⟨u, remember_hit (htu.found page f v hfound) find, .refl u⟩
      · cases hrun.symm.trans hfails
  | none =>
      have hmiss := remember_miss hfound find
      cases hfind with
      | @ok v t run trail post =>
          rw [run] at hmiss
          have hshown := (trail.grows hs).1.shown _ _ hp
          refine ⟨⟨.ok hmiss (.note rank getter hp hfound run trail post)
            (post.mono fun _ _ hk => (Notebook.shown?_add ..).trans hk), fun a t' hrun u htu => ?_⟩,
            ⟨find, rfl⟩, fun e t hfails => ?_⟩
          · cases hmiss.symm.trans hrun
            refine ⟨u, remember_hit (htu.found page f v ?_) find, .refl u⟩
            exact Notebook.find?_add_same _ f v (Notebook.lt_size_of_shown? hshown)
          · cases hmiss.symm.trans hfails
      | @error e t run trail =>
          rw [run] at hmiss
          refine ⟨⟨.error hmiss (trail.mono (Nat.le_of_lt rank)), fun a t' hrun => ?_⟩, ⟨find, rfl⟩,
            fun e' t' hfails => ?_⟩
          · cases hmiss.symm.trans hrun
          · cases hmiss.symm.trans hfails
            -- what the failed search has noted is of lower ranks
            exact (trail.find?_eq hs hp (Nat.le_refl _)).trans hfound

end Query

end VmMetadata
