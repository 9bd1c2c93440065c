import VmMetadata.Proofs.Machine.Look
import VmMetadata.Proofs.Session.Getters

/-!
Views and notes are transparent: a query that is made of getters yields what a look finds at the
machine itself, and it fails only where the look finds nothing. There is a rule for each way in
which such queries are built.
-/

namespace VmMetadata

open Query (Agree Agrees)
open Session (Together)

namespace Query

/-- In the two sessions the query yields the same, and this is what the look finds, up to the pages
of views; `S` says what views these are. It fails only where nothing is found. -/
def Finds (x : Query α) (s₁ s₂ : Session) (look : Look β) (part : α → β)
    (S : α → Session → Prop) : Prop :=
  Agrees x s₁ s₂ (fun a t => look.Finds t.vm (part a) ∧ S a t) (∀ b, ¬look.Finds s₁.vm b)

/-- The query yields the value that the look finds. -/
abbrev Says (x : Query α) (s₁ s₂ : Session) (look : Look α) : Prop :=
  x.Finds s₁ s₂ look id fun _ _ => True

/-- The query yields a view of the object that the look finds. -/
abbrev Sees (x : Query (View e)) (s₁ s₂ : Session) (look : Look Handle) : Prop :=
  x.Finds s₁ s₂ look View.handle fun v t => t.Shows v

/-- The query yields a view of the object that the look finds, unless this is null. -/
abbrev SeesAny (x : Query (Option (View e))) (s₁ s₂ : Session) (look : Look Handle) : Prop :=
  x.Finds s₁ s₂ look (fun v? => (v?.map View.handle).getD .null) fun v? t => ∀ v ∈ v?, t.Shows v

/-- The query yields views of the objects that the look finds. -/
abbrev SeesAll (x : Query (List (View e))) (s₁ s₂ : Session) (look : Look (List Handle)) : Prop :=
  x.Finds s₁ s₂ look (List.map View.handle) fun vs t => ∀ v ∈ vs, t.Shows v

variable {x : Query α} {s₁ s₂ : Session} {look : Look β} {part : α → β} {S : α → Session → Prop}

namespace Finds

theorem pure (h : s₁.Alike s₂) (part : α → β) {a : α} (ha : S a s₁) :
    Finds (Pure.pure a) s₁ s₂ (Pure.pure (part a)) part S :=
  Agree.pure h ⟨Look.finds_pure.mpr rfl, ha⟩

theorem bind {f : α → Query γ} {look' : β → Look δ} {part' : γ → δ} {S' : γ → Session → Prop}
    (hx : x.Finds s₁ s₂ look part S)
    (hf : ∀ a t₁ t₂, Together s₁ s₂ t₁ t₂ → S a t₁ →
      (f a).Finds t₁ t₂ (look' (part a)) part' S') :
    (x >>= f).Finds s₁ s₂ (look >>= look') part' S' := by
  refine Agree.bind (Agree.weaken hx (fun _ _ _ ha => ha) fun hnone c hc => ?_)
    fun a t₁ t₂ on ha => Agree.weaken (hf a t₁ t₂ on ha.2) (fun c u later hc => ?_)
      fun hnone c hc => ?_
  · obtain ⟨b, hb, _⟩ := Look.finds_bind.mp hc
    exact hnone b hb
  · exact ⟨Look.finds_bind.mpr ⟨part a, ha.1.later later.vm, hc.1⟩, hc.2⟩
  · obtain ⟨b, hb, hc⟩ := Look.finds_bind.mp hc
    rw [(hb.later on.left.vm).unique ha.1] at hc
    exact hnone c (hc.later on.left.vm)

/-- A query over a list, whose elements are known by their keys. -/
theorem mapM {f : α → Query γ} {key : α → β} {look : β → Look γ} {G : Session → α → Prop}
    (hG : ∀ {a : α} {s t : Session}, s.Later t → G s a → G t a) (h : s₁.Alike s₂) {as : List α}
    (has : ∀ a ∈ as, G s₁ a)
    (hf : ∀ a t₁ t₂, t₁.Alike t₂ → G t₁ a → (f a).Says t₁ t₂ (look (key a))) :
    (as.mapM f).Says s₁ s₂ ((as.map key).mapM look) := by
  refine (Agree.mapM (E := ∀ bs, ¬((as.map key).mapM look).Finds s₁.vm bs)
    (R := fun a b t => (look (key a)).Finds t.vm b)
    (I := fun t => s₁.Later t ∧ ∀ a ∈ as, G t a)
    (fun hst hi => ⟨hi.1.trans hst, fun a ha => hG hst (hi.2 a ha)⟩)
    (fun _ hst hb => Look.Finds.later hb hst.vm) h ⟨.refl s₁, has⟩
    fun a ha t₁ t₂ halike hi => Agree.weaken (hf a t₁ t₂ halike (hi.2 a ha))
      (fun _ _ _ hb => hb.1) fun hnone bs hbs => ?_).weaken (fun bs t _ hbs => ⟨?_, trivial⟩) id
  · obtain ⟨b, _, hb⟩ := Load.mem_of_forall₂ (Look.finds_mapM.mp hbs).flip
      (List.mem_map_of_mem ha)
    exact hnone b (Look.Finds.later hb hi.1.vm)
  · exact Look.finds_mapM.mpr (List.forall₂_map_left_iff.mpr hbs)

/-- What is noted is what is found. -/
theorem remember {page : Nat} {k : Handle} {f : Fact} {find : Query f.Value} {look : Look β}
    {part : f.Value → β} {S : f.Value → Session → Prop} (h : s₁.Alike s₂)
    (hp : s₁.notebook.shown? page = some k) (hblind : f.isBlind = true)
    (hnote : ∀ (t : Session) v, f.Holds t k v ↔ look.Finds t.vm (part v) ∧ S v t)
    (hfind : find.Finds s₁ s₂ look part S) :
    (Query.remember page f find).Finds s₁ s₂ look part S :=
  Agree.weaken (Agree.remember h hp hblind
    (Agree.weaken hfind (fun v t _ hv => (hnote t v).mpr hv) id))
    (fun v t _ hv => (hnote t v).mp hv) id

end Finds

/-! ## Values -/

theorem Says.pure (h : s₁.Alike s₂) (a : α) : Says (Pure.pure a) s₁ s₂ (Pure.pure a) :=
  Finds.pure h id trivial

theorem Says.bind {f : α → Query γ} {look' : β → Look γ} (hx : x.Finds s₁ s₂ look part S)
    (hf : ∀ a t₁ t₂, Together s₁ s₂ t₁ t₂ → S a t₁ → (f a).Says t₁ t₂ (look' (part a))) :
    (x >>= f).Says s₁ s₂ (look >>= look') :=
  Finds.bind hx hf

/-- The value is all that counts. -/
theorem Says.map {x : Query α} {look : Look α} (hx : x.Says s₁ s₂ look) (f : α → γ) :
    Says (do Pure.pure (f (← x))) s₁ s₂ (do Pure.pure (f (← look))) :=
  Says.bind hx fun a _ _ on _ => Says.pure on.alike (f a)

/-! ## Answers -/

theorem Says.of_tells (c : Call r) {x : Query r.Value}
    (h : Agrees x s₁ s₂ (fun v t => t.vm.Tells c v) (∀ v, ¬s₁.vm.Tells c v))
    (hc : c.isStable = true) : x.Says s₁ s₂ (Look.ask c hc) :=
  h.weaken (fun _ _ _ hv => ⟨hv, trivial⟩) fun hnone v hv => hnone v hv

theorem Sees.view (h : s₁.Alike s₂) (e : Entity) (k : Handle) :
    (Query.view e k).Sees s₁ s₂ (Look.require k) := by
  refine (Agree.view h e k).weaken ?_ fun hnull j hj => (Look.finds_require.mp hj).2 hnull
  rintro v t _ ⟨hshows, rfl⟩
  exact ⟨Look.finds_require.mpr ⟨rfl, hshows.1⟩, hshows⟩

theorem Sees.of_showsAt (c : Call .handle) {x : Query (View e)}
    (h : Agrees x s₁ s₂ (fun v t => t.ShowsAt c v) (∀ k, s₁.vm.Tells c k → k = .null))
    (hc : c.isStable = true) : x.Sees s₁ s₂ (Look.object c hc) :=
  h.weaken (fun _ _ _ hv => ⟨Look.finds_object.mpr ⟨hv.2, hv.1.1⟩, hv.1⟩) fun hnull k hk =>
    (Look.finds_object.mp hk).2 (hnull k (Look.finds_object.mp hk).1)

theorem SeesAny.of_showsAny (c : Call .handle) {x : Query (Option (View e))}
    (h : Agrees x s₁ s₂ (fun v t => t.ShowsAny c v) (∀ k, ¬s₁.vm.Tells c k))
    (hc : c.isStable = true) : x.SeesAny s₁ s₂ (Look.ask c hc) := by
  refine h.weaken (fun v? t _ hv => ?_) fun hnone k hk => hnone k hk
  cases v? with
  | none => exact ⟨hv, by simp⟩
  | some v => exact ⟨hv.2, by simpa using hv.1⟩

theorem SeesAll.of_showsAll (c : Call .handles) {x : Query (List (View e))}
    (h : Agrees x s₁ s₂ (fun vs t => t.ShowsAll c vs)
      (∀ ks, s₁.vm.Tells c ks → Handle.null ∈ ks))
    (hc : c.isStable = true) : x.SeesAll s₁ s₂ (Look.objects c hc) := by
  refine h.weaken (fun vs t _ hvs => ⟨Look.finds_objects.mpr ⟨hvs.2, fun hnull => ?_⟩, hvs.1⟩)
    fun hnull ks hks => (Look.finds_objects.mp hks).2 (hnull ks (Look.finds_objects.mp hks).1)
  obtain ⟨v, hv, hh⟩ := List.mem_map.mp hnull
  exact (hvs.1 v hv).1 hh

end Query

end VmMetadata
