import VmMetadata.Inspect.Host
import VmMetadata.Proofs.Session.Probed
import VmMetadata.Proofs.Session.Reached

/-!
What a query does to a session, piece by piece, however its calls are spoiled: it calls the machine,
begins pages, and notes what a getter has found. A trail lists these pieces, and says of every note
which getter found it. Main statements: along a trail a session only grows, and the views that are
noted are views of the session; and no call along it carries a null handle where an object is meant.
-/

namespace VmMetadata

open Query

namespace Fact

/-- Facts are found out by means of facts of lower ranks. The image of an assembly ranks above all
that is read of images and classes, which is found without it. -/
def rank : Fact → Nat
  | .hostClass => 6
  | .domainAssembliesByName => 5
  | .assemblyName => 4
  | .assemblyImage => 3
  | .imageClassesByName => 2
  | .imageClasses => 1
  | _ => 0

/-- The getter that notes the fact on the page of a view of the object. A descriptor is noted once
its size is known not to be zero. -/
def getter (h : Handle) (page : Nat) : (f : Fact) → Query f.Value
  | .descriptor => remember page .descriptor do
      let size ← lift ((← get).layout.descriptorSize (← get).vm.pointerSize)
      lift ((← ask (.alloc size)).require "descriptor")
  | .rootClass => remember page .rootClass (corlibClass "System" "Object")
  | .reflectionClass => remember page .reflectionClass (corlibClass "System" "Type")
  | .domainAssemblies => Domain.assemblies ⟨h, page⟩
  | .domainAssembliesByName => remember page .domainAssembliesByName do
      (← Domain.assemblies ⟨h, page⟩).foldlM (fun table a => do
        pure (table.insert (← a.name) a)) ∅
  | .assemblyImage => Assembly.image ⟨h, page⟩
  | .assemblyName => Assembly.name ⟨h, page⟩
  | .imageName => Image.name ⟨h, page⟩
  | .imageClassCount => Image.classCount ⟨h, page⟩
  | .imageClassStart => Image.classStart ⟨h, page⟩
  | .imageClasses => Image.classes ⟨h, page⟩
  | .imageClassesByName => Image.classesByName ⟨h, page⟩
  | .className => Class.name ⟨h, page⟩
  | .classNamespace => Class.namespace_ ⟨h, page⟩
  | .classImage => Class.image ⟨h, page⟩
  | .classParent => Class.parent ⟨h, page⟩
  | .classDeclaring => Class.declaringClass ⟨h, page⟩
  | .classInterfaces => Class.interfaces ⟨h, page⟩
  | .classFields => Class.fields ⟨h, page⟩
  | .classMethods => Class.methods ⟨h, page⟩
  | .classType => Class.type ⟨h, page⟩
  | .classFlags => Class.flags ⟨h, page⟩
  | .classKind => Class.kind ⟨h, page⟩
  | .classIsGeneric => Class.isGeneric ⟨h, page⟩
  | .classIsInflated => Class.isInflated ⟨h, page⟩
  | .classParameterCount => Class.typeParameterCount ⟨h, page⟩
  | .typeName => TypeView.name ⟨h, page⟩
  | .typeKind => TypeView.kind ⟨h, page⟩
  | .typeClass => remember page .typeClass (Handle.nonNull? <$> ask (.typeClass h))
  | .typeObject => remember page .typeObject do
      lift ((← ask (.typeObject h)).require "type object")
  | .fieldName => Field.name ⟨h, page⟩
  | .fieldType => Field.type ⟨h, page⟩
  | .fieldOffset => Field.offset ⟨h, page⟩
  | .fieldFlags => Field.flags ⟨h, page⟩
  | .methodName => Method.name ⟨h, page⟩
  | .methodClass => Method.class_ ⟨h, page⟩
  | .methodReturnType => Method.returnType ⟨h, page⟩
  | .methodParameters => Method.parameters ⟨h, page⟩
  | .methodFlags => Method.flags ⟨h, page⟩
  | .methodIsGeneric => Method.isGeneric ⟨h, page⟩
  | .methodIsInflated => Method.isInflated ⟨h, page⟩
  | .methodTypeParameterCount => Method.typeParameterCount ⟨h, page⟩
  | .methodPointer => remember page .methodPointer (ask (.methodPointer h))
  | .objectClass => remember page .objectClass do
      lift ((← ask (.objectClass h)).require "object class")
  | .arrayLength => ArrayView.length ⟨h, page⟩
  | .hostClass => Host.class? ⟨page⟩

/-- The views in a value are views of this session, and the handles in it are not null. -/
def Shown (s : Session) : (f : Fact) → f.Value → Prop
  | .descriptor, h | .rootClass, h | .reflectionClass, h | .typeObject, h | .objectClass, h =>
      h ≠ .null
  | .typeClass, h? => ∀ h ∈ h?, h ≠ .null
  | .domainAssemblies, as => ∀ a ∈ as, s.Shows a
  | .domainAssembliesByName, table => s.ShowsIn table
  | .assemblyImage, i | .classImage, i => s.Shows i
  | .imageClasses, cs | .classInterfaces, cs => ∀ c ∈ cs, s.Shows c
  | .imageClassesByName, table => s.ShowsIn table
  | .classParent, c? | .classDeclaring, c? | .hostClass, c? => ∀ c ∈ c?, s.Shows c
  | .classFields, fs => ∀ f ∈ fs, s.Shows f
  | .classMethods, ms => ∀ m ∈ ms, s.Shows m
  | .classType, t | .fieldType, t | .methodReturnType, t => s.Shows t
  | .methodClass, c => s.Shows c
  | .methodParameters, ps => ∀ p ∈ ps, s.Shows p.type
  | _, _ => True

theorem Shown.mono {s t : Session} {f : Fact} {v : f.Value} (h : f.Shown s v)
    (hst : ∀ page h, s.notebook.shown? page = some h → t.notebook.shown? page = some h) :
    f.Shown t v := by
  cases f with
  | descriptor | rootClass | reflectionClass | typeObject | objectClass | typeClass => exact h
  | domainAssemblies | imageClasses | classInterfaces | classFields | classMethods =>
      exact fun v hv => ⟨(h v hv).1, hst _ _ (h v hv).2⟩
  | domainAssembliesByName | imageClassesByName =>
      exact fun name v hv => ⟨(h name v hv).1, hst _ _ (h name v hv).2⟩
  | assemblyImage | classImage | classType | fieldType | methodReturnType | methodClass =>
      exact ⟨h.1, hst _ _ h.2⟩
  | classParent | classDeclaring | hostClass => exact fun c hc => ⟨(h c hc).1, hst _ _ (h c hc).2⟩
  | methodParameters => exact fun p hp => ⟨(h p hp).1, hst _ _ (h p hp).2⟩
  | _ => trivial

end Fact

namespace Session

/-- The one session has become the other, and nothing that it knew is lost. -/
structure Grows (s t : Session) : Prop where
  catalog : t.vm.toCatalog = s.vm.toCatalog
  layout : t.layout = s.layout
  shown : ∀ page h, s.notebook.shown? page = some h → t.notebook.shown? page = some h
  found : ∀ page f v, s.notebook.find? page f = some v → t.notebook.find? page f = some v

namespace Grows

theorem refl (s : Session) : s.Grows s :=
  ⟨rfl, rfl, fun _ _ h => h, fun _ _ _ h => h⟩

theorem trans {s t u : Session} (hst : s.Grows t) (htu : t.Grows u) : s.Grows u :=
  ⟨htu.catalog.trans hst.catalog, htu.layout.trans hst.layout,
    fun page h hp => htu.shown page h (hst.shown page h hp),
    fun page f v hv => htu.found page f v (hst.found page f v hv)⟩

variable {s t : Session} (hst : s.Grows t)
include hst

theorem shows {v : View e} (h : s.Shows v) : t.Shows v :=
  ⟨h.1, hst.shown _ _ h.2⟩

theorem showsEach {vs : List (View e)} (h : ∀ v ∈ vs, s.Shows v) : ∀ v ∈ vs, t.Shows v :=
  fun v hv => hst.shows (h v hv)

theorem factShown {f : Fact} {v : f.Value} (h : f.Shown s v) : f.Shown t v :=
  h.mono hst.shown

end Grows

/-- The views among the notes are views of the session. -/
structure Intact (s : Session) : Prop where
  vm : s.vm.WellFormed
  front : s.notebook.shown? Notebook.front = some .null
  notes : ∀ page f v, s.notebook.find? page f = some v → f.Shown s v

theorem intact_new {vm : Vm} (wf : vm.WellFormed) (version : Version) (layout : ClassLayout) :
    (Session.new vm version layout).Intact where
  vm := wf
  front := rfl
  notes := fun page f v hv => by
    match page with
    | 0 => cases hv
    | page + 1 => cases hv

/-! ## The pieces -/

variable {s t : Session}

/-- A call, as far as the notebook goes. -/
theorem grows_of_notebook (hcatalog : t.vm.toCatalog = s.vm.toCatalog) (hlayout : t.layout = s.layout)
    (hnotebook : t.notebook = s.notebook) : s.Grows t :=
  ⟨hcatalog, hlayout, fun _ _ h => by rwa [hnotebook], fun _ _ _ h => by rwa [hnotebook]⟩

theorem Intact.of_notebook (hs : s.Intact) (hst : s.Grows t) (wf : t.vm.WellFormed)
    (hnotebook : t.notebook = s.notebook) : t.Intact where
  vm := wf
  front := hst.shown _ _ hs.front
  notes := fun page f v hv => hst.factShown (hs.notes page f v (hnotebook ▸ hv))

theorem grows_paged (s : Session) (h : Handle) : s.Grows (s.paged h) :=
  ⟨rfl, rfl, fun _ _ hp => Notebook.shown?_addPage_of_shown? hp h,
    fun _ _ _ hv => (Notebook.find?_addPage ..).trans hv⟩

theorem Intact.paged (hs : s.Intact) (h : Handle) : (s.paged h).Intact where
  vm := hs.vm
  front := (s.grows_paged h).shown _ _ hs.front
  notes := fun page f v hv => (s.grows_paged h).factShown
    (hs.notes page f v ((Notebook.find?_addPage ..).symm.trans hv))

/-- A note takes no other note's place if there was none of its fact at first. -/
theorem Grows.noted (hst : s.Grows t) {page : Nat} {f : Fact}
    (hmiss : s.notebook.find? page f = none) (v : f.Value) : s.Grows (t.noted page f v) where
  catalog := hst.catalog
  layout := hst.layout
  shown := fun other h hp => (Notebook.shown?_add ..).trans (hst.shown other h hp)
  found := fun other g w hw => by
    have hkept := hst.found other g w hw
    have hne : ¬(other = page ∧ f = g) := by
      rintro ⟨rfl, rfl⟩
      rw [hmiss] at hw
      cases hw
    exact (Notebook.find?_add_of_ne hne v).trans hkept

/-- What stands on the pages once a note was added. -/
theorem found_noted {page : Nat} {f : Fact} {v : f.Value} {h : Handle}
    (hp : s.notebook.shown? page = some h) {other : Nat} {g : Fact} {w : g.Value}
    (hw : (s.noted page f v).notebook.find? other g = some w) :
    s.notebook.find? other g = some w ∨ ∃ _ : other = page, ∃ hfg : f = g, hfg ▸ v = w := by
  simp only [Session.noted] at hw
  by_cases hplace : other = page ∧ f = g
  · obtain ⟨rfl, rfl⟩ := hplace
    rw [Notebook.find?_add_same _ _ _ (Notebook.lt_size_of_shown? hp)] at hw
    cases hw
    exact Or.inr ⟨rfl, rfl, rfl⟩
  · rw [Notebook.find?_add_of_ne hplace] at hw
    exact Or.inl hw

theorem Intact.noted (hs : s.Intact) {page : Nat} {f : Fact} {v : f.Value} {h : Handle}
    (hp : s.notebook.shown? page = some h) (hv : f.Shown s v) : (s.noted page f v).Intact where
  vm := hs.vm
  front := (Notebook.shown?_add ..).trans hs.front
  notes := fun other g w hw => by
    suffices hshown : g.Shown s w from
      hshown.mono fun _ _ hk => (Notebook.shown?_add ..).trans hk
    rcases found_noted hp hw with hold | ⟨_, rfl, rfl⟩
    · exact hs.notes other g w hold
    · exact hv

end Session

/-! ## Calls -/

/-- The handles in an argument. -/
def Argument.named : Argument → List Handle
  | .handle h => [h]
  | .handles hs => hs
  | _ => []

namespace Call

/-- The handles that a call carries, but for the object of an invocation, which may be absent. -/
def subjects : Call r → List Handle
  | .methodInvoke method _ arguments => method :: arguments
  | c => c.arguments.flatMap Argument.named

/-- The call carries no null handle. -/
def NamesObjects (c : Call r) : Prop :=
  ∀ h ∈ c.subjects, h ≠ .null

theorem NamesObjects.of_none {c : Call r} (hc : c.subjects = []) : c.NamesObjects := by
  rw [NamesObjects, hc]
  exact List.forall_mem_nil _

theorem NamesObjects.of_one {c : Call r} {h : Handle} (hc : c.subjects = [h]) (hne : h ≠ .null) :
    c.NamesObjects := by
  rw [NamesObjects, hc]
  exact List.forall_mem_singleton.mpr hne

/-- The rank from which on facts are found out by means of the call. -/
def rank : Call r → Nat
  | .assemblyImage _ => Fact.assemblyImage.rank
  | _ => 0

theorem rank_le (c : Call r) : c.rank ≤ Fact.assemblyImage.rank := by
  cases c <;> simp [rank]

/-- The call carries no null handle and serves facts of the rank. Only for the image of an assembly
does the rank say more than nothing. -/
structure Serves (n : Nat) (c : Call r) : Prop where
  names : c.NamesObjects
  rank : c.rank ≤ n

variable {n : Nat} {c : Call r}

theorem NamesObjects.serves (names : c.NamesObjects) (hrank : c.rank = 0) : c.Serves n :=
  ⟨names, hrank.trans_le (Nat.zero_le n)⟩

theorem Serves.of_none (hc : c.subjects = []) (hrank : c.rank = 0) : c.Serves n :=
  (NamesObjects.of_none hc).serves hrank

theorem Serves.of_one {h : Handle} (hc : c.subjects = [h]) (hne : h ≠ .null)
    (hrank : c.rank = 0) : c.Serves n :=
  (NamesObjects.of_one hc hne).serves hrank

end Call

/-- From the one session to the other, no calls were made but of such a kind. -/
def Session.CallsOnly (s t : Session) (P : AnyCall → Prop) : Prop :=
  ∃ calls : List AnyCall, (∀ c ∈ calls, P c) ∧ t.probe.calls = calls ++ s.probe.calls

namespace Session.CallsOnly

variable {s t u : Session} {P Q : AnyCall → Prop}

theorem of_probe (h : t.probe = s.probe) : s.CallsOnly t P :=
  ⟨[], List.forall_mem_nil _, congrArg Probe.calls h⟩

theorem refl (s : Session) : s.CallsOnly s P :=
  of_probe rfl

theorem trans (hst : s.CallsOnly t P) (htu : t.CallsOnly u P) : s.CallsOnly u P := by
  obtain ⟨first, hfirst, ht⟩ := hst
  obtain ⟨rest, hrest, hu⟩ := htu
  refine ⟨rest ++ first, fun c hc => ?_, by rw [hu, ht, List.append_assoc]⟩
  exact (List.mem_append.mp hc).elim (hrest c) (hfirst c)

theorem weaken (h : s.CallsOnly t P) (hPQ : ∀ c, P c → Q c) : s.CallsOnly t Q := by
  obtain ⟨calls, hcalls, ht⟩ := h
  exact ⟨calls, fun c hc => hPQ c (hcalls c hc), ht⟩

end Session.CallsOnly

/-- A view can stand for the one handle that a call carries. -/
theorem Session.Shows.serves {n : Nat} {s : Session} {v : View e} (hv : s.Shows v) {c : Call r}
    (hc : c.subjects = [v.handle]) (hrank : c.rank = 0) : c.Serves n :=
  .of_one hc hv.1 hrank

namespace Query

variable {s t : Session}

theorem ask_notebook (c : Call r) (s : Session) : ((ask c).leaves s).notebook = s.notebook := by
  obtain ⟨p, _, ⟨result, _, hrun, _⟩ | hrun⟩ := ask_cases c s
  · unfold leaves
    rw [hrun]
    cases result <;> rfl
  · unfold leaves
    rw [hrun, access_apply]
    cases Vm.answer c s.vm <;> rfl

/-- A call leaves the notebook alone and takes the machine one step on, if that. -/
theorem ask_leaves (wf : s.vm.WellFormed) (c : Call r) :
    s.vm.Step ((ask c).leaves s).vm ∧ s.probe.Counts ⟨r, c⟩ ((ask c).leaves s).probe ∧
      ((ask c).leaves s).notebook = s.notebook ∧ ((ask c).leaves s).layout = s.layout := by
  obtain ⟨p, hp, ⟨result, _, hrun, _⟩ | hrun⟩ := ask_cases c s
  · unfold leaves
    rw [hrun]
    cases result <;> exact ⟨.idle, hp, rfl, rfl⟩
  · have hsteps := Vm.answer_steps wf c
    unfold Access.Steps at hsteps
    unfold leaves
    rw [hrun, access_apply]
    cases hanswer : Vm.answer c s.vm with
    | ok a w =>
        rw [hanswer] at hsteps
        exact ⟨hsteps.1, hp, rfl, rfl⟩
    | error e w =>
        rw [hanswer] at hsteps
        obtain ⟨rfl, _⟩ := hsteps
        exact ⟨.idle, hp, rfl, rfl⟩

theorem ask_callsOnly (wf : s.vm.WellFormed) {c : Call r} {P : AnyCall → Prop} (hc : P ⟨r, c⟩) :
    s.CallsOnly ((ask c).leaves s) P :=
  ⟨[⟨r, c⟩], List.forall_mem_singleton.mpr hc, (ask_leaves wf c).2.1.calls⟩

theorem ask_grows (hs : s.Intact) (c : Call r) :
    s.Grows ((ask c).leaves s) ∧ ((ask c).leaves s).Intact := by
  obtain ⟨step, _, hnotebook, hlayout⟩ := ask_leaves hs.vm c
  have grows := Session.grows_of_notebook (step.later hs.vm).catalog hlayout hnotebook
  exact ⟨grows, hs.of_notebook grows (step.wellFormed hs.vm) hnotebook⟩

theorem leaves_of_ok {x : Query α} {a : α} (h : x s = .ok a t) : x.leaves s = t := by
  unfold leaves
  rw [h]

theorem leaves_of_error {x : Query α} {e : Error} (h : x s = .error e t) : x.leaves s = t := by
  unfold leaves
  rw [h]

theorem leaves_bind {x : Query α} {f : α → Query β} :
    (x >>= f).leaves s = match x s with
      | .ok a t => (f a).leaves t
      | .error _ t => t := by
  unfold leaves
  rw [bind_apply]
  cases x s <;> rfl

end Query

/-! ## Trails -/

namespace Session

/-- The pieces of which a query is made. Only facts of ranks below `n` are noted, and no call is made
that serves higher ranks alone. -/
inductive Trail : Nat → Session → Session → Prop
  | refl (n : Nat) (s : Session) : Trail n s s
  | trans {n : Nat} {s t u : Session} (first : Trail n s t) (rest : Trail n t u) : Trail n s u
  | call {n : Nat} {s : Session} (c : Call r) (names : c.NamesObjects) (rank : c.rank ≤ n) :
      Trail n s ((ask c).leaves s)
  | page {n : Nat} {s : Session} (h : Handle) : Trail n s (s.paged h)
  | note {n : Nat} {s t : Session} {f : Fact} {page : Nat} {h : Handle} {find : Query f.Value}
      {v : f.Value} (rank : f.rank < n) (getter : f.getter h page = remember page f find)
      (shown : s.notebook.shown? page = some h) (miss : s.notebook.find? page f = none)
      (found : find s = .ok v t) (inner : Trail f.rank s t) (views : f.Shown t v) :
      Trail n s (t.noted page f v)

namespace Trail

variable {n : Nat} {s t : Session}

theorem grows (h : Trail n s t) (hs : s.Intact) : s.Grows t ∧ t.Intact := by
  induction h with
  | refl => exact ⟨.refl _, hs⟩
  | trans _ _ ih ih' =>
      obtain ⟨grows, ht⟩ := ih hs
      obtain ⟨grows', hu⟩ := ih' ht
      exact ⟨grows.trans grows', hu⟩
  | call c _ _ => exact ask_grows hs c
  | page h => exact ⟨grows_paged _ h, hs.paged h⟩
  | note _ _ shown miss _ _ views ih =>
      obtain ⟨grows, ht⟩ := ih hs
      exact ⟨grows.noted miss _, ht.noted (grows.shown _ _ shown) views⟩

theorem mono {m : Nat} (h : Trail n s t) (hnm : n ≤ m) : Trail m s t := by
  induction h with
  | refl => exact .refl _ _
  | trans _ _ ih ih' => exact (ih hnm).trans (ih' hnm)
  | call c names rank => exact .call c names (rank.trans hnm)
  | page h => exact .page h
  | note rank getter shown miss found inner views =>
      exact .note (rank.trans_le hnm) getter shown miss found inner views

/-- The calls along a trail name objects, and none is for higher ranks alone. -/
theorem calls (h : Trail n s t) (hs : s.Intact) :
    s.CallsOnly t fun c => c.2.NamesObjects ∧ c.2.rank ≤ n := by
  induction h with
  | refl => exact .refl _
  | trans first _ ih ih' => exact (ih hs).trans (ih' (first.grows hs).2)
  | call c names rank => exact ask_callsOnly hs.vm ⟨names, rank⟩
  | page h => exact .of_probe rfl
  | note rank _ _ _ _ _ _ ih =>
      exact ((ih hs).weaken fun c hc => ⟨hc.1, hc.2.trans rank.le⟩).trans (.of_probe rfl)

/-- A trail notes no fact of a rank that it does not reach. -/
theorem find?_eq (h : Trail n s t) (hs : s.Intact) {page : Nat} {k : Handle} {f : Fact}
    (hp : s.notebook.shown? page = some k) (hrank : n ≤ f.rank) :
    t.notebook.find? page f = s.notebook.find? page f := by
  induction h with
  | refl => rfl
  | trans first _ ih ih' =>
      obtain ⟨grows, ht⟩ := first.grows hs
      exact (ih' ht (grows.shown _ _ hp) hrank).trans (ih hs hp hrank)
  | call c _ _ => rw [(ask_leaves hs.vm c).2.2.1]
  | page h => exact Notebook.find?_addPage ..
  | @note _ s t g page' h' find v rank _ _ _ _ inner _ ih =>
      have hne : g ≠ f := by
        rintro rfl
        omega
      simp only [Session.noted]
      rw [Notebook.find?_add_of_fact_ne hne]
      exact ih hs hp (by omega)

/-- What is noted along a trail, a getter has answered on the way. -/
theorem origin (h : Trail n s t) (hs : s.Intact) {page : Nat} {f : Fact} {v : f.Value}
    (hv : t.notebook.find? page f = some v) : s.notebook.find? page f = some v ∨
      ∃ k u w, s.Grows u ∧ u.notebook.shown? page = some k ∧ f.getter k page u = .ok v w ∧
        w.Grows t := by
  induction h with
  | refl => exact Or.inl hv
  | trans first rest ih ih' =>
      obtain ⟨grows, ht⟩ := first.grows hs
      rcases ih' ht hv with hold | ⟨k, u, w, hu, hk, hrun, hw⟩
      · rcases ih hs hold with hold | ⟨k, u, w, hu, hk, hrun, hw⟩
        · exact Or.inl hold
        · exact Or.inr ⟨k, u, w, hu, hk, hrun, hw.trans (rest.grows ht).1⟩
      · exact Or.inr ⟨k, u, w, grows.trans hu, hk, hrun, hw⟩
  | call c _ _ => exact Or.inl ((ask_leaves hs.vm c).2.2.1 ▸ hv)
  | page h => exact Or.inl ((Notebook.find?_addPage ..).symm.trans hv)
  | @note _ s t g page' h' find _ rank getter shown miss found inner _ ih =>
      obtain ⟨grows, ht⟩ := inner.grows hs
      rcases found_noted (grows.shown _ _ shown) hv with hold | ⟨rfl, rfl, rfl⟩
      · rcases ih hs hold with hold | ⟨k, u, w, hu, hk, hrun, hw⟩
        · exact Or.inl hold
        · -- the getter of the note cannot have noted it before it was done
          have hnone : w.notebook.find? page' g = none := by
            refine Option.eq_none_iff_forall_ne_some.mpr fun x hx => ?_
            have hlast := inner.find?_eq hs shown (Nat.le_refl g.rank)
            rw [hw.found _ _ _ hx, miss] at hlast
            cases hlast
          exact Or.inr ⟨k, u, w, hu, hk, hrun, hw.noted hnone _⟩
      · refine Or.inr ⟨h', s, _, .refl s, shown, ?_, .refl _⟩
        rw [getter, remember_miss miss, found]

end Trail

end Session

end VmMetadata
