import VmMetadata.Proofs.Session.Truth

/-!
Sessions that differ in their build alone: their machines are alike, and their notebooks have the
same pages with the same notes but for those in which the build shows. Main statements: such
sessions stay so when both note the same or begin the same page, and when one notes what shows the
build; and notes that one session adds truly leave it sound.
-/

namespace VmMetadata

/-- The note is the same whatever the build is. -/
def Fact.isShared : Fact → Bool
  | .descriptor | .imageClassStart => false
  | _ => true

/-- What the note says does not depend on the build. -/
def Fact.isBlind : Fact → Bool
  | .imageClasses | .imageClassesByName => false
  | f => f.isShared

namespace Session

structure Similar (s t : Session) : Prop where
  vm : s.vm.Alike t.vm
  next : t.notebook.next = s.notebook.next
  shown : ∀ page, t.notebook.shown? page = s.notebook.shown? page
  found : ∀ page f, f.isShared = true → t.notebook.find? page f = s.notebook.find? page f

namespace Similar

theorem refl (s : Session) : s.Similar s :=
  ⟨.refl _, rfl, fun _ => rfl, fun _ _ _ => rfl⟩

theorem symm {s t : Session} (h : s.Similar t) : t.Similar s :=
  ⟨h.vm.symm, h.next.symm, fun page => (h.shown page).symm,
    fun page f hf => (h.found page f hf).symm⟩

theorem trans {s t u : Session} (hst : s.Similar t) (htu : t.Similar u) : s.Similar u :=
  ⟨hst.vm.trans htu.vm, htu.next.trans hst.next,
    fun page => (htu.shown page).trans (hst.shown page),
    fun page f hf => (htu.found page f hf).trans (hst.found page f hf)⟩

variable {s t : Session} (hst : s.Similar t)
include hst

theorem shows {v : View e} (h : s.Shows v) : t.Shows v :=
  ⟨h.1, (hst.shown v.page).trans h.2⟩

theorem showsAt {c : Call .handle} {v : View e} (h : s.ShowsAt c v) (hc : c.isBlind = true) :
    t.ShowsAt c v :=
  ⟨hst.shows h.1, h.2.alike hc hst.vm⟩

theorem showsAny {c : Call .handle} {v? : Option (View e)} (h : s.ShowsAny c v?)
    (hc : c.isBlind = true) : t.ShowsAny c v? := by
  cases v? with
  | some v => exact hst.showsAt h hc
  | none => exact Vm.Tells.alike h hc hst.vm

theorem showsAll {c : Call .handles} {vs : List (View e)} (h : s.ShowsAll c vs)
    (hc : c.isBlind = true) : t.ShowsAll c vs :=
  ⟨fun v hv => hst.shows (h.1 v hv), h.2.alike hc hst.vm⟩

theorem tellsKind {cls : Handle} {kind : ClassKind} (h : s.TellsKind cls kind) :
    t.TellsKind cls kind := by
  cases kind with
  | interface => exact Vm.Tells.alike h rfl hst.vm
  | enum => exact ⟨h.1.alike rfl hst.vm, h.2.alike rfl hst.vm⟩
  | struct | class_ =>
      exact ⟨h.1.alike rfl hst.vm, h.2.1.alike rfl hst.vm, h.2.2.alike rfl hst.vm⟩

theorem knowsClass {namespace_ name : String} {h : Handle} (hk : s.KnowsClass namespace_ name h) :
    t.KnowsClass namespace_ name h :=
  ⟨hk.1, hst.vm.corlib ▸ hk.2.alike rfl hst.vm⟩

/-- What is true in the one session is true in the other, unless the build shows in it. -/
theorem holds {f : Fact} (hf : f.isBlind = true) {h : Handle} {v : f.Value}
    (hv : f.Holds s h v) : f.Holds t h v := by
  cases f with
  | descriptor | imageClassStart | imageClasses | imageClassesByName => cases hf
  | rootClass | reflectionClass => exact hst.knowsClass hv
  | domainAssemblies | classInterfaces | classFields | classMethods =>
      exact hst.showsAll hv rfl
  | assemblyImage | classImage | classType | fieldType | methodClass | methodReturnType =>
      exact hst.showsAt hv rfl
  | classParent | classDeclaring => exact hst.showsAny hv rfl
  | assemblyName => exact hst.vm.repeats.assemblyName hv
  | imageName | imageClassCount | className | classNamespace | classFlags
  | classIsGeneric | classIsInflated | classParameterCount | typeName | fieldName | fieldOffset
  | fieldFlags | methodName | methodFlags | methodIsGeneric | methodIsInflated
  | methodTypeParameterCount | methodPointer | arrayLength =>
      exact Vm.Tells.alike hv rfl hst.vm
  | classKind => exact hst.tellsKind hv
  | typeKind =>
      obtain ⟨tag, htag, hkind⟩ := hv
      exact ⟨tag, htag.alike rfl hst.vm, hkind⟩
  | typeClass =>
      obtain ⟨c, hc, hsome⟩ := hv
      exact ⟨c, hc.alike rfl hst.vm, hsome⟩
  | typeObject => exact ⟨hv.1, hst.vm.arena ▸ hv.2⟩
  | methodParameters =>
      refine ⟨hv.1.alike rfl hst.vm, fun k p hp => ?_⟩
      obtain ⟨hposition, hname, htype⟩ := hv.2 k p hp
      exact ⟨hposition, hname.alike rfl hst.vm, hst.showsAt htype rfl⟩
  | objectClass => exact ⟨hv.1, hv.2.alike rfl hst.vm⟩
  | domainAssembliesByName =>
      obtain ⟨as, has, htable⟩ := hv
      exact ⟨as, hst.showsAll has rfl, htable.imp fun _ _ => hst.vm.repeats.assemblyName⟩
  | hostClass =>
      obtain ⟨hshown, d, hd, hhost⟩ := hv
      exact ⟨fun c hc => hst.shows (hshown c hc), d, hd.alike rfl hst.vm,
        hst.vm.repeats.host hhost⟩

end Similar

/-- Two sound sessions that differ in their build alone. -/
structure Alike (s t : Session) : Prop where
  similar : s.Similar t
  left : s.Sound
  right : t.Sound

theorem Alike.refl {s : Session} (hs : s.Sound) : s.Alike s :=
  ⟨.refl s, hs, hs⟩

theorem Alike.symm {s t : Session} (h : s.Alike t) : t.Alike s :=
  ⟨h.similar.symm, h.right, h.left⟩

theorem Alike.trans {s t u : Session} (hst : s.Alike t) (htu : t.Alike u) : s.Alike u :=
  ⟨hst.similar.trans htu.similar, hst.left, htu.right⟩

/-- Two sessions have become two others, which are alike. -/
structure Together (s₁ s₂ t₁ t₂ : Session) : Prop where
  left : s₁.Later t₁
  right : s₂.Later t₂
  alike : t₁.Alike t₂

theorem Alike.together {s t : Session} (h : s.Alike t) : Together s t s t :=
  ⟨.refl s, .refl t, h⟩

theorem Together.trans {s₁ s₂ t₁ t₂ u₁ u₂ : Session} (h : Together s₁ s₂ t₁ t₂)
    (k : Together t₁ t₂ u₁ u₂) : Together s₁ s₂ u₁ u₂ :=
  ⟨h.left.trans k.left, h.right.trans k.right, k.alike⟩

/-! ## Notes and pages -/

/-- The session with one more note. -/
def noted (s : Session) (page : Nat) (f : Fact) (v : f.Value) : Session :=
  { s with notebook := s.notebook.add page f v }

/-- The session with one more page. -/
def paged (s : Session) (h : Handle) : Session :=
  { s with notebook := s.notebook.addPage h }

variable {s t : Session}

theorem later_noted (s : Session) (page : Nat) (f : Fact) (v : f.Value) :
    s.Later (s.noted page f v) :=
  ⟨.refl _, rfl, fun _ _ h => (Notebook.shown?_add ..).trans h⟩

theorem later_paged (s : Session) (h : Handle) : s.Later (s.paged h) :=
  ⟨.refl _, rfl, fun _ _ hp => Notebook.shown?_addPage_of_shown? hp h⟩

theorem Sound.noted (hs : s.Sound) {page : Nat} {k : Handle} {f : Fact} {v : f.Value}
    (hp : s.notebook.shown? page = some k) (hv : f.Holds s k v) : (s.noted page f v).Sound where
  vm := hs.vm
  pointerSize := hs.pointerSize
  faults := hs.faults
  front := (Notebook.shown?_add ..).trans hs.front
  notes := fun other h g w hshown hfound => by
    have hlater := later_noted s page f v
    simp only [Session.noted, Notebook.shown?_add] at hshown hfound
    by_cases hplace : other = page ∧ f = g
    · obtain ⟨rfl, rfl⟩ := hplace
      rw [hp] at hshown
      cases hshown
      rw [Notebook.find?_add_same _ _ _ (Notebook.lt_size_of_shown? hp)] at hfound
      cases hfound
      exact hv.later hlater
    · rw [Notebook.find?_add_of_ne hplace] at hfound
      exact (hs.notes other h g w hshown hfound).later hlater

theorem Sound.paged (hs : s.Sound) (h : Handle) : (s.paged h).Sound where
  vm := hs.vm
  pointerSize := hs.pointerSize
  faults := hs.faults
  front := Notebook.shown?_addPage_of_shown? hs.front h
  notes := fun page k f v hshown hfound => by
    simp only [Session.paged, Notebook.find?_addPage] at hshown hfound
    rw [Notebook.shown?_addPage] at hshown
    split at hshown
    · rename_i hpage
      subst hpage
      unfold Notebook.find? Notebook.next at hfound
      rw [Array.getElem?_eq_none (Nat.le_refl _)] at hfound
      cases hfound
    · exact (hs.notes page k f v hshown hfound).later (later_paged s h)

theorem Similar.noted (h : s.Similar t) {page : Nat} {k : Handle} {f : Fact} (v : f.Value)
    (hp : s.notebook.shown? page = some k) : (s.noted page f v).Similar (t.noted page f v) where
  vm := h.vm
  next := by simpa [Session.noted] using h.next
  shown := fun other => by simpa [Session.noted] using h.shown other
  found := fun other g hg => by
    simp only [Session.noted]
    by_cases hplace : other = page ∧ f = g
    · obtain ⟨rfl, rfl⟩ := hplace
      rw [Notebook.find?_add_same _ _ _ (Notebook.lt_size_of_shown? hp),
        Notebook.find?_add_same _ _ _ (Notebook.lt_size_of_shown? ((h.shown other).trans hp))]
    · rw [Notebook.find?_add_of_ne hplace, Notebook.find?_add_of_ne hplace, h.found other g hg]

/-- A note that is not shared does not count. -/
theorem similar_noted (s : Session) (page : Nat) {f : Fact} (v : f.Value)
    (hf : f.isShared = false) : s.Similar (s.noted page f v) where
  vm := .refl _
  next := by simp [Session.noted]
  shown := fun other => by simp [Session.noted]
  found := fun other g hg => by
    refine Notebook.find?_add_of_fact_ne (fun hfg => ?_) v other
    rw [← hfg, hf] at hg
    cases hg

theorem Similar.paged (h : s.Similar t) (k : Handle) : (s.paged k).Similar (t.paged k) where
  vm := h.vm
  next := by simpa [Session.paged] using h.next
  shown := fun page => by
    simp only [Session.paged, Notebook.shown?_addPage, h.next, h.shown page]
  found := fun page f hf => by
    simpa [Session.paged, Notebook.find?_addPage] using h.found page f hf

/-! ## Calls -/

/-- The session after a call that has left the machine so. -/
def called (s : Session) (c : Call r) (w : Vm) : Session :=
  { s with vm := w, probe := s.probe.record c }

theorem later_called (c : Call r) {w : Vm} (hw : s.vm.Later w) : s.Later (s.called c w) :=
  ⟨hw, rfl, fun _ _ h => h⟩

theorem Sound.called (hs : s.Sound) (c : Call r) {w : Vm} (hw : s.vm.Later w)
    (wf : w.WellFormed) : (s.called c w).Sound where
  vm := wf
  pointerSize := by
    rw [(later_called c hw).pointerSize]
    exact hs.pointerSize
  faults := hs.faults
  front := hs.front
  notes := fun page k f v hshown hfound =>
    (hs.notes page k f v hshown hfound).later (later_called c hw)

theorem similar_called (c : Call r) {w : Vm} (hw : s.vm.Alike w) : s.Similar (s.called c w) :=
  ⟨hw, rfl, fun _ => rfl, fun _ _ _ => rfl⟩

theorem Similar.called (h : s.Similar t) (c d : Call r) {v w : Vm} (hvw : v.Alike w) :
    (s.called c v).Similar (t.called d w) :=
  ⟨hvw, h.next, h.shown, h.found⟩

end Session

end VmMetadata
