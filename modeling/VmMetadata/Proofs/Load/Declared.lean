import VmMetadata.Proofs.Load.Site

/-!
The first pass of loading gives every image and class its place. Main statement: the assemblies
are declared at the sites that the description determines, in a sound loader.
-/

namespace VmMetadata

open Arena (handleAt)

/-- The type of a described class. -/
def ClassDescription.typeNode (c : ClassDescription) (cls : Handle) : TypeNode where
  name := c.typeName
  kind := c.typeKind
  «class» := cls
  object := .null

namespace Load

/-- The class has its place and next to it its type; its links are missing still. -/
def DeclaredAt (a : Arena) (image : Handle) (c : ClassDescription) (h : Handle) : Prop :=
  ∃ t, a.class_ h = .ok (declaredClass image t c) ∧ a.type t = .ok (c.typeNode h)

theorem DeclaredAt.mono {hs : List Handle} {l m : Loader} (hlm : l.GrowsBut hs m)
    (hcls : ∀ k ∈ hs, l.arena.HasClass k) {image : Handle} {c : ClassDescription} {h : Handle}
    (hh : h ∉ hs) : DeclaredAt l.arena image c h → DeclaredAt m.arena image c h := by
  rintro ⟨t, hc, ht⟩
  rw [Arena.class_eq_ok] at hc
  exact ⟨t, Arena.class_eq_ok.mpr (hlm.arena h _ hh hc), hlm.type hcls ht⟩

/-- The objects that declaring a class adds at a position. -/
def declaredNodes (image : Handle) (position : Nat) (c : ClassDescription) : List Node :=
  [.class_ (declaredClass image (handleAt (position + 1)) c),
    .type (c.typeNode (handleAt position))]

theorem declareClass_apply (image : Handle) (c : ClassDescription) (l : Loader) :
    declareClass image c l = (l.arena.next, {
      arena := l.arena.append (declaredNodes image l.arena.nodes.size c)
      types := l.types.insertIfNew c.fullName (handleAt (l.arena.nodes.size + 1))
      classes := l.classes.insertIfNew c.fullName l.arena.next }) := by
  unfold declareClass
  simp only [bind_apply, Load.push, Load.set, register, pure_apply, declaredNodes,
    Arena.push_eq_append, Arena.append_append, List.cons_append, List.nil_append,
    Arena.set_append_cons, Arena.next_append]
  simp [Arena.next, ClassDescription.typeNode]

theorem getElem?_insertIfNew_of_some {t : Std.TreeMap String Handle} {k name : String}
    {v h : Handle} (hn : t[name]? = some h) : (t.insertIfNew k v)[name]? = some h := by
  rw [Std.TreeMap.getElem?_insertIfNew]
  split
  · rename_i hk
    have hmem := (Std.TreeMap.mem_iff_isSome_getElem?).mpr (by rw [hn]; rfl)
    rw [← Std.TreeMap.mem_congr hk.1] at hmem
    exact absurd hmem hk.2
  · exact hn

theorem getElem?_insertIfNew_cases {t : Std.TreeMap String Handle} {k name : String}
    {v h : Handle} (hn : (t.insertIfNew k v)[name]? = some h) : t[name]? = some h ∨ h = v := by
  rw [Std.TreeMap.getElem?_insertIfNew] at hn
  split at hn
  · exact Or.inr (Option.some.inj hn).symm
  · exact Or.inl hn

theorem declaredNodes_wellLinked {a : Arena} {image : Handle} (himage : a.HasImage image)
    (c : ClassDescription) {i : Nat} {n : Node}
    (hn : (declaredNodes image a.nodes.size c)[i]? = some n) :
    n.WellLinked (a.append (declaredNodes image a.nodes.size c)) (handleAt (a.nodes.size + i)) := by
  have hcls : (a.append (declaredNodes image a.nodes.size c)).class_ (handleAt a.nodes.size) =
      .ok (declaredClass image (handleAt (a.nodes.size + 1)) c) :=
    Arena.class_eq_ok.mpr (Arena.get?_append_new a (i := 0) rfl)
  have htype : (a.append (declaredNodes image a.nodes.size c)).type (handleAt (a.nodes.size + 1)) =
      .ok (c.typeNode (handleAt a.nodes.size)) :=
    Arena.type_eq_ok.mpr (Arena.get?_append_new a (i := 1) rfl)
  match i with
  | 0 =>
      cases hn
      exact {
        type := ⟨_, htype, rfl⟩
        image := (Arena.keeps_append a _).hasImage himage
        parent := Or.inl rfl
        declaring := Or.inl rfl
        interfaces := by simp [declaredClass]
        fields := by simp [declaredClass]
        methods := by simp [declaredClass]
        definition := Or.inl rfl }
  | 1 =>
      cases hn
      exact ⟨Or.inr ⟨_, hcls, rfl⟩, Or.inl rfl⟩
  | i + 2 => simp [declaredNodes] at hn

theorem declareClass_grows {image : Handle} (l : Loader) (c : ClassDescription)
    (hl : l.Sound ∧ l.arena.HasImage image) :
    ((declareClass image c l).2.Sound ∧ (declareClass image c l).2.arena.HasImage image) ∧
      l.Grows (declareClass image c l).2 ∧
      DeclaredAt (declareClass image c l).2.arena image c (declareClass image c l).1 := by
  obtain ⟨hl, himage⟩ := hl
  rw [declareClass_apply]
  have hkeeps := Arena.keeps_append l.arena (declaredNodes image l.arena.nodes.size c)
  have hcls : (l.arena.append (declaredNodes image l.arena.nodes.size c)).class_ l.arena.next =
      .ok (declaredClass image (handleAt (l.arena.nodes.size + 1)) c) :=
    Arena.class_eq_ok.mpr (Arena.get?_append_new l.arena (i := 0) rfl)
  have htype : (l.arena.append (declaredNodes image l.arena.nodes.size c)).type
      (handleAt (l.arena.nodes.size + 1)) = .ok (c.typeNode l.arena.next) :=
    Arena.type_eq_ok.mpr (Arena.get?_append_new l.arena (i := 1) rfl)
  refine ⟨⟨⟨?_, ?_, ?_⟩, hkeeps.hasImage himage⟩, ?_, ⟨_, hcls, htype⟩⟩
  · exact hl.arena.append fun i n hn => declaredNodes_wellLinked himage c hn
  · intro name h hn
    rcases getElem?_insertIfNew_cases hn with hn | rfl
    · exact hkeeps.hasType (hl.types name h hn)
    · exact ⟨_, htype⟩
  · intro name h hn
    rcases getElem?_insertIfNew_cases hn with hn | rfl
    · exact hkeeps.hasClass (hl.classes name h hn)
    · exact ⟨_, hcls⟩
  · exact .of_append rfl (fun _ _ => getElem?_insertIfNew_of_some)
      (fun _ _ => getElem?_insertIfNew_of_some)

/-- Classes that are declared one after the other lie at every second position. -/
theorem mapM_declareClass_places (image : Handle) : ∀ (cs : List ClassDescription) (l : Loader),
    (cs.mapM (declareClass image) l).1 =
        (List.range' l.arena.nodes.size cs.length 2).map handleAt ∧
      (cs.mapM (declareClass image) l).2.arena.nodes.size =
        l.arena.nodes.size + 2 * cs.length
  | [], l => ⟨rfl, rfl⟩
  | c :: cs, l => by
      have ih := mapM_declareClass_places image cs (declareClass image c l).2
      have hsize : (declareClass image c l).2.arena.nodes.size = l.arena.nodes.size + 2 := by
        simp [declareClass_apply, declaredNodes]
      rw [hsize] at ih
      rw [List.mapM_cons, bind_apply, bind_apply, pure_apply]
      refine ⟨?_, ?_⟩
      · rw [ih.1, declareClass_apply]
        rfl
      · rw [ih.2, List.length_cons]
        omega

end Load

/-- The image lies at its site with all its classes. -/
def Site.DeclaredIn (a : Arena) (p : Site) : Prop :=
  a.image p.image = .ok p.node ∧
    List.Forall₂ (Load.DeclaredAt a p.image) p.described p.classes

theorem Site.DeclaredIn.mono {l m : Loader} (hlm : l.Grows m) {p : Site}
    (hp : p.DeclaredIn l.arena) : p.DeclaredIn m.arena :=
  ⟨Arena.image_eq_ok.mpr (hlm.get? (Arena.image_eq_ok.mp hp.1)),
    hp.2.imp fun _ _ => Load.DeclaredAt.mono hlm (by simp) (by simp)⟩

namespace Load

theorem declareImage_apply (name : String) (classes : List ClassDescription) (classStart : Nat)
    (l : Loader) :
    declareImage name classes classStart l =
      let r := classes.mapM (declareClass l.arena.next)
        { l with arena := l.arena.push (.image { name, classes := #[], classStart }) }
      let node : ImageNode := { name, classes := r.1.toArray, classStart }
      ((l.arena.next, r.1), { r.2 with arena := r.2.arena.set l.arena.next (.image node) }) := rfl

/-- The image while its classes are declared. -/
def blankImage (p : Site) : ImageNode :=
  { p.node with classes := #[] }

/-- The classes of an image come to lie behind it. -/
theorem declareClasses_site {p : Site} {l : Loader} (hl : l.Sound)
    (himage : l.arena.HasImage p.image) (hp : l.arena.nodes.size = p.position + 1) :
    ∃ m, p.described.mapM (declareClass p.image) l = (p.classes, m) ∧ m.Sound ∧ l.Grows m ∧
      List.Forall₂ (DeclaredAt m.arena p.image) p.described p.classes ∧
      m.arena.nodes.size = p.position + 1 + 2 * p.described.length := by
  obtain ⟨⟨hm, _⟩, hgrow, hdeclared⟩ := mapM_grows (f := declareClass p.image)
    (G := fun l => l.Sound ∧ l.arena.HasImage p.image)
    (R := fun l c h => DeclaredAt l.arena p.image c h)
    declareClass_grows (fun hlm => DeclaredAt.mono hlm (by simp) (by simp))
    p.described l ⟨hl, himage⟩
  have hplaces := mapM_declareClass_places p.image p.described l
  rw [hp] at hplaces
  have hhandles : (p.described.mapM (declareClass p.image) l).1 = p.classes := hplaces.1
  exact ⟨_, Prod.ext hhandles rfl, hm, hgrow, hhandles ▸ hdeclared, hplaces.2⟩

/-- To enter its classes into an image leaves them where they are. -/
theorem DeclaredAt.set_image {a : Arena} {p : Site} {c : ClassDescription} {h : Handle}
    (himage : a.get? p.image = some (.image (blankImage p))) :
    DeclaredAt a p.image c h →
      DeclaredAt (a.set p.image (.image p.node)) p.image c h := by
  have hstays : ∀ {k : Handle} {n : Node}, a.get? k = some n → n ≠ .image (blankImage p) →
      (a.set p.image (.image p.node)).get? k = some n := by
    intro k n hn hne
    rw [Arena.get?_set_of_ne, hn]
    rintro rfl
    rw [himage] at hn
    exact hne (Option.some.inj hn).symm
  rintro ⟨t, hc, ht⟩
  rw [Arena.class_eq_ok] at hc
  rw [Arena.type_eq_ok] at ht
  exact ⟨t, Arena.class_eq_ok.mpr (hstays hc (by simp)),
    Arena.type_eq_ok.mpr (hstays ht (by simp))⟩

/-- An image is put down without classes and gets them once all of them are declared. -/
theorem declareImage_of_classes {p : Site} {l l' : Loader} (hp : l.arena.nodes.size = p.position)
    (hclasses : p.described.mapM (declareClass p.image)
      { l with arena := l.arena.push (.image (blankImage p)) } = (p.classes, l')) :
    declareImage p.name p.described (word32 p.start) l =
      ((p.image, p.classes), { l' with arena := l'.arena.set p.image (.image p.node) }) := by
  have hnext : l.arena.next = p.image := by rw [Arena.next, hp, Site.image]
  have hclasses' : p.described.mapM (declareClass p.image) { l with
      arena := l.arena.push (.image ⟨p.name, #[], word32 p.start⟩) } = (p.classes, l') := hclasses
  rw [declareImage_apply, hnext, hclasses']
  rfl

theorem declareImage_site {p : Site} {l : Loader} (hl : l.Sound)
    (hp : l.arena.nodes.size = p.position) :
    ∃ m, declareImage p.name p.described (word32 p.start) l = ((p.image, p.classes), m) ∧
      m.Sound ∧ l.Grows m ∧ p.DeclaredIn m.arena ∧
      m.arena.nodes.size = p.position + 1 + 2 * p.described.length := by
  let l₁ : Loader := { l with arena := l.arena.push (.image (blankImage p)) }
  have hnext : l.arena.next = p.image := by rw [Arena.next, hp, Site.image]
  have hblank : l₁.arena.get? p.image = some (.image (blankImage p)) := by
    rw [← hnext]
    exact Arena.get?_push_next l.arena _
  have hgrow₁ : l.Grows l₁ := .push l _
  have hl₁ : l₁.Sound := hl.push (by simp [Node.WellLinked, blankImage])
  obtain ⟨l₂, hclasses, hl₂, hgrow₂, hdeclared, hsize⟩ := declareClasses_site hl₁
    ⟨_, Arena.image_eq_ok.mpr hblank⟩ (by simp [l₁, Arena.push, hp])
  have himage : l₂.arena.get? p.image = some (.image (blankImage p)) := hgrow₂.get? hblank
  have hkeep : Node.Keeps (.image (blankImage p)) (.image p.node) := .image _ _
  have hdeclared' := hdeclared.imp fun _ _ h => h.set_image himage
  refine ⟨_, declareImage_of_classes hp hclasses, hl₂.set himage hkeep fun c hc => ?_, ?_, ⟨?_, hdeclared'⟩, ?_⟩
  · obtain ⟨_, _, t, hcls, _⟩ := mem_of_forall₂ hdeclared' (List.mem_toArray.mp hc)
    exact ⟨_, hcls, rfl⟩
  · -- the image is not among the objects that the loader had before
    refine ⟨fun h n _ hn => ?_, (hgrow₁.trans hgrow₂).keeps.trans (Arena.keeps_set himage hkeep),
      (hgrow₁.trans hgrow₂).types, (hgrow₁.trans hgrow₂).classes⟩
    rw [Arena.get?_set_of_ne (hnext ▸ Arena.ne_next_of_get? hn)]
    exact (hgrow₁.trans hgrow₂).get? hn
  · exact Arena.image_eq_ok.mpr (Arena.get?_set_same himage _)
  · rw [Arena.size_set]
    exact hsize

theorem declareAssemblies_cons (a : AssemblyDescription) (rest : List AssemblyDescription)
    (start : Nat) (l : Loader) :
    declareAssemblies (a :: rest) start l =
      let r := declareImage a.image a.classes (word32 start) l
      let l' : Loader := { r.2 with arena := r.2.arena.push (.assembly r.1.1) }
      let others := declareAssemblies rest (start + r.1.2.length) l'
      ({ assemblies := r.2.arena.next :: others.1.assemblies
         globalClasses := r.1.2 ++ others.1.globalClasses
         corlib := others.1.corlib.or (if a.image = corlibImage then some r.1.1 else none)
         pending := r.1.2.zip a.classes ++ others.1.pending }, others.2) := rfl

/-- The assemblies that are declared at the sites, and what else is collected on the way. -/
def declaredAt (sites : List Site) : Declared where
  assemblies := sites.map Site.assembly
  globalClasses := sites.flatMap Site.classes
  corlib := (sites.reverse.find? fun p => p.name = corlibImage).map Site.image
  pending := sites.flatMap fun p => p.classes.zip p.described

theorem declaredAt_cons (p : Site) (sites : List Site) :
    declaredAt (p :: sites) = {
      assemblies := p.assembly :: (declaredAt sites).assemblies
      globalClasses := p.classes ++ (declaredAt sites).globalClasses
      corlib := (declaredAt sites).corlib.or (if p.name = corlibImage then some p.image else none)
      pending := p.classes.zip p.described ++ (declaredAt sites).pending } := by
  simp only [declaredAt, List.map_cons, List.flatMap_cons, List.reverse_cons, List.find?_append,
    Option.map_or, Declared.mk.injEq, true_and, and_true]
  congr 1
  by_cases hp : p.name = corlibImage <;> simp [hp]

theorem declareAssemblies_sites : ∀ (as : List AssemblyDescription) (position start : Nat)
    (l : Loader), l.Sound → l.arena.nodes.size = position →
      ∃ m, declareAssemblies as start l = (declaredAt (sitesFrom position start as), m) ∧
        m.Sound ∧ l.Grows m ∧
        (∀ p ∈ sitesFrom position start as,
          p.DeclaredIn m.arena ∧ m.arena.get? p.assembly = some (.assembly p.image)) ∧
        m.arena.nodes.size = positionAfter position as
  | [], _, _, l, hl, hsize => ⟨l, rfl, hl, .refl [] l, by simp [sitesFrom], hsize⟩
  | a :: rest, position, start, l, hl, hsize => by
      let p : Site := ⟨a.image, a.classes, position, start⟩
      obtain ⟨l₁, hrun₁, hl₁, hgrow₁, hp, hsize₁⟩ := declareImage_site (p := p) hl hsize
      let l₂ : Loader := { l₁ with arena := l₁.arena.push (.assembly p.image) }
      have hassembly : l₁.arena.next = p.assembly := by rw [Arena.next, hsize₁, Site.assembly]
      have hgrow₂ : l₁.Grows l₂ := .push l₁ _
      have hl₂ : l₂.Sound := hl₁.push (hgrow₂.keeps.hasImage ⟨_, hp.1⟩)
      have hsize₂ : l₂.arena.nodes.size = position + 2 + 2 * a.classes.length := by
        simp only [l₂, p, Arena.push, Array.size_push, hsize₁]
        omega
      obtain ⟨m, hrun, hm, hgrow₃, hsites, hsize₃⟩ :=
        declareAssemblies_sites rest (position + 2 + 2 * a.classes.length)
          (start + a.classes.length) l₂ hl₂ hsize₂
      refine ⟨m, ?_, hm, hgrow₁.trans (hgrow₂.trans hgrow₃), ?_, hsize₃⟩
      · rw [declareAssemblies_cons, show declareImage a.image a.classes (word32 start) l = _
          from hrun₁]
        simp only [Site.length_classes]
        rw [show declareAssemblies rest (start + p.described.length) _ = _ from hrun, sitesFrom,
          declaredAt_cons, hassembly]
      · intro q hq
        rcases List.mem_cons.mp hq with rfl | hq
        · refine ⟨(hp.mono hgrow₂).mono hgrow₃, hgrow₃.get? ?_⟩
          rw [← hassembly]
          exact Arena.get?_push_next _ _
        · exact hsites q hq

end Load

end VmMetadata
