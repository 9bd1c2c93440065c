import VmMetadata.Proofs.Load.Linked
import VmMetadata.Vm.State

/-!
The machine that loading leaves. Main statement: the domain, the assemblies and the images of a
snapshot lie where the description puts them, and every class is linked as it is described.
-/

namespace VmMetadata

open Arena (handleAt)

/-- The loader has laid out the snapshot. -/
structure Snapshot.LaidOut (s : Snapshot) (known : WellKnown) (l : Loader) : Prop where
  sound : l.Sound
  wellKnown : known.Valid l.arena
  domain : l.arena.get? (handleAt 0) = some .domain
  assemblies : ∀ p ∈ s.sites, l.arena.get? p.assembly = some (.assembly p.image)
  images : ∀ p ∈ s.images, l.arena.image p.image = .ok p.node
  classes : ∀ p ∈ s.images,
    List.Forall₂ (Load.LinkedAt l known p.image) p.described p.classes

/-- What the snapshot fixes once and for all. -/
def Snapshot.catalog (s : Snapshot) (known : WellKnown) : Catalog where
  vmVersion := s.vmVersion
  isLegacy := isLegacyBuild s.vmVersion
  pointerSize := s.pointerSize
  moduleBase := s.moduleBase
  domain := handleAt 0
  assemblies := s.sites.map Site.assembly
  corlib := s.corlibSite.image
  globalClasses := (s.sites.flatMap Site.classes).toArray
  wellKnown := known

namespace Load

/-- The image of the core library lies at its site, and with it all images have their place. -/
theorem corlibOf_images {s : Snapshot} {l : Loader} (hl : l.Sound)
    (hsites : ∀ p ∈ s.sites, p.DeclaredIn l.arena)
    (hsize : l.arena.nodes.size = positionAfter 1 s.assemblies) :
    ∃ builtin m, corlibOf (declaredAt s.sites) l = ((s.corlibSite.image, builtin), m) ∧
      m.Sound ∧ l.Grows m ∧ (∀ p ∈ s.images, p.DeclaredIn m.arena) ∧
      (declaredAt s.sites).pending ++ builtin =
        s.images.flatMap fun p => p.classes.zip p.described := by
  have hcorlib : (declaredAt s.sites).corlib =
      (s.sites.reverse.find? fun p => p.name = corlibImage).map Site.image := rfl
  unfold corlibOf
  rw [hcorlib]
  cases hf : s.sites.reverse.find? fun p => p.name = corlibImage with
  | some p =>
      have hp : p ∈ s.sites ∧ p.name = corlibImage :=
        ⟨List.mem_reverse.mp (List.mem_of_find?_eq_some hf), by simpa using List.find?_some hf⟩
      have himages : s.images = s.sites := if_pos ⟨p, hp⟩
      refine ⟨[], l, ?_, hl, .refl [] l, himages ▸ hsites, ?_⟩
      · simp [Snapshot.corlibSite, hf, pure_apply]
      · rw [himages, List.append_nil]
        rfl
  | none =>
      have himages : s.images = s.sites ++ [s.madeUpSite] := by
        refine if_neg fun ⟨p, hp, hname⟩ => ?_
        have := List.find?_eq_none.mp hf p (List.mem_reverse.mpr hp)
        exact this (by simpa using hname)
      obtain ⟨m, hrun, hm, hgrow, hplace, -⟩ := declareImage_site (p := s.madeUpSite) hl hsize
      refine ⟨s.madeUpSite.classes.zip builtinCorlib, m, ?_, hm, hgrow, ?_, ?_⟩
      · simp only [Option.map_none, bind_apply]
        rw [show declareImage corlibImage builtinCorlib 0 l = _ from hrun]
        simp [Snapshot.corlibSite, hf, pure_apply]
      · rw [himages]
        intro p hp
        rcases List.mem_append.mp hp with hp | hp
        · exact (hsites p hp).mono hgrow
        · rw [List.mem_singleton.mp hp]
          exact hplace
      · rw [himages, List.flatMap_append, List.flatMap_singleton]
        rfl

theorem wellKnown_valid {l : Loader} (hl : l.Sound) :
    ∃ known, wellKnown l = (known, l) ∧ known.Valid l.arena := by
  refine ⟨_, rfl, ?_⟩
  exact {
    object := named_valid hl "System.Object"
    valueType := named_valid hl "System.ValueType"
    enumeration := named_valid hl "System.Enum"
    typeClass := named_valid hl "System.Type"
    string := named_valid hl "System.String" }

theorem map_fst_pending (sites : List Site) :
    (sites.flatMap fun p => p.classes.zip p.described).map Prod.fst =
      sites.flatMap Site.classes := by
  rw [List.map_flatMap]
  refine List.flatMap_congr fun p _ => ?_
  exact List.map_fst_zip (by simp)

/-- A loader that has no object but the domain. -/
def begun : Loader := ⟨Arena.empty.push .domain, ∅, ∅⟩

theorem sound_begun : begun.Sound where
  arena := Arena.wellFormed_empty.push trivial
  types := fun name h hn => by simp [begun] at hn
  classes := fun name h hn => by simp [begun] at hn

/-- Loading declares all classes, those of the core library last, and then links them. -/
theorem snapshot_apply {s : Snapshot} {l₂ l₃ : Loader} {known : WellKnown}
    {builtin : List (Handle × ClassDescription)}
    (hassemblies : declareAssemblies s.assemblies 0 begun = (declaredAt s.sites, l₂))
    (hcorlib : corlibOf (declaredAt s.sites) l₂ = ((s.corlibSite.image, builtin), l₃))
    (hknown : wellKnown l₃ = (known, l₃))
    (hpending : (declaredAt s.sites).pending ++ builtin =
      s.images.flatMap fun p => p.classes.zip p.described) :
    snapshot s ⟨.empty, ∅, ∅⟩ = (s.catalog known,
      ((s.images.flatMap fun p => p.classes.zip p.described).forM
        (fun q => linkClass known q.1 q.2) l₃).2) := by
  rw [← hpending]
  change (push .domain >>= fun domain => declareAssemblies s.assemblies 0 >>= fun declared =>
    corlibOf declared >>= fun r => wellKnown >>= fun known =>
    (declared.pending ++ r.2).forM (fun q => linkClass known q.1 q.2) >>= fun _ => pure _)
      ⟨.empty, ∅, ∅⟩ = _
  rw [bind_apply, bind_apply]
  rw [show declareAssemblies s.assemblies 0 (push .domain ⟨.empty, ∅, ∅⟩).2 = _ from hassemblies,
    bind_apply, hcorlib, bind_apply, hknown]
  rfl

theorem snapshot_laidOut (s : Snapshot) :
    ∃ known l, snapshot s ⟨.empty, ∅, ∅⟩ = (s.catalog known, l) ∧ s.LaidOut known l := by
  have hdomain : begun.arena.get? (handleAt 0) = some .domain := Arena.get?_push_next _ _
  obtain ⟨l₂, hrun₂, hl₂, hgrow₂, hsites, hsize⟩ :=
    declareAssemblies_sites s.assemblies 1 0 begun sound_begun rfl
  obtain ⟨builtin, l₃, hrun₃, hl₃, hgrow₃, himages, hpending⟩ :=
    corlibOf_images hl₂ (fun p hp => (hsites p hp).1) hsize
  obtain ⟨known, hrun₄, hknown⟩ := wellKnown_valid hl₃
  have hplaces : ∀ p ∈ s.images, ∀ q ∈ p.classes.zip p.described,
      DeclaredAt l₃.arena p.image q.2 q.1 := fun p hp q hq =>
    (List.forall₂_iff_zip.mp (himages p hp).2.flip).2 hq
  have hdeclared : ∀ q ∈ s.images.flatMap fun p => p.classes.zip p.described,
      ∃ image, DeclaredAt l₃.arena image q.2 q.1 := fun q hq => by
    obtain ⟨p, hp, hq⟩ := List.mem_flatMap.mp hq
    exact ⟨p.image, hplaces p hp q hq⟩
  obtain ⟨l₄, hrun₅, hl₄, hgrow₄, hlinked⟩ := forM_linkClass
    (s.images.flatMap fun p => p.classes.zip p.described) l₃ (⟨hl₃, rfl⟩ : Linking l₃.classes l₃)
    hknown
    (by rw [map_fst_pending]; exact s.nodup_classes) hdeclared
  -- linking changes classes only, so all other objects stay as they are
  have hstays : ∀ {h : Handle} {n : Node}, l₃.arena.get? h = some n → (∀ c, n ≠ .class_ c) →
      l₄.arena.get? h = some n := fun {h n} hn hne => by
    refine hgrow₄.arena h n (fun hh => ?_) hn
    obtain ⟨q, hq, rfl⟩ := List.mem_map.mp hh
    obtain ⟨image, t, hclass, _⟩ := hdeclared q hq
    rw [Arena.class_eq_ok, hn] at hclass
    exact hne _ (Option.some.inj hclass)
  refine ⟨known, l₄, ?_, hl₄.1, hknown.mono hgrow₄.keeps, ?_, ?_, ?_, ?_⟩
  · rw [snapshot_apply hrun₂ hrun₃ hrun₄ hpending, hrun₅]
  · exact hstays (hgrow₃.get? (hgrow₂.get? hdomain)) (by simp)
  · exact fun p hp => hstays (hgrow₃.get? (hsites p hp).2) (by simp)
  · exact fun p hp => Arena.image_eq_ok.mpr
      (hstays (Arena.image_eq_ok.mp (himages p hp).1) (by simp))
  · intro p hp
    refine (List.forall₂_iff_zip.mpr ⟨by simp, fun {h c} hq => ?_⟩).flip
    exact hlinked (h, c) (List.mem_flatMap.mpr ⟨p, hp, hq⟩) p.image (hplaces p hp _ hq)

end Load

/-- A machine as it is made: it has answered no call yet. -/
def Vm.fresh (catalog : Catalog) (arena : Arena) : Vm :=
  { catalog with arena, classInstances := [], methodInstances := [], scratch := .empty }

theorem Vm.ofSnapshot_eq_ok {s : Snapshot} {vm : Vm} :
    Vm.ofSnapshot s = .ok vm →
      (s.pointerSize = 4 ∨ s.pointerSize = 8) ∧
        ∃ known l, vm = Vm.fresh (s.catalog known) l.arena ∧ s.LaidOut known l := by
  intro h
  obtain ⟨known, l, hrun, hlaid⟩ := Load.snapshot_laidOut s
  unfold ofSnapshot at h
  split at h
  · rename_i hsize
    refine ⟨hsize, known, l, ?_, hlaid⟩
    rw [show (Load.snapshot s).run ⟨.empty, ∅, ∅⟩ = _ from hrun] at h
    exact (Except.ok.inj h).symm
  · cases h

/-- The machine that the snapshot describes, as it is made. -/
def Snapshot.machine (s : Snapshot) : Vm :=
  .fresh (Load.snapshot s ⟨.empty, ∅, ∅⟩).1 (Load.snapshot s ⟨.empty, ∅, ∅⟩).2.arena

theorem Vm.ofSnapshot_machine {s : Snapshot} (h : s.pointerSize = 4 ∨ s.pointerSize = 8) :
    Vm.ofSnapshot s = .ok s.machine :=
  if_pos h

/-- A small snapshot of a current build: a generic class, and behind it a core library. -/
def Snapshot.small : Snapshot where
  vmVersion := "2020.3.1f1"
  moduleBase := 0x1000
  assemblies := [
    { image := "Game.dll"
      classes := [
        { name := "Pool"
          typeParameters := ["T"]
          methods := [{ name := "Get", returnType := "T", address := some 0x1040 }] }] },
    { image := "mscorlib.dll"
      classes := [
        { «namespace» := "System"
          name := "Object"
          methods := [{ name := "Finalize", address := some 0x1080 }] },
        { «namespace» := "System", name := "Type", parent := some "System.Object" }] }]

end VmMetadata
