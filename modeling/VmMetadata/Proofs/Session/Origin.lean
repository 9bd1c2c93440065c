import VmMetadata.Proofs.Session.Reached

/-!
Sessions on the machine of a snapshot. Whatever was done since the session began, the images, the
assemblies and the classes lie where the snapshot put them.
-/

namespace VmMetadata

/-- The session works on a machine that was made from the snapshot. -/
structure Session.On (s : Session) (snapshot : Snapshot) : Prop where
  sound : s.Sound
  origin : ∃ known l, snapshot.LaidOut known l ∧
    (Vm.fresh (snapshot.catalog known) l.arena).Later s.vm

theorem Session.attach_eq_ok {vm : Vm} {config : Config} {s : Session} :
    Session.attach vm config = .ok s ↔ ∃ version layout,
      config.resolveLayout vm.vmVersion vm.pointerSize = .ok (version, layout) ∧
        s = .new vm version layout := by
  unfold attach
  cases config.resolveLayout vm.vmVersion vm.pointerSize with
  | error e => exact ⟨fun h => (by cases h), fun ⟨_, _, h, _⟩ => (by cases h)⟩
  | ok r =>
      refine ⟨fun h => ⟨r.1, r.2, rfl, (Except.ok.inj h).symm⟩, ?_⟩
      rintro ⟨version, layout, h, rfl⟩
      cases h
      rfl

theorem Session.machine_of_attach {snapshot : Snapshot} {vm : Vm} {config : Config} {s : Session}
    (hvm : Vm.ofSnapshot snapshot = .ok vm) (h : Session.attach vm config = .ok s) :
    s.vm = snapshot.machine := by
  obtain ⟨hsize, -⟩ := Vm.ofSnapshot_eq_ok hvm
  rw [(Session.sound_of_attach hvm h).2.1]
  exact Except.ok.inj (hvm.symm.trans (Vm.ofSnapshot_machine hsize))

namespace Session.On

variable {s t : Session} {snapshot : Snapshot}

theorem of_new {vm : Vm} (hvm : Vm.ofSnapshot snapshot = .ok vm) (version : Version)
    (layout : ClassLayout) : (Session.new vm version layout).On snapshot := by
  obtain ⟨_, known, l, heq, hlaid⟩ := Vm.ofSnapshot_eq_ok hvm
  exact ⟨Session.sound_new hvm version layout, known, l, hlaid, heq ▸ .refl _⟩

theorem of_attach {vm : Vm} {config : Config} (hvm : Vm.ofSnapshot snapshot = .ok vm)
    (h : Session.attach vm config = .ok s) : s.On snapshot := by
  obtain ⟨version, layout, _, rfl⟩ := Session.attach_eq_ok.mp h
  exact of_new hvm version layout

theorem later (hs : s.On snapshot) (hst : s.Later t) (ht : t.Sound) : t.On snapshot := by
  obtain ⟨known, l, hlaid, hlater⟩ := hs.origin
  exact ⟨ht, known, l, hlaid, hlater.trans hst.vm⟩

theorem reaches (hs : s.On snapshot) (h : s.Reaches t) : t.On snapshot :=
  hs.later (h.sound hs.sound).1 (h.sound hs.sound).2

variable (hs : s.On snapshot)
include hs

theorem catalog : ∃ known, s.vm.toCatalog = snapshot.catalog known := by
  obtain ⟨known, _, _, hlater⟩ := hs.origin
  exact ⟨known, hlater.catalog⟩

theorem isLegacy : s.vm.isLegacy = isLegacyBuild snapshot.vmVersion := by
  obtain ⟨known, hcatalog⟩ := hs.catalog
  rw [hcatalog]
  rfl

theorem pointerSize : s.vm.pointerSize = snapshot.pointerSize := by
  obtain ⟨known, hcatalog⟩ := hs.catalog
  rw [hcatalog]
  rfl

theorem moduleBase : s.vm.moduleBase = snapshot.moduleBase := by
  obtain ⟨known, hcatalog⟩ := hs.catalog
  rw [hcatalog]
  rfl

theorem corlib : s.vm.corlib = snapshot.corlibSite.image := by
  obtain ⟨known, hcatalog⟩ := hs.catalog
  rw [hcatalog]
  rfl

theorem assemblies : s.vm.assemblies = snapshot.sites.map Site.assembly := by
  obtain ⟨known, hcatalog⟩ := hs.catalog
  rw [hcatalog]
  rfl

theorem globalClasses : s.vm.globalClasses = (snapshot.sites.flatMap Site.classes).toArray := by
  obtain ⟨known, hcatalog⟩ := hs.catalog
  rw [hcatalog]
  rfl

theorem assembly {p : Site} (hp : p ∈ snapshot.sites) :
    s.vm.arena.assembly p.assembly = .ok p.image := by
  obtain ⟨_, _, hlaid, hlater⟩ := hs.origin
  exact hlater.arena.assembly (Arena.assembly_eq_ok.mpr (hlaid.assemblies p hp))

theorem image {p : Site} (hp : p ∈ snapshot.images) :
    s.vm.arena.image p.image = .ok p.node := by
  obtain ⟨_, _, hlaid, hlater⟩ := hs.origin
  exact hlater.arena.image (hlaid.images p hp)

/-- A class of an image names that image as its own. -/
theorem classImage {p : Site} (hp : p ∈ snapshot.images) {h : Handle} (hh : h ∈ p.classes) :
    s.vm.Tells (.classImage h) p.image := by
  obtain ⟨_, _, hlaid, hlater⟩ := hs.origin
  obtain ⟨c, _, t, fields, methods, hclass, _⟩ := Load.mem_of_forall₂ (hlaid.classes p hp) hh
  exact Vm.tells_classImage.mpr ⟨_, hlater.arena.class_ hclass, rfl⟩

end Session.On

end VmMetadata
