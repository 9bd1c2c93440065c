import VmMetadata.Proofs.Dump.History
import VmMetadata.Proofs.Session.Reported

/-!
Legacy layouts that put the tag byte of a descriptor in another place than the machine looks for it.
The machine finds no class then, whatever position the descriptor holds, and also where the tag byte
falls into the bytes of the position. Main statement: an image that counts any classes is refused at
the first index of its window, an image without classes is listed as empty, and a dump consists of
the notices and these refusals.
-/

namespace VmMetadata

open Query (Runs Fails)

/-- The override of the place is what a legacy build is attached with. -/
theorem Config.resolveLayout_override {config : Config} {reported : String} {version : Version}
    {offset : Nat} (hversion : Version.parse (config.vmVersion.getD reported) = .ok version)
    (hsupported : version.isBelow .oldestSupported = false)
    (hlegacy : version.isBelow .imageAccessorSince = true)
    (hoffset : config.typeKindOffset = some offset) {pointerSize : Nat}
    (hsize : pointerSize = 4 ∨ pointerSize = 8) :
    config.resolveLayout reported pointerSize = .ok (version, .legacy offset) := by
  have hdetect : ClassLayout.detect version pointerSize =
      .ok (.legacy (VmMetadata.typeKindOffset pointerSize)) := by
    rw [ClassLayout.detect_eq hsize, if_neg (by simp [hsupported]), if_pos hlegacy]
  unfold resolveLayout
  rw [hversion]
  change (ClassLayout.detect version pointerSize >>= _) = _
  rw [hdetect, hoffset]
  rfl

namespace Snapshot

/-- Why an image cannot be listed if no position of its window is resolved: the window has a first
index, and there is no class at it. -/
def refusal? (s : Snapshot) (p : Site) : Option Error :=
  if word32 p.described.length = 0 then none
  else some (.layoutMismatch "legacy" p.name (s.windowStart p))

/-- What a dump gives for an assembly whose image is refused, or has no classes. -/
def refusedEvents (s : Snapshot) (p : Site) : List DumpEvent :=
  .progress (assemblyNameOf p.name) :: ((s.refusal? p).map fun e => .item (.error e)).toList

variable {s : Snapshot} {p : Site}

theorem windowStart_lt (s : Snapshot) (p : Site) : s.windowStart p < 0x1_0000_0000 := by
  unfold windowStart
  split
  · exact Nat.mod_lt _ (by decide)
  · decide

/-- In a legacy build whose classes are few enough to be counted, just the images with classes are
refused, where their classes begin in the table of all classes. -/
theorem refusal?_eq (hlegacy : isLegacyBuild s.vmVersion = true)
    (hcount : s.classCount < 0x1_0000_0000) (hp : p ∈ s.sites) :
    s.refusal? p =
      if p.described = [] then none else some (.layoutMismatch "legacy" p.name p.start) := by
  have hend := start_add_length_le hp
  have hlength : word32 p.described.length = p.described.length :=
    word32_eq_self_iff.mpr (by omega)
  have hstart : s.windowStart p = p.start := by
    unfold windowStart
    rw [if_pos hlegacy]
    exact word32_eq_self_iff.mpr (by omega)
  unfold refusal?
  rw [hlength, hstart]
  exact if_congr List.length_eq_zero_iff rfl rfl

section

variable {offset size : Nat}
  (hroom : (ClassLayout.legacy offset).descriptorSize s.pointerSize = .ok size)
  (hmisplaced : offset ≠ typeKindOffset s.pointerSize)
include hroom hmisplaced

/-- No position is resolved, so the first one decides. -/
theorem listing_of_misplaced (p : Site) : s.listing p (.legacy offset) =
    match s.refusal? p with
    | none => .ok []
    | some e => .error e := by
  have hresolvable : s.resolvable offset = 0 := if_neg hmisplaced
  have hstart := s.windowStart_lt p
  simp only [listing, refusal?, hroom, hresolvable, Nat.max_zero]
  by_cases hzero : word32 p.described.length = 0
  · rw [if_pos (by omega), if_pos (Or.inl hzero), if_pos hzero, found, hzero, List.take_zero]
  · have hbehind : ¬(word32 p.described.length = 0 ∨
        s.windowStart p + word32 p.described.length ≤ 0) := by omega
    rw [if_neg hbehind, if_neg hzero]
    exact ite_self _

/-- Whatever classes contribute to a dump, they are not listed. -/
theorem dumpEvents_of_misplaced (items : Handle → List DumpItem) :
    s.dumpEvents (.legacy offset) items = s.sites.flatMap s.refusedEvents := by
  refine List.flatMap_congr fun p _ => ?_
  unfold siteEvents refusedEvents
  rw [listing_of_misplaced hroom hmisplaced]
  cases s.refusal? p <;> rfl

end

end Snapshot

/-- A session with a misplaced tag byte lists no image that counts any classes. -/
theorem Session.On.refuses_classes {s : Session} {snapshot : Snapshot} (hs : s.On snapshot)
    {offset size : Nat} (hlayout : s.layout = .legacy offset)
    (hroom : (ClassLayout.legacy offset).descriptorSize snapshot.pointerSize = .ok size)
    (hmisplaced : offset ≠ typeKindOffset snapshot.pointerSize)
    (hbelow : s.vm.arena.BelowScratch) {p : Site} (hp : p ∈ snapshot.images) {i : Image}
    (hi : s.Shows i) (himage : i.handle = p.image) :
    (snapshot.refusal? p = none → ∃ t, i.classes s = .ok [] t) ∧
      ∀ e, snapshot.refusal? p = some e → ∃ t, i.classes s = .error e t := by
  have hlisting := Snapshot.listing_of_misplaced hroom hmisplaced p
  rw [← hlayout] at hlisting
  constructor
  · intro hnone
    rw [hnone] at hlisting
    cases hs.classes_runs hp hi himage hlisting hbelow with
    | error _ _ _ impossible => exact impossible.elim
    | ok run _ _ hcs =>
        obtain rfl := List.map_eq_nil_iff.mp hcs.1.2
        exact ⟨_, run⟩
  · intro e he
    rw [he] at hlisting
    obtain ⟨t, run, _⟩ := hs.classes_fails hp hi himage hlisting hbelow
    exact ⟨t, run⟩

/-- An override that puts the tag byte anywhere but behind the position and the attributes is
noticed. A session of a legacy build attaches with it; from then on no image that counts any classes
is listed, each is refused at the index where the machine says its window begins, and an image
without classes is listed as empty, whatever was done before. A dump of either kind gives a notice
for every assembly and behind it at most the refusal of its image, as far as it is pulled, and no
text. Where the machine itself is a legacy build and its classes can be counted, the images that are
refused are just those with classes, each at the index of its first class. A descriptor of any size
is taken to find its memory. -/
theorem Image.classes_of_misplaced {snapshot : Snapshot} {vm : Vm} {config : Config}
    {version : Version} {offset : Nat} (hvm : Vm.ofSnapshot snapshot = .ok vm)
    (hversion : Version.parse (config.vmVersion.getD snapshot.vmVersion) = .ok version)
    (hsupported : version.isBelow .oldestSupported = false)
    (hlegacy : version.isBelow .imageAccessorSince = true)
    (hoffset : config.typeKindOffset = some offset)
    (hfits : offset + snapshot.pointerSize < 0x1_0000_0000_0000_0000)
    (hmisplaced : offset ≠ snapshot.pointerSize + 2) :
    ∃ b, Session.attach vm config = .ok b ∧
      (∀ s, b.History s → s.vm.arena.BelowScratch →
        ∀ p ∈ snapshot.images, ∀ i : Image, s.Shows i → i.handle = p.image →
          (snapshot.refusal? p = none → ∃ t, i.classes s = .ok [] t) ∧
            ∀ e, snapshot.refusal? p = some e → ∃ t, i.classes s = .error e t) ∧
      (∀ s, b.History s → ∀ kind patience, (pullDump kind patience s).2.vm.arena.BelowScratch →
        (pullDump kind patience s).1 = if patience.isOver then ⟨[], none⟩
          else .cut patience (snapshot.sites.flatMap snapshot.refusedEvents)) ∧
      (isLegacyBuild snapshot.vmVersion = true → snapshot.classCount < 0x1_0000_0000 →
        ∀ p ∈ snapshot.sites, snapshot.refusal? p =
          if p.described = [] then none
          else some (.layoutMismatch "legacy" p.name p.start)) := by
  obtain ⟨hsize, known, l, rfl, -⟩ := Vm.ofSnapshot_eq_ok hvm
  have hattach : Session.attach (Vm.fresh (snapshot.catalog known) l.arena) config =
      .ok (.new _ version (.legacy offset)) :=
    Session.attach_eq_ok.mpr
      ⟨_, _, Config.resolveLayout_override hversion hsupported hlegacy hoffset hsize, rfl⟩
  have hb := Session.On.of_attach hvm hattach
  obtain ⟨size, hroom⟩ := ClassLayout.exists_descriptorSize hsize hfits
  refine ⟨_, hattach, fun s history hbelow p hp i hi himage => ?_,
    fun s history kind patience => ?_,
    fun hbuild hcount p hp => Snapshot.refusal?_eq hbuild hcount hp⟩
  · obtain ⟨later, sound⟩ := history.sound hb
    exact (hb.later later sound).refuses_classes later.layout hroom hmisplaced hbelow hp hi
      himage
  · intro hbelow
    obtain ⟨later, sound⟩ := history.sound hb
    obtain ⟨items, hitems⟩ := hb.exists_items kind
    have hpulled := (pullDump_ends hitems later (hb.later later sound) patience).post hbelow
    rw [← Snapshot.dumpEvents_of_misplaced hroom hmisplaced items]
    exact hpulled

/-- At offset three the tag byte falls into the bytes of the position, and both images of the small
snapshot are refused. -/
theorem Image.classes_of_misplaced_aged :
    let s := Session.new Snapshot.aged.machine ⟨2017, 4, 1, some "f1"⟩ (.legacy 3)
    let i : Image := ⟨Snapshot.aged.sites[1].image, s.notebook.next⟩
    Session.attach Snapshot.aged.machine { typeKindOffset := some 3 } = .ok s ∧
      (∃ t, i.classes ((Query.view .image i.handle).leaves s) =
        .error (.layoutMismatch "legacy" "mscorlib.dll" 1) t) ∧
      (pullDump .classes .endless s).1.events =
        [.progress "Game", .item (.error (.layoutMismatch "legacy" "Game.dll" 0)),
          .progress "mscorlib", .item (.error (.layoutMismatch "legacy" "mscorlib.dll" 1))] := by
  intro s i
  have hattach : Session.attach Snapshot.aged.machine { typeKindOffset := some 3 } = .ok s :=
    Session.attach_eq_ok.mpr ⟨_, _, by decide +kernel, rfl⟩
  have hversion : Version.parse Snapshot.aged.vmVersion = .ok ⟨2017, 4, 1, some "f1"⟩ := by
    decide +kernel
  obtain ⟨b, hb, hclasses, hdumps, _⟩ := @Image.classes_of_misplaced Snapshot.aged _
    { typeKindOffset := some 3 } _ 3 (Vm.ofSnapshot_machine (Or.inr rfl)) hversion (by decide)
    (by decide) rfl (by decide) (by decide)
  obtain rfl := Except.ok.inj (hattach.symm.trans hb)
  have hfirst : Snapshot.aged.refusal? Snapshot.aged.sites[0] =
      some (.layoutMismatch "legacy" "Game.dll" 0) := by decide +kernel
  have hsecond : Snapshot.aged.refusal? Snapshot.aged.sites[1] =
      some (.layoutMismatch "legacy" "mscorlib.dll" 1) := by decide +kernel
  refine ⟨hattach, ?_, ?_⟩
  · refine (hclasses _ (.view .start .image i.handle) (Arena.belowScratch_of_size (by decide +kernel))
      Snapshot.aged.sites[1] (Snapshot.mem_images.mpr (Or.inl (List.getElem_mem _))) i
      ⟨by decide +kernel, by decide +kernel⟩ rfl).2 _ hsecond
  · rw [hdumps s .start .classes .endless (Arena.belowScratch_of_size (by decide +kernel)),
      if_neg (by decide), Pulled.cut_endless]
    change Snapshot.aged.refusedEvents Snapshot.aged.sites[0] ++
      (Snapshot.aged.refusedEvents Snapshot.aged.sites[1] ++ []) = _
    rw [Snapshot.refusedEvents, Snapshot.refusedEvents, hfirst, hsecond]
    rfl

end VmMetadata
