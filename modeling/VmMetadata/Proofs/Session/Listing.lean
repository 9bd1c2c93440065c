import VmMetadata.Proofs.Session.Origin

/-!
Which classes are listed for an image of a snapshot. A layout that does not fit the machine is
noticed only by an index without a class. Main statement: the listing of an image fails just where
the layout does not cover it, and else it is the list of the image's own classes just where the
layout meets them; a layout that covers an image without meeting its classes lists classes of
other images.
-/

namespace VmMetadata

open Query (Agree Agrees Runs)

/-- Windows of one length in a list without repetitions are the same just where they begin at one
position, or are empty. -/
theorem window_eq_iff {before xs after : List α} (hnodup : (before ++ xs ++ after).Nodup) {w : Nat}
    (hw : w + xs.length ≤ (before ++ xs ++ after).length) :
    ((before ++ xs ++ after).drop w).take xs.length = xs ↔ xs = [] ∨ w = before.length := by
  constructor
  · intro heq
    cases xs with
    | nil => exact Or.inl rfl
    | cons x xs =>
        refine Or.inr ?_
        have hw' : w < (before ++ x :: xs ++ after).length := by
          rw [List.length_cons] at hw
          omega
        have hfirst : (before ++ x :: xs ++ after)[w] = x := by
          rw [List.drop_eq_getElem_cons hw', List.length_cons, List.take_succ_cons] at heq
          exact (List.cons.inj heq).1
        have hb : before.length < (before ++ x :: xs ++ after).length := by simp
        have hplace : (before ++ x :: xs ++ after)[before.length] = x := by simp
        exact (hnodup.getElem_inj_iff).mp (hfirst.trans hplace.symm)
  · rintro (rfl | rfl)
    · simp
    · simp

namespace Snapshot

/-- Where the machine says that the window of the image begins. -/
def windowStart (s : Snapshot) (p : Site) : Nat :=
  if isLegacyBuild s.vmVersion then word32 p.start else 0

/-- The classes that the layout finds at the indices of the image. -/
def found (s : Snapshot) (p : Site) : ClassLayout → List Handle
  | .current => p.classes.take (word32 p.described.length)
  | .legacy _ =>
      ((s.sites.flatMap Site.classes).drop (s.windowStart p)).take (word32 p.described.length)

/-- The layout finds a class at every index of the image. -/
def Covers (s : Snapshot) (p : Site) : ClassLayout → Prop
  | .current => isLegacyBuild s.vmVersion = false ∨ word32 p.described.length = 0
  | .legacy offset => s.windowStart p + word32 p.described.length < 0x1_0000_0000 ∧
      (word32 p.described.length = 0 ∨ offset = typeKindOffset s.pointerSize ∧
        s.windowStart p + word32 p.described.length ≤ s.classCount)

/-- The layout looks for the classes where they are: all are counted, and the window of the image
begins at the first of them. A core library that is made up has no window. -/
def Meets (s : Snapshot) (p : Site) : ClassLayout → Prop
  | .current => p.described.length < 0x1_0000_0000
  | .legacy _ => p.described.length < 0x1_0000_0000 ∧
      (p.described = [] ∨ p ∈ s.sites ∧ s.windowStart p = p.start)

variable {s : Snapshot} {p : Site}

theorem length_allClasses (s : Snapshot) :
    (s.sites.flatMap Site.classes).length = s.classCount :=
  length_flatMap_classes 1 0 s.assemblies

theorem start_add_length_le (hp : p ∈ s.sites) :
    p.start + p.described.length ≤ s.classCount := by
  obtain ⟨before, after, heq, hstart⟩ := sitesFrom_window hp
  have hlength := s.length_allClasses
  unfold sites at hlength
  rw [heq, List.length_append, List.length_append, Site.length_classes] at hlength
  omega

theorem length_found {layout : ClassLayout} (h : s.Covers p layout) :
    (s.found p layout).length = word32 p.described.length := by
  cases layout with
  | current =>
      rw [found, List.length_take, Site.length_classes]
      exact Nat.min_eq_left (word32_le _)
  | legacy offset =>
      rw [found, List.length_take, List.length_drop, length_allClasses]
      rcases h.2 with hzero | ⟨_, hfits⟩
      · rw [hzero, Nat.zero_min]
      · omega

/-- In the table of all classes, only the window at its own place holds the classes of an image. -/
theorem window_sites_iff (hp : p ∈ s.sites) {w : Nat}
    (hw : w + p.described.length ≤ s.classCount ∨ p.described.length = 0) :
    ((s.sites.flatMap Site.classes).drop w).take p.described.length = p.classes ↔
      p.described = [] ∨ w = p.start := by
  obtain ⟨before, after, heq, hstart⟩ := sitesFrom_window hp
  have hsites : s.sites.flatMap Site.classes = before ++ p.classes ++ after := heq
  have hnodup : (before ++ p.classes ++ after).Nodup :=
    hsites ▸ nodup_classes_sitesFrom 1 0 s.assemblies
  rcases Nat.eq_zero_or_pos p.described.length with hzero | hpos
  · have hnil := List.length_eq_zero_iff.mp hzero
    have hclasses : p.classes = [] := List.length_eq_zero_iff.mp (by simp [hzero])
    simp [hnil, hclasses]
  · have hne : p.classes ≠ [] := fun h => by
      have := congrArg List.length h
      simp only [Site.length_classes, List.length_nil] at this
      omega
    have hne' : p.described ≠ [] := List.length_pos_iff.mp hpos
    have hlength : w + p.classes.length ≤ (before ++ p.classes ++ after).length := by
      rw [← hsites, length_allClasses, Site.length_classes]
      exact hw.resolve_right (by omega)
    have hiff := window_eq_iff hnodup hlength
    rw [Site.length_classes, ← hsites] at hiff
    rw [hiff, hstart, Nat.zero_add]
    simp [hne, hne']

/-- No window in the table of all classes holds the classes of a core library that is made up. -/
theorem window_madeUp_ne (hnone : ∀ q ∈ s.sites, q.name ≠ corlibImage) (w n : Nat) :
    ((s.sites.flatMap Site.classes).drop w).take n ≠ s.madeUpSite.classes := by
  intro heq
  have hnodup := s.nodup_classes
  have himages : s.images = s.sites ++ [s.madeUpSite] :=
    if_neg fun ⟨q, hq, hname⟩ => hnone q hq hname
  rw [himages, List.flatMap_append, List.flatMap_singleton, List.nodup_append] at hnodup
  obtain ⟨h, hh⟩ := List.exists_mem_of_length_pos
    (l := s.madeUpSite.classes) (by
      rw [Site.length_classes]
      exact (by decide : 0 < builtinCorlib.length))
  have hall : h ∈ s.sites.flatMap Site.classes :=
    List.mem_of_mem_drop (List.mem_of_mem_take (heq ▸ hh))
  exact hnodup.2.2 h hall h hh rfl

/-- What is found is right just where the layout meets the classes. -/
theorem found_eq_iff {layout : ClassLayout} (hp : p ∈ s.images) (h : s.Covers p layout) :
    s.found p layout = p.classes ↔ s.Meets p layout := by
  have hlength := length_found h
  cases layout with
  | current =>
      rw [Meets, ← word32_eq_self_iff, ← hlength]
      refine ⟨fun heq => by rw [heq, Site.length_classes], fun heq => ?_⟩
      refine (List.take_sublist _ _).eq_of_length ?_
      rw [Site.length_classes]
      exact heq
  | legacy offset =>
      by_cases hall : word32 p.described.length = p.described.length
      · rcases mem_images.mp hp with hsite | ⟨hnone, rfl⟩
        · have hw : s.windowStart p + p.described.length ≤ s.classCount ∨
              p.described.length = 0 := by
            rcases h.2 with hzero | hfits
            · exact Or.inr (hall ▸ hzero)
            · exact Or.inl (hall ▸ hfits.2)
          rw [found, Meets, hall, window_sites_iff hsite hw]
          rw [and_iff_right (word32_eq_self_iff.mp hall), and_iff_right hsite]
        · refine iff_of_false (window_madeUp_ne hnone _ _) fun hmeets => ?_
          rcases hmeets.2 with hnil | ⟨hsite, _⟩
          · cases hnil
          · exact hnone _ hsite rfl
      · refine iff_of_false (fun heq => hall ?_) fun hmeets =>
          hall (word32_eq_self_iff.mpr hmeets.1)
        rw [← hlength, heq, Site.length_classes]

end Snapshot

/-! ## Descriptors -/

/-- The pointers of a machine are short enough for the place of the tag byte to be a word. -/
theorem ClassLayout.detect_eq {pointerSize : Nat} (hsize : pointerSize = 4 ∨ pointerSize = 8)
    (version : Version) : detect version pointerSize =
      if version.isBelow .oldestSupported then .error (.unsupportedLayout version.text)
      else if version.isBelow .imageAccessorSince then
        .ok (.legacy (VmMetadata.typeKindOffset pointerSize))
      else .ok .current := by
  have hfits : VmMetadata.typeKindOffset pointerSize < 0x1_0000_0000_0000_0000 := by
    rcases hsize with rfl | rfl <;> decide
  unfold detect checked64
  rw [if_pos hfits]
  rfl

theorem ClassLayout.detect_legacy {version : Version} {pointerSize offset : Nat}
    (hsize : pointerSize = 4 ∨ pointerSize = 8)
    (h : detect version pointerSize = .ok (legacy offset)) :
    offset = VmMetadata.typeKindOffset pointerSize := by
  rw [detect_eq hsize] at h
  split at h
  · cases h
  · split at h
    · cases h
      rfl
    · cases h

/-- The legacy layout looks for the tag byte where the configuration says, else where it is. -/
theorem Config.resolveLayout_legacy {config : Config} {reported : String} {pointerSize : Nat}
    (hsize : pointerSize = 4 ∨ pointerSize = 8) {version : Version} {offset : Nat}
    (h : config.resolveLayout reported pointerSize = .ok (version, .legacy offset)) :
    offset = config.typeKindOffset.getD (VmMetadata.typeKindOffset pointerSize) := by
  unfold resolveLayout at h
  cases hversion : Version.parse (config.vmVersion.getD reported) with
  | error e =>
      rw [hversion] at h
      cases h
  | ok v =>
      rw [hversion] at h
      change (ClassLayout.detect v pointerSize >>= _) = _ at h
      cases hdetect : ClassLayout.detect v pointerSize with
      | error e =>
          rw [hdetect] at h
          cases h
      | ok layout =>
          rw [hdetect] at h
          cases layout with
          | current => cases h
          | legacy offset' =>
              cases h
              rw [ClassLayout.detect_legacy hsize hdetect]

/-- The layout that a build calls for, without overrides. -/
theorem Config.resolveLayout_default {reported : String} {pointerSize : Nat}
    (hsize : pointerSize = 4 ∨ pointerSize = 8) {version : Version} {layout : ClassLayout} :
    ({} : Config).resolveLayout reported pointerSize = .ok (version, layout) ↔
      Version.parse reported = .ok version ∧ version.isBelow .oldestSupported = false ∧
        layout = if version.isBelow .imageAccessorSince then
          .legacy (VmMetadata.typeKindOffset pointerSize) else .current := by
  unfold resolveLayout
  change (Version.parse reported >>= _) = _ ↔ _
  cases hversion : Version.parse reported with
  | error e => exact ⟨fun h => (by cases h), fun h => (by cases h.1)⟩
  | ok v =>
      change (ClassLayout.detect v pointerSize >>= _) = _ ↔ _
      rw [ClassLayout.detect_eq hsize]
      cases hold : v.isBelow .oldestSupported with
      | true =>
          rw [if_pos rfl]
          refine ⟨fun h => (by cases h), fun h => ?_⟩
          cases h.1
          exact absurd (hold.symm.trans h.2.1) (by decide)
      | false =>
          rw [if_neg Bool.false_ne_true]
          cases hrecent : v.isBelow .imageAccessorSince with
          | true =>
              rw [if_pos rfl]
              refine ⟨fun h => ?_, fun h => ?_⟩
              · cases h
                exact ⟨rfl, hold, (if_pos hrecent).symm⟩
              · cases h.1
                rw [h.2.2, if_pos hrecent]
                rfl
          | false =>
              rw [if_neg Bool.false_ne_true]
              refine ⟨fun h => ?_, fun h => ?_⟩
              · cases h
                exact ⟨rfl, hold, (if_neg (by simp [hrecent])).symm⟩
              · cases h.1
                rw [h.2.2, if_neg (by simp [hrecent])]
                rfl

/-- A session has room for a descriptor, unless its offset leaves the words of 64 bits. -/
theorem Session.hasRoom_of_attach {snapshot : Snapshot} {vm : Vm} {config : Config}
    {s : Session} (hvm : Vm.ofSnapshot snapshot = .ok vm)
    (hattach : Session.attach vm config = .ok s)
    (hoffset : ∀ offset, config.typeKindOffset = some offset →
      offset + snapshot.pointerSize < 0x1_0000_0000_0000_0000) : s.HasRoom := by
  intro offset h
  obtain ⟨hsize, _⟩ := Vm.ofSnapshot_eq_ok hvm
  have hpointer := (Session.On.of_attach hvm hattach).pointerSize
  obtain ⟨_, hsame, version, hresolve⟩ := Session.sound_of_attach hvm hattach
  rw [← hsame, hpointer, h] at hresolve
  rw [h, hpointer]
  refine ClassLayout.exists_descriptorSize hsize ?_
  rw [Config.resolveLayout_legacy hsize hresolve]
  cases hconfig : config.typeKindOffset with
  | none => rcases hsize with hsize | hsize <;> rw [hsize] <;> decide
  | some offset => exact hoffset offset hconfig

/-! ## The listing -/

namespace Session.On

variable {s : Session} {snapshot : Snapshot} {p : Site} (hs : s.On snapshot)
include hs

theorem startOf : s.vm.startOf p.node = snapshot.windowStart p := by
  unfold Vm.startOf Snapshot.windowStart
  rw [hs.isLegacy]
  rfl

/-- The layout finds a list for every image that it covers. -/
theorem lists (hroom : s.HasRoom) (hp : p ∈ snapshot.images) (h : snapshot.Covers p s.layout) :
    s.Lists p.image (snapshot.found p s.layout) p.node where
  room := hroom
  image := hs.image hp
  length := by rw [Snapshot.length_found h, Site.size_classes_node]
  fits := by
    unfold Session.WindowFits
    cases hlayout : s.layout with
    | current => trivial
    | legacy offset =>
        rw [hlayout] at h
        rw [hs.startOf, Site.size_classes_node]
        exact h.1
  found := fun k hk => by
    have hcount : k < word32 p.described.length := Snapshot.length_found h ▸ hk
    have hget := List.getElem?_eq_getElem hk
    generalize (snapshot.found p s.layout)[k] = c at hget ⊢
    unfold Session.FindsClass
    cases hlayout : s.layout with
    | current =>
        rw [hlayout] at h hget
        rw [Snapshot.found, List.getElem?_take_of_lt hcount] at hget
        refine ⟨hs.isLegacy.trans (h.resolve_right (by omega)), ?_⟩
        rw [Site.node, List.getElem?_toArray, hget]
    | legacy offset =>
        rw [hlayout] at h hget
        rw [Snapshot.found, List.getElem?_take_of_lt hcount, List.getElem?_drop] at hget
        refine ⟨hs.pointerSize ▸ (h.2.resolve_left (by omega)).1, ?_⟩
        rw [hs.globalClasses, hs.startOf, List.getElem?_toArray, hget]

/-- It finds no list for any other image. -/
theorem covers (hp : p ∈ snapshot.images) {ks : List Handle} {n : ImageNode}
    (h : s.Lists p.image ks n) : snapshot.Covers p s.layout := by
  cases h.image.symm.trans (hs.image hp)
  have hlength := h.length
  have hfits := h.fits
  have hfound := h.found
  rw [Site.size_classes_node] at hlength
  unfold Session.WindowFits at hfits
  unfold Session.FindsClass at hfound
  cases hlayout : s.layout with
  | current =>
      simp only [hlayout] at hfound
      rcases Nat.eq_zero_or_pos ks.length with hzero | hpos
      · exact Or.inr (hlength ▸ hzero)
      · exact Or.inl (hs.isLegacy.symm.trans (hfound 0 hpos).1)
  | legacy offset =>
      simp only [hlayout, hs.startOf, Site.size_classes_node] at hfound hfits
      refine ⟨hfits, ?_⟩
      rcases Nat.eq_zero_or_pos ks.length with hzero | hpos
      · exact Or.inl (hlength ▸ hzero)
      · obtain ⟨hoffset, hlast⟩ := hfound (ks.length - 1) (by omega)
        refine Or.inr ⟨hs.pointerSize ▸ hoffset, ?_⟩
        rw [hs.globalClasses, List.getElem?_toArray] at hlast
        have hlt := (List.getElem?_eq_some_iff.mp hlast).1
        rw [Snapshot.length_allClasses] at hlt
        omega

end Session.On

/-! ## The layout of the build -/

namespace Snapshot

/-- The layout is the one that the build calls for. -/
def Suits (s : Snapshot) : ClassLayout → Prop
  | .current => isLegacyBuild s.vmVersion = false
  | .legacy offset => isLegacyBuild s.vmVersion = true ∧ offset = typeKindOffset s.pointerSize

variable {s : Snapshot} {p : Site} {layout : ClassLayout}

theorem Suits.covers (h : s.Suits layout) (hcount : s.classCount < 0x1_0000_0000)
    (hp : p ∈ s.sites) : s.Covers p layout := by
  cases layout with
  | current => exact Or.inl h
  | legacy offset =>
      have hend := start_add_length_le hp
      have hstart : s.windowStart p = p.start := by
        unfold windowStart
        rw [if_pos h.1, word32_eq_self_iff]
        omega
      have hle := word32_le p.described.length
      refine ⟨by omega, Or.inr ⟨h.2, by omega⟩⟩

theorem Suits.meets (h : s.Suits layout) (hcount : s.classCount < 0x1_0000_0000)
    (hp : p ∈ s.sites) : s.Meets p layout := by
  have hend := start_add_length_le hp
  cases layout with
  | current => exact (by omega : p.described.length < 0x1_0000_0000)
  | legacy offset =>
      refine ⟨by omega, Or.inr ⟨hp, ?_⟩⟩
      unfold windowStart
      rw [if_pos h.1, word32_eq_self_iff]
      omega

/-- The layout that suits a legacy build has room for a descriptor. -/
theorem Suits.exists_descriptorSize {offset : Nat} (h : s.Suits (.legacy offset))
    (hsize : s.pointerSize = 4 ∨ s.pointerSize = 8) :
    ∃ size, (ClassLayout.legacy offset).descriptorSize s.pointerSize = .ok size := by
  refine ClassLayout.exists_descriptorSize hsize ?_
  rw [h.2]
  rcases hsize with hsize | hsize <;> rw [hsize] <;> decide

/-- Without overrides a session has the layout that the build calls for. -/
theorem suits_of_attach {vm : Vm} {session : Session} (hvm : Vm.ofSnapshot s = .ok vm)
    (hattach : Session.attach vm = .ok session) : s.Suits session.layout := by
  have hon := Session.On.of_attach hvm hattach
  obtain ⟨_, rfl, version, hresolve⟩ := Session.sound_of_attach hvm hattach
  obtain ⟨known, hcatalog⟩ := hon.catalog
  rw [hcatalog] at hresolve
  obtain ⟨hversion, _, hlayout⟩ :=
    (Config.resolveLayout_default (Vm.ofSnapshot_eq_ok hvm).1).mp hresolve
  have hlegacy : isLegacyBuild s.vmVersion = version.isBelow .imageAccessorSince := by
    unfold isLegacyBuild
    rw [show Version.parse s.vmVersion = .ok version from hversion]
  cases hrecent : version.isBelow .imageAccessorSince with
  | true =>
      rw [hlayout, if_pos hrecent]
      exact ⟨hlegacy.trans hrecent, rfl⟩
  | false =>
      rw [hlayout, if_neg (by simp [hrecent])]
      exact hlegacy.trans hrecent

end Snapshot

/-- The session works on a machine of the snapshot, in the layout that the build calls for, and the
classes are few enough to be counted. -/
structure Session.Fits (s : Session) (snapshot : Snapshot) : Prop where
  on : s.On snapshot
  suits : snapshot.Suits s.layout
  pointerSize : snapshot.pointerSize = 4 ∨ snapshot.pointerSize = 8
  count : snapshot.classCount < 0x1_0000_0000

namespace Session.Fits

variable {s t : Session} {snapshot : Snapshot}

theorem of_attach {vm : Vm} (hvm : Vm.ofSnapshot snapshot = .ok vm)
    (hattach : Session.attach vm = .ok s) (hcount : snapshot.classCount < 0x1_0000_0000) :
    s.Fits snapshot where
  on := .of_attach hvm hattach
  suits := Snapshot.suits_of_attach hvm hattach
  pointerSize := (Vm.ofSnapshot_eq_ok hvm).1
  count := hcount

theorem later (h : s.Fits snapshot) (hst : s.Later t) (ht : t.Sound) : t.Fits snapshot where
  on := h.on.later hst ht
  suits := hst.layout ▸ h.suits
  pointerSize := h.pointerSize
  count := h.count

theorem hasRoom (h : s.Fits snapshot) : s.HasRoom := by
  intro offset hlayout
  have hsuits := h.suits
  rw [hlayout] at hsuits ⊢
  rw [h.on.pointerSize]
  exact hsuits.exists_descriptorSize h.pointerSize

/-- Every assembly has its classes listed. -/
theorem lists (h : s.Fits snapshot) {p : Site} (hp : p ∈ snapshot.sites) :
    s.Lists p.image p.classes p.node := by
  have hmem := Snapshot.mem_images.mpr (Or.inl hp)
  have hcovers := h.suits.covers h.count hp
  rw [← (Snapshot.found_eq_iff hmem hcovers).mpr (h.suits.meets h.count hp)]
  exact h.on.lists h.hasRoom hmem hcovers

end Session.Fits

/-! ## The listing of an image -/

/-- What `classes` yields for an image of the snapshot, whatever was done in the session before.
Where the layout does not cover the image it fails. Else it yields as many classes as the machine
counts, and these are the classes of the image in their order, each of which names the image as
its own, just where the layout meets them. A descriptor of any size is taken to find its memory. -/
theorem Image.classes_eq_iff {snapshot : Snapshot} {vm : Vm} {config : Config} {s t : Session}
    (hvm : Vm.ofSnapshot snapshot = .ok vm) (hattach : Session.attach vm config = .ok s)
    (hoffset : ∀ offset, config.typeKindOffset = some offset →
      offset + snapshot.pointerSize < 0x1_0000_0000_0000_0000)
    (hreach : s.Reaches t) (hbelow : t.vm.arena.BelowScratch) {p : Site}
    (hp : p ∈ snapshot.images) {i : Image} (hi : t.Shows i) (himage : i.handle = p.image) :
    (¬snapshot.Covers p s.layout → ∃ e u, i.classes t = .error e u) ∧
    (snapshot.Covers p s.layout → ∃ cs u, i.classes t = .ok cs u ∧
      (cs.map View.handle = p.classes ↔ snapshot.Meets p s.layout) ∧
      (snapshot.Meets p s.layout →
        ∀ c ∈ cs, ∃ j v, c.image u = .ok j v ∧ j.handle = i.handle)) := by
  have hon := Session.On.of_attach hvm hattach
  have hlater := (hreach.sound hon.sound).1
  have hon := hon.reaches hreach
  have hroom := (Session.hasRoom_of_attach hvm hattach hoffset).later hlater
  rw [← hlater.layout]
  refine ⟨fun hcovers => ?_, fun hcovers => ?_⟩
  · cases Image.classes_runs hon.sound hi with
    | error run _ _ _ => exact ⟨_, _, run⟩
    | ok run later sound post =>
        obtain ⟨n, hn⟩ := post.1.2 (post.2 ▸ hbelow)
        rw [himage] at hn
        exact absurd (later.layout ▸ (hon.later later sound).covers hp hn) hcovers
  · have hlists := hon.lists hroom hp hcovers
    rw [← himage] at hlists
    cases Image.classes_agrees_listed (.refl hon.sound) hi hbelow hlists hlists with
    | error _ _ _ impossible => exact impossible.elim
    | @ok cs u _ run _ on post =>
        refine ⟨cs, u, run, ?_, fun hmeets c hc => ?_⟩
        · rw [post.2]
          exact Snapshot.found_eq_iff hp hcovers
        · have hmem : c.handle ∈ p.classes := by
            rw [← (Snapshot.found_eq_iff hp hcovers).mpr hmeets, ← post.2]
            exact List.mem_map_of_mem hc
          have htells := (hon.later on.left on.alike.left).classImage hp hmem
          cases Class.image_agrees (.refl on.alike.left) (post.1 c hc) with
          | ok run _ on' hj =>
              refine ⟨_, _, run, ?_⟩
              rw [himage]
              exact hj.2.unique (htells.later rfl on'.left.vm)
          | error _ _ _ hnull =>
              exact absurd (hnull _ htells) (Arena.ne_null_of_get? (Arena.image_eq_ok.mp
                (hon.image hp)))

/-- With a build in the configuration that calls for the other layout, the core library of the
small snapshot is listed with the class of the image before it, and no error. -/
theorem Image.classes_eq_iff_small :
    let s := Session.new Snapshot.small.machine ⟨2017, 4, 1, some "f1"⟩ (.legacy 10)
    let t := Query.corlib.leaves s
    let i : Image := ⟨Snapshot.small.corlibSite.image, 1⟩
    Session.attach Snapshot.small.machine { vmVersion := some "2017.4.1f1" } = .ok s ∧
      ∃ cs u, i.classes t = .ok cs u ∧ cs.map View.handle ≠ Snapshot.small.corlibSite.classes := by
  intro s t i
  have hvm : Vm.ofSnapshot Snapshot.small = .ok Snapshot.small.machine :=
    Vm.ofSnapshot_machine (Or.inr rfl)
  have hattach : Session.attach Snapshot.small.machine { vmVersion := some "2017.4.1f1" } =
      .ok s := Session.attach_eq_ok.mpr ⟨_, _, by decide +kernel, rfl⟩
  have hshows : t.Shows i := ⟨by decide +kernel, by decide +kernel⟩
  have hlisting := Image.classes_eq_iff hvm hattach (by simp)
    (.query .start .corlib) (Arena.belowScratch_of_size (by decide +kernel))
    Snapshot.small.corlibSite_mem hshows rfl
  obtain ⟨cs, u, run, hiff, _⟩ := hlisting.2
    ⟨by decide +kernel, Or.inr ⟨by decide +kernel, by decide +kernel⟩⟩
  refine ⟨hattach, cs, u, run, fun heq => ?_⟩
  rcases (hiff.mp heq).2 with hnil | ⟨_, hstart⟩
  · exact absurd hnil (by decide +kernel)
  · exact absurd hstart (by decide +kernel)

end VmMetadata
