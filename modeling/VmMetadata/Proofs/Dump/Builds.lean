import VmMetadata.Proofs.Dump.Pull
import VmMetadata.Proofs.Session.Described

/-!
Builds of either kind on one description. A legacy build presents its classes in another way than a
current one, and the session reads them in another way; what is read is the same. Main statement:
sessions on machines that differ in their build alone list the same classes for every assembly, and
give the same dumps.
-/

namespace VmMetadata

open Query (Agree Agrees Runs)

open Session (Together Pairs SameListing)

/-- The same description, reported by another build. -/
def Snapshot.ofBuild (s : Snapshot) (vmVersion : String) : Snapshot :=
  { s with vmVersion }

/-- The classes of all assemblies. -/
def Query.everyClass : Query (List (List Class)) := do
  let assemblies ← (do (← domain).assemblies : Query (List Assembly))
  assemblies.mapM fun a => do (← a.image).classes

/-! ## The same classes -/

namespace Session

variable {s₁ s₂ : Session} {snapshot snapshot' : Snapshot}

/-- Where both layouts fit, the classes of an assembly are the described ones. -/
theorem Fits.classes_agrees (h₁ : s₁.Fits snapshot) (h₂ : s₂.Fits snapshot') (h : s₁.Alike s₂)
    {p : Site} (hp : p ∈ snapshot.sites) (hp' : p ∈ snapshot'.sites) {i : Image}
    (hi : s₁.Shows i) (himage : i.handle = p.image) (hbelow : s₁.vm.arena.BelowScratch) :
    Agrees i.classes s₁ s₂
      (fun cs t => ((∀ c ∈ cs, t.Shows c) ∧ cs.map View.handle = p.classes) ∧
        t.vm.arena = s₁.vm.arena) False :=
  ((Image.classes_agrees h hi hbelow (himage ▸ h₁.lists hp) (himage ▸ h₂.lists hp')).andRuns
    (Image.classes_runs h.left hi)).weaken
    (fun _ _ _ hcs => ⟨hcs.1, hcs.2.2⟩) fun hno => hno.1

/-- Views of known handles belong to what has these handles, one after the other. -/
theorem forall₂_of_handles {α : Type} {vs : List (View e)} {xs : List α} {f : α → Handle}
    (h : vs.map View.handle = xs.map f) :
    List.Forall₂ (fun x v => x ∈ xs ∧ View.handle v = f x) xs vs := by
  have hlength : xs.length = vs.length := by simpa using (congrArg List.length h).symm
  refine List.forall₂_iff_get.mpr ⟨hlength, fun k hk hk' => ⟨List.getElem_mem hk, ?_⟩⟩
  have hhandle := List.getElem_of_eq h (i := k) (by simpa using hk')
  simpa using hhandle

/-- Every assembly has its site, and its image lies there. -/
theorem On.site_of_mem {s : Session} (hs : s.On snapshot) {a : Handle}
    (ha : a ∈ s.vm.assemblies) :
    ∃ p ∈ snapshot.sites, a = p.assembly ∧ s.vm.Tells (.assemblyImage a) p.image ∧
      p.image ≠ .null := by
  rw [hs.assemblies] at ha
  obtain ⟨p, hp, rfl⟩ := List.mem_map.mp ha
  exact ⟨p, hp, rfl, Vm.tells_assemblyImage.mpr (hs.assembly hp), Arena.ne_null_of_get?
    (Arena.image_eq_ok.mp (hs.image (Snapshot.mem_images.mpr (Or.inl hp))))⟩

/-- The image of an assembly is read without a change to the arena. -/
theorem On.assemblyImage_runs {s : Session} (hs : s.On snapshot) {a : Assembly} (ha : s.Shows a)
    {p : Site} (hp : p ∈ snapshot.sites) (hassembly : a.handle = p.assembly) :
    Runs a.image s (fun i t => (t.Shows i ∧ i.handle = p.image) ∧ t.vm.arena = s.vm.arena)
      False := by
  have himage : s.vm.Tells (.assemblyImage a.handle) p.image :=
    hassembly ▸ Vm.tells_assemblyImage.mpr (hs.assembly hp)
  have hne := Arena.ne_null_of_get? (Arena.image_eq_ok.mp
    (hs.image (Snapshot.mem_images.mpr (Or.inl hp))))
  refine ((Assembly.image_agrees (.refl hs.sound) ha).andRuns
    (Assembly.image_runs hs.sound ha)).runs.weaken (fun i t later hi => ?_) fun hno =>
    hne (hno.1 _ himage)
  exact ⟨⟨hi.1.1, hi.1.2.unique (himage.later rfl later.vm)⟩, hi.2.2⟩

/-- The classes of an assembly are read through its image, which leaves the arena alone. -/
theorem Fits.assemblyClasses_agrees (h₁ : s₁.Fits snapshot) (h₂ : s₂.Fits snapshot')
    (hsites : snapshot'.sites = snapshot.sites) (h : s₁.Alike s₂)
    (hbelow : s₁.vm.arena.BelowScratch) {a : Assembly} (ha : s₁.Shows a)
    (hmem : a.handle ∈ s₁.vm.assemblies) :
    Agrees (do (← a.image).classes) s₁ s₂
      (fun cs t => (∀ p ∈ snapshot.sites,
          a.handle = p.assembly → cs.map View.handle = p.classes) ∧
        t.vm.arena = s₁.vm.arena) False := by
  obtain ⟨p, hp, _, himage, hne⟩ := h₁.on.site_of_mem hmem
  refine (((Assembly.image_agrees h ha).andRuns (Assembly.image_runs h.left ha)).weaken
    (fun _ _ _ hi => hi.2) fun hno => hne (hno.1 _ himage)).bind fun i t₁ t₂ on hi => ?_
  have hi' : i.handle = p.image := hi.1.2.unique (himage.later rfl on.left.vm)
  have h₁ := h₁.later on.left on.alike.left
  have h₂ := h₂.later on.right on.alike.right
  refine (h₁.classes_agrees h₂ on.alike hp (hsites ▸ hp) hi.1.1 hi' (hi.2 ▸ hbelow)).weaken
    (fun cs t _ hcs => ⟨fun q hq hassembly => ?_, hcs.2.trans hi.2⟩) id
  -- two sites of one assembly have one image, and so the same classes
  have hsame : q.image = p.image := by
    have htells := Vm.tells_assemblyImage.mpr (h₁.on.assembly hq)
    rw [← hassembly] at htells
    exact htells.unique (himage.later rfl on.left.vm)
  rw [hcs.1.2]
  exact (h₁.lists hp).unique (hsame ▸ h₁.lists hq)

theorem Fits.sameListing (h₁ : s₁.Fits snapshot) (h₂ : s₂.Fits snapshot')
    (hsites : snapshot'.sites = snapshot.sites) : SameListing s₁ s₂ := by
  intro t₁ t₂ i on hi ⟨a, ha, htells⟩ hbelow
  have h₁ := h₁.later on.left on.alike.left
  have h₂ := h₂.later on.right on.alike.right
  obtain ⟨p, hp, rfl, himage, _⟩ := h₁.on.site_of_mem ha
  exact (h₁.classes_agrees h₂ on.alike hp (hsites ▸ hp) hi (htells.unique himage) hbelow).same

end Session

/-- Asking for the assemblies leaves the arena alone. -/
theorem Query.assemblies_runs {s : Session} (hs : s.Sound) :
    Runs (do (← Query.domain).assemblies) s (fun _ t => t.vm.arena = s.vm.arena) True := by
  refine (Query.viewOf_runs hs .domain rfl).bind fun d t later sound hd => ?_
  refine (Runs.rememberAnd (f := .domainAssemblies) sound hd.1.1.2 hd.2 (fun _ _ ht => ht)
    ?_).weaken (fun _ _ _ has => has.2) id
  refine ((Runs.tell sound (c := .domainAssemblies d.handle) rfl).weaken (fun _ _ _ hk => hk)
    fun _ => trivial).bind fun ks u _ sound' hks => ?_
  refine (Agree.viewsAlone (.refl sound') .assembly ks).runs.weaken ?_ fun _ => trivial
  rintro as v later' ⟨⟨hshows, rfl⟩, hvm⟩
  exact ⟨⟨hshows, hks.1.later rfl later'.vm⟩,
    (congrArg Vm.arena hvm).trans (hks.2.arena.trans hd.2)⟩

/-- Where both layouts fit, all classes of all assemblies are the described ones. -/
theorem Query.everyClass_agrees {s₁ s₂ : Session} {snapshot snapshot' : Snapshot}
    (h₁ : s₁.Fits snapshot) (h₂ : s₂.Fits snapshot') (hsites : snapshot'.sites = snapshot.sites)
    (h : s₁.Alike s₂) (hbelow : s₁.vm.arena.BelowScratch) :
    Agrees Query.everyClass s₁ s₂
      (fun css _ => css.map (List.map View.handle) = snapshot.sites.map Site.classes) False := by
  have hnull : Handle.null ∉ s₁.vm.assemblies := by
    rw [h₁.on.assemblies, List.mem_map]
    rintro ⟨p, hp, hnull⟩
    exact Arena.ne_null_of_get? (Arena.assembly_eq_ok.mp (h₁.on.assembly hp)) hnull
  refine (((Query.assemblies_agrees h).andRuns (Query.assemblies_runs h.left)).weaken
    (fun _ _ _ has => has) fun hno => hnull hno.1).bind fun as t₁ t₂ on has => ?_
  obtain ⟨⟨hshown, hhandles⟩, harena⟩ := has
  have h₁ := h₁.later on.left on.alike.left
  have h₂ := h₂.later on.right on.alike.right
  -- the arena stays below scratch memory, as no listing changes it
  have hlisted : ∀ a ∈ as, ∀ u₁ u₂, Together t₁ t₂ u₁ u₂ → u₁.vm.arena = s₁.vm.arena →
      Agrees (do (← a.image).classes) u₁ u₂
        (fun cs t => (∀ p ∈ snapshot.sites,
            a.handle = p.assembly → cs.map View.handle = p.classes) ∧
          t.vm.arena = s₁.vm.arena) False := by
    intro a ha u₁ u₂ on' harena'
    have hmem : a.handle ∈ u₁.vm.assemblies := by
      rw [on'.left.vm.catalog, ← hhandles]
      exact List.mem_map_of_mem ha
    have h₁ := h₁.later on'.left on'.alike.left
    have h₂ := h₂.later on'.right on'.alike.right
    exact (h₁.assemblyClasses_agrees h₂ hsites on'.alike (harena' ▸ hbelow)
      ((hshown a ha).later on'.left) hmem).weaken
        (fun _ _ _ hcs => ⟨hcs.1, hcs.2.trans harena'⟩) id
  refine (Agree.mapMKeeping (R := fun (a : Assembly) (cs : List Class) _ => ∀ p ∈ snapshot.sites,
    a.handle = p.assembly → cs.map View.handle = p.classes) (fun _ _ hr => hr) on.alike harena
    hlisted).weaken (fun css t _ hcss => ?_) id
  rw [h₁.on.assemblies] at hhandles
  -- the assemblies are those of the sites, one at each position
  have hlength : as.length = snapshot.sites.length := by
    have := congrArg List.length hhandles
    simpa using this
  refine List.ext_getElem (by rw [List.length_map, List.length_map, ← hcss.1.length_eq, hlength])
    fun k hk hk' => ?_
  rw [List.length_map] at hk hk'
  have hka : k < as.length := hlength ▸ hk'
  have hassembly : as[k].handle = snapshot.sites[k].assembly := by
    have := List.getElem_of_eq hhandles (i := k) (by simpa using hka)
    simpa using this
  rw [List.getElem_map, List.getElem_map]
  exact hcss.1.get hka hk _ (List.getElem_mem hk') hassembly

/-! ## The same dumps -/

/-- Several dumps, pulled one after the other. -/
def pullDumps (plan : List (DumpKind × Patience)) : StateM Session (List Pulled) :=
  plan.mapM fun d => pullDump d.1 d.2

theorem pullDumps_pulls {b₁ b₂ : Session} (hlisting : SameListing b₁ b₂) :
    ∀ (plan : List (DumpKind × Patience)) {s₁ s₂ : Session}, Pairs b₁ b₂ s₁ s₂ →
      Pulls (pullDumps plan) s₁ s₂ (fun _ _ => True)
  | [], _, _, hb => .pure hb.stay trivial
  | d :: plan, s₁, s₂, hb => by
      rw [pullDumps, List.mapM_cons]
      refine (pullDump_pulls hlisting d.1 d.2 hb).bind fun _ t₁ t₂ hpairs _ => ?_
      exact (pullDumps_pulls hlisting plan (hb.trans hpairs)).bind
        fun _ _ _ hpairs' _ => .pure hpairs'.stay trivial

theorem Version.isBelow_imageAccessorSince {v : Version} (h : v.isBelow .oldestSupported = true) :
    v.isBelow .imageAccessorSince = true := by
  simp only [isBelow, oldestSupported, imageAccessorSince, Bool.or_eq_true, Bool.and_eq_true,
    decide_eq_true_eq, beq_iff_eq, UInt32.lt_iff_toNat_lt, ← UInt32.toNat_inj] at h ⊢
  simp only [UInt32.reduceToNat] at h ⊢
  omega

/-- Machines of the same description are alike, whatever their builds are. -/
theorem Snapshot.machine_ofBuild (s : Snapshot) (old new : String) :
    (s.ofBuild old).machine.Alike (s.ofBuild new).machine := rfl

/-- Sessions that begin on alike machines differ in nothing that counts. -/
theorem Session.similar_new {v w : Vm} (h : v.Alike w) (version version' : Version)
    (layout layout' : ClassLayout) :
    (Session.new v version layout).Similar (.new w version' layout') :=
  ⟨h, rfl, fun _ => rfl, fun _ _ _ => rfl⟩

theorem Session.alike_of_attach {snapshot : Snapshot} {old new : String} {s₁ s₂ : Session}
    (hsize : snapshot.pointerSize = 4 ∨ snapshot.pointerSize = 8)
    (h₁ : Session.attach (snapshot.ofBuild old).machine = .ok s₁)
    (h₂ : Session.attach (snapshot.ofBuild new).machine = .ok s₂) : s₁.Alike s₂ := by
  have sound₁ := (Session.sound_of_attach
    (Vm.ofSnapshot_machine (s := snapshot.ofBuild old) hsize) h₁).1
  have sound₂ := (Session.sound_of_attach
    (Vm.ofSnapshot_machine (s := snapshot.ofBuild new) hsize) h₂).1
  obtain ⟨_, _, _, rfl⟩ := Session.attach_eq_ok.mp h₁
  obtain ⟨_, _, _, rfl⟩ := Session.attach_eq_ok.mp h₂
  exact ⟨Session.similar_new (snapshot.machine_ofBuild old new) .., sound₁, sound₂⟩

/-- Let a snapshot be reported by a legacy build and by a current one. Sessions on the two machines
list the same classes for the assemblies, which are the described ones in their order; and whatever
dumps are pulled one after the other, and however far, both sessions give the same notices, texts
and errors. -/
theorem pullDumps_eq_of_builds (snapshot : Snapshot) {old new : String} {v w : Version}
    (hsize : snapshot.pointerSize = 4 ∨ snapshot.pointerSize = 8)
    (hcount : snapshot.classCount < 0x1_0000_0000) (hold : Version.parse old = .ok v)
    (hsupported : v.isBelow .oldestSupported = false)
    (hlegacy : v.isBelow .imageAccessorSince = true) (hnew : Version.parse new = .ok w)
    (hcurrent : w.isBelow .imageAccessorSince = false) :
    ∃ vm₁ vm₂ s₁ s₂, Vm.ofSnapshot (snapshot.ofBuild old) = .ok vm₁ ∧
      Vm.ofSnapshot (snapshot.ofBuild new) = .ok vm₂ ∧
      Session.attach vm₁ = .ok s₁ ∧ Session.attach vm₂ = .ok s₂ ∧
      (s₁.vm.arena.BelowScratch → ∃ css t₁ t₂, Query.everyClass s₁ = .ok css t₁ ∧
        Query.everyClass s₂ = .ok css t₂ ∧
        css.map (List.map View.handle) = snapshot.sites.map Site.classes ∧
        ∀ p ∈ snapshot.sites, t₁.Presents p.described p.classes) ∧
      ∀ plan, (pullDumps plan s₁).2.vm.arena.BelowScratch →
        (pullDumps plan s₁).1 = (pullDumps plan s₂).1 := by
  have hvm₁ := Vm.ofSnapshot_machine (s := snapshot.ofBuild old) hsize
  have hvm₂ := Vm.ofSnapshot_machine (s := snapshot.ofBuild new) hsize
  have hsupported' : w.isBelow .oldestSupported = false := by
    cases hw : w.isBelow .oldestSupported with
    | false => rfl
    | true => exact absurd ((Version.isBelow_imageAccessorSince hw).symm.trans hcurrent) (by decide)
  have hattach₁ : Session.attach (snapshot.ofBuild old).machine =
      .ok (.new (snapshot.ofBuild old).machine v (.legacy (typeKindOffset snapshot.pointerSize))) :=
    Session.attach_eq_ok.mpr ⟨_, _, (Config.resolveLayout_default hsize).mpr
      ⟨hold, hsupported, (if_pos hlegacy).symm⟩, rfl⟩
  have hattach₂ : Session.attach (snapshot.ofBuild new).machine =
      .ok (.new (snapshot.ofBuild new).machine w .current) :=
    Session.attach_eq_ok.mpr ⟨_, _, (Config.resolveLayout_default hsize).mpr
      ⟨hnew, hsupported', (if_neg (by simp [hcurrent])).symm⟩, rfl⟩
  have halike := Session.alike_of_attach hsize hattach₁ hattach₂
  have hfits₁ := Session.Fits.of_attach hvm₁ hattach₁ hcount
  have hfits₂ := Session.Fits.of_attach hvm₂ hattach₂ hcount
  refine ⟨_, _, _, _, hvm₁, hvm₂, hattach₁, hattach₂, fun hbelow => ?_, fun plan hbelow => ?_⟩
  · cases Query.everyClass_agrees hfits₁ hfits₂ rfl halike hbelow with
    | @ok css t₁ t₂ left right on hcss =>
        exact ⟨css, t₁, t₂, left, right, hcss, fun p hp =>
          (hfits₁.later on.left on.alike.left).on.presents (Snapshot.mem_images.mpr (Or.inl hp))⟩
    | error _ _ _ impossible => exact impossible.elim
  · exact ((pullDumps_pulls (hfits₁.sameListing hfits₂ rfl) plan halike.pairs).same hbelow).symm

/-- The small snapshot gives the same dumps under a build of either kind. -/
theorem pullDumps_eq_of_builds_small :
    let plan : List (DumpKind × Patience) := [(.methods, .endless), (.classes, ⟨some 2, true⟩)]
    ∃ s₁ s₂, Session.attach (Snapshot.small.ofBuild "2017.4.1f1").machine = .ok s₁ ∧
      Session.attach (Snapshot.small.ofBuild "2020.3.1f1").machine = .ok s₂ ∧
      (pullDumps plan s₁).1 = (pullDumps plan s₂).1 := by
  intro plan
  have hold : Version.parse "2017.4.1f1" = .ok ⟨2017, 4, 1, some "f1"⟩ := by decide +kernel
  have hnew : Version.parse "2020.3.1f1" = .ok ⟨2020, 3, 1, some "f1"⟩ := by decide +kernel
  obtain ⟨vm₁, vm₂, s₁, s₂, hvm₁, hvm₂, hattach₁, hattach₂, _, hdumps⟩ :=
    pullDumps_eq_of_builds Snapshot.small (Or.inr rfl) (by decide) hold (by decide) (by decide)
      hnew (by decide)
  have hmachine₁ := Vm.ofSnapshot_machine (s := Snapshot.small.ofBuild "2017.4.1f1") (Or.inr rfl)
  have hmachine₂ := Vm.ofSnapshot_machine (s := Snapshot.small.ofBuild "2020.3.1f1") (Or.inr rfl)
  obtain rfl := Except.ok.inj (hmachine₁.symm.trans hvm₁)
  obtain rfl := Except.ok.inj (hmachine₂.symm.trans hvm₂)
  refine ⟨s₁, s₂, hattach₁, hattach₂, hdumps plan (Arena.belowScratch_of_size ?_)⟩
  obtain ⟨version, layout, hlayout, rfl⟩ := Session.attach_eq_ok.mp hattach₁
  have hlayout' : (.ok (version, layout) : Except Error (Version × ClassLayout)) =
      .ok (⟨2017, 4, 1, some "f1"⟩, .legacy 10) := hlayout.symm.trans (by decide +kernel)
  obtain ⟨rfl, rfl⟩ := Prod.mk.inj (Except.ok.inj hlayout')
  decide +kernel

end VmMetadata
