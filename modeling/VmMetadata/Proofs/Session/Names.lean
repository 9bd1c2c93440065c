import VmMetadata.Proofs.Session.Lookups

/-!
What a session says by enumeration, and what it says by name. Both follow from the description: the
enumerations of assemblies, classes and methods, the getters of their names, and the look-ups by
these names. Main statement: looking up by name agrees with enumerating, whatever was done in the
session before, but for the classes of a core library that is made up on a legacy build.
-/

namespace VmMetadata

open Query (Runs)

/-- The query, made in the session, yields something of which `P` holds. -/
def Session.Obtains (t : Session) (x : Query α) (P : α → Prop) : Prop :=
  ∃ a u, x t = .ok a u ∧ P a

theorem Query.Runs.obtains {t : Session} {x : Query α} {Q : α → Session → Prop} {P : α → Prop}
    (h : Runs x t Q False) (hP : ∀ a u, Q a u → P a) : t.Obtains x P := by
  obtain ⟨a, u, run, -, -, ha⟩ := h.exists_ok
  exact ⟨a, u, run, hP a u ha⟩

theorem Session.Answers.obtains {t : Session} (ht : t.Sound) {x : Query α} {P : α → Prop}
    (h : t.Answers x fun a _ => P a) : t.Obtains x P :=
  (h t (.refl t) ht).obtains fun _ _ ha => ha

namespace Snapshot

/-- The layout lists the image's own classes for it. -/
def ListsOwn (s : Snapshot) (p : Site) (layout : ClassLayout) : Prop :=
  s.listing p layout = .ok p.classes ∧ s.foundEntries p layout = p.classes.zip p.described

variable {s : Snapshot} {p : Site} {layout : ClassLayout}

/-- Classes of the snapshot are known by their handles. -/
theorem eq_of_map_fst_eq {qs rs : List (Handle × ClassDescription)} (hqs : ∀ q ∈ qs, q ∈ s.entries)
    (hrs : ∀ r ∈ rs, r ∈ s.entries) (h : qs.map Prod.fst = rs.map Prod.fst) : qs = rs := by
  rw [← List.forall₂_eq_eq_eq, List.forall₂_map_left_iff, List.forall₂_map_right_iff,
    List.forall₂_iff_zip] at h
  rw [← List.forall₂_eq_eq_eq, List.forall₂_iff_zip]
  refine ⟨h.1, fun {q r} hmem => ?_⟩
  obtain ⟨hq, hr⟩ := List.of_mem_zip hmem
  exact List.inj_on_of_nodup_map s.nodup_entries (hqs q hq) (hrs r hr) (h.2 hmem)

theorem listsOwn_of_meets (hp : p ∈ s.images) (hroom : s.HasRoom layout)
    (hcovers : s.Covers p layout) (hmeets : s.Meets p layout) : s.ListsOwn p layout := by
  have hfound := (found_eq_iff hp hcovers).mpr hmeets
  refine ⟨listing_eq_ok_iff.mpr ⟨hroom, hcovers, hfound⟩, ?_⟩
  refine eq_of_map_fst_eq (fun _ => mem_entries_of_foundEntries hp)
    (fun _ => mem_entries_of_zip hp) ?_
  rw [map_fst_foundEntries, hfound, List.map_fst_zip (by simp)]

theorem ListsOwn.meets (h : s.ListsOwn p layout) (hp : p ∈ s.images) : s.Meets p layout := by
  obtain ⟨-, hcovers, hfound⟩ := listing_eq_ok_iff.mp h.1
  exact (found_eq_iff hp hcovers).mp hfound

/-- With the layout that the build calls for, all images have their own classes listed but for a
core library that is made up on a legacy build. -/
theorem Suits.listsOwn_iff (h : s.Suits layout) (hsize : s.pointerSize = 4 ∨ s.pointerSize = 8)
    (hcount : s.classCount < 0x1_0000_0000) (hp : p ∈ s.images) :
    s.ListsOwn p layout ↔ p ∈ s.sites ∨ isLegacyBuild s.vmVersion = false := by
  have hroom := h.hasRoom hsize
  rcases mem_images.mp hp with hsite | ⟨-, rfl⟩
  · exact iff_of_true (listsOwn_of_meets hp hroom (h.covers hcount hsite) (h.meets hcount hsite))
      (Or.inl hsite)
  · cases layout with
    | current =>
        have hfew : builtinCorlib.length < 0x1_0000_0000 := by decide
        exact iff_of_true (listsOwn_of_meets hp hroom (Or.inl h) hfew) (Or.inr h)
    | legacy offset =>
        refine ⟨fun hown => (hown.meets hp).2.elim (fun hnil => by cases hnil) fun hsite =>
          Or.inl hsite.1, fun hsite => ?_⟩
        rcases hsite with hsite | hcurrent
        · exact listsOwn_of_meets hp hroom (h.covers hcount hsite) (h.meets hcount hsite)
        · rw [h.1] at hcurrent
          cases hcurrent

end Snapshot

namespace Session

/-- What the session says about the domain: the assemblies one after the other, under a name the
last assembly, and under a namespace and a name the first class. -/
structure NamesDomain (t : Session) (s : Snapshot) (d : Domain) : Prop where
  assemblies : t.Obtains d.assemblies fun as => as.map View.handle = s.sites.map Site.assembly
  assembly : ∀ name, t.Obtains (d.assembly? name) fun a? =>
    a?.map View.handle = (s.assemblyNamed? name).map Site.assembly
  class_ : ∀ text namespace_ name, IsQualified text namespace_ name →
    t.Obtains (d.findClass text) fun c? =>
      c?.map View.handle = (s.firstClass? namespace_ name).map Prod.fst
  /-- Every class is found by its name, or one before it that has the same name. -/
  found : ∀ q ∈ s.assembled, '.' ∉ q.2.name.toList →
    ∃ r, s.firstClass? q.2.namespace q.2.name = some r ∧
      t.Obtains (d.findClass (qualifiedName q.2.namespace q.2.name)) fun c? =>
        c?.map View.handle = some r.1

structure NamesAssembly (t : Session) (p : Site) (a : Assembly) : Prop where
  name : t.Obtains a.name fun name => name = assemblyNameOf p.name
  image : t.Obtains a.image fun i => i.handle = p.image

/-- What the session says about the image: the classes that its layout finds one after the other,
under the name of a type the last of these, and under a namespace and a name the first class that
the image owns. -/
structure NamesImage (t : Session) (s : Snapshot) (p : Site) (i : Image) : Prop where
  classes : match s.listing p t.layout with
    | .ok _ => t.Obtains i.classes fun cs =>
        cs.map View.handle = (s.foundEntries p t.layout).map Prod.fst
    | .error e => ∃ u, i.classes t = .error e u
  class_ : ∀ namespace_ name, t.Obtains (i.classFromName namespace_ name) fun c? =>
    c?.map View.handle = (p.classNamed? namespace_ name).map Prod.fst
  table : match s.listing p t.layout with
    | .ok _ => t.Obtains i.classesByName fun table => ∀ name, table[name]?.map View.handle =
        ((s.foundEntries p t.layout).reverse.find? fun q => q.2.typeName = name).map Prod.fst
    | .error e => ∃ u, i.classesByName t = .error e u

structure NamesClass (t : Session) (q : Handle × ClassDescription) (c : Class) : Prop where
  name : t.Obtains c.name fun name => name = q.2.name
  namespace_ : t.Obtains c.namespace_ fun namespace_ => namespace_ = q.2.namespace
  typeName : t.Obtains c.typeName fun name => name = q.2.typeName

/-- What the session says about the methods of the class: all of them one after the other, each
with its name and its parameters as they are counted, and the first that has a name and a number of
them. -/
structure NamesMethods (t : Session) (ms : List (Handle × MethodNode)) (c : Class) : Prop where
  methods : t.Obtains c.methods fun vs => vs.map View.handle = ms.map Prod.fst
  each : ∀ q ∈ ms, ∀ m : Method, t.Shows m → m.handle = q.1 →
    t.Obtains m.name (fun name => name = q.2.name) ∧
      t.Obtains m.parameters fun ps => ps.length = word32 q.2.parameters.length
  method : ∀ name count, t.Obtains (c.method? name count) fun m? =>
    m?.map View.handle = (ms.find? fun q => q.2.Matches name count).map Prod.fst

variable {t : Session} {snapshot : Snapshot}

section

variable {p : Site} {i : Image} (h : t.NamesImage snapshot p i) {ks : List Handle}
  (hlisting : snapshot.listing p t.layout = .ok ks)
include h hlisting

theorem NamesImage.listed : t.Obtains i.classes fun cs =>
    cs.map View.handle = (snapshot.foundEntries p t.layout).map Prod.fst := by
  have hclasses := h.classes
  rw [hlisting] at hclasses
  exact hclasses

theorem NamesImage.tabulated : t.Obtains i.classesByName fun table => ∀ name,
    table[name]?.map View.handle = ((snapshot.foundEntries p t.layout).reverse.find? fun q =>
      q.2.typeName = name).map Prod.fst := by
  have htable := h.table
  rw [hlisting] at htable
  exact htable

end

section

variable (ht : t.On snapshot)
include ht

theorem On.namesDomain {d : Domain} (hd : t.ShowsAt .domainGet d) : t.NamesDomain snapshot d where
  assemblies := (ht.assemblies_runs hd).obtains fun _ _ has => has.2
  assembly := fun name => (ht.assembly?_runs hd name).obtains fun _ _ ha => ha.2
  class_ := fun _ _ _ htext => (ht.findClass_runs hd htext).obtains fun _ _ hc => hc.2
  found := fun q hq hname => by
    have hsome : (snapshot.firstClass? q.2.namespace q.2.name).isSome :=
      List.find?_isSome.mpr ⟨q, hq, by simp⟩
    obtain ⟨r, hr⟩ := Option.isSome_iff_exists.mp hsome
    refine ⟨r, hr, (ht.findClass_runs hd (isQualified_qualifiedName _ hname)).obtains
      fun c? u hc => ?_⟩
    rw [hc.2, hr]
    rfl

theorem On.namesAssembly {p : Site} (hp : p ∈ snapshot.sites) {a : Assembly} (ha : t.Shows a)
    (hassembly : a.handle = p.assembly) : t.NamesAssembly p a where
  name := (ht.assemblyName_runs ha hp hassembly).obtains fun _ _ hname => hname
  image := (ht.assemblyImage_runs ha hp hassembly).obtains fun _ _ hi => hi.1.2

theorem On.namesImage {p : Site} (hp : p ∈ snapshot.images) {i : Image} (hi : t.Shows i)
    (himage : i.handle = p.image) (hbelow : t.vm.arena.BelowScratch) :
    t.NamesImage snapshot p i where
  classes := by
    cases hlisting : snapshot.listing p t.layout with
    | ok ks =>
        obtain ⟨-, -, hfound⟩ := Snapshot.listing_eq_ok_iff.mp hlisting
        rw [Snapshot.map_fst_foundEntries, hfound]
        exact (ht.classes_runs hp hi himage hlisting hbelow).obtains fun _ _ hcs => hcs.1.2
    | error e =>
        obtain ⟨u, run, -⟩ := ht.classes_fails hp hi himage hlisting hbelow
        exact ⟨u, run⟩
  class_ := fun namespace_ name =>
    (ht.classFromName_runs hp himage namespace_ name).obtains fun _ _ hc => hc.2
  table := by
    cases hlisting : snapshot.listing p t.layout with
    | ok ks =>
        exact (ht.classesByName_runs hp hi himage hbelow hlisting).obtains fun _ _ htable => htable
    | error e =>
        obtain ⟨u, run, -⟩ := ht.classesByName_fails hp hi himage hbelow hlisting
        exact ⟨u, run⟩

theorem On.namesClass {q : Handle × ClassDescription} (hq : q ∈ snapshot.entries) {c : Class}
    (hc : t.Shows c) (hhandle : c.handle = q.1) : t.NamesClass q c := by
  obtain ⟨n, hn⟩ := ht.liesAt_of_mem hq
  have hnode := hn.node
  rw [← hhandle] at hnode
  refine ⟨?_, ?_, ?_⟩
  · exact (hn.name ▸ Class.name_yields hc hnode).obtains ht.sound
  · exact (hn.namespace_ ▸ Class.namespace_yields hc hnode).obtains ht.sound
  · have htells := ht.tellsTypeName hq
    rw [← hhandle] at htells
    refine ((Class.typeName_agrees (.refl ht.sound) hc).runs.weaken (fun name u later hname =>
      hname.unique (later.vm.repeats.typeName htells)) fun hnone => hnone _ htells).obtains
      fun _ _ hname => hname

end

theorem Sound.namesMethods (ht : t.Sound) {c : Class} (hc : t.Shows c)
    (hclass : t.vm.arena.HasClass c.handle) : ∃ ms, t.NamesMethods ms c := by
  obtain ⟨n, hn⟩ := hclass
  have hlinked := ht.vm.arena.class_ hn
  obtain ⟨ns, hns⟩ := Access.exists_forall₂ fun k hk =>
    (hlinked.methods k hk).imp fun _ (hm : _ ∧ _) => hm.1
  refine ⟨n.methods.zip ns, ?_, fun q hq m hm hhandle => ?_, fun name count => ?_⟩
  · rw [List.map_fst_zip (by rw [hns.length_eq])]
    exact (Class.methods_answers hc hn hlinked.null_not_mem_methods t (.refl t) ht).obtains
      fun _ _ hvs => hvs.1
  · have hnode := (List.forall₂_iff_zip.mp hns).2 hq
    rw [← hhandle] at hnode
    refine ⟨(Method.name_yields hm hnode).obtains ht, ?_⟩
    refine (Method.parameters_answers hm hnode (ht.vm.arena.method hnode).2.2 t (.refl t)
      ht).obtains fun ps _ hps => ?_
    simpa using congrArg List.length hps.1
  · exact (Class.method?_finds ht hc hn hns name count).obtains fun _ _ hm => hm.2

/-- Looking up by name agrees with listing, whatever was done in the session before. The domain,
the images, the classes and the methods are as they are described, one after the other and by their
names: a class or a method is the first one of its name, an assembly and an entry of a table the
last one. There is one exception. A core library that is made up on a legacy build finds its own
classes by name, but other classes are listed for it, and these are the ones in its table. -/
theorem lookups_agree {vm : Vm} {b : Session} (hvm : Vm.ofSnapshot snapshot = .ok vm)
    (hattach : Session.attach vm = .ok b) (history : b.History t)
    (hbelow : t.vm.arena.BelowScratch) :
    (∀ d : Domain, t.ShowsAt .domainGet d → t.NamesDomain snapshot d) ∧
    (∀ p ∈ snapshot.sites, ∀ a : Assembly, t.Shows a → a.handle = p.assembly →
      t.NamesAssembly p a) ∧
    (∀ p ∈ snapshot.images, ∀ i : Image, t.Shows i → i.handle = p.image →
      t.NamesImage snapshot p i) ∧
    (∀ q ∈ snapshot.entries, ∀ c : Class, t.Shows c → c.handle = q.1 → t.NamesClass q c) ∧
    (∀ c : Class, t.Shows c → t.vm.arena.HasClass c.handle → ∃ ms, t.NamesMethods ms c) ∧
    (snapshot.classCount < 0x1_0000_0000 → ∀ p ∈ snapshot.images,
      (snapshot.ListsOwn p t.layout ↔
        p ∈ snapshot.sites ∨ isLegacyBuild snapshot.vmVersion = false)) := by
  have hb := Session.On.of_attach hvm hattach
  obtain ⟨later, sound⟩ := history.sound hb
  have ht := hb.later later sound
  refine ⟨fun d hd => ht.namesDomain hd,
    fun p hp a ha hassembly => ht.namesAssembly hp ha hassembly,
    fun p hp i hi himage => ht.namesImage hp hi himage hbelow,
    fun q hq c hc hhandle => ht.namesClass hq hc hhandle,
    fun c hc hclass => sound.namesMethods hc hclass, fun hcount p hp => ?_⟩
  have hsuits := Snapshot.suits_of_attach hvm hattach
  rw [← later.layout] at hsuits
  exact hsuits.listsOwn_iff (Vm.ofSnapshot_eq_ok hvm).1 hcount hp

end Session

/-- A legacy build whose core library is made up. -/
def Snapshot.coreless : Snapshot where
  vmVersion := "2017.4.1f1"
  moduleBase := 0x1000
  assemblies := [
    { image := "Game.dll"
      classes := [{ name := "A" }, { name := "B" }, { name := "C" }, { name := "D" },
        { name := "E" }] }]

/-- The core library finds its own `System.Object`, but the classes of the game are listed for it,
and are in its table. -/
theorem Session.lookups_agree_coreless :
    let b := Session.new Snapshot.coreless.machine ⟨2017, 4, 1, some "f1"⟩ (.legacy 10)
    let t := Query.corlib.leaves b
    let i : Image := ⟨Snapshot.coreless.madeUpSite.image, b.notebook.next⟩
    Session.attach Snapshot.coreless.machine = .ok b ∧
      ¬Snapshot.coreless.ListsOwn Snapshot.coreless.madeUpSite t.layout ∧
      t.Obtains (i.classFromName "System" "Object")
        (fun c? => c?.map View.handle = some (Arena.handleAt 14)) ∧
      t.Obtains i.classes (fun cs => cs.map View.handle = [2, 4, 6, 8, 10].map Arena.handleAt) ∧
      t.Obtains i.classesByName fun table =>
        table["A"]?.map View.handle = some (Arena.handleAt 2) ∧ table["System.Object"]? = none := by
  intro b t i
  have hvm := Vm.ofSnapshot_machine (s := Snapshot.coreless) (Or.inr rfl)
  have hattach : Session.attach Snapshot.coreless.machine = .ok b :=
    Session.attach_eq_ok.mpr ⟨_, _, by decide +kernel, rfl⟩
  have hnone : ∀ q ∈ Snapshot.coreless.sites, q.name ≠ corlibImage := by decide
  have hmem : Snapshot.coreless.madeUpSite ∈ Snapshot.coreless.images :=
    Snapshot.mem_images.mpr (Or.inr ⟨hnone, rfl⟩)
  have history : b.History t := .ask (x := ⟨_, Query.corlib⟩) .start .corlib
  obtain ⟨-, -, himages, -, -, hown⟩ := Session.lookups_agree hvm hattach history
    (Arena.belowScratch_of_size (by decide +kernel))
  have himage := himages _ hmem i ⟨by decide +kernel, by decide +kernel⟩ rfl
  have hlisting : Snapshot.coreless.listing Snapshot.coreless.madeUpSite t.layout =
      .ok ([2, 4, 6, 8, 10].map Arena.handleAt) := by decide +kernel
  refine ⟨hattach, ?_, ?_, ?_, ?_⟩
  · rw [hown (by decide) _ hmem]
    rintro (hsite | hcurrent)
    · exact hnone _ hsite rfl
    · exact absurd hcurrent (by decide +kernel)
  · have hfound : (Snapshot.coreless.madeUpSite.classNamed? "System" "Object").map Prod.fst =
        some (Arena.handleAt 14) := by decide +kernel
    exact hfound ▸ himage.class_ "System" "Object"
  · have hfound : (Snapshot.coreless.foundEntries Snapshot.coreless.madeUpSite t.layout).map
        Prod.fst = [2, 4, 6, 8, 10].map Arena.handleAt := by decide +kernel
    exact hfound ▸ himage.listed hlisting
  · obtain ⟨table, u, run, hnames⟩ := himage.tabulated hlisting
    have hfound : ((Snapshot.coreless.foundEntries Snapshot.coreless.madeUpSite
        t.layout).reverse.find? fun q => q.2.typeName = "A").map Prod.fst =
        some (Arena.handleAt 2) := by decide +kernel
    have hother : ((Snapshot.coreless.foundEntries Snapshot.coreless.madeUpSite
        t.layout).reverse.find? fun q => q.2.typeName = "System.Object").map Prod.fst =
        none := by decide +kernel
    exact ⟨table, u, run, (hnames _).trans hfound,
      Option.map_eq_none_iff.mp ((hnames _).trans hother)⟩

end VmMetadata
