import VmMetadata.Command.Run
import VmMetadata.Proofs.Dump.Block
import VmMetadata.Proofs.Dump.Target

/-!
What the commands tell about one snapshot. They reach the same classes on different ways: one counts
them, one lists them as the layout calls for, and one looks for a name. Main statement: without a
configuration either all commands fail in the same way and leave all files alone, or what is counted
is what is dumped, and what is found under a name is the first block of that name.
-/

namespace VmMetadata

open Query (Runs)

/-- The blocks of the classes of a site that are declared so. -/
def Site.blocksOf (p : Site) (declared : Handle → String) : List String :=
  p.classes.map fun h => declared h ++ "\n\n"

/-- Where a dump of classes goes that has this destination. -/
def Snapshot.targetFor (s : Snapshot) (d : Destination) (now : String) : String :=
  Path.join (s.directoryFor d) (s.fileNameFor d now ++ "." ++ DumpKind.classes.extension)

namespace Command

variable {snapshot : Snapshot} {s : Session} {tree : FileTree} {path : String}

/-- What there is to tell, as it is printed. -/
def VmInfo.text (i : VmInfo) (asJson : Bool) : String :=
  if asJson then i.toJson.indented 0 ++ "\n" else ofLines i.lines

/-- What there is to tell about the assembly of a site. -/
def infoOf (p : Site) : AssemblyInfo :=
  ⟨assemblyNameOf p.name, p.name, word32 p.described.length⟩

/-- The session with the machine that a loaded snapshot describes. -/
def sessionOf (path : String) (s : Snapshot) : Except CommandFailure Session := do
  let vm ← (Vm.ofSnapshot s).mapError (.load path)
  (Session.attach vm).mapError (.attach path)

/-- The destination that a dump is given by its options. -/
def destination (directory fileName : Option String) (tree : FileTree) : Destination where
  directory := directory.map fun path => ((canonicalOrCurrent path : StateM FileTree String) tree).1
  fileName := fileName

/-! ## Opening a session -/

theorem load_leaves (path : String) (tree : FileTree) :
    ((Snapshot.load path : StateM FileTree _) tree).2 = tree := by
  unfold Snapshot.load
  rw [Destination.bind_apply]
  have hread : (MonadFiles.readText? path : StateM FileTree _) tree =
      ((tree.content? path).bind String.fromUTF8?, tree) := rfl
  rw [hread]
  cases (tree.content? path).bind String.fromUTF8? with
  | none => rfl
  | some text =>
      simp only
      cases Snapshot.parse? path text <;> rfl

theorem canonicalOrCurrent_leaves (path : String) (tree : FileTree) :
    ((canonicalOrCurrent path : StateM FileTree String) tree).2 = tree := by
  unfold canonicalOrCurrent
  split
  · rfl
  · rw [Destination.bind_apply]
    have hcanonical : (MonadFiles.canonical? path : StateM FileTree _) tree =
        (tree.canonical? path, tree) := rfl
    rw [hcanonical]
    cases tree.canonical? path <;> rfl

theorem openSession_of_load
    (hload : (Snapshot.load path : StateM FileTree _) tree = (.ok snapshot, tree)) :
    (openSession path {} : StateM FileTree _) tree = (sessionOf path snapshot, tree) := by
  unfold openSession
  rw [Destination.bind_apply, hload]
  rfl

/-- A loaded snapshot is refused when its machine is made or when it is attached, or gives a
session. -/
theorem sessionOf_cases (path : String) (snapshot : Snapshot) :
    (∃ f, sessionOf path snapshot = .error f ∧
      ((∃ e, f = .load path e) ∨ ∃ e, f = .attach path e)) ∨
    ∃ vm s, Vm.ofSnapshot snapshot = .ok vm ∧ Session.attach vm = .ok s ∧
      sessionOf path snapshot = .ok s := by
  cases hvm : Vm.ofSnapshot snapshot with
  | error e =>
      have hsession : sessionOf path snapshot = .error (.load path e) := by
        rw [sessionOf, hvm]
        rfl
      exact Or.inl ⟨.load path e, hsession, Or.inl ⟨e, rfl⟩⟩
  | ok vm =>
      have hsession : sessionOf path snapshot =
          (Session.attach vm).mapError (.attach path) := by
        rw [sessionOf, hvm]
        rfl
      cases hattach : Session.attach vm with
      | error e =>
          rw [hattach] at hsession
          exact Or.inl ⟨.attach path e, hsession, Or.inr ⟨e, rfl⟩⟩
      | ok s =>
          rw [hattach] at hsession
          exact Or.inr ⟨vm, s, rfl, hattach, hsession⟩

/-- Either a session is opened, or what the file holds is not loaded, or it is loaded and not
attached. No file is changed. -/
theorem openSession_cases (path : String) (tree : FileTree) :
    (∃ f, (openSession path {} : StateM FileTree _) tree = (.error f, tree) ∧
      ((∃ e, f = .load path e) ∨ ∃ e, f = .attach path e)) ∨
    ∃ snapshot vm s, (Snapshot.load path : StateM FileTree _) tree = (.ok snapshot, tree) ∧
      Vm.ofSnapshot snapshot = .ok vm ∧ Session.attach vm = .ok s ∧
      (openSession path {} : StateM FileTree _) tree = (.ok s, tree) := by
  have hleaves := load_leaves path tree
  rcases hload : (Snapshot.load path : StateM FileTree _) tree with ⟨loaded, after⟩
  rw [hload] at hleaves
  obtain rfl : after = tree := hleaves
  cases loaded with
  | error e =>
      refine Or.inl ⟨.load path e, ?_, Or.inl ⟨e, rfl⟩⟩
      unfold openSession
      rw [Destination.bind_apply, hload]
      rfl
  | ok snapshot =>
      rw [openSession_of_load hload]
      rcases sessionOf_cases path snapshot with ⟨f, hsession, hstage⟩ |
        ⟨vm, s, hvm, hattach, hsession⟩
      · exact Or.inl ⟨f, by rw [hsession], hstage⟩
      · exact Or.inr ⟨snapshot, vm, s, rfl, hvm, hattach, by rw [hsession]⟩

theorem withSession_bind (go : Config → Session → StateM FileTree Outcome) (path : String)
    (tree : FileTree) : withSession path none go tree =
      match ((openSession path {} : StateM FileTree _) tree).1 with
      | .error f => (.failed f, ((openSession path {} : StateM FileTree _) tree).2)
      | .ok s => go {} s ((openSession path {} : StateM FileTree _) tree).2 := by
  unfold withSession
  rw [Destination.bind_apply]
  have hconfig : (loadConfig none : StateM FileTree _) tree = (.ok {}, tree) := rfl
  rw [hconfig]
  simp only
  rw [Destination.bind_apply]
  cases ((openSession path {} : StateM FileTree _) tree).1 <;> rfl

/-- A command that opens no session fails as the opening does. -/
theorem withSession_of_error {f : CommandFailure} (go : Config → Session → StateM FileTree Outcome)
    (hopen : (openSession path {} : StateM FileTree _) tree = (.error f, tree)) :
    withSession path none go tree = (.failed f, tree) := by
  rw [withSession_bind, hopen]

/-- A command that opens a session goes on with it. -/
theorem withSession_of_ok (go : Config → Session → StateM FileTree Outcome)
    (hopen : (openSession path {} : StateM FileTree _) tree = (.ok s, tree)) :
    withSession path none go tree = go {} s tree := by
  rw [withSession_bind, hopen]

/-! ## What there is to tell -/

theorem assemblyInfo_yields (hs : s.On snapshot) {p : Site} (hp : p ∈ snapshot.sites)
    {a : Assembly} (ha : s.Shows a) (hassembly : a.handle = p.assembly) :
    s.Yields (assemblyInfo a) (infoOf p) := by
  intro t later sound
  have ht := hs.later later sound
  have ha := ha.later later
  refine (ht.assemblyImage_runs ha hp hassembly).bind fun i u later' sound' hi => ?_
  obtain ⟨⟨hi, himage⟩, -⟩ := hi
  have hu := ht.later later' sound'
  have hmem := Snapshot.mem_images.mpr (Or.inl hp)
  have hnode := hu.image hmem
  have hname : u.Yields a.name (assemblyNameOf p.name) := fun w hlater hsound =>
    (hu.later hlater hsound).assemblyName_runs ((ha.later later').later hlater) hp hassembly
  have hall : u.Yields (do
      let name ← a.name
      pure (⟨name, ← i.name, ← i.classCount⟩ : AssemblyInfo)) (infoOf p) :=
    hname.bind <| (Image.name_yields hi (himage ▸ hnode)).bind <|
      (hu.classCount_yields hmem hi himage).bind <| .pure fun _ _ => rfl
  exact hall u (.refl u) sound'

/-- Whatever the session knows already, all assemblies are told about in their order. -/
theorem vmInfo_runs (hs : s.On snapshot) {d : Domain} (hd : s.ShowsAt .domainGet d) :
    Runs (vmInfo d) s (fun facts _ => facts.assemblies = snapshot.sites.map infoOf) False := by
  refine (hs.assemblies_runs hd).bind fun as t later sound has => ?_
  have ht := hs.later later sound
  obtain ⟨hshown, hhandles⟩ := has
  have hinfos : t.Answers (as.mapM assemblyInfo) fun infos _ =>
      List.Forall₂ (fun p i => i = infoOf p) snapshot.sites infos := by
    have hsites := (List.forall₂_and_left _ _).mpr
      ⟨hshown, (Session.forall₂_of_handles hhandles).flip⟩
    refine .mapM (fun _ _ _ _ _ h => h) (hsites.flip.imp fun p a ⟨ha, hp, hassembly⟩ => ?_)
    exact assemblyInfo_yields ht hp ha hassembly
  refine (hinfos t (.refl t) sound).bind fun infos u later' sound' hinfos => .get ?_
  have hsize : u.vm.Tells .pointerSize u.vm.pointerSize := rfl
  refine (Runs.known sound' hsize).bind fun size v later'' sound'' _ => ?_
  refine (Query.corlib_agrees (.refl sound'')).runs.bind fun i w later₃ sound₃ hi => ?_
  have hcorlib : w.vm.Tells .corlib w.vm.corlib := rfl
  obtain ⟨n, hn⟩ := sound₃.vm.corlib
  refine (Image.name_yields hi.1 (hi.2.unique hcorlib ▸ hn) w (.refl w) sound₃).bind
    fun name x _ sound₄ _ => .pure sound₄ ?_
  have hsame : List.Forall₂ (· = ·) infos (snapshot.sites.map infoOf) :=
    List.forall₂_map_right_iff.mpr hinfos.flip
  exact List.forall₂_eq_eq_eq ▸ hsame

/-- There always is something to tell, and it does not depend on how it is told. -/
theorem infoOutcome_eq (hs : s.On snapshot) : ∃ facts : VmInfo,
    facts.assemblies = snapshot.sites.map infoOf ∧
      ∀ asJson, infoOutcome asJson s = .done (facts.text asJson) := by
  obtain ⟨d, t, hdomain, later, sound, hd⟩ :=
    (Query.domain_agrees (.refl hs.sound)).runs.exists_ok
  obtain ⟨facts, u, hrun, -, -, hfacts⟩ := (vmInfo_runs (hs.later later sound) hd).exists_ok
  refine ⟨facts, hfacts, fun asJson => ?_⟩
  unfold infoOutcome
  rw [hdomain]
  simp only
  rw [hrun]
  rfl

/-! ## A class by its name -/

theorem mem_classHandles_of_firstClass? {namespace_ name : String}
    {q : Handle × ClassDescription} (h : snapshot.firstClass? namespace_ name = some q) :
    q.1 ∈ snapshot.classHandles := by
  obtain ⟨p, hp, hq⟩ := List.mem_flatMap.mp (List.mem_of_find?_eq_some h)
  exact List.mem_flatMap.mpr ⟨p, Snapshot.mem_images.mpr (Or.inl hp), (List.of_mem_zip hq).1⟩

section

variable {declared : Handle → String} (hdeclared : ∀ h ∈ snapshot.classHandles,
  (Look.classDeclaration h).Finds s.vm (declared h))
include hdeclared

theorem findDeclaration_runs (hs : s.On snapshot) {text namespace_ name : String}
    (htext : IsQualified text namespace_ name) :
    Runs (findDeclaration text) s (fun found _ => found =
      (snapshot.firstClass? namespace_ name).map fun q => declared q.1) False := by
  refine (Query.domain_agrees (.refl hs.sound)).runs.bind fun d t later sound hd => ?_
  refine ((hs.later later sound).findClass_runs hd htext).bind fun c? u later' sound' hc => ?_
  obtain ⟨hshown, hhandle⟩ := hc
  cases c? with
  | none =>
      rw [Option.map_eq_none_iff.mp hhandle.symm]
      exact .pure sound' rfl
  | some c =>
      obtain ⟨q, hq, hsame⟩ := Option.map_eq_some_iff.mp hhandle.symm
      -- what the class is declared as does not change while it is looked for
      have hfinds := (hdeclared q.1 (mem_classHandles_of_firstClass? hq)).later
        (later.trans later').vm
      rw [hsame] at hfinds
      change Runs (some <$> c.declaration) u _ False
      rw [map_eq_pure_bind]
      refine ((Class.declaration_finds (.refl sound') (hshown c rfl)).runs.weaken
        (fun found v hlater hfound => hfound.1.unique (hfinds.later hlater.vm))
        fun hnone => hnone _ hfinds).bind fun found v _ sound'' hfound => .pure sound'' ?_
      rw [hq, Option.map_some, hsame]
      exact congrArg some hfound

/-- What is shown is the declaration of the first class that has the name. -/
theorem findClassOutcome_eq (hs : s.On snapshot) {text namespace_ name : String}
    (htext : IsQualified text namespace_ name) : findClassOutcome text s =
      match snapshot.firstClass? namespace_ name with
      | some q => .done (declared q.1 ++ "\n")
      | none => .failed (.classNotFound text) := by
  obtain ⟨found, t, hrun, -, -, rfl⟩ := (findDeclaration_runs hdeclared hs htext).exists_ok
  unfold findClassOutcome
  rw [hrun]
  cases snapshot.firstClass? namespace_ name <;> rfl

/-! ## All classes -/

/-- Whoever pulls the dump of classes up to its first error gets the blocks of all classes, and a
notice for each assembly. -/
theorem pullDump_blocks (hfits : s.Fits snapshot) (hbelow : s.vm.arena.BelowScratch) :
    let pulled := (pullDump .classes .toFirstError s).1
    pulled.items = (snapshot.sites.flatMap fun p => p.blocksOf declared).map .ok ∧
      pulled.progress = snapshot.sites.map fun p => assemblyNameOf p.name := by
  have hpulled := pullDump_declared hfits hbelow hdeclared
  obtain ⟨chunks, before, after, hevents, -, hrest⟩ := pullDump_toFirstError .classes s
  rw [hpulled] at hevents
  simp only at hevents
  rcases hrest with ⟨rfl, hpull⟩ | ⟨e, rest, rfl, -⟩
  · rw [List.append_nil] at hevents
    subst hevents
    rw [hpull]
    constructor
    · simp [Pulled.items, Site.blocksOf, List.filterMap_flatMap, List.map_flatMap,
        List.filterMap_map, Function.comp_def]
    · simp [Pulled.progress, List.filterMap_flatMap, List.filterMap_map, ← List.map_eq_flatMap]
  · -- there is no error among blocks
    have herror : DumpEvent.item (.error e) ∈ before ++ .item (.error e) :: rest :=
      List.mem_append_right before List.mem_cons_self
    rw [← hevents] at herror
    simp at herror

omit hdeclared in
/-- Where no error is pulled, all text is written and the path is reported. -/
theorem report_of_items {pulled : Pulled} {chunks : List String}
    (h : pulled.items = chunks.map .ok) (target : String) :
    Destination.report target pulled = ⟨.ok target, pulled.progress⟩ ∧
      Destination.written pulled = (String.join chunks).toUTF8 := by
  have htext := textUntilError_chunks chunks []
  rw [List.append_nil, ← h, textUntilError, String.append_empty] at htext
  rw [Destination.report, Destination.written, htext]
  exact ⟨rfl, rfl⟩

/-- Where the file can be made, a dump of classes fills it with the blocks of all classes. -/
theorem dump_leaves (hfits : s.Fits snapshot) (hs : s.Intact) (hmachine : s.vm = snapshot.machine)
    (hroom : (Arena.handleAt (snapshot.machine.arena.nodes.size + 4)).address ≤ Scratch.base)
    (d : Destination) (now : String) (hopen : ((Destination.openFile (snapshot.targetFor d now) :
      StateM FileTree _) tree).1 = .ok ()) :
    ∃ u filled, (d.run .classes now s : StateM FileTree _) tree =
        ((⟨.ok (snapshot.targetFor d now), snapshot.sites.map fun p => assemblyNameOf p.name⟩, u),
          filled) ∧
      filled.content? (snapshot.targetFor d now) =
        some (String.join (snapshot.sites.flatMap fun p => p.blocksOf declared)).toUTF8 := by
  -- on the way to the path getters may run, and the blocks are told by the machine after that
  obtain ⟨target, t, hpath, later, sound, htarget, -⟩ :=
    (hfits.on.path_runs (hmachine ▸ .refl _) d .classes now).exists_ok
  obtain rfl : target = snapshot.targetFor d now := htarget
  have hbelow := Destination.belowScratch_of_path hs hpath (hmachine ▸ hroom)
  obtain ⟨hitems, hprogress⟩ := pullDump_blocks (fun h hh => (hdeclared h hh).later later.vm)
    (hfits.later later sound) hbelow
  obtain ⟨hreport, hwritten⟩ := report_of_items hitems (snapshot.targetFor d now)
  rw [hprogress] at hreport
  obtain ⟨filled, hrun, hcontent⟩ := Destination.run_of_openFile hpath hopen
  refine ⟨(pullDump .classes .toFirstError t).2, filled, hrun.trans ?_, hcontent.trans ?_⟩
  · change ((Destination.report _ (pullDump .classes .toFirstError t).1, _), _) = _
    rw [hreport]
    rfl
  · exact congrArg some hwritten

end

/-! ## The commands -/

/-- A dump without a configuration is given its destination by the options. -/
theorem run_dump {now : String} {kind : DumpKind} {directory fileName : Option String}
    (hopen : (openSession path {} : StateM FileTree _) tree = (.ok s, tree)) :
    (run now (.dump path kind directory fileName none) : StateM FileTree _) tree =
      let dumped := ((destination directory fileName tree).run kind now s : StateM FileTree _) tree
      (dumpOutcome kind dumped.1.1, dumped.2) := by
  refine (withSession_of_ok _ hopen).trans ?_
  cases directory with
  | none => cases fileName <;> rfl
  | some directory =>
      have hcanonical := canonicalOrCurrent_leaves directory tree
      simp only [destination, Option.map_some]
      rw [Destination.bind_apply, hcanonical]
      cases fileName <;> rfl

/-- What the commands leave behind that are given the snapshot of the path and no configuration, if
these are the facts about it and its classes are declared so. -/
structure Agreement (path : String) (tree : FileTree) (snapshot : Snapshot) (facts : VmInfo)
    (declared : Handle → String) : Prop where
  /-- The facts are told, and no file is changed. -/
  info : ∀ now asJson, (run now (.info path none asJson) : StateM FileTree _) tree =
    (.done (facts.text asJson), tree)
  /-- A name is cut at its last dot. What is shown is, but for the last end of a line, the block of
  the first class that has it, and if nothing is shown, no class of any assembly has it. -/
  findClass : ∀ now text, ∃ namespace_ name, IsQualified text namespace_ name ∧
    match snapshot.firstClass? namespace_ name with
    | some q => ∃ shown, (run now (.findClass path text none) : StateM FileTree _) tree =
        (.done shown, tree) ∧ shown ++ "\n" = declared q.1 ++ "\n\n"
    | none => (run now (.findClass path text none) : StateM FileTree _) tree =
        (.failed (.classNotFound text), tree) ∧
          ∀ a ∈ snapshot.assemblies, ∀ c ∈ a.classes, ¬(c.namespace = namespace_ ∧ c.name = name)
  /-- As many classes are counted as there are blocks. -/
  counts : snapshot.classCount < 0x1_0000_0000 → facts.assemblies = snapshot.sites.map fun p =>
    ⟨assemblyNameOf p.name, p.name, (p.blocksOf declared).length⟩
  /-- If the file can be made, it is filled with the blocks of all assemblies, one after the other,
  and there is a notice for each assembly. The way to the path adds up to four objects, which must
  not reach scratch memory. -/
  dump : snapshot.classCount < 0x1_0000_0000 →
    (Arena.handleAt (snapshot.machine.arena.nodes.size + 4)).address ≤ Scratch.base →
      ∀ now directory fileName,
      let target := snapshot.targetFor (destination directory fileName tree) now
      ((Destination.openFile target : StateM FileTree _) tree).1 = .ok () →
        ∃ filled, (run now (.dump path .classes directory fileName none) : StateM FileTree _) tree =
            (.done (ofLines (snapshot.sites.map (fun p => "Dumping " ++ assemblyNameOf p.name) ++
              ["Wrote cs dump:", "  Path: " ++ target])), filled) ∧
          filled.content? target =
            some (String.join (snapshot.sites.flatMap fun p => p.blocksOf declared)).toUTF8

/-- Every class that the machine holds has its declaration. -/
theorem exists_declared (hs : s.On snapshot) : ∃ declared : Handle → String,
    ∀ h ∈ snapshot.classHandles, (Look.classDeclaration h).Finds s.vm (declared h) := by
  have hall : ∀ h ∈ snapshot.classHandles, ∃ text,
      (Look.classDeclaration h).Finds s.vm text := by
    intro h hh
    obtain ⟨p, hp, hh⟩ := List.mem_flatMap.mp hh
    rw [← p.map_fst_zip] at hh
    obtain ⟨q, hq, rfl⟩ := List.mem_map.mp hh
    obtain ⟨n, hn⟩ := hs.liesAt_of_mem (Snapshot.mem_entries_of_zip hp hq)
    exact Look.exists_classDeclaration hs.sound.vm.arena hn.node
  choose! declared hdeclared using hall
  exact ⟨declared, hdeclared⟩

/-- Where no class is found under a name, none is described under it. -/
theorem forall_of_firstClass?_eq_none {namespace_ name : String}
    (h : snapshot.firstClass? namespace_ name = none) :
    ∀ a ∈ snapshot.assemblies, ∀ c ∈ a.classes, ¬(c.namespace = namespace_ ∧ c.name = name) := by
  intro a ha c hc
  -- the assembly has a site, and the class a place in it, where the search would have found it
  have hsite : a.classes ∈ snapshot.sites.map Site.described := by
    rw [snapshot.map_described]
    exact List.mem_map_of_mem ha
  obtain ⟨p, hp, hdescribed⟩ := List.mem_map.mp hsite
  have hplaced : c ∈ (p.classes.zip p.described).map Prod.snd := by
    rwa [List.map_snd_zip (by simp), hdescribed]
  obtain ⟨q, hq, rfl⟩ := List.mem_map.mp hplaced
  have hnone := List.find?_eq_none.mp h q (List.mem_flatMap.mpr ⟨p, hp, hq⟩)
  simpa using hnone

/-- A session that is opened answers all commands alike. -/
theorem agreement_of_attach {vm : Vm} (hvm : Vm.ofSnapshot snapshot = .ok vm)
    (hattach : Session.attach vm = .ok s)
    (hopen : (openSession path {} : StateM FileTree _) tree = (.ok s, tree)) :
    ∃ facts declared, (∀ h ∈ snapshot.classHandles,
        (Look.classDeclaration h).Finds s.vm (declared h)) ∧
      Agreement path tree snapshot facts declared := by
  have hs : s.On snapshot := .of_attach hvm hattach
  have hmachine := Session.machine_of_attach hvm hattach
  obtain ⟨facts, hfacts, hinfo⟩ := infoOutcome_eq hs
  obtain ⟨declared, hdeclared⟩ := exists_declared hs
  refine ⟨facts, declared, hdeclared, ?_, ?_, ?_, ?_⟩
  · intro now asJson
    refine (withSession_of_ok _ hopen).trans ?_
    rw [hinfo]
    rfl
  · intro now text
    obtain ⟨namespace_, name, htext⟩ := exists_isQualified text
    have hrun : (run now (.findClass path text none) : StateM FileTree _) tree =
        (findClassOutcome text s, tree) := withSession_of_ok _ hopen
    rw [findClassOutcome_eq hdeclared hs htext] at hrun
    refine ⟨namespace_, name, htext, ?_⟩
    cases hfirst : snapshot.firstClass? namespace_ name with
    | none =>
        rw [hfirst] at hrun
        exact ⟨hrun, forall_of_firstClass?_eq_none hfirst⟩
    | some q =>
        rw [hfirst] at hrun
        refine ⟨_, hrun, ?_⟩
        rw [String.append_assoc]
        rfl
  · intro hcount
    rw [hfacts]
    refine List.map_congr_left fun p hp => ?_
    -- an image has no more classes than the snapshot, and so their number fits
    have hend := Snapshot.start_add_length_le hp
    have hlength : (p.blocksOf declared).length = p.described.length := by
      rw [Site.blocksOf, List.length_map, Site.length_classes]
    rw [infoOf, hlength, word32_eq_self_iff.mpr (by omega)]
  · intro hcount hroom now directory fileName target hfile
    obtain ⟨version, layout, -, rfl⟩ := Session.attach_eq_ok.mp hattach
    have hintact := Session.intact_new (Vm.wellFormed_ofSnapshot hvm) version layout
    obtain ⟨u, filled, hrun, hcontent⟩ := dump_leaves hdeclared
      (.of_attach hvm hattach hcount) hintact hmachine hroom _ now hfile
    refine ⟨filled, (run_dump hopen).trans ?_, hcontent⟩
    simp only
    rw [hrun]
    simp only [dumpOutcome, List.map_map, Function.comp_def]
    rfl

/-- **The commands agree about a snapshot.** Either it is not loaded or not attached, and then all
commands fail in that way and leave all files alone, or all of them tell the same about it: what the
classes are declared as in the session that is opened. -/
theorem agree_on_snapshot (path : String) (tree : FileTree) :
    (∃ f, (openSession path {} : StateM FileTree _) tree = (.error f, tree) ∧
      ((∃ e, f = .load path e) ∨ ∃ e, f = .attach path e) ∧ ∀ now,
        (∀ asJson, (run now (.info path none asJson) : StateM FileTree _) tree =
          (.failed f, tree)) ∧
        (∀ kind directory fileName, (run now (.dump path kind directory fileName none) :
          StateM FileTree _) tree = (.failed f, tree)) ∧
        ∀ text, (run now (.findClass path text none) : StateM FileTree _) tree =
          (.failed f, tree)) ∨
    ∃ snapshot s facts declared,
      (Snapshot.load path : StateM FileTree _) tree = (.ok snapshot, tree) ∧
      (openSession path {} : StateM FileTree _) tree = (.ok s, tree) ∧
      (∀ h ∈ snapshot.classHandles, (Look.classDeclaration h).Finds s.vm (declared h)) ∧
      Agreement path tree snapshot facts declared := by
  rcases openSession_cases path tree with ⟨f, hopen, hstage⟩ |
    ⟨snapshot, vm, s, hload, hvm, hattach, hopen⟩
  · refine Or.inl ⟨f, hopen, hstage, fun now => ⟨fun asJson => ?_, ?_, fun text => ?_⟩⟩
    · exact withSession_of_error _ hopen
    · intro kind directory fileName
      exact withSession_of_error _ hopen
    · exact withSession_of_error _ hopen
  · obtain ⟨facts, declared, hdeclared, hagree⟩ := agreement_of_attach hvm hattach hopen
    exact Or.inr ⟨snapshot, s, facts, declared, hload, hopen, hdeclared, hagree⟩

/-- Two assemblies with a class of the same name, as a file describes them. -/
def twinText : String :=
  "\x7b\"vm_version\":\"2020.3.1f1\",\"assemblies\":[" ++
    "\x7b\"image\":\"A.dll\",\"classes\":[\x7b\"namespace\":\"N\",\"name\":\"C\"\x7d]\x7d," ++
    "\x7b\"image\":\"B.dll\",\"classes\":[\x7b\"namespace\":\"N\",\"name\":\"C\"\x7d]\x7d]\x7d"

def twins : Snapshot where
  vmVersion := "2020.3.1f1"
  assemblies := [
    { image := "A.dll", classes := [{ «namespace» := "N", name := "C" }] },
    { image := "B.dll", classes := [{ «namespace» := "N", name := "C" }] }]

/-- The name of twins finds the first of them, and the dump holds both. A path without a file fails
all names. -/
theorem agree_on_snapshot_twins :
    let tree : FileTree := ⟨[(["twins.json"], .file twinText.toUTF8)], []⟩
    (∃ f, ∀ text, (run "" (.findClass "lost.json" text none) : StateM FileTree _) tree =
      (.failed f, tree)) ∧
    ∃ shown second filled,
      (run "" (.findClass "twins.json" "N.C" none) : StateM FileTree _) tree =
        (.done shown, tree) ∧
      (run "" (.findClass "twins.json" "C" none) : StateM FileTree _) tree =
        (.failed (.classNotFound "C"), tree) ∧
      (run "" (.dump "twins.json" .classes (some "out") (some "twins") none) :
        StateM FileTree _) tree = (.done
          "Dumping A\nDumping B\nWrote cs dump:\n  Path: /out/twins.cs\n", filled) ∧
      filled.content? "/out/twins.cs" = some (shown ++ "\n" ++ second).toUTF8 := by
  intro tree
  constructor
  · rcases agree_on_snapshot "lost.json" tree with ⟨f, -, -, hfails⟩ | ⟨_, s, _, _, -, hopen, -⟩
    · exact ⟨f, (hfails "").2.2⟩
    · have hlost : ((openSession "lost.json" {} : StateM FileTree _) tree).1.isOk = false := by
        decide +kernel
      rw [hopen] at hlost
      cases hlost
  · have hloaded : ((Snapshot.load "twins.json" : StateM FileTree _) tree).1 = .ok twins := by
      decide +kernel
    have hload : (Snapshot.load "twins.json" : StateM FileTree _) tree = (.ok twins, tree) :=
      Prod.ext hloaded (load_leaves _ tree)
    rcases agree_on_snapshot "twins.json" tree with ⟨f, hopen, -⟩ |
      ⟨snapshot, s, facts, declared, hload', -, -, hagree⟩
    · have hattached : (sessionOf "twins.json" twins).isOk = true := by decide +kernel
      rw [openSession_of_load hload] at hopen
      rw [(Prod.mk.inj hopen).1] at hattached
      cases hattached
    · obtain rfl : twins = snapshot := Except.ok.inj (Prod.mk.inj (hload.symm.trans hload')).1
      obtain ⟨namespace_, name, htext, hshown⟩ := hagree.findClass "" "N.C"
      have hcut : splitQualified "N.C" = ("N", "C") := by decide +kernel
      obtain ⟨rfl, rfl⟩ := Prod.mk.inj (hcut.symm.trans htext.split)
      have hfirst : twins.firstClass? "N" "C" =
          some (Arena.handleAt 2, { «namespace» := "N", name := "C" }) := by decide +kernel
      rw [hfirst] at hshown
      obtain ⟨shown, hshow, hblock⟩ := hshown
      obtain ⟨namespace_, name, htext, hmissing⟩ := hagree.findClass "" "C"
      have hcut : splitQualified "C" = ("", "C") := by decide +kernel
      obtain ⟨rfl, rfl⟩ := Prod.mk.inj (hcut.symm.trans htext.split)
      have hnone : twins.firstClass? "" "C" = none := by decide +kernel
      rw [hnone] at hmissing
      have htarget : twins.targetFor (destination (some "out") (some "twins") tree) "" =
          "/out/twins.cs" := by decide +kernel
      obtain ⟨filled, hdump, hcontent⟩ := hagree.dump (by decide) (by decide +kernel) ""
        (some "out") (some "twins") (htarget ▸ by decide +kernel)
      rw [htarget] at hdump hcontent
      refine ⟨shown, declared (Arena.handleAt 6) ++ "\n\n", filled, hshow, hmissing.1, hdump, ?_⟩
      rw [hcontent, hblock]
      rfl

end Command

end VmMetadata
