import Mathlib.Data.List.TakeWhile
import VmMetadata.Proofs.Session.Bookkeeping
import VmMetadata.Proofs.Session.Filled
import VmMetadata.Proofs.Session.Surveyed
import VmMetadata.Proofs.Session.Window

/-!
Looking things up by name. Assemblies and the classes of an image are noted in tables, in which the
last of a name is kept. Classes are also found by the machine, and methods in a list, where the
first of a name is found. Main statements: each of these look-ups does not fail, and finds what the
description has under the name.
-/

namespace VmMetadata

open Query (Runs Fails)
open Std (TreeMap)

/-! ## Qualified names -/

/-- The text consists of the namespace and the name, and no dot is in the name. -/
def IsQualified (text namespace_ name : String) : Prop :=
  '.' ∉ name.toList ∧ (text = namespace_ ++ "." ++ name ∨ namespace_ = "" ∧ text = name)

/-- The text by which a class of the namespace and the name is looked up. -/
def qualifiedName (namespace_ name : String) : String :=
  if namespace_ = "" then name else namespace_ ++ "." ++ name

theorem isQualified_qualifiedName (namespace_ : String) {name : String}
    (hname : '.' ∉ name.toList) : IsQualified (qualifiedName namespace_ name) namespace_ name := by
  refine ⟨hname, ?_⟩
  unfold qualifiedName
  split
  · rename_i hempty
    exact Or.inr ⟨hempty, rfl⟩
  · exact Or.inl rfl

theorem exists_isQualified (text : String) :
    ∃ namespace_ name, IsQualified text namespace_ name := by
  by_cases hdot : '.' ∈ text.toList.reverse
  · obtain ⟨last, front, htext, hlast⟩ := List.eq_append_cons_of_mem hdot
    refine ⟨String.ofList front.reverse, String.ofList last.reverse, by simpa using hlast,
      Or.inl (String.toList_inj.mp ?_)⟩
    have htext := congrArg List.reverse htext
    simpa using htext
  · exact ⟨"", text, by simpa using hdot, Or.inr ⟨rfl, rfl⟩⟩

/-- A text is cut at its last dot. -/
theorem IsQualified.split {text namespace_ name : String} (h : IsQualified text namespace_ name) :
    splitQualified text = (namespace_, name) := by
  obtain ⟨hname, htext⟩ := h
  have hpos : ∀ c ∈ name.toList.reverse, decide (c ≠ '.') = true := fun c hc => by
    rw [decide_eq_true_eq]
    rintro rfl
    exact hname (List.mem_reverse.mp hc)
  unfold splitQualified
  rcases htext with rfl | ⟨rfl, rfl⟩
  · have hreverse : (namespace_ ++ "." ++ name).toList.reverse =
        name.toList.reverse ++ '.' :: namespace_.toList.reverse := by simp
    simp only [hreverse, List.takeWhile_append_of_pos hpos, List.dropWhile_append_of_pos hpos,
      List.takeWhile_cons_of_neg, List.dropWhile_cons_of_neg, ne_eq, not_true_eq_false,
      decide_false, Bool.false_eq_true, not_false_eq_true, List.append_nil, List.reverse_reverse,
      String.ofList_toList]
  · have hall := List.takeWhile_eq_self_iff.mpr hpos
    have hrest := List.dropWhile_eq_nil_iff.mpr hpos
    simp only [hall, hrest, List.reverse_reverse, String.ofList_toList]

/-! ## What is described under a name -/

/-- A table keeps the last thing of each name. -/
theorem getElem?_tabulate_last (key : α → String) (f : α → β) (xs : List α) (name : String) :
    (tabulate (xs.map key) (xs.map f))[name]? = (xs.reverse.find? fun x => key x = name).map f := by
  rw [getElem?_tabulate, List.zip_map', ← List.map_reverse]
  induction xs.reverse with
  | nil => rfl
  | cons x xs ih =>
      rw [List.map_cons, List.lookup_cons, ih, List.find?_cons]
      by_cases hx : key x = name
      · simp [hx]
      · have hother : (name == key x) = false := by simpa using Ne.symm hx
        simp [hx, hother]

/-- What a table keeps under a name, if each thing has one name. -/
theorem getElem?_tabulate_of_unique {tells : β → String → Prop}
    (hunique : Relator.RightUnique tells) {xs : List α} {f : α → β} {key : α → String}
    (hkey : ∀ x ∈ xs, tells (f x) (key x)) {names : List String}
    (hnames : List.Forall₂ tells (xs.map f) names) (name : String) :
    (tabulate names (xs.map f))[name]? = (xs.reverse.find? fun x => key x = name).map f := by
  have hkeys : names = xs.map key := by
    refine List.right_unique_forall₂' hunique hnames ?_
    rw [List.forall₂_map_left_iff, List.forall₂_map_right_iff, List.forall₂_same]
    exact hkey
  rw [hkeys, getElem?_tabulate_last]

namespace Snapshot

/-- The last assembly of the name. -/
def assemblyNamed? (s : Snapshot) (name : String) : Option Site :=
  s.sites.reverse.find? fun p => assemblyNameOf p.name = name

/-- The classes of all assemblies, in their order. -/
def assembled (s : Snapshot) : List (Handle × ClassDescription) :=
  s.sites.flatMap fun p => p.classes.zip p.described

/-- The first class of all assemblies with the namespace and name. -/
def firstClass? (s : Snapshot) (namespace_ name : String) : Option (Handle × ClassDescription) :=
  s.assembled.find? fun q => q.2.namespace = namespace_ ∧ q.2.name = name

/-- The classes that the layout finds at the indices of the image, as they are described. -/
def foundEntries (s : Snapshot) (p : Site) : ClassLayout → List (Handle × ClassDescription)
  | .current => (p.classes.zip p.described).take (word32 p.described.length)
  | .legacy _ => (s.assembled.drop (s.windowStart p)).take (word32 p.described.length)

variable {s : Snapshot} {p : Site}

theorem mem_sites_of_assemblyNamed? {name : String} (h : s.assemblyNamed? name = some p) :
    p ∈ s.sites :=
  List.mem_reverse.mp (List.mem_of_find?_eq_some h)

theorem map_fst_foundEntries (s : Snapshot) (p : Site) (layout : ClassLayout) :
    (s.foundEntries p layout).map Prod.fst = s.found p layout := by
  cases layout with
  | current => rw [foundEntries, found, List.map_take, List.map_fst_zip (by simp)]
  | legacy offset =>
      rw [foundEntries, found, List.map_take, List.map_drop, assembled, Load.map_fst_pending]

theorem mem_entries_of_zip (hp : p ∈ s.images) {q : Handle × ClassDescription}
    (hq : q ∈ p.classes.zip p.described) : q ∈ s.entries :=
  List.mem_flatMap.mpr ⟨p, hp, hq⟩

theorem mem_entries_of_assembled {q : Handle × ClassDescription} (hq : q ∈ s.assembled) :
    q ∈ s.entries := by
  obtain ⟨p, hp, hq⟩ := List.mem_flatMap.mp hq
  exact mem_entries_of_zip (mem_images.mpr (Or.inl hp)) hq

theorem mem_entries_of_foundEntries (hp : p ∈ s.images) {layout : ClassLayout}
    {q : Handle × ClassDescription} (hq : q ∈ s.foundEntries p layout) : q ∈ s.entries := by
  cases layout with
  | current => exact mem_entries_of_zip hp (List.mem_of_mem_take hq)
  | legacy offset =>
      exact mem_entries_of_assembled (List.mem_of_mem_drop (List.mem_of_mem_take hq))

end Snapshot

/-! ## Assemblies -/

/-- Handles that need not be there are the same if they are the same with null in their place. -/
theorem Handle.eq_of_getD_null {k? l? : Option Handle} (hk : ∀ k ∈ k?, k ≠ .null)
    (hl : ∀ l ∈ l?, l ≠ .null) (h : k?.getD .null = l?.getD .null) : k? = l? := by
  cases k? with
  | none =>
      cases l? with
      | none => rfl
      | some l => exact absurd h.symm (hl l rfl)
  | some k =>
      cases l? with
      | none => exact absurd h (hk k rfl)
      | some l => exact congrArg some h

theorem Vm.TellsAssemblyName.unique {vm : Vm} {k : Handle} {name name' : String}
    (h : vm.TellsAssemblyName k name) (h' : vm.TellsAssemblyName k name') : name = name' := by
  obtain ⟨image, text, himage, htext, rfl⟩ := h
  obtain ⟨image', text', himage', htext', rfl⟩ := h'
  cases himage.unique himage'
  rw [htext.unique htext']

namespace Session.On

variable {s : Session} {snapshot : Snapshot} (hs : s.On snapshot)
include hs

theorem tells_domainAssemblies {d : Handle} (hd : s.vm.Tells .domainGet d) :
    s.vm.Tells (.domainAssemblies d) (snapshot.sites.map Site.assembly) := by
  have hdomain : s.vm.Tells .domainGet s.vm.domain := rfl
  rw [hd.unique hdomain, ← hs.assemblies]
  exact Vm.tells_domainAssemblies

theorem null_not_mem_assemblies : Handle.null ∉ snapshot.sites.map Site.assembly := by
  intro hnull
  obtain ⟨p, hp, hassembly⟩ := List.mem_map.mp hnull
  exact Arena.ne_null_of_get? (Arena.assembly_eq_ok.mp (hs.assembly hp)) hassembly

theorem tellsAssemblyName {p : Site} (hp : p ∈ snapshot.sites) :
    s.vm.TellsAssemblyName p.assembly (assemblyNameOf p.name) :=
  ⟨p.image, p.name, Vm.tells_assemblyImage.mpr (hs.assembly hp),
    Vm.tells_imageName.mpr ⟨_, hs.image (Snapshot.mem_images.mpr (Or.inl hp)), rfl⟩, rfl⟩

/-- Now and later, the last assembly of the name is the one that is described. -/
theorem eq_of_tellsNamed {t : Session} (later : s.Later t) {d : Handle}
    (hd : s.vm.Tells .domainGet d) {name : String} {a? : Option Handle}
    (h : t.vm.TellsNamed d name a?) : a? = (snapshot.assemblyNamed? name).map Site.assembly := by
  obtain ⟨as, names, has, hnames, rfl⟩ := h
  cases has.unique ((hs.tells_domainAssemblies hd).later rfl later.vm)
  exact getElem?_tabulate_of_unique (fun _ _ _ h h' => h.unique h')
    (fun p hp => later.vm.repeats.assemblyName (hs.tellsAssemblyName hp)) hnames name

theorem assemblies_runs {d : Domain} (hd : s.ShowsAt .domainGet d) :
    Runs d.assemblies s (fun as t => (∀ a ∈ as, t.Shows a) ∧
      as.map View.handle = snapshot.sites.map Site.assembly) False := by
  have htells := hs.tells_domainAssemblies hd.2
  refine (Domain.assemblies_agrees (.refl hs.sound) hd.1).runs.weaken (fun as t later has => ?_)
    fun hnull => ?_
  · exact ⟨has.1, has.2.unique (htells.later rfl later.vm)⟩
  · exact hs.null_not_mem_assemblies (hnull _ htells)

theorem assembly?_runs {d : Domain} (hd : s.ShowsAt .domainGet d) (name : String) :
    Runs (d.assembly? name) s (fun a? t => (∀ a ∈ a?, t.Shows a) ∧
      a?.map View.handle = (snapshot.assemblyNamed? name).map Site.assembly) False := by
  have htells := hs.tells_domainAssemblies hd.2
  refine (Domain.assembly?_runs hs.sound hd.1 name).weaken
    (fun a? t later ha => ⟨ha.1, hs.eq_of_tellsNamed later hd.2 ha.2⟩) fun hnone => ?_
  rcases hnone _ htells with hnull | ⟨k, hk, hnone⟩
  · exact hs.null_not_mem_assemblies hnull
  · obtain ⟨p, hp, rfl⟩ := List.mem_map.mp hk
    exact hnone _ (hs.tellsAssemblyName hp)

end Session.On

/-! ## Classes -/

theorem Site.ne_null_of_classNamed? {p : Site} {namespace_ name : String} {k : Handle}
    (hk : k ∈ (p.classNamed? namespace_ name).map Prod.fst) : k ≠ .null := by
  obtain ⟨q, hq, rfl⟩ := Option.map_eq_some_iff.mp hk
  obtain ⟨j, -, hj⟩ := Site.mem_classes.mp (List.of_mem_zip (List.mem_of_find?_eq_some hq)).1
  rw [hj]
  exact Arena.handleAt_ne_null _

namespace Session.On

variable {s : Session} {snapshot : Snapshot} (hs : s.On snapshot) {p : Site}
include hs

theorem classFromName_runs (hp : p ∈ snapshot.images) {i : Image} (himage : i.handle = p.image)
    (namespace_ name : String) :
    Runs (i.classFromName namespace_ name) s (fun c? t => (∀ c ∈ c?, t.Shows c) ∧
      c?.map View.handle = (p.classNamed? namespace_ name).map Prod.fst) False := by
  have htells := hs.tells_classFromName hp namespace_ name
  rw [← himage] at htells
  refine (Image.classFromName_runs hs.sound i namespace_ name).weaken (fun c? t later hc => ?_)
    fun hnone => hnone _ htells
  refine ⟨hc.shows, Handle.eq_of_getD_null ?_ (fun _ => Site.ne_null_of_classNamed?)
    (hc.tells.unique (htells.later rfl later.vm))⟩
  intro k hk
  obtain ⟨c, hmem, rfl⟩ := Option.map_eq_some_iff.mp hk
  exact (hc.shows c hmem).1

omit hs in
/-- The assemblies are looked through up to the first that has the class. -/
theorem firstClass_runs (namespace_ name : String) {ps : List Site} {as : List Assembly}
    (h : List.Forall₂ (fun p a => p ∈ snapshot.sites ∧ View.handle a = p.assembly) ps as)
    {s : Session} (hs : s.On snapshot) (has : ∀ a ∈ as, s.Shows a) :
    Runs (Domain.firstClass namespace_ name as) s (fun c? t => (∀ c ∈ c?, t.Shows c) ∧
      c?.map View.handle = ((ps.flatMap fun p => p.classes.zip p.described).find? fun q =>
        q.2.namespace = namespace_ ∧ q.2.name = name).map Prod.fst) False := by
  induction h generalizing s with
  | nil => exact .pure hs.sound ⟨by simp, rfl⟩
  | @cons p a ps as hpa _ ih =>
      obtain ⟨hp, hassembly⟩ := hpa
      obtain ⟨ha, has⟩ := List.forall_mem_cons.mp has
      unfold Domain.firstClass
      refine (hs.assemblyImage_runs ha hp hassembly).bind fun i t later sound hi => ?_
      have ht := hs.later later sound
      refine (ht.classFromName_runs (Snapshot.mem_images.mpr (Or.inl hp)) hi.1.2 namespace_
        name).bind fun c? u later' sound' hc => ?_
      rw [List.flatMap_cons, List.find?_append, ← Site.classNamed?]
      obtain ⟨hshown, hc⟩ := hc
      cases c? with
      | none =>
          rw [Option.map_eq_none_iff.mp hc.symm, Option.none_or]
          exact ih (ht.later later' sound') fun b hb => (has b hb).later (later.trans later')
      | some c =>
          obtain ⟨q, hq, hhandle⟩ := Option.map_eq_some_iff.mp hc.symm
          rw [hq, Option.some_or]
          exact .pure sound' ⟨hshown, congrArg some hhandle.symm⟩

/-- A class is looked up in the assemblies one after the other. -/
theorem findClass_runs {d : Domain} (hd : s.ShowsAt .domainGet d) {text namespace_ name : String}
    (htext : IsQualified text namespace_ name) :
    Runs (d.findClass text) s (fun c? t => (∀ c ∈ c?, t.Shows c) ∧
      c?.map View.handle = (snapshot.firstClass? namespace_ name).map Prod.fst) False := by
  unfold Domain.findClass
  rw [htext.split]
  refine (hs.assemblies_runs hd).bind fun as t later sound has => ?_
  exact firstClass_runs namespace_ name (Session.forall₂_of_handles has.2)
    (hs.later later sound) has.1

theorem liesAt_of_mem {q : Handle × ClassDescription} (hq : q ∈ snapshot.entries) :
    ∃ n, q.2.LiesAt s.vm.arena q.1 n := by
  obtain ⟨p, hp, hq⟩ := List.mem_flatMap.mp hq
  exact (List.forall₂_iff_zip.mp (hs.presents hp).flip).2 hq

theorem tellsTypeName {q : Handle × ClassDescription} (hq : q ∈ snapshot.entries) :
    s.vm.TellsTypeName q.1 q.2.typeName := by
  obtain ⟨n, hn⟩ := hs.liesAt_of_mem hq
  exact hn.tellsTypeName

/-! ## The classes of an image by their names -/

section

variable (hp : p ∈ snapshot.images) {i : Image} (hi : s.Shows i) (himage : i.handle = p.image)
  (hbelow : s.vm.arena.BelowScratch)
include hp hi himage hbelow

/-- The table of an image has the classes that are listed for it, each under the name of its
type. -/
theorem classesByName_runs {ks : List Handle} (hlisting : snapshot.listing p s.layout = .ok ks) :
    Runs i.classesByName s (fun table _ => ∀ name, table[name]?.map View.handle =
      ((snapshot.foundEntries p s.layout).reverse.find? fun q => q.2.typeName = name).map Prod.fst)
      False := by
  obtain ⟨hroom, hcovers, -⟩ := Snapshot.listing_eq_ok_iff.mp hlisting
  have hlists := hs.lists (hs.hasRoom_iff.mpr hroom) hp hcovers
  rw [← himage, ← Snapshot.map_fst_foundEntries] at hlists
  have hnote : Runs i.classesByName s
      (fun table t => Fact.Holds t i.handle .imageClassesByName table) False := by
    refine .remember (f := .imageClassesByName) hs.sound hi.2 ?_
    refine ((Image.classes_runs hs.sound hi).weaken (fun _ _ _ hcs => hcs) fun hno =>
      hno hbelow _ _ hlists).bind fun cs t later sound hcs => ?_
    obtain ⟨n, hn⟩ := hcs.1.2 (hcs.2 ▸ hbelow)
    have hhandles := hn.unique (hlists.later later)
    refine (Query.table_runs (fun s => s.vm.TellsTypeName)
      (fun later h => later.vm.repeats.typeName h)
      (fun c u hu hc => (Class.typeName_agrees (.refl hu) hc).runs) sound hcs.1.1).weaken
      (fun table u later' htable => ⟨cs, hcs.1.later later', htable⟩) ?_
    rintro ⟨c, hc, hnone⟩
    obtain ⟨q, hq, hhandle⟩ := List.mem_map.mp (hhandles ▸ List.mem_map_of_mem hc)
    rw [← hhandle] at hnone
    exact hnone _ ((hs.later later sound).tellsTypeName
      (Snapshot.mem_entries_of_foundEntries hp hq))
  refine ((Image.classesByName_still i).runs hnote).weaken (fun table t later htable name => ?_) id
  obtain ⟨⟨cs, ⟨-, hcs⟩, names, hnames, rfl⟩, harena⟩ := htable
  obtain ⟨n, hn⟩ := hcs (harena ▸ hbelow)
  have hhandles := hn.unique (hlists.later later)
  rw [← getElem?_tabulate_map, hhandles]
  rw [← List.forall₂_map_left_iff, hhandles] at hnames
  exact getElem?_tabulate_of_unique (fun _ _ _ h h' => h.unique h')
    (fun q hq => later.vm.repeats.typeName
      (hs.tellsTypeName (Snapshot.mem_entries_of_foundEntries hp hq))) hnames name

/-- Where no classes are listed there is no table of them. -/
theorem classesByName_fails {e : Error} (hlisting : snapshot.listing p s.layout = .error e) :
    Fails i.classesByName s e := by
  refine .remember (f := .imageClassesByName) hs.sound hi.2 ?_
    (.bind (hs.classes_fails hp hi himage hlisting hbelow) _)
  rintro table ⟨cs, hcs, -⟩
  exact hs.not_showsClasses hp himage hlisting hbelow cs hcs

end

end Session.On

/-! ## Methods -/

/-- The method has the name and, if it is given, the number of parameters as they are counted. -/
def MethodNode.Matches (n : MethodNode) (name : String) (count : Option Nat) : Prop :=
  n.name = name ∧ ∀ k ∈ count, word32 n.parameters.length = k

instance (n : MethodNode) (name : String) (count : Option Nat) :
    Decidable (n.Matches name count) :=
  inferInstanceAs (Decidable (_ ∧ ∀ k ∈ count, _))

namespace Method

/-- Whether the method has the name and, if it is given, the number of parameters. -/
def isMatch (m : Method) (name : String) (count : Option Nat) : Query Bool := do
  if (← m.name) != name then pure false
  else
    match count with
    | none => pure true
    | some k => pure ((← m.parameters).length = k)

theorem isMatch_yields {b : Session} (hb : b.vm.WellFormed) {m : Method} (hm : b.Shows m)
    {n : MethodNode} (hn : b.vm.arena.method m.handle = .ok n) (name : String)
    (count : Option Nat) : b.Yields (m.isMatch name count) (decide (n.Matches name count)) := by
  refine (name_yields hm hn).bind ?_
  by_cases hname : n.name = name
  · rw [if_neg (by simpa using hname)]
    cases count with
    | none => exact .pure fun _ _ => by simp [MethodNode.Matches, hname]
    | some k =>
        refine (parameters_answers hm hn (hb.arena.method hn).2.2).bind fun ps t _ _ hps => ?_
        have hlength : ps.length = word32 n.parameters.length := by
          simpa using congrArg List.length hps.1
        exact .pure fun _ _ => by simp [MethodNode.Matches, hname, hlength]
  · rw [if_pos (by simpa using hname)]
    exact .pure fun _ _ => by simp [MethodNode.Matches, hname]

end Method

namespace Class

theorem firstMethod_cons (name : String) (count : Option Nat) (m : Method) (rest : List Method) :
    firstMethod name count (m :: rest) = (do
      if ← m.isMatch name count then pure (some m) else firstMethod name count rest) := by
  rw [firstMethod.eq_def, Method.isMatch.eq_def]
  simp only [bind_assoc]
  congr 1
  funext found
  split
  · rfl
  · cases count with
    | none => rfl
    | some k => simp

/-- Looking through methods finds the first that matches. -/
theorem firstMethod_finds (name : String) (count : Option Nat) : ∀ {ms : List Method}
    {ns : List MethodNode} {s : Session}, s.Sound → (∀ m ∈ ms, s.Shows m) →
    List.Forall₂ (fun m n => s.vm.arena.method (View.handle m) = .ok n) ms ns →
    Runs (firstMethod name count ms) s (fun m? t => (∀ m ∈ m?, t.Shows m) ∧
      m?.map View.handle = (((ms.map View.handle).zip ns).find? fun q =>
        q.2.Matches name count).map Prod.fst) False
  | _, _, _, hs, _, .nil => .pure hs ⟨by simp, rfl⟩
  | m :: ms, n :: ns, s, hs, hms, .cons hn hns => by
      obtain ⟨hm, hms⟩ := List.forall_mem_cons.mp hms
      rw [firstMethod_cons, List.map_cons, List.zip_cons_cons]
      refine (Method.isMatch_yields hs.vm hm hn name count s (.refl s) hs).bind
        fun found t later sound hfound => ?_
      rw [hfound]
      by_cases hmatches : n.Matches name count
      · rw [List.find?_cons_of_pos (by simpa using hmatches), if_pos (by simpa using hmatches)]
        refine .pure sound ⟨fun d hd => ?_, rfl⟩
        cases hd
        exact hm.later later
      · rw [List.find?_cons_of_neg (by simpa using hmatches), if_neg (by simpa using hmatches)]
        exact firstMethod_finds name count sound (fun d hd => (hms d hd).later later)
          (hns.imp fun _ _ h => later.vm.arena.method h)

/-- A method is looked up among those of its class, in their order. -/
theorem method?_finds {s : Session} (hs : s.Sound) {c : Class} (hc : s.Shows c) {n : ClassNode}
    (hn : s.vm.arena.class_ c.handle = .ok n) {ns : List MethodNode}
    (hns : List.Forall₂ (fun k m => s.vm.arena.method k = .ok m) n.methods ns) (name : String)
    (count : Option Nat) :
    Runs (c.method? name count) s (fun m? t => (∀ m ∈ m?, t.Shows m) ∧
      m?.map View.handle = ((n.methods.zip ns).find? fun q =>
        q.2.Matches name count).map Prod.fst) False := by
  have hnull := (hs.vm.arena.class_ hn).null_not_mem_methods
  refine (methods_answers hc hn hnull s (.refl s) hs).bind fun ms t later sound hms => ?_
  obtain ⟨hhandles, hshown⟩ := hms
  rw [← hhandles] at hns ⊢
  exact firstMethod_finds name count sound hshown ((List.forall₂_map_left_iff.mp hns).imp
    fun _ _ h => later.vm.arena.method h)

end Class

end VmMetadata
