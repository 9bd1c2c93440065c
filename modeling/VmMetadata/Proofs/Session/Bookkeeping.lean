import VmMetadata.Proofs.Dump.History
import VmMetadata.Proofs.Session.Answered

/-!
The classes that the machine needs for its own bookkeeping. A session finds `System.Object` and
`System.Type` by namespace and name in the core library, the machine takes the first classes of
these full names in any image. Main statement: reflection objects and base classes that are not
declared follow the machine, and so they are those of the session just if no class that comes before
has the same full name.
-/

namespace VmMetadata

open Query (Runs Fails)

/-! ## The two ways to find a class -/

/-- Looking through the handles finds the first described class of the name, null if there is
none. -/
theorem Vm.findClass_eq {a : Arena} {namespace_ name : String} {cs : List ClassDescription}
    {hs : List Handle} (h : List.Forall₂ (fun c k => ∃ n, c.LiesAt a k n) cs hs) :
    Vm.findClass a namespace_ name hs = .ok ((((hs.zip cs).find? fun q =>
      q.2.namespace = namespace_ ∧ q.2.name = name).map Prod.fst).getD .null) := by
  induction h with
  | nil => rfl
  | @cons c k cs hs hck _ ih =>
      obtain ⟨n, hn⟩ := hck
      rw [Vm.findClass_cons hn, List.zip_cons_cons]
      by_cases hc : c.namespace = namespace_ ∧ c.name = name
      · rw [if_pos hc, List.find?_cons_of_pos (by simpa using hc)]
        rfl
      · rw [if_neg hc, List.find?_cons_of_neg (by simpa using hc), ih]

/-- The first class of the image with the namespace and name, and its handle. -/
def Site.classNamed? (p : Site) (namespace_ name : String) : Option (Handle × ClassDescription) :=
  (p.classes.zip p.described).find? fun q => q.2.namespace = namespace_ ∧ q.2.name = name

namespace Snapshot

/-- The class of the core library with the namespace and name, and its handle. -/
def corlibClass? (s : Snapshot) (namespace_ name : String) : Option (Handle × ClassDescription) :=
  (s.corlibSite.classes.zip s.corlibSite.described).find? fun q =>
    q.2.namespace = namespace_ ∧ q.2.name = name

/-- The class has the full name, and none that comes before it has. -/
def Foremost (s : Snapshot) (q : Handle × ClassDescription) (name : String) : Prop :=
  q.2.fullName = name ∧ ∀ p ∈ s.entries.takeWhile fun p => p.1 ≠ q.1, p.2.fullName ≠ name

instance (s : Snapshot) (q : Handle × ClassDescription) (name : String) :
    Decidable (s.Foremost q name) :=
  inferInstanceAs (Decidable (_ ∧ _))

variable {s : Snapshot}

theorem mem_entries_of_corlibClass? {namespace_ name : String} {q : Handle × ClassDescription}
    (h : s.corlibClass? namespace_ name = some q) :
    q ∈ s.entries :=
  List.mem_flatMap.mpr ⟨s.corlibSite, s.corlibSite_mem, List.mem_of_find?_eq_some h⟩

theorem nodup_entries (s : Snapshot) : (s.entries.map Prod.fst).Nodup := by
  rw [entries, Load.map_fst_pending]
  exact s.nodup_classes

/-- The first class of a full name is that one of its classes before which no other comes. -/
theorem classNamed?_eq_iff {q : Handle × ClassDescription} (hq : q ∈ s.entries) (name : String) :
    (s.classNamed? name).map Prod.fst = some q.1 ↔ s.Foremost q name := by
  have hnodup := s.nodup_entries
  constructor
  · intro h
    obtain ⟨r, hr, hhandle⟩ := Option.map_eq_some_iff.mp h
    obtain ⟨hname, before, after, hentries, hbefore⟩ := List.find?_eq_some_iff_append.mp hr
    obtain rfl : r = q := List.inj_on_of_nodup_map hnodup (List.mem_of_find?_eq_some hr) hq hhandle
    refine ⟨of_decide_eq_true hname, fun p hp => ?_⟩
    -- what is taken ends before the class, so it lies in front
    have hp : p ∈ before := by
      rw [hentries, List.takeWhile_append] at hp
      split at hp
      · simpa using hp
      · exact (List.takeWhile_sublist _).mem hp
    simpa using hbefore p hp
  · rintro ⟨hname, hforemost⟩
    have hsome : (s.classNamed? name).isSome := List.find?_isSome.mpr ⟨q, hq, by simpa using hname⟩
    obtain ⟨r, hr⟩ := Option.isSome_iff_exists.mp hsome
    obtain ⟨hname', before, after, hentries, hbefore⟩ := List.find?_eq_some_iff_append.mp hr
    have hbefore : ∀ p ∈ before, p.2.fullName ≠ name := by simpa using hbefore
    rw [hr, Option.map_some, Option.some_inj]
    by_contra hne
    refine hforemost r ?_ (of_decide_eq_true hname')
    -- the class lies behind the first one of its name, so all that come before are others
    have hafter : q ∈ after := by
      rw [hentries] at hq
      rcases List.mem_append.mp hq with hq | hq
      · exact absurd hname (hbefore q hq)
      · exact (List.mem_cons.mp hq).resolve_left fun heq => hne (heq ▸ rfl)
    have hothers : ∀ p ∈ before, p.1 ≠ q.1 := by
      rw [hentries, List.map_append] at hnodup
      intro p hp heq
      exact (List.nodup_append.mp hnodup).2.2 _ (List.mem_map_of_mem hp) _
        (List.mem_cons_of_mem _ (List.mem_map_of_mem hafter)) heq
    rw [hentries, List.takeWhile_append_of_pos (by simpa using hothers),
      List.takeWhile_cons_of_pos (by simpa using hne)]
    exact List.mem_append_right _ List.mem_cons_self

end Snapshot

namespace Session

variable {s : Session} {snapshot : Snapshot} {namespace_ name : String}

/-- The machine finds the first class of the name in an image. -/
theorem On.tells_classFromName (hs : s.On snapshot) {p : Site} (hp : p ∈ snapshot.images)
    (namespace_ name : String) :
    s.vm.Tells (.classFromName p.image namespace_ name)
      (((p.classNamed? namespace_ name).map Prod.fst).getD .null) := by
  refine Access.lift_eq_ok.mpr ⟨?_, rfl⟩
  rw [hs.image hp]
  change Vm.findClass s.vm.arena namespace_ name p.node.classes.toList = _
  rw [Site.node, List.toList_toArray]
  exact Vm.findClass_eq (hs.presents hp)

theorem On.tells_corlibClass (hs : s.On snapshot) (namespace_ name : String) :
    s.vm.Tells (.classFromName s.vm.corlib namespace_ name)
      (((snapshot.corlibClass? namespace_ name).map Prod.fst).getD .null) := by
  rw [hs.corlib]
  exact hs.tells_classFromName snapshot.corlibSite_mem namespace_ name

/-- What a session knows by name is that class of the core library. -/
theorem On.corlibClass_of_knows (hs : s.On snapshot) {k : Handle}
    (hk : s.KnowsClass namespace_ name k) :
    ∃ c, snapshot.corlibClass? namespace_ name = some (k, c) := by
  have htold := hk.2.unique (hs.tells_corlibClass namespace_ name)
  cases hq : snapshot.corlibClass? namespace_ name with
  | none =>
      rw [hq] at htold
      exact absurd htold hk.1
  | some q =>
      rw [hq] at htold
      exact ⟨q.2, congrArg some (Prod.ext htold.symm rfl)⟩

/-- A session that may be asked for a class has found one. -/
theorem On.corlibClass_of_ok (hs : s.On snapshot) {x : Query Class} {k : Class} {t : Session}
    (hx : Runs x s (fun c t => t.Shows c ∧ t.KnowsClass namespace_ name c.handle)
      (∀ k, ¬s.KnowsClass namespace_ name k)) (hk : x s = .ok k t) :
    ∃ c, snapshot.corlibClass? namespace_ name = some (k.handle, c) := by
  obtain ⟨later, sound, -, hknows⟩ := hx.of_ok hk
  exact (hs.later later sound).corlibClass_of_knows hknows

/-- And it finds every one that is there. -/
theorem On.exists_corlibClass (hs : s.On snapshot) {x : Query Class}
    (hx : Runs x s (fun c t => t.Shows c ∧ t.KnowsClass namespace_ name c.handle)
      (∀ k, ¬s.KnowsClass namespace_ name k)) {q : Handle × ClassDescription}
    (hq : snapshot.corlibClass? namespace_ name = some q) :
    ∃ k t, x s = .ok k t ∧ k.handle = q.1 := by
  have htells : s.vm.Tells (.classFromName s.vm.corlib namespace_ name) q.1 := by
    have htells := hs.tells_corlibClass namespace_ name
    rwa [hq] at htells
  have hknows : s.KnowsClass namespace_ name q.1 :=
    ⟨Snapshot.ne_null_of_mem_entries (Snapshot.mem_entries_of_corlibClass? hq), htells⟩
  cases hx with
  | error _ _ _ hnone => exact absurd hknows (hnone q.1)
  | ok run later _ hk => exact ⟨_, _, run, hk.2.2.unique (hknows.later later).2⟩

end Session

/-! ## What the machine says -/

/-- The class of a reflection object is the machine's own. -/
theorem Vm.tells_objectClass {vm : Vm} {o t : Handle}
    (ho : vm.arena.object o = .ok (.typeObject t)) :
    vm.Tells (.objectClass o) vm.wellKnown.typeClass := by
  change (Access.objectNode o >>= _) vm = _
  rw [Access.bind_ok (Access.objectNode_eq_ok.mpr ⟨ho, rfl⟩)]
  rfl

/-- The class at the handle as the machine of the snapshot has it. -/
theorem Snapshot.machine_class {s : Snapshot} {q : Handle × ClassDescription}
    (hq : q ∈ s.entries) : ∃ image t fields methods,
      s.machine.arena.class_ q.1 = .ok (s.classNode image t q.1 q.2 fields methods) := by
  obtain ⟨l, hmachine, hlaid, hkept⟩ := s.machine_kept
  obtain ⟨p, -, t, fields, methods, hclass, -⟩ := hlaid.linkedAt hq
  rw [Snapshot.linkedClass_eq (Load.named_eq hkept.named)] at hclass
  exact ⟨p.image, t, fields, methods, by rw [hmachine]; exact hclass⟩

namespace Session

variable {b : Session} {snapshot : Snapshot}

section

variable (hb : b.vm.wellKnown = snapshot.wellKnown) {s : Session} (later : b.Later s)
  (sound : s.Sound) {v : TypeView} (hv : s.Shows v) (htype : s.vm.arena.HasType v.handle)
include hb later sound hv htype

/-- The machine says of every reflection object that it is of the first class named
`System.Type`. -/
theorem object_runs : Runs v.object s (fun o t => t.Shows o ∧
    t.vm.Tells (.objectClass o.handle) (snapshot.handleNamed "System.Type")) False := by
  refine (TypeView.object_agrees (.refl sound) hv).runs.weaken (fun o t later' ho => ⟨ho.1, ?_⟩)
    fun hnone => hnone htype
  have htells := Vm.tells_objectClass ho.2
  rwa [congrArg Catalog.wellKnown (later.trans later').vm.catalog, hb] at htells

theorem objectClass_runs {q : Handle × ClassDescription}
    (hq : snapshot.classNamed? "System.Type" = some q) :
    Runs (do (← v.object).class_) s (fun c _ => c.handle = q.1) False := by
  have hne : q.1 ≠ .null := Snapshot.ne_null_of_mem_entries (List.mem_of_find?_eq_some hq)
  refine (object_runs hb later sound hv htype).bind fun o t _ sound' ho => ?_
  obtain ⟨ho, htells⟩ := ho
  rw [Snapshot.handleNamed, hq] at htells
  have hfind : Runs (do Query.lift ((← Query.ask (.objectClass o.handle)).require "object class")) t
      (fun c u => Fact.Holds u o.handle .objectClass c) False := by
    refine (Runs.known sound' htells).bind fun c u later'' sound'' hc => ?_
    obtain ⟨rfl, -⟩ := hc
    refine (Query.Agree.require (.refl sound'') _ "object class").runs.weaken ?_ fun h => hne h
    rintro k w hlater ⟨rfl, -⟩
    exact ⟨hne, htells.later rfl (later''.trans hlater).vm⟩
  refine (Runs.remember (f := .objectClass) sound' ho.2 hfind).bind fun c u later'' sound'' hc => ?_
  have hc' : c = q.1 := hc.2.unique (htells.later rfl later''.vm)
  exact (Runs.view sound'' .class_ c).weaken (fun w _ _ hw => hw.2.trans hc') fun hnull =>
    hc.1 hnull

theorem objectClass_fails (hnone : snapshot.classNamed? "System.Type" = none) :
    Fails (do (← v.object).class_) s (.invalidHandle "object class" .null) := by
  refine .after (object_runs hb later sound hv htype) fun o t _ sound' ho => ?_
  obtain ⟨ho, htells⟩ := ho
  rw [Snapshot.handleNamed, hnone] at htells
  refine (Fails.remember (f := .objectClass) sound' ho.2
    (fun c hc => hc.1 (hc.2.unique htells)) ?_).bind _
  refine .after (Runs.known sound' htells) fun c u _ sound'' hc => ?_
  obtain ⟨rfl, -⟩ := hc
  exact ⟨u, rfl, .refl u, sound''⟩

end

/-- A class that declares no base class has the first one named `System.Object`, unless it is that
class itself. -/
theorem parent_answers (hb : snapshot.machine.Later b.vm)
    {q : Handle × ClassDescription} (hq : q ∈ snapshot.entries) (hkind : q.2.kind = .class_)
    (hparent : q.2.parent = none) {v : Class} (hv : b.Shows v) (hhandle : v.handle = q.1) :
    b.Answers v.parent fun d? _ => d?.map View.handle =
      ((snapshot.classNamed? "System.Object").map Prod.fst).filter fun h => h ≠ q.1 := by
  obtain ⟨image, t, fields, methods, hnode⟩ := Snapshot.machine_class hq
  have hparent? : (snapshot.parent? q.1 q.2).map Prod.fst =
      ((snapshot.classNamed? "System.Object").map Prod.fst).filter fun h => h ≠ q.1 := by
    unfold Snapshot.parent?
    rw [hparent, hkind]
    cases snapshot.classNamed? "System.Object" with
    | none => rfl
    | some root => by_cases hroot : root.1 = q.1 <;> simp [Option.filter_some, hroot]
  have hnode := hb.arena.class_ hnode
  rw [← hhandle] at hnode
  rw [← hparent?, ← hhandle]
  refine Class.parent_answers hv hnode rfl ?_
  intro h hh
  obtain ⟨r, hr, rfl⟩ := Option.map_eq_some_iff.mp hh
  exact Snapshot.ne_null_of_mem_entries (Snapshot.mem_entries_of_parent? hr)

/-- A session that finds `System.Object` and `System.Type` in the core library finds classes that
the machine need not use. Whatever was done before, the class of every reflection object is the
first one with the full name `System.Type`, and it is missing where there is none. Every class that
declares no base class has the first one with the full name `System.Object`, except that class
itself. These are the classes that the session finds just if they have the full names and no class
before them has. -/
theorem bookkeeping_takes_first {vm : Vm} {config : Config} {s₁ t₁ s₂ t₂ : Session}
    {root reflection : Class}
    (hvm : Vm.ofSnapshot snapshot = .ok vm) (hattach : Session.attach vm config = .ok b)
    (h₁ : b.History s₁) (hroot : Query.rootClass s₁ = .ok root t₁)
    (h₂ : b.History s₂) (hreflection : Query.reflectionClass s₂ = .ok reflection t₂) :
    (∀ s, b.History s →
      (∀ v : TypeView, s.Shows v → s.vm.arena.HasType v.handle →
        match snapshot.classNamed? "System.Type" with
        | some (h, _) => ∃ c t, (do (← v.object).class_ : Query Class) s = .ok c t ∧ c.handle = h
        | none => ∃ t, (do (← v.object).class_ : Query Class) s =
            .error (.invalidHandle "object class" .null) t) ∧
      ∀ q ∈ snapshot.entries, q.2.kind = .class_ → q.2.parent = none →
        ∀ v : Class, s.Shows v → v.handle = q.1 →
          ∃ d? t, v.parent s = .ok d? t ∧ d?.map View.handle =
            ((snapshot.classNamed? "System.Object").map Prod.fst).filter fun h => h ≠ q.1) ∧
    (∃ c, snapshot.corlibClass? "System" "Type" = some (reflection.handle, c) ∧
      ((snapshot.classNamed? "System.Type").map Prod.fst = some reflection.handle ↔
        snapshot.Foremost (reflection.handle, c) "System.Type")) ∧
    ∃ c, snapshot.corlibClass? "System" "Object" = some (root.handle, c) ∧
      ((snapshot.classNamed? "System.Object").map Prod.fst = some root.handle ↔
        snapshot.Foremost (root.handle, c) "System.Object") := by
  have hb := Session.On.of_attach hvm hattach
  have hmachine := Session.machine_of_attach hvm hattach
  have hknown : b.vm.wellKnown = snapshot.wellKnown := by
    obtain ⟨l, hl, -⟩ := snapshot.machine_kept
    rw [hmachine, hl]
    rfl
  have hafter : ∀ {s}, b.History s → b.Later s ∧ s.On snapshot := fun history => by
    obtain ⟨later, sound⟩ := history.sound hb
    exact ⟨later, hb.later later sound⟩
  refine ⟨fun s history => ?_, ?_, ?_⟩
  · obtain ⟨later, hs⟩ := hafter history
    refine ⟨fun v hv htype => ?_, fun q hq hkind hparent v hv hhandle => ?_⟩
    · cases hq : snapshot.classNamed? "System.Type" with
      | some q =>
          obtain ⟨c, t, hrun, -, -, hc⟩ :=
            (objectClass_runs hknown later hs.sound hv htype hq).exists_ok
          exact ⟨c, t, hrun, hc⟩
      | none =>
          obtain ⟨t, hrun, -⟩ := objectClass_fails hknown later hs.sound hv htype hq
          exact ⟨t, hrun⟩
    · obtain ⟨d?, t, hrun, -, -, hd⟩ := (parent_answers (hmachine ▸ later.vm) hq hkind hparent hv
        hhandle s (.refl s) hs.sound).exists_ok
      exact ⟨d?, t, hrun, hd⟩
  · obtain ⟨-, hs⟩ := hafter h₂
    obtain ⟨c, hc⟩ := hs.corlibClass_of_ok (Query.reflectionClass_agrees (.refl hs.sound)).runs
      hreflection
    exact ⟨c, hc, Snapshot.classNamed?_eq_iff (Snapshot.mem_entries_of_corlibClass? hc) _⟩
  · obtain ⟨-, hs⟩ := hafter h₁
    obtain ⟨c, hc⟩ := hs.corlibClass_of_ok (Query.rootClass_agrees (.refl hs.sound)).runs hroot
    exact ⟨c, hc, Snapshot.classNamed?_eq_iff (Snapshot.mem_entries_of_corlibClass? hc) _⟩

end Session

/-- Behind an assembly with classes `System.Type` and `System.Object` of its own comes the core
library. -/
def Snapshot.forestalled : Snapshot where
  vmVersion := "2020.3.1f1"
  moduleBase := 0x1000
  assemblies := [
    { image := "Game.dll"
      classes := [
        { «namespace» := "System", name := "Type" },
        { «namespace» := "System", name := "Object" },
        { name := "Pool" }] },
    { image := "mscorlib.dll"
      classes := [
        { «namespace» := "System", name := "Object" },
        { «namespace» := "System", name := "Type" }] }]

/-- The reflection object of `Pool` and its base class are those of the first assembly. -/
theorem Session.bookkeeping_takes_first_forestalled :
    let b := Session.new Snapshot.forestalled.machine ⟨2020, 3, 1, some "f1"⟩ .current
    let c : Class := ⟨Arena.handleAt 6, b.notebook.next⟩
    let v : TypeView := ⟨Arena.handleAt 7, b.notebook.next⟩
    Session.attach Snapshot.forestalled.machine = .ok b ∧
      (∃ root t, Query.rootClass b = .ok root t ∧ root.handle = Arena.handleAt 10) ∧
      (∃ reflection t, Query.reflectionClass b = .ok reflection t ∧
        reflection.handle = Arena.handleAt 12) ∧
      (∃ d? t, c.parent ((Query.view .class_ c.handle).leaves b) = .ok d? t ∧
        d?.map View.handle = some (Arena.handleAt 4)) ∧
      ∃ d t, (do (← v.object).class_ : Query Class) ((Query.view .type v.handle).leaves b) =
        .ok d t ∧ d.handle = Arena.handleAt 2 := by
  intro b c v
  have hvm := Vm.ofSnapshot_machine (s := Snapshot.forestalled) (Or.inr rfl)
  have hattach : Session.attach Snapshot.forestalled.machine = .ok b :=
    Session.attach_eq_ok.mpr ⟨_, _, by decide +kernel, rfl⟩
  have hb := Session.On.of_attach hvm hattach
  have hobject : Snapshot.forestalled.corlibClass? "System" "Object" =
      some (Arena.handleAt 10, Snapshot.forestalled.sites[1].described[0]) := by decide +kernel
  have htype : Snapshot.forestalled.corlibClass? "System" "Type" =
      some (Arena.handleAt 12, Snapshot.forestalled.sites[1].described[1]) := by decide +kernel
  obtain ⟨root, t, hroot, hrootHandle⟩ := hb.exists_corlibClass
    (Query.rootClass_agrees (.refl hb.sound)).runs hobject
  obtain ⟨reflection, u, hreflection, hreflectionHandle⟩ := hb.exists_corlibClass
    (Query.reflectionClass_agrees (.refl hb.sound)).runs htype
  obtain ⟨hall, -⟩ := Session.bookkeeping_takes_first hvm hattach .start hroot .start hreflection
  have hfirstType : Snapshot.forestalled.classNamed? "System.Type" =
      some (Arena.handleAt 2, Snapshot.forestalled.sites[0].described[0]) := by decide +kernel
  have hfirstObject : Snapshot.forestalled.classNamed? "System.Object" =
      some (Arena.handleAt 4, Snapshot.forestalled.sites[0].described[1]) := by decide +kernel
  rw [hfirstType, hfirstObject] at hall
  refine ⟨hattach, ⟨root, t, hroot, hrootHandle⟩, ⟨reflection, u, hreflection, hreflectionHandle⟩,
    ?_, ?_⟩
  · exact (hall _ (.view .start .class_ c.handle)).2
      (Arena.handleAt 6, Snapshot.forestalled.sites[0].described[2]) (by decide +kernel) rfl rfl c
      ⟨by decide +kernel, by decide +kernel⟩ rfl
  · exact (hall _ (.view .start .type v.handle)).1 v
      ⟨by decide +kernel, by decide +kernel⟩
      ⟨⟨"Pool", .classType, Arena.handleAt 6, .null⟩, by decide +kernel⟩

end VmMetadata
