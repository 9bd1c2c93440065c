import VmMetadata.Proofs.Session.Inflations

/-!
Which instantiations are one and the same, along a whole run. A client has classes closed and methods
instantiated, in any order, and does what it likes in between. Main statement: two of the handles
that it gets are the same just if it has asked for the same thing twice and that is a class, or a
method that is compiled for the classes. Any other instantiation of a method is a new one each time,
and its body is that of the method itself.
-/

namespace VmMetadata

variable {s t u : Session} {snapshot : Snapshot} {done : List Inflation}

/-! ## Descriptions of methods -/

/-- The method is described so: it has its place among the methods of a described class, or of such
a class closed over types. -/
def Snapshot.DescribesMethod (snapshot : Snapshot) (vm : Vm) (h : Handle)
    (m : MethodDescription) : Prop :=
  ∃ c d cls ms, snapshot.Describes c d ∧
    (cls = c ∨ ∃ args node n, vm.arena.ClosedOver c args node cls n) ∧
    vm.Tells (.classMethods cls) ms ∧ (m, h) ∈ d.methods.zip ms

theorem Session.On.method_of_describes (hs : s.On snapshot) {h : Handle} {m : MethodDescription}
    (hm : snapshot.DescribesMethod s.vm h m) :
    ∃ node, s.vm.arena.method h = .ok node ∧ node.instantiations = m.instantiations ∧
      node.address = if m.isAbstract then none else m.address := by
  obtain ⟨c, d, cls, ms, hd, hcls, hms, hmem⟩ := hm
  obtain ⟨n, hn⟩ := hs.liesAt hd
  obtain ⟨n', hn', rfl⟩ := Vm.tells_classMethods.mp hms
  rcases hcls with rfl | ⟨args, node, n'', hclosed⟩
  · cases hn.node.symm.trans hn'
    obtain ⟨ret, ps, hnode⟩ := (List.forall₂_iff_zip.mp hn.methods).2 hmem
    exact ⟨_, hnode, rfl, rfl⟩
  · cases hclosed.definition.symm.trans hn.node
    cases hclosed.result.symm.trans hn'
    have hcopies := forall₂_compose (R := fun (m : MethodDescription) j => ∃ node,
        s.vm.arena.method j = .ok node ∧ node.instantiations = m.instantiations ∧
          node.address = if m.isAbstract then none else m.address)
      hn.methods (fun m k j ⟨ret, ps, hk⟩ ⟨node, hnode, hj⟩ => by
        cases hk.symm.trans hnode
        exact ⟨_, hj, rfl, rfl⟩) hclosed.methods
    exact (List.forall₂_iff_zip.mp hcopies).2 hmem

/-! ## Runs -/

namespace Session

/-- A client has had the instantiations made, the last one first. -/
inductive Inflates (s : Session) : Session → List Inflation → Prop
  | start : Inflates s s []
  | onward {t u : Session} {done : List Inflation} (before : Inflates s t done)
      (history : t.History u) : Inflates s u done
  | class_ {t u : Session} {done : List Inflation} (before : Inflates s t done) {c r : Class}
      {cs : List Class} (shown : t.Shows c) (arguments : ∀ d ∈ cs, t.Shows d)
      (run : c.inflate cs t = .ok r u) :
      Inflates s u (⟨.class_ c.handle (cs.map View.handle), r.handle⟩ :: done)
  | method {t u : Session} {done : List Inflation} (before : Inflates s t done) {m r : Method}
      {cs : List Class} (shown : t.Shows m) (arguments : ∀ d ∈ cs, t.Shows d)
      (run : m.inflate cs t = .ok r u) :
      Inflates s u (⟨.method m.handle (cs.map View.handle), r.handle⟩ :: done)

/-- Two instantiations are the same just if they were asked for alike and are shared. -/
def SameIff (s : Session) (i j : Inflation) : Prop :=
  i.result = j.result ↔ i.request = j.request ∧ s.Shares i.request

/-- What is kept along a run. -/
structure Tracks (t : Session) (snapshot : Snapshot) (done : List Inflation) : Prop where
  on : t.On snapshot
  intact : t.Intact
  apart : t.vm.Apart
  known : ∀ i ∈ done, t.Knows i
  same : done.Pairwise t.SameIff

theorem History.course (h : s.History t) : s.Course t := by
  induction h with
  | start => exact .start
  | ask _ asked ih => exact .ask ih asked
  | pull _ kind patience ih => exact .pull ih kind patience
  | write _ d kind now tree ih => exact .write ih d kind now tree

theorem Tracks.onward (h : t.Tracks snapshot done) (history : t.History u) :
    u.Tracks snapshot done := by
  obtain ⟨later, sound⟩ := history.sound h.on
  have onward := history.course.onward h.intact
  refine ⟨h.on.later later sound, onward.intact, onward.machine.apart h.intact.vm h.apart,
    fun i hi => (h.known i hi).later h.on.sound later onward.machine, ?_⟩
  exact h.same.imp_of_mem fun hi _ hsame =>
    hsame.trans (and_congr_right' ((h.known _ hi).shares_iff later).symm)

/-- One more instantiation; if it is not shared it is new. -/
theorem Tracks.cons (h : t.Tracks snapshot done) (history : t.History u) {i : Inflation}
    (hi : u.Knows i) (new : ¬u.Shares i.request → t.vm.arena.get? i.result = none) :
    u.Tracks snapshot (i :: done) := by
  have hu := h.onward history
  refine ⟨hu.on, hu.intact, hu.apart, List.forall_mem_cons.mpr ⟨hi, hu.known⟩,
    List.pairwise_cons.mpr ⟨fun j hj => ?_, hu.same⟩⟩
  refine hi.result_eq_iff hu.intact.vm hu.apart (hu.known j hj) fun hprivate heq => ?_
  obtain ⟨n, hn⟩ := (h.known j hj).exists_node h.intact.vm
  rw [← heq, new hprivate] at hn
  cases hn

theorem Inflates.tracks (hs : s.On snapshot) (intact : s.Intact) (apart : s.vm.Apart)
    (h : s.Inflates t done) : t.Tracks snapshot done := by
  induction h with
  | start => exact ⟨hs, intact, apart, by simp, .nil⟩
  | onward _ history ih => exact ih.onward history
  | class_ _ shown arguments run ih =>
      have history := History.ask .start (.inflateClass shown arguments)
      rw [Query.leaves_of_ok run] at history
      exact ih.cons history (Class.inflate_knows ih.on.sound shown arguments run)
        fun hprivate => absurd trivial hprivate
  | method _ shown arguments run ih =>
      have history := History.ask .start (.inflateMethod shown arguments)
      rw [Query.leaves_of_ok run] at history
      obtain ⟨hi, new⟩ := Method.inflate_knows ih.on.sound shown arguments run
      exact ih.cons history hi new

/-! ## What the instantiations are -/

/-- The instantiation of the method has the body that is compiled for the classes, else the body of
the method itself. It has none as long as the class of the method is open. -/
def HasBody (s : Session) (m : Handle) (as : List Handle) (r : Handle)
    (instantiations : List InstantiationDescription) (own : Option Nat) : Prop :=
  ∃ names cls isOpen, List.Forall₂ s.vm.TellsTypeName as names ∧
    s.vm.Tells (.methodClass m) cls ∧ s.vm.Tells (.classIsGeneric cls) isOpen ∧
    (s.Shares (.method m as) ↔ (compiledAddress? names instantiations).isSome) ∧
    s.vm.Tells (.methodPointer r)
      (if isOpen then 0 else ((compiledAddress? names instantiations).or own).getD 0)

theorem Knows.hasBody (wf : s.vm.WellFormed) {m r : Handle} {as : List Handle}
    (h : s.Knows ⟨.method m as, r⟩) :
    ∃ node, s.vm.arena.method m = .ok node ∧
      s.HasBody m as r node.instantiations node.address := by
  obtain ⟨cs, types, rfl, typesOf, spans⟩ : ∃ cs types, as = cs.map View.handle ∧
      s.TypesOf cs types ∧ s.vm.arena.InstantiatedOver m types r := by
    cases h with
    | compiled _ typesOf spans _ _ | made _ typesOf spans _ _ => exact ⟨_, _, rfl, typesOf, spans⟩
  obtain ⟨node, names, hnode, hnames, hr⟩ := spans
  obtain ⟨⟨cls, hcls⟩, _⟩ := wf.arena.method hnode
  have hnames := typesOf.tellsTypeNames hnames
  have tells : s.TellsCompiled m (cs.map View.handle) (compiledAddress? names node.instantiations) :=
    ⟨node, names, hnode, hnames, rfl⟩
  refine ⟨node, hnode, names, node.class, cls.isOpen, hnames,
    Vm.tells_methodClass.mpr ⟨node, hnode, rfl⟩,
    Vm.tells_classIsGeneric.mpr ⟨cls, hcls, rfl⟩, ?_, ?_⟩
  · refine ⟨fun ⟨address, haddress⟩ => ?_, fun hsome => ?_⟩
    · rw [tells.unique haddress]
      rfl
    · obtain ⟨address, haddress⟩ := Option.isSome_iff_exists.mp hsome
      exact ⟨address, haddress ▸ tells⟩
  · have hpointer := Vm.tells_methodPointer hr hcls
    simpa [MethodNode.instantiated] using hpointer

theorem Arguable.congr {cs cs' : List Class} (h : s.Arguable cs)
    (hsame : cs.map View.handle = cs'.map View.handle) : s.Arguable cs' := by
  refine ⟨?_, fun c hc => ?_, h.reflection⟩
  · rw [← List.length_map (f := View.handle), ← hsame, List.length_map]
    exact h.count
  · have hmem := List.mem_map_of_mem (f := View.handle) hc
    rw [← hsame] at hmem
    obtain ⟨c', hc', heq⟩ := List.mem_map.mp hmem
    exact heq ▸ h.classes c' hc'

/-- What was asked for can be asked for again. -/
theorem Knows.canClose {c r : Handle} {cs : List Class}
    (h : s.Knows ⟨.class_ c (cs.map View.handle), r⟩) : s.CanClose c cs := by
  generalize hq : (⟨.class_ c (cs.map View.handle), r⟩ : Inflation) = i at h
  cases h with
  | class_ can _ _ =>
      injection hq with hq _
      obtain ⟨rfl, hsame⟩ := Inflation.Request.class_.inj hq
      obtain ⟨d, hd, hopen, harity⟩ := can.definition
      have hlength := congrArg List.length hsame
      rw [List.length_map, List.length_map] at hlength
      exact ⟨can.arguable.congr hsame.symm, d, hd, hopen, harity.trans hlength.symm⟩
  | compiled | made => cases hq

theorem Knows.canInstantiate {m r : Handle} {cs : List Class}
    (h : s.Knows ⟨.method m (cs.map View.handle), r⟩) : s.CanInstantiate m cs := by
  generalize hq : (⟨.method m (cs.map View.handle), r⟩ : Inflation) = i at h
  cases h with
  | class_ => cases hq
  | compiled can _ _ _ _ | made can _ _ _ _ =>
      injection hq with hq _
      obtain ⟨rfl, hsame⟩ := Inflation.Request.method.inj hq
      obtain ⟨d, types, hd, hopen, harity, htypes, htakes⟩ := can.definition
      have hlength := congrArg List.length hsame
      rw [List.length_map, List.length_map] at hlength
      exact ⟨can.arguable.congr hsame.symm, d, types, hd, hopen, harity.trans hlength.symm,
        htypes.of_handles hsame.symm, htakes⟩

/-- What the instantiations are that a client has had made, and which of them are the same. -/
structure Identity (t : Session) (snapshot : Snapshot) (done : List Inflation) : Prop where
  same : done.Pairwise t.SameIff
  /-- A method that is not shared was nothing at all before. -/
  new : ∀ {m r : Method} {cs : List Class} {u : Session}, t.Shows m → (∀ d ∈ cs, t.Shows d) →
    m.inflate cs t = .ok r u → ¬u.Shares (.method m.handle (cs.map View.handle)) →
      t.vm.arena.get? r.handle = none
  body : ∀ {m r : Handle} {as : List Handle}, ⟨.method m as, r⟩ ∈ done →
    ∃ node, t.vm.arena.method m = .ok node ∧
      t.HasBody m as r node.instantiations node.address ∧
      ∀ d, snapshot.DescribesMethod t.vm m d → t.HasBody m as r d.instantiations
        (if d.isAbstract then none else d.address)
  /-- A class can be closed over and over again. -/
  closes : ∀ {c : Class} {cs : List Class}, t.Shows c → (∀ d ∈ cs, t.Shows d) →
    (t.CanClose c.handle cs ∨ ∃ r, ⟨.class_ c.handle (cs.map View.handle), r⟩ ∈ done) →
      ∃ r u, c.inflate cs t = .ok r u
  /-- So can a method be instantiated. -/
  instantiates : ∀ {m : Method} {cs : List Class}, t.Shows m → (∀ d ∈ cs, t.Shows d) →
    (t.CanInstantiate m.handle cs ∨ ∃ r, ⟨.method m.handle (cs.map View.handle), r⟩ ∈ done) →
      ∃ r u, m.inflate cs t = .ok r u

theorem Tracks.settled (h : t.Tracks snapshot done) : t.Identity snapshot done where
  same := h.same
  new hm hcs run := (Method.inflate_knows h.on.sound hm hcs run).2
  body hmem := by
    obtain ⟨node, hnode, hbody⟩ := (h.known _ hmem).hasBody h.intact.vm
    refine ⟨node, hnode, hbody, fun d hd => ?_⟩
    obtain ⟨node', hnode', hinstantiations, haddress⟩ := h.on.method_of_describes hd
    cases hnode.symm.trans hnode'
    exact haddress ▸ hinstantiations ▸ hbody
  closes {c cs} hc hcs can := by
    have can : t.CanClose c.handle cs := can.elim id fun ⟨r, hr⟩ => (h.known _ hr).canClose
    obtain ⟨r, u, run, _⟩ := ((Class.inflate_agrees (.refl h.on.sound) hc hcs).runs.weaken
      (fun _ _ _ hv => hv) fun hno => hno can).exists_ok
    exact ⟨r, u, run⟩
  instantiates {m cs} hm hcs can := by
    have can : t.CanInstantiate m.handle cs :=
      can.elim id fun ⟨r, hr⟩ => (h.known _ hr).canInstantiate
    obtain ⟨r, u, run, _⟩ := ((Method.inflate_agrees (.refl h.on.sound) hm hcs).runs.weaken
      (fun _ _ _ hv => hv) fun hno => hno can).exists_ok
    exact ⟨r, u, run⟩

/-- Whatever a client does, it gets a class that it closes over the same classes but once, and so a
method that is compiled for the classes. Every other instantiation of a method is new. -/
theorem Inflates.identity {vm : Vm} {config : Config} (hvm : Vm.ofSnapshot snapshot = .ok vm)
    (hattach : Session.attach vm config = .ok s) (run : s.Inflates t done) :
    t.Identity snapshot done := by
  obtain ⟨version, layout, _, rfl⟩ := Session.attach_eq_ok.mp hattach
  exact (run.tracks (Session.On.of_attach hvm hattach)
    (Session.intact_new (Vm.wellFormed_ofSnapshot hvm) version layout)
    (Vm.apart_ofSnapshot hvm)).settled

end Session

/-- A class with a generic method that is compiled for the root class. -/
def Snapshot.making : Snapshot :=
  { Snapshot.small with
    assemblies :=
      { image := "Game.dll"
        classes := [
          { name := "Maker"
            methods := [
              { name := "Make", returnType := "T", typeParameters := ["T"], address := some 0x1040,
                instantiations := [{ arguments := ["object"], address := 0x1060 }] }] }] } ::
        Snapshot.small.assemblies.drop 1 }

theorem Session.Inflates.identity_making :
    let s := Session.new Snapshot.making.machine ⟨2020, 3, 1, some "f1"⟩ .current
    ∃ (t : Session) (m object type a a' b b' : Handle),
      s.Inflates t [⟨.method m [type], b'⟩, ⟨.method m [type], b⟩, ⟨.method m [object], a'⟩,
        ⟨.method m [object], a⟩] ∧
      a = a' ∧ b ≠ b' ∧ t.vm.Tells (.methodPointer a) 0x1060 ∧
      t.vm.Tells (.methodPointer b) 0x1040 := by
  intro s
  have hvm := Vm.ofSnapshot_machine (s := Snapshot.making) (Or.inr rfl)
  have hattach : Session.attach Snapshot.making.machine = .ok s :=
    Session.attach_eq_ok.mpr ⟨_, _, by decide +kernel, rfl⟩
  -- the client looks at the method and at two classes
  let m : Method := ⟨Arena.handleAt 12, s.notebook.next⟩
  let v := (Query.view .method m.handle).leaves s
  let object : Class := ⟨Arena.handleAt 6, v.notebook.next⟩
  let w := (Query.view .class_ object.handle).leaves v
  let type : Class := ⟨Arena.handleAt 8, w.notebook.next⟩
  let t := (Query.view .class_ type.handle).leaves w
  have history : s.History t :=
    ((Session.History.start.view .method m.handle).view .class_ object.handle).view .class_ type.handle
  have hs := Session.On.of_attach hvm hattach
  obtain ⟨later, sound⟩ := history.sound hs
  have ht := hs.later later sound
  have hm : t.Shows m := ⟨by decide +kernel, by decide +kernel⟩
  have hshown : ∀ c ∈ [object, type], t.Shows c := by
    simpa using ⟨⟨by decide +kernel, by decide +kernel⟩, by decide +kernel, by decide +kernel⟩
  -- what is described
  have hmaker : Snapshot.making.Describes (Arena.handleAt 2) Snapshot.making.sites[0].described[0] :=
    Snapshot.describes_of_site (i := 0) (by decide) (by decide +kernel)
  have hobject : Snapshot.making.Describes object.handle
      Snapshot.making.sites[1].described[0] :=
    Snapshot.describes_of_site (i := 1) (by decide) (by decide +kernel)
  have htype : Snapshot.making.Describes type.handle Snapshot.making.sites[1].described[1] :=
    Snapshot.describes_of_site (i := 1) (by decide) (by decide +kernel)
  obtain ⟨maker, hmaker'⟩ := ht.liesAt hmaker
  have hmethods : (t.vm.arena.class_ (Arena.handleAt 2)).toOption.map ClassNode.methods =
      some [m.handle] := by decide +kernel
  rw [hmaker'.node] at hmethods
  have hmethods : maker.methods = [m.handle] := Option.some.inj hmethods
  obtain ⟨root, hroot⟩ := ht.liesAt hobject
  obtain ⟨mirror, hmirror⟩ := ht.liesAt htype
  have hmake := hmaker'.methods
  rw [hmethods] at hmake
  obtain ⟨⟨ret, ps, hmake⟩, _⟩ := List.forall₂_cons.mp hmake
  have can : ∀ c ∈ [object, type], t.CanInstantiate m.handle [c] := by
    intro c hc
    have hcount : [c].length < 0x1_0000_0000 := Nat.one_lt_two_pow (n := 32) (by decide)
    have hclasses : ∀ d ∈ [c], t.vm.arena.HasClass d.handle := by
      rcases List.mem_pair.mp hc with rfl | rfl
      · simpa using ⟨_, hroot.node⟩
      · simpa using ⟨_, hmirror.node⟩
    obtain ⟨types, htypes⟩ := Session.TypesOf.exists sound.vm hclasses
    exact .of_count ⟨hcount, hclasses, ht.knowsClass_iff.mpr (by decide +kernel)⟩ hmake
      (List.cons_ne_nil _ _) rfl htypes
  -- it instantiates the method over either of them twice
  have next : ∀ {u : Session} {done : List Inflation}, s.Inflates u done → t.Later u → u.Sound →
      ∀ c ∈ [object, type], ∃ (r : Handle) (x : Session),
        s.Inflates x (⟨.method m.handle [c.handle], r⟩ :: done) ∧ t.Later x ∧ x.Sound := by
    intro u done run hlater hsound c hc
    have hm := hm.later hlater
    have hc' : ∀ d ∈ [c], u.Shows d := by simpa using (hshown c hc).later hlater
    obtain ⟨r, x, hrun⟩ := (run.identity hvm hattach).instantiates hm hc'
      (Or.inl ((can c hc).later hlater))
    obtain ⟨hlater', hsound', _⟩ := (Method.inflate_agrees (.refl hsound) hm hc').runs.of_ok hrun
    exact ⟨_, x, .method run hm hc' hrun, hlater.trans hlater', hsound'⟩
  obtain ⟨a, u, run, later, sound⟩ :=
    next (.onward .start history) (.refl t) sound object (by simp)
  obtain ⟨a', u, run, later, sound⟩ := next run later sound object (by simp)
  obtain ⟨b, u, run, later, sound⟩ := next run later sound type (by simp)
  obtain ⟨b', u, run, later, sound⟩ := next run later sound type (by simp)
  refine ⟨u, m.handle, object.handle, type.handle, a, a', b, b', run, ?_⟩
  have identity := run.identity hvm hattach
  -- what is compiled is read off the description
  have reads : ∀ {c r : Handle} {name : String}, u.vm.TellsTypeName c name →
      ⟨.method m.handle [c], r⟩ ∈ [(⟨.method m.handle [type.handle], b'⟩ : Inflation),
        ⟨.method m.handle [type.handle], b⟩, ⟨.method m.handle [object.handle], a'⟩,
        ⟨.method m.handle [object.handle], a⟩] →
      let address? := compiledAddress? [name] [{ arguments := ["object"], address := 0x1060 }]
      (u.Shares (.method m.handle [c]) ↔ address?.isSome) ∧
        u.vm.Tells (.methodPointer r) ((address?.or (some 0x1040)).getD 0) := by
    intro c r name hname hmem
    obtain ⟨node, hnode, ⟨names, cls, isOpen, hnames, hcls, hopen, hshares, hpointer⟩, _⟩ :=
      identity.body hmem
    cases hnode.symm.trans (later.vm.arena.method hmake)
    cases List.right_unique_forall₂' (fun _ _ _ hn hn' => hn.unique hn') hnames (.cons hname .nil)
    cases hcls.unique (Vm.tells_methodClass.mpr ⟨_, hnode, rfl⟩)
    have hclosed : maker.isOpen = false := hmaker'.isOpen_eq.trans (by decide +kernel)
    cases hopen.unique (Vm.tells_classIsGeneric.mpr
      ⟨maker, later.vm.arena.class_ hmaker'.node, hclosed.symm⟩)
    exact ⟨hshares, hpointer⟩
  obtain ⟨hshared, ha⟩ := reads (r := a) (hroot.tellsTypeName.later later.vm) (by simp)
  obtain ⟨hprivate, hb⟩ := reads (r := b) (hmirror.tellsTypeName.later later.vm) (by simp)
  obtain ⟨hfirst, hrest⟩ := List.pairwise_cons.mp identity.same
  obtain ⟨_, hrest⟩ := List.pairwise_cons.mp hrest
  obtain ⟨hsecond, _⟩ := List.pairwise_cons.mp hrest
  refine ⟨?_, ?_, ha, hb⟩
  · exact ((hsecond _ (List.mem_singleton.mpr rfl)).mpr ⟨rfl, hshared.mpr (by decide +kernel)⟩).symm
  · rintro rfl
    exact absurd (hprivate.mp ((hfirst _ List.mem_cons_self).mp rfl).2) (by decide +kernel)

end VmMetadata
