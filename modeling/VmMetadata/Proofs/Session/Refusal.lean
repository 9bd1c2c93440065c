import VmMetadata.Proofs.Session.Described

/-!
Queries that fail, and with which error. A generic definition cannot be closed over the root class
if the core library lacks that class or the class of reflection objects, or if it has more type
parameters than it counts; which of these errors it is follows from the description alone. Main
statements: the closed stand-ins of classes and methods fail with just this error.
-/

namespace VmMetadata

open Query (Agree Agrees Runs)

namespace Query

/-! ## Failing queries -/

/-- The query fails with the error, and leaves the session later and sound. -/
def Fails (x : Query α) (s : Session) (e : Error) : Prop :=
  ∃ t, x s = .error e t ∧ s.Later t ∧ t.Sound

variable {s : Session} {e : Error} {x : Query α} {P : α → Session → Prop} {E : Prop}

namespace Fails

theorem throw (hs : s.Sound) (e : Error) : Fails (MonadExcept.throw e : Query α) s e :=
  ⟨s, rfl, .refl s, hs⟩

theorem bind (h : Fails x s e) (f : α → Query β) : Fails (x >>= f) s e := by
  obtain ⟨t, run, later, sound⟩ := h
  exact ⟨t, bind_error run, later, sound⟩

/-- What comes in front succeeds. -/
theorem after {f : α → Query β} (hx : Runs x s P False)
    (hf : ∀ a t, s.Later t → t.Sound → P a t → Fails (f a) t e) : Fails (x >>= f) s e := by
  cases hx with
  | @ok a t run later sound post =>
      obtain ⟨u, run', later', sound'⟩ := hf a t later sound post
      exact ⟨u, (bind_ok run).trans run', later.trans later', sound'⟩
  | error _ _ _ impossible => exact impossible.elim

theorem ask (hs : s.Sound) {c : Call r} (h : Vm.answer c s.vm = .error e s.vm) :
    Fails (Query.ask c) s e := by
  refine ⟨s.called c s.vm, ?_, Session.later_called c (.refl _), hs.called c (.refl _) hs.vm⟩
  rw [ask_apply hs, h]

theorem get {f : Session → Query α} (hf : Fails (f s) s e) :
    Fails (MonadState.get >>= f) s e := by
  obtain ⟨t, run, later, sound⟩ := hf
  exact ⟨t, run, later, sound⟩

/-- Nothing can be noted of what is not so. -/
theorem remember {page : Nat} {k : Handle} {f : Fact} {find : Query f.Value} (hs : s.Sound)
    (hp : s.notebook.shown? page = some k) (hnone : ∀ v, ¬f.Holds s k v) (h : Fails find s e) :
    Fails (Query.remember page f find) s e := by
  obtain ⟨t, run, later, sound⟩ := h
  refine ⟨t, ?_, later, sound⟩
  cases hfound : s.notebook.find? page f with
  | some v => exact absurd (hs.notes page k f v hp hfound) (hnone v)
  | none => rw [remember_miss hfound, run]

/-- The first of the elements that fails decides. -/
theorem mapM {f : α → Query β} {G : δ → α → Prop} {error? : δ → Option Error} :
    ∀ {ds : List δ} {as : List α} {s : Session}, s.Sound → List.Forall₂ G ds as →
      ds.findSome? error? = some e →
      (∀ d a t, G d a → s.Later t → t.Sound →
        (error? d = none → Runs (f a) t (fun _ _ => True) False) ∧
          ∀ e, error? d = some e → Fails (f a) t e) →
      Fails (as.mapM f) s e
  | _, _, _, _, .nil, hfirst, _ => by cases hfirst
  | d :: ds, a :: as, s, hs, .cons ha has, hfirst, hf => by
      rw [List.mapM_cons]
      rw [List.findSome?_cons] at hfirst
      obtain ⟨hok, herror⟩ := hf d a s ha (.refl s) hs
      cases hd : error? d with
      | some e' =>
          rw [hd] at hfirst
          cases hfirst
          exact (herror _ hd).bind _
      | none =>
          rw [hd] at hfirst
          refine .after (hok hd) fun b t later sound _ => .bind ?_ _
          exact mapM sound has hfirst fun d a u hg later' => hf d a u hg (later.trans later')

end Fails

end Query

open Query (Fails)

/-! ## Classes of the core library -/

/-- What is said where the core library lacks a class. -/
def missingClass : Error := .invalidHandle "corlib class" .null

/-- Where no class of the name is described, none is found. -/
theorem Vm.findClass_missing {a : Arena} {namespace_ name : String} {cs : List ClassDescription}
    {hs : List Handle} (h : List.Forall₂ (fun c k => ∃ n, c.LiesAt a k n) cs hs)
    (hd : firstNamed? namespace_ name cs = none) :
    Vm.findClass a namespace_ name hs = .ok .null := by
  induction h with
  | nil => rfl
  | @cons c k cs hs hck _ ih =>
      obtain ⟨n, hn⟩ := hck
      unfold firstNamed? at hd ih
      rw [List.find?_eq_none] at hd
      have hc : ¬(c.namespace = namespace_ ∧ c.name = name) := by
        simpa using hd c List.mem_cons_self
      rw [Vm.findClass_cons hn, if_neg hc]
      exact ih (List.find?_eq_none.mpr fun d hd' => hd d (List.mem_cons_of_mem c hd'))

namespace Session.On

variable {s : Session} {snapshot : Snapshot} (hs : s.On snapshot) {namespace_ name : String}
include hs

theorem tells_missing (hd : firstNamed? namespace_ name snapshot.corlibSite.described = none) :
    s.vm.Tells (.classFromName s.vm.corlib namespace_ name) .null := by
  have hmem := snapshot.corlibSite_mem
  refine Access.lift_eq_ok.mpr ⟨?_, rfl⟩
  rw [hs.corlib, hs.image hmem]
  change Vm.findClass s.vm.arena namespace_ name snapshot.corlibSite.node.classes.toList = .ok .null
  rw [Site.node, List.toList_toArray]
  exact Vm.findClass_missing (hs.presents hmem) hd

/-- A session knows just the classes of the core library that are described. -/
theorem knowsClass_iff : (∃ k, s.KnowsClass namespace_ name k) ↔
    (firstNamed? namespace_ name snapshot.corlibSite.described).isSome := by
  cases hd : firstNamed? namespace_ name snapshot.corlibSite.described with
  | some d =>
      obtain ⟨k, _, hk, _⟩ := hs.knowsClass hd
      exact ⟨fun _ => rfl, fun _ => ⟨k, hk⟩⟩
  | none =>
      refine ⟨fun ⟨k, hk⟩ => ?_, fun h => (by cases h)⟩
      exact absurd (hk.2.unique (hs.tells_missing hd)) hk.1

theorem corlibClass_fails
    (hd : firstNamed? namespace_ name snapshot.corlibSite.described = none) :
    Fails (Query.corlibClass namespace_ name) s missingClass := by
  have hcorlib : s.vm.Tells .corlib s.vm.corlib := rfl
  obtain ⟨n, hn⟩ := hs.sound.vm.corlib
  have hne := Arena.ne_null_of_get? (Arena.image_eq_ok.mp hn)
  refine .after (Runs.known hs.sound hcorlib) fun image t later sound himage => ?_
  obtain ⟨rfl, _⟩ := himage
  rw [Handle.require_of_ne_null hne]
  have hsame : t.vm.corlib = s.vm.corlib := congrArg Catalog.corlib later.vm.catalog
  have htells := (hs.later later sound).tells_missing hd
  rw [hsame] at htells
  refine .after (.pure (P := fun image u => image = s.vm.corlib ∧ u = t) sound ⟨rfl, rfl⟩)
    fun image u _ _ himage => ?_
  obtain ⟨rfl, rfl⟩ := himage
  refine .after (Runs.known sound htells) fun k v _ sound' hk => ?_
  obtain ⟨rfl, _⟩ := hk
  exact ⟨v, rfl, .refl v, sound'⟩

theorem rootClass_fails
    (hd : firstNamed? "System" "Object" snapshot.corlibSite.described = none) :
    Fails Query.rootClass s missingClass :=
  (Fails.remember (f := .rootClass) hs.sound hs.sound.front (fun v hv => by
    have := hs.knowsClass_iff.mp ⟨v, hv⟩
    rw [hd] at this
    cases this) (hs.corlibClass_fails hd)).bind _

theorem reflectionClass_fails
    (hd : firstNamed? "System" "Type" snapshot.corlibSite.described = none) :
    Fails Query.reflectionClass s missingClass :=
  (Fails.remember (f := .reflectionClass) hs.sound hs.sound.front (fun v hv => by
    have := hs.knowsClass_iff.mp ⟨v, hv⟩
    rw [hd] at this
    cases this) (hs.corlibClass_fails hd)).bind _

end Session.On

/-! ## Arguments -/

/-- What a definition says to another number of types than it has type parameters. -/
def arityRefusal? (name : String) (expected found : Nat) : Option Refusal :=
  if expected = found then none else some (.wrongArity name expected)

/-- What a generic method says to types of these names. It takes those that it is compiled for. -/
def instantiationRefusal? (name : String) (typeParameters : List String)
    (instantiations : List InstantiationDescription) (names : List String) : Option Refusal :=
  if (compiledAddress? names instantiations).isSome then none
  else arityRefusal? name typeParameters.length names.length

namespace Snapshot

/-- Why no definition can be closed, or why one that says so cannot. -/
def inflateError? (s : Snapshot) (refusal? : Option Refusal) : Option Error :=
  if (firstNamed? "System" "Type" s.corlibSite.described).isNone then some missingClass
  else refusal?.map .accessor

/-- Why the root class cannot take the place of type parameters. -/
def fillError? (s : Snapshot) (refusal? : Option Refusal) : Option Error :=
  if (firstNamed? "System" "Object" s.corlibSite.described).isNone then some missingClass
  else s.inflateError? refusal?

/-- The type name of the root class, if the core library has one. -/
def rootName (s : Snapshot) : String :=
  ((firstNamed? "System" "Object" s.corlibSite.described).map ClassDescription.typeName).getD ""

/-- Where there are reflection objects, the definition decides. -/
theorem inflateError?_eq {s : Snapshot}
    (hreflection : (firstNamed? "System" "Type" s.corlibSite.described).isSome)
    (refusal? : Option Refusal) : s.inflateError? refusal? = refusal?.map .accessor := by
  unfold inflateError?
  rw [if_neg (by simpa [Option.isSome_iff_ne_none] using hreflection)]

end Snapshot

theorem arityRefusal?_eq_none {name : String} {expected found : Nat} :
    arityRefusal? name expected found = none ↔ expected = found := by
  simp [arityRefusal?]

/-- A method takes types just if it says nothing to their names. -/
theorem Arena.takes_iff {a : Arena} {m : MethodNode} {types : List Handle} {names : List String}
    (hnames : List.Forall₂ a.NamesType types names) : a.Takes m types ↔
      instantiationRefusal? m.name m.typeParameters m.instantiations names = none := by
  unfold instantiationRefusal?
  split
  · rename_i hcompiled
    obtain ⟨address, haddress⟩ := Option.isSome_iff_exists.mp hcompiled
    exact ⟨fun _ => rfl, fun _ => .inl ⟨names, address, hnames, haddress⟩⟩
  · rename_i hcompiled
    rw [arityRefusal?_eq_none, ← hnames.length_eq]
    refine or_iff_right ?_
    rintro ⟨names', address, hnames', haddress⟩
    cases Arena.namesTypes_unique hnames' hnames
    exact hcompiled (haddress ▸ rfl)

namespace Access

variable {vm : Vm} (wf : vm.WellFormed) {array : Handle} {types : List Handle}
  (hargs : vm.arena.Arguments array types) {refusal : Refusal}
include hargs

include wf in
/-- What is on record has been closed over as many types as its definition takes. -/
theorem inflateClass_refuses {cls : Handle} {d : ClassNode} (hd : vm.arena.class_ cls = .ok d)
    (hopen : d.isOpen = true)
    (h : arityRefusal? d.fullName d.typeParameters.length types.length = some refusal) :
    inflateClass cls array vm = .error (.accessor refusal) vm := by
  unfold arityRefusal? at h
  split at h
  · cases h
  · rename_i harity
    cases h
    rw [inflateClass, bind_ok (typeArguments_eq_ok.mpr ⟨rfl, hargs⟩)]
    cases hfind : Instance.find? cls types vm.classInstances with
    | some r =>
        obtain ⟨d', _, hclosed⟩ := wf.classInstances _ (mem_of_find? hfind)
        cases hclosed.definition.symm.trans hd
        exact absurd hclosed.arity harity
    | none =>
        change (read (·.classInstances) >>= _) vm = _
        rw [bind_ok (rfl : read (·.classInstances) vm = .ok vm.classInstances vm), hfind]
        change closeNew cls types vm = _
        rw [closeNew, bind_ok (classNode_eq_ok.mpr ⟨hd, rfl⟩), hopen, Bool.not_true,
          if_neg Bool.false_ne_true, if_pos harity]
        rfl

theorem inflateMethodRaw_refuses {method : Handle} {m : MethodNode}
    (hm : vm.arena.method method = .ok m)
    (h : arityRefusal? m.name m.typeParameters.length types.length = some refusal) :
    inflateMethodRaw method array vm = .error (.accessor refusal) vm := by
  unfold arityRefusal? at h
  split at h
  · cases h
  · rename_i harity
    cases h
    rw [inflateMethodRaw, bind_ok (typeArguments_eq_ok.mpr ⟨rfl, hargs⟩),
      bind_ok (methodNode_eq_ok.mpr ⟨hm, rfl⟩), if_pos harity]
    rfl

end Access

/-- No instantiation is on record that the method would not take, and no new one is made. -/
theorem Method.instantiate_fails {s : Session} (hs : s.Sound) {m : Method} {array : ArrayView}
    {types : List Handle} (hargs : s.vm.arena.Arguments array.handle types) {n : MethodNode}
    (hn : s.vm.arena.method m.handle = .ok n) {names : List String}
    (hnames : List.Forall₂ s.vm.arena.NamesType types names) {refusal : Refusal}
    (h : instantiationRefusal? n.name n.typeParameters n.instantiations names = some refusal) :
    Fails (m.instantiate array) s (.accessor refusal) := by
  unfold instantiationRefusal? at h
  split at h
  · cases h
  · rename_i hcompiled
    refine .after ((Agree.ask (.refl hs) (c := .methodFindInflated m.handle array.handle) rfl
      (Access.findInflatedMethod_steps hs.vm m.handle array.handle)).runs.weaken
      (fun _ _ _ hk => hk) fun hno => hno ⟨types, n, hargs, hn⟩) fun k t later sound hk => ?_
    obtain ⟨types', hargs', ⟨n', names', hn', hnames', hnull⟩, hsame⟩ := hk
    cases Access.arguments_unique hargs' hargs
    cases Arena.namesTypes_unique hnames' hnames
    cases hn'.symm.trans hn
    rw [Option.not_isSome_iff_eq_none.mp hcompiled] at hnull
    simp only [] at hnull
    subst hnull
    have hvm := hsame rfl
    refine .ask sound ?_
    rw [hvm]
    exact Access.inflateMethodRaw_refuses hargs hn (hnames.length_eq ▸ h)

namespace Session.On

variable {s : Session} {snapshot : Snapshot} (hs : s.On snapshot)
include hs

theorem namesType_rootName {type : Handle} (htype : s.RootType type) :
    s.vm.arena.NamesType type snapshot.rootName := by
  obtain ⟨root, hroot, _⟩ := id htype
  obtain ⟨d, hd⟩ := Option.isSome_iff_exists.mp (hs.knowsClass_iff.mp ⟨root, hroot⟩)
  unfold Snapshot.rootName
  rw [hd]
  exact hs.namesType_root hd htype

theorem canFill {refusal? : Option Refusal} (h : snapshot.fillError? refusal? = none) :
    s.CanFill ∧ refusal? = none := by
  unfold Snapshot.fillError? Snapshot.inflateError? at h
  split at h
  · cases h
  · rename_i hroot
    split at h
    · cases h
    · rename_i hreflection
      exact ⟨⟨hs.knowsClass_iff.mpr (by simpa [Option.isSome_iff_ne_none] using hroot),
        hs.knowsClass_iff.mpr (by simpa [Option.isSome_iff_ne_none] using hreflection)⟩,
        by simpa using h⟩

theorem canFillMethod {n : MethodNode} (h : snapshot.fillError? (instantiationRefusal? n.name
      n.typeParameters n.instantiations
      (List.replicate (word32 n.typeParameters.length) snapshot.rootName)) = none) :
    s.CanFillMethod n := by
  obtain ⟨hfill, hnone⟩ := hs.canFill h
  obtain ⟨root, hroot⟩ := hfill.root
  obtain ⟨type, htype, _⟩ := hs.sound.vm.tells_classType hroot.hasClass
  have hnames := forall₂_replicate (hs.namesType_rootName ⟨root, hroot, htype⟩)
    (word32 n.typeParameters.length)
  exact ⟨hfill, type, ⟨root, hroot, htype⟩, (Arena.takes_iff hnames).mpr hnone⟩

/-- What is done with the array of the arguments fails if there is no such array, or as it says
itself. -/
theorem argumentArray_fails {cs : List Class} (hcs : ∀ c ∈ cs, s.Shows c)
    (hclasses : ∀ c ∈ cs, s.vm.arena.HasClass c.handle) (hcount : cs.length < 0x1_0000_0000)
    {refusal? : Option Refusal} {e : Error} (h : snapshot.inflateError? refusal? = some e)
    {f : ArrayView → Query α}
    (hf : ∀ array types t, s.Later t → t.Sound → t.TypesOf cs types →
      t.vm.arena.Arguments array.handle types → ∀ refusal, refusal? = some refusal →
      Fails (f array) t (.accessor refusal)) : Fails (argumentArray cs >>= f) s e := by
  unfold Snapshot.inflateError? at h
  split at h
  · rename_i hnone
    cases h
    refine .bind (.after ((typeObjects_agrees (.refl hs.sound) hcs).runs.weaken
      (fun _ _ _ ho => ho) fun hno => hno hclasses) fun objects t later sound _ => ?_) f
    exact ((hs.later later sound).reflectionClass_fails (by simpa using hnone)).bind _
  · rename_i hsome
    obtain ⟨refusal, hrefusal, rfl⟩ := Option.map_eq_some_iff.mp h
    have harguable : s.Arguable cs :=
      ⟨hcount, hclasses, hs.knowsClass_iff.mpr (by simpa [Option.isSome_iff_ne_none] using hsome)⟩
    refine .after ((argumentArray_agrees (.refl hs.sound) hcs).runs.weaken (fun _ _ _ ha => ha)
      fun hno => hno harguable) fun array t later sound harray => ?_
    obtain ⟨_, types, htypes, hargs⟩ := harray
    exact hf array types t later sound htypes hargs refusal hrefusal

end Session.On

/-! ## Definitions -/

/-- Once its name and the number of its type parameters are read, a generic method fails as the check
of the arguments does, or what comes behind it. -/
theorem Method.inflate_fails_of_check {s : Session} (hs : s.Sound) {m : Method} (hm : s.Shows m)
    {n : MethodNode} (hn : s.vm.arena.method m.handle = .ok n) (hgeneric : n.typeParameters ≠ [])
    {cs : List Class} {e : Error}
    (h : ∀ t, s.Later t → t.Sound → Fails (do
      checkArity n.name (word32 n.typeParameters.length) cs
      Query.view .method (← m.instantiate (← argumentArray cs))) t e) :
    Fails (m.inflate cs) s e := by
  unfold Method.inflate
  have hname := Vm.tells_methodName.mpr ⟨n, hn, rfl⟩
  refine .after (Agree.known rfl hname (name_agrees (.refl hs) hm)).runs
    fun name t later sound hname => ?_
  have hopen := Vm.tells_methodIsGeneric.mpr ⟨n, later.vm.arena.method hn, rfl⟩
  refine .after (Agree.known rfl hopen (isGeneric_agrees (.refl sound) (hm.later later))).runs
    fun _ u later' sound' heq => ?_
  rw [heq, show (!n.typeParameters.isEmpty) = true by simpa using hgeneric]
  have later := later.trans later'
  have hcount := Vm.tells_methodTypeParameterCount.mpr ⟨n, later.vm.arena.method hn, rfl⟩
  refine .after (Agree.known rfl hcount
    (typeParameterCount_agrees (.refl sound') (hm.later later))).runs
    fun _ v later' sound'' heq => ?_
  rw [heq, hname]
  exact h v (later.trans later') sound''

/-- Another number of classes than a generic method counts type parameters is refused. -/
theorem Method.inflate_of_arity {s : Session} (hs : s.Sound) {m : Method} (hm : s.Shows m)
    {n : MethodNode} (hn : s.vm.arena.method m.handle = .ok n) (hgeneric : n.typeParameters ≠ [])
    {cs : List Class} (harity : cs.length ≠ word32 n.typeParameters.length) :
    Fails (m.inflate cs) s
      (.genericArity n.name (word32 n.typeParameters.length) cs.length) := by
  refine inflate_fails_of_check hs hm hn hgeneric fun t _ sound => .bind ?_ _
  unfold checkArity
  rw [if_neg harity]
  exact .throw sound _

section

variable {s : Session} {snapshot : Snapshot} (hs : s.On snapshot) {e : Error}
include hs

/-- Closing a definition over as many classes as it counts type parameters fails if there are no
reflection objects, or if it has more of them. -/
theorem Class.inflate_fails {c : Class} (hc : s.Shows c) {n : ClassNode}
    (hn : s.vm.arena.class_ c.handle = .ok n) (hopen : n.isOpen = true) {cs : List Class}
    (harity : word32 n.typeParameters.length = cs.length) (hcs : ∀ d ∈ cs, s.Shows d)
    (hclasses : ∀ d ∈ cs, s.vm.arena.HasClass d.handle)
    (h : snapshot.inflateError?
      (arityRefusal? n.fullName n.typeParameters.length cs.length) = some e) :
    Fails (c.inflate cs) s e := by
  unfold Class.inflate
  obtain ⟨typeName, htypeName⟩ := hs.sound.vm.tellsTypeName ⟨n, hn⟩
  refine .after ((typeName_agrees (.refl hs.sound) hc).runs.weaken (fun _ _ _ hv => hv)
    fun hnone => hnone typeName htypeName) fun name t later sound _ => ?_
  have hgeneric := Vm.tells_classIsGeneric.mpr ⟨n, later.vm.arena.class_ hn, rfl⟩
  refine .after (Agree.known rfl hgeneric (isGeneric_agrees (.refl sound) (hc.later later))).runs
    fun _ u later' sound' heq => ?_
  rw [heq, hopen]
  have later := later.trans later'
  have hcount := Vm.tells_classParameterCount.mpr ⟨n, later.vm.arena.class_ hn, rfl⟩
  refine .after (Agree.known rfl hcount
    (typeParameterCount_agrees (.refl sound') (hc.later later))).runs
    fun _ v later' sound'' heq => ?_
  have later := later.trans later'
  refine .after ((checkArity_agrees (.refl sound'') name _ cs).runs.weaken (fun _ _ _ hv => hv)
    fun hne => hne (heq.trans harity)) fun _ w later' sound₃ _ => ?_
  have later := later.trans later'
  refine (hs.later later sound₃).argumentArray_fails (fun d hd => (hcs d hd).later later)
    (fun d hd => later.vm.arena.keeps.hasClass (hclasses d hd))
    (harity ▸ Nat.mod_lt _ (by decide)) h fun array types x later' sound₄ htypes hargs refusal
      hrefusal => .bind (.ask sound₄ ?_) _
  exact Access.inflateClass_refuses sound₄.vm hargs ((later.trans later').vm.arena.class_ hn) hopen
    (htypes.length_eq ▸ hrefusal)

/-- Instantiating a generic method with as many classes as it counts type parameters fails if there
are no reflection objects, or if it has more of them and is not compiled for these. -/
theorem Method.inflate_fails {m : Method} (hm : s.Shows m) {n : MethodNode}
    (hn : s.vm.arena.method m.handle = .ok n) (hgeneric : n.typeParameters ≠ [])
    {cs : List Class} (harity : word32 n.typeParameters.length = cs.length)
    (hcs : ∀ d ∈ cs, s.Shows d) (hclasses : ∀ d ∈ cs, s.vm.arena.HasClass d.handle)
    {types : List Handle} (htypes : s.TypesOf cs types) {names : List String}
    (hnames : List.Forall₂ s.vm.arena.NamesType types names)
    (h : snapshot.inflateError?
      (instantiationRefusal? n.name n.typeParameters n.instantiations names) = some e) :
    Fails (m.inflate cs) s e := by
  refine inflate_fails_of_check hs.sound hm hn hgeneric fun t later sound => ?_
  refine .after ((checkArity_agrees (.refl sound) n.name _ cs).runs.weaken (fun _ _ _ hv => hv)
    fun hne => hne harity) fun _ w later' sound₃ _ => ?_
  have later := later.trans later'
  refine (hs.later later sound₃).argumentArray_fails (fun d hd => (hcs d hd).later later)
    (fun d hd => later.vm.arena.keeps.hasClass (hclasses d hd))
    (harity ▸ Nat.mod_lt _ (by decide)) h fun array types' x later' sound₄ htypes' hargs refusal
      hrefusal => .bind ?_ _
  have later := later.trans later'
  cases htypes'.unique (htypes.later later)
  exact instantiate_fails sound₄ hargs (later.vm.arena.method hn)
    (hnames.imp fun _ _ => Arena.NamesType.later later.vm.arena) hrefusal

/-- What needs so many times the root class fails if there is none, or as it says itself. -/
theorem placeholders_fail {count : Nat} {refusal? : Option Refusal}
    (h : snapshot.fillError? refusal? = some e) {f : List Class → Query α}
    (hf : ∀ root t, t.On snapshot → s.Later t → t.Shows root →
      t.KnowsClass "System" "Object" root.handle → snapshot.inflateError? refusal? = some e →
      Fails (f (List.replicate count root)) t e) :
    Fails (placeholderArguments count >>= f) s e := by
  unfold Snapshot.fillError? at h
  split at h
  · rename_i hnone
    cases h
    exact ((hs.rootClass_fails (by simpa using hnone)).bind _).bind _
  · rename_i hsome
    refine .after ((placeholderArguments_agrees (.refl hs.sound) count).runs.weaken
      (fun _ _ _ hk => hk) fun hno => ?_) fun cs t later sound hcs => ?_
    · obtain ⟨k, hk⟩ := hs.knowsClass_iff.mpr (by simpa [Option.isSome_iff_ne_none] using hsome)
      exact hno k hk
    · obtain ⟨root, rfl, hroot, hknown⟩ := hcs
      exact hf root t (hs.later later sound) later hroot hknown h

theorem Class.representative_fails {c : Class} (hc : s.Shows c) {n : ClassNode}
    (hn : s.vm.arena.class_ c.handle = .ok n) (hopen : n.isOpen = true)
    (h : snapshot.fillError? (arityRefusal? n.fullName n.typeParameters.length
      (word32 n.typeParameters.length)) = some e) : Fails c.representative s e := by
  unfold Class.representative
  have hgeneric := Vm.tells_classIsGeneric.mpr ⟨n, hn, rfl⟩
  refine .after (Agree.known rfl hgeneric (isGeneric_agrees (.refl hs.sound) hc)).runs
    fun _ t later sound heq => ?_
  rw [heq, hopen]
  have hcount := Vm.tells_classParameterCount.mpr ⟨n, later.vm.arena.class_ hn, rfl⟩
  refine .after (Agree.known rfl hcount
    (typeParameterCount_agrees (.refl sound) (hc.later later))).runs fun _ u later' sound' heq => ?_
  rw [heq]
  have later := later.trans later'
  refine placeholders_fail (hs.later later sound') h fun root v hv later' hroot hknown herror => ?_
  have later := later.trans later'
  exact inflate_fails hv (hc.later later) (later.vm.arena.class_ hn) hopen (by simp)
    (List.forall_mem_replicate.mpr (Or.inr hroot))
    (List.forall_mem_replicate.mpr (Or.inr hknown.hasClass)) (by simpa using herror)

theorem Method.representative_fails {m : Method} (hm : s.Shows m) {n : MethodNode}
    (hn : s.vm.arena.method m.handle = .ok n) (hgeneric : n.typeParameters ≠ [])
    (h : snapshot.fillError? (instantiationRefusal? n.name n.typeParameters n.instantiations
      (List.replicate (word32 n.typeParameters.length) snapshot.rootName)) = some e) :
    Fails (m.representative false) s e := by
  unfold Method.representative
  have hopen := Vm.tells_methodIsGeneric.mpr ⟨n, hn, rfl⟩
  refine .after (Agree.known rfl hopen (isGeneric_agrees (.refl hs.sound) hm)).runs
    fun _ t later sound heq => ?_
  rw [heq, show (!n.typeParameters.isEmpty) = true by simpa using hgeneric]
  have hcount := Vm.tells_methodTypeParameterCount.mpr ⟨n, later.vm.arena.method hn, rfl⟩
  refine .after (Agree.known rfl hcount
    (typeParameterCount_agrees (.refl sound) (hm.later later))).runs fun _ u later' sound' heq => ?_
  rw [heq]
  have later := later.trans later'
  refine placeholders_fail (hs.later later sound') h fun root v hv later' hroot hknown herror => ?_
  have later := later.trans later'
  obtain ⟨type, htype, _⟩ := hv.sound.vm.tells_classType hknown.hasClass
  exact inflate_fails hv (hm.later later) (later.vm.arena.method hn) hgeneric (by simp)
    (List.forall_mem_replicate.mpr (Or.inr hroot))
    (List.forall_mem_replicate.mpr (Or.inr hknown.hasClass)) (.replicate htype _)
    (forall₂_replicate (hv.namesType_rootName ⟨root.handle, hknown, htype⟩) _) herror

end

end VmMetadata
