import VmMetadata.Proofs.Machine.Atomic
import VmMetadata.Proofs.Session.Course
import VmMetadata.Proofs.Session.Filled

/-!
Which instantiations are one and the same. A client has classes closed and methods instantiated, in
any order, and does what it likes in between. Main statement: two of the handles that it gets are the
same just if it has asked for the same thing twice, and that is the same class over the same classes,
or the same method with the same classes where it is compiled for them. Any other instantiation of a
method is a new one each time, with the body of the method itself.
-/

namespace VmMetadata

open Query (Runs)

/-! ## Taking an instantiation apart -/

namespace Query

variable {s t : Session}

theorem ask_answered (hs : s.Sound) {c : Call r} {a : r.Value} (run : Query.ask c s = .ok a t) :
    Vm.answer c s.vm = .ok a t.vm := by
  rw [ask_apply hs c] at run
  cases hanswer : Vm.answer c s.vm with
  | ok b w =>
      rw [hanswer] at run
      cases run
      rfl
  | error e w =>
      rw [hanswer] at run
      cases run

theorem view_shown {e : Entity} {h : Handle} {v : View e} (run : Query.view e h s = .ok v t) :
    v.handle = h ∧ t.vm = s.vm := by
  by_cases hnull : h = .null
  · subst hnull
    rw [view_null] at run
    cases run
  · rw [view_of_ne_null hnull] at run
    cases run
    exact ⟨rfl, rfl⟩

end Query

open Query (ask_answered view_shown)

variable {s t u : Session} {cs : List Class}

/-- The array holds the types of the classes as type arguments. -/
structure Session.Gives (s : Session) (cs : List Class) (array : Handle) (types : List Handle) :
    Prop where
  sound : s.Sound
  arguable : s.Arguable cs
  arguments : s.vm.arena.Arguments array types
  typesOf : s.TypesOf cs types

theorem argumentArray_gives (hs : s.Sound) (hcs : ∀ c ∈ cs, s.Shows c) {array : ArrayView}
    (run : argumentArray cs s = .ok array t) :
    s.Later t ∧ ∃ types, t.Gives cs array.handle types := by
  obtain ⟨later, sound, _, types, htypes, hargs⟩ :=
    (argumentArray_agrees (.refl hs) hcs).runs.of_ok run
  obtain ⟨objects, v, hobjects, hrest⟩ := Query.bind_eq_ok.mp run
  obtain ⟨_, soundv, hall⟩ := (typeObjects_agrees (.refl hs) hcs).runs.of_ok hobjects
  obtain ⟨element, w, helement, harray⟩ := Query.bind_eq_ok.mp hrest
  obtain ⟨_, soundw, _, hknown⟩ :=
    (Query.reflectionClass_agrees (.refl soundv)).runs.of_ok helement
  obtain ⟨laterw, _⟩ :=
    (ArrayView.ofObjects_agrees (.refl soundw) element objects).runs.of_ok harray
  have hcount : cs.length < 0x1_0000_0000 := by
    unfold ArrayView.ofObjects at harray
    rw [hall.length_eq]
    split at harray
    · cases harray
    · omega
  refine ⟨later, types, sound, ⟨hcount, fun c hc => ?_, element.handle, hknown.later laterw⟩,
    hargs, htypes⟩
  obtain ⟨type, _, htype⟩ := Load.mem_of_forall₂ htypes.flip hc
  obtain ⟨n, hn, _⟩ := Vm.tells_classType.mp htype
  exact ⟨n, hn⟩

/-- A class that is closed has been closed by the machine over an array of types. -/
theorem Class.inflate_made (hs : s.Sound) {c r : Class} (hc : s.Shows c)
    (hcs : ∀ d ∈ cs, s.Shows d) (run : c.inflate cs s = .ok r u) :
    ∃ t array types, s.Later t ∧ t.Later u ∧ t.Gives cs array types ∧
      Access.inflateClass c.handle array t.vm = .ok r.handle u.vm := by
  obtain ⟨name, s₁, h₁, run⟩ := Query.bind_eq_ok.mp run
  obtain ⟨later₁, sound₁, _⟩ := (typeName_agrees (.refl hs) hc).runs.of_ok h₁
  obtain ⟨isOpen, s₂, h₂, run⟩ := Query.bind_eq_ok.mp run
  obtain ⟨later₂, sound₂, _⟩ :=
    (isGeneric_agrees (.refl sound₁) (hc.later later₁)).runs.of_ok h₂
  have later₂ := later₁.trans later₂
  cases isOpen with
  | false => cases run
  | true =>
      obtain ⟨count, s₃, h₃, run⟩ := Query.bind_eq_ok.mp run
      obtain ⟨later₃, sound₃, _⟩ :=
        (typeParameterCount_agrees (.refl sound₂) (hc.later later₂)).runs.of_ok h₃
      have later₃ := later₂.trans later₃
      obtain ⟨_, s₄, h₄, run⟩ := Query.bind_eq_ok.mp run
      obtain ⟨later₄, sound₄, _⟩ :=
        (checkArity_agrees (.refl sound₃) name count cs).runs.of_ok h₄
      have later₄ := later₃.trans later₄
      obtain ⟨array, s₅, h₅, run⟩ := Query.bind_eq_ok.mp run
      obtain ⟨later₅, types, gives⟩ :=
        argumentArray_gives sound₄ (fun d hd => (hcs d hd).later later₄) h₅
      obtain ⟨k, s₆, hask, hview⟩ := Query.bind_eq_ok.mp run
      obtain ⟨later₆, sound₆, _⟩ :=
        (Runs.ask gives.sound (Vm.answer_steps gives.sound.vm _)).of_ok hask
      obtain ⟨later₇, _⟩ := (Runs.view sound₆ .class_ k).of_ok hview
      obtain ⟨hr, hvm⟩ := view_shown hview
      refine ⟨s₅, array.handle, types, later₄.trans later₅, later₆.trans later₇, gives, ?_⟩
      rw [hr, hvm]
      exact ask_answered gives.sound hask

/-- An instantiation has been found by the machine, or the machine has found none and has made one. -/
theorem Method.instantiate_made (hs : s.Sound) {m : Method} {array : ArrayView} {k : Handle}
    (run : m.instantiate array s = .ok k t) :
    (k ≠ .null ∧ Access.findInflatedMethod m.handle array.handle s.vm = .ok k t.vm) ∨
      ∃ v, Access.findInflatedMethod m.handle array.handle s.vm = .ok .null v ∧
        Access.inflateMethodRaw m.handle array.handle v = .ok k t.vm := by
  obtain ⟨found, u, hfind, hrest⟩ := Query.bind_eq_ok.mp run
  obtain ⟨_, sound, _⟩ := (Runs.ask hs (Vm.answer_steps hs.vm _)).of_ok hfind
  have hfound := ask_answered hs hfind
  cases hnull : found.nonNull? with
  | some k' =>
      simp only [hnull] at hrest
      cases hrest
      obtain ⟨rfl, hne⟩ := Handle.nonNull?_eq_some_iff.mp hnull
      exact Or.inl ⟨hne, hfound⟩
  | none =>
      simp only [hnull] at hrest
      rw [Handle.nonNull?_eq_none_iff.mp hnull] at hfound
      exact Or.inr ⟨u.vm, hfound, ask_answered sound hrest⟩

/-- A method that is instantiated has been found by the machine, or the machine has found none and
has made one. -/
theorem Method.inflate_made (hs : s.Sound) {m r : Method} (hm : s.Shows m)
    (hcs : ∀ d ∈ cs, s.Shows d) (run : m.inflate cs s = .ok r u) :
    ∃ t array types, s.Later t ∧ t.Later u ∧ t.Gives cs array types ∧
      t.CanInstantiate m.handle cs ∧
      ((r.handle ≠ .null ∧ Access.findInflatedMethod m.handle array t.vm = .ok r.handle u.vm) ∨
        ∃ v, Access.findInflatedMethod m.handle array t.vm = .ok .null v ∧
          Access.inflateMethodRaw m.handle array v = .ok r.handle u.vm) := by
  obtain ⟨name, s₁, h₁, run⟩ := Query.bind_eq_ok.mp run
  obtain ⟨later₁, sound₁, _⟩ := (name_agrees (.refl hs) hm).runs.of_ok h₁
  obtain ⟨isGeneric, s₂, h₂, run⟩ := Query.bind_eq_ok.mp run
  obtain ⟨later₂, sound₂, hgeneric⟩ :=
    (isGeneric_agrees (.refl sound₁) (hm.later later₁)).runs.of_ok h₂
  have later₂ := later₁.trans later₂
  cases isGeneric with
  | false => cases run
  | true =>
      obtain ⟨count, s₃, h₃, run⟩ := Query.bind_eq_ok.mp run
      obtain ⟨later₃, sound₃, hcount⟩ :=
        (typeParameterCount_agrees (.refl sound₂) (hm.later later₂)).runs.of_ok h₃
      obtain ⟨node, hnode, hopen⟩ :=
        Vm.tells_methodIsGeneric.mp (hgeneric.later rfl later₃.vm)
      have later₃ := later₂.trans later₃
      obtain ⟨_, s₄, h₄, run⟩ := Query.bind_eq_ok.mp run
      obtain ⟨later₄, sound₄, harity⟩ :=
        (checkArity_agrees (.refl sound₃) name count cs).runs.of_ok h₄
      obtain ⟨node', hnode', hlength⟩ := Vm.tells_methodTypeParameterCount.mp hcount
      cases hnode.symm.trans hnode'
      have hnode := later₄.vm.arena.method hnode
      have later₄ := later₃.trans later₄
      obtain ⟨array, s₅, h₅, run⟩ := Query.bind_eq_ok.mp run
      obtain ⟨later₅, types, gives⟩ :=
        argumentArray_gives sound₄ (fun d hd => (hcs d hd).later later₄) h₅
      obtain ⟨k, s₆, hinstantiate, hview⟩ := Query.bind_eq_ok.mp run
      obtain ⟨later₆, sound₆, _, node', hnode', htakes⟩ :=
        (instantiate_agrees (.refl gives.sound) gives.arguments).runs.of_ok hinstantiate
      cases hnode'.symm.trans (later₅.vm.arena.method hnode)
      obtain ⟨later₇, _⟩ := (Runs.view sound₆ .method k).of_ok hview
      obtain ⟨hr, hvm⟩ := view_shown hview
      refine ⟨s₅, array.handle, types, later₄.trans later₅, later₆.trans later₇, gives,
        ⟨gives.arguable, node, types, hnode', by simpa using hopen, hlength.symm.trans harity,
          gives.typesOf, htakes⟩, ?_⟩
      rw [hr, hvm]
      exact instantiate_made gives.sound hinstantiate

/-! ## What is known of an instantiation -/

/-- What a client asks for: a definition, and the classes in the place of its type parameters. -/
inductive Inflation.Request
  | class_ (definition : Handle) (arguments : List Handle)
  | method (definition : Handle) (arguments : List Handle)
  deriving DecidableEq

/-- What a client has asked for and the handle that it has got. -/
structure Inflation where
  request : Inflation.Request
  result : Handle
  deriving DecidableEq

namespace Session

/-- The body of the method that is compiled for the classes, by the names of their types. -/
def TellsCompiled (s : Session) (m : Handle) (as : List Handle) (address? : Option Nat) : Prop :=
  ∃ node names, s.vm.arena.method m = .ok node ∧ List.Forall₂ s.vm.TellsTypeName as names ∧
    address? = compiledAddress? names node.instantiations

/-- Whoever asks for it again gets it again. -/
def Shares (s : Session) : Inflation.Request → Prop
  | .class_ _ _ => True
  | .method m as => ∃ address, s.TellsCompiled m as (some address)

theorem TellsCompiled.later {m : Handle} {as : List Handle} {address? : Option Nat}
    (h : s.TellsCompiled m as address?) (hst : s.Later t) : t.TellsCompiled m as address? := by
  obtain ⟨node, names, hm, hnames, rfl⟩ := h
  exact ⟨node, names, hst.vm.arena.method hm, hnames.imp fun _ _ hn => hn.later hst.vm, rfl⟩

theorem TellsCompiled.unique {m : Handle} {as : List Handle} {address? address?' : Option Nat}
    (h : s.TellsCompiled m as address?) (h' : s.TellsCompiled m as address?') :
    address? = address?' := by
  obtain ⟨node, names, hm, hnames, rfl⟩ := h
  obtain ⟨node', names', hm', hnames', rfl⟩ := h'
  cases hm.symm.trans hm'
  rw [List.right_unique_forall₂' (fun _ _ _ hn hn' => hn.unique hn') hnames hnames']

theorem Shares.later {q : Inflation.Request} (h : s.Shares q) (hst : s.Later t) : t.Shares q := by
  cases q with
  | class_ => trivial
  | method =>
      obtain ⟨address, haddress⟩ := h
      exact ⟨address, haddress.later hst⟩

/-- What is known of an instantiation: a class is on record, and so is a method that is compiled; any
other method is off the record. What was asked for can be asked for again. -/
inductive Knows (s : Session) : Inflation → Prop
  | class_ {c r : Handle} {cs : List Class} {types : List Handle} (can : s.CanClose c cs)
      (typesOf : s.TypesOf cs types)
      (recorded : Instance.find? c types s.vm.classInstances = some r) :
      Knows s ⟨.class_ c (cs.map View.handle), r⟩
  | compiled {m r : Handle} {cs : List Class} {types : List Handle} {address : Nat}
      (can : s.CanInstantiate m cs) (typesOf : s.TypesOf cs types)
      (spans : s.vm.arena.InstantiatedOver m types r)
      (tells : s.TellsCompiled m (cs.map View.handle) (some address))
      (recorded : Instance.find? m types s.vm.methodInstances = some r) :
      Knows s ⟨.method m (cs.map View.handle), r⟩
  | made {m r : Handle} {cs : List Class} {types : List Handle} (can : s.CanInstantiate m cs)
      (typesOf : s.TypesOf cs types) (spans : s.vm.arena.InstantiatedOver m types r)
      (tells : s.TellsCompiled m (cs.map View.handle) none) (off : s.vm.OffRecord r) :
      Knows s ⟨.method m (cs.map View.handle), r⟩

theorem Knows.later {i : Inflation} (h : s.Knows i) (hs : s.Sound) (hst : s.Later t)
    (steps : s.vm.Steps t.vm) : t.Knows i := by
  cases h with
  | class_ can typesOf recorded =>
      exact .class_ (can.later hst) (typesOf.later hst) (steps.find?_class hs.vm recorded)
  | compiled can typesOf spans tells recorded =>
      exact .compiled (can.later hst) (typesOf.later hst) (spans.later hst.vm.arena hs.vm.arena)
        (tells.later hst) (steps.find?_method hs.vm recorded)
  | made can typesOf spans tells off =>
      exact .made (can.later hst) (typesOf.later hst) (spans.later hst.vm.arena hs.vm.arena)
        (tells.later hst) (steps.offRecord hs.vm off)

/-- Whether it is shared is no matter of time. -/
theorem Knows.shares_iff {i : Inflation} (h : s.Knows i) (hst : s.Later t) :
    t.Shares i.request ↔ s.Shares i.request := by
  refine ⟨fun hshares => ?_, fun hshares => hshares.later hst⟩
  cases h with
  | class_ => trivial
  | compiled _ _ _ tells _ => exact ⟨_, tells⟩
  | made _ _ _ tells _ =>
      obtain ⟨address, haddress⟩ := hshares
      cases (tells.later hst).unique haddress

/-! ## Which are the same -/

theorem TypesOf.injective (wf : s.vm.WellFormed) {cs cs' : List Class} {types : List Handle}
    (h : s.TypesOf cs types) (h' : s.TypesOf cs' types) :
    cs.map View.handle = cs'.map View.handle := by
  refine List.left_unique_forall₂' (R := fun k t => s.vm.Tells (.classType k) t)
    (fun c t c' ht ht' => ?_) (List.forall₂_map_left_iff.mpr h) (List.forall₂_map_left_iff.mpr h')
  obtain ⟨n, hn, rfl⟩ := Vm.tells_classType.mp ht
  obtain ⟨n', hn', hsame⟩ := Vm.tells_classType.mp ht'
  obtain ⟨node, hnode, rfl⟩ := (wf.arena.class_ hn).type
  obtain ⟨node', hnode', rfl⟩ := (wf.arena.class_ hn').type
  rw [← hsame] at hnode'
  cases hnode.symm.trans hnode'
  rfl

/-- The types are those of any views of the same classes. -/
theorem TypesOf.of_handles {cs cs' : List Class} {types : List Handle} (h : s.TypesOf cs types)
    (hsame : cs.map View.handle = cs'.map View.handle) : s.TypesOf cs' types := by
  let R (k type : Handle) : Prop := s.vm.Tells (.classType k) type
  have h : List.Forall₂ R (cs.map View.handle) types := List.forall₂_map_left_iff.mpr h
  rw [hsame] at h
  exact (List.forall₂_map_left_iff (R := R) (f := View.handle)).mp h

theorem TypesOf.congr {cs cs' : List Class} {types types' : List Handle}
    (h : s.TypesOf cs types) (h' : s.TypesOf cs' types')
    (hsame : cs.map View.handle = cs'.map View.handle) : types = types' :=
  (h.of_handles hsame).unique h'

/-- Two entries of a record have one result just if they are for the same definition and the same
classes. -/
theorem recorded_eq_iff (wf : s.vm.WellFormed) {known : List Instance}
    (apart : (known.map Instance.result).Nodup) {d d' r r' : Handle} {cs cs' : List Class}
    {types types' : List Handle} (h : Instance.find? d types known = some r)
    (h' : Instance.find? d' types' known = some r') (typesOf : s.TypesOf cs types)
    (typesOf' : s.TypesOf cs' types') :
    r = r' ↔ d = d' ∧ cs.map View.handle = cs'.map View.handle := by
  constructor
  · rintro rfl
    obtain ⟨rfl, rfl⟩ := Instance.key_of_result apart h h'
    exact ⟨rfl, typesOf.injective wf typesOf'⟩
  · rintro ⟨rfl, hsame⟩
    cases typesOf.congr typesOf' hsame
    exact Option.some.inj (h.symm.trans h')

theorem Knows.hasMethod {m r : Handle} {as : List Handle} (h : s.Knows ⟨.method m as, r⟩) :
    s.vm.arena.HasMethod r := by
  cases h with
  | compiled _ _ spans _ _ | made _ _ spans _ _ =>
      obtain ⟨_, _, _, _, hr⟩ := spans
      exact ⟨_, hr⟩

theorem Knows.hasClass (wf : s.vm.WellFormed) {c r : Handle} {as : List Handle}
    (h : s.Knows ⟨.class_ c as, r⟩) : s.vm.arena.HasClass r := by
  cases h with
  | class_ _ _ recorded =>
      obtain ⟨d, n, hclosed⟩ := wf.classInstances _ (Access.mem_of_find? recorded)
      exact ⟨n, hclosed.result⟩

theorem Knows.exists_node (wf : s.vm.WellFormed) {i : Inflation} (h : s.Knows i) :
    ∃ n, s.vm.arena.get? i.result = some n := by
  rcases i with ⟨⟨c, as⟩ | ⟨m, as⟩, r⟩
  · obtain ⟨n, hn⟩ := h.hasClass wf
    exact ⟨_, Arena.class_eq_ok.mp hn⟩
  · obtain ⟨n, hn⟩ := h.hasMethod
    exact ⟨_, Arena.method_eq_ok.mp hn⟩

/-- A class is no method. -/
theorem Knows.class_ne_method (wf : s.vm.WellFormed) {c m r r' : Handle} {as as' : List Handle}
    (h : s.Knows ⟨.class_ c as, r⟩) (h' : s.Knows ⟨.method m as', r'⟩) : r ≠ r' := by
  rintro rfl
  obtain ⟨n, hn⟩ := h.hasClass wf
  obtain ⟨k, hk⟩ := h'.hasMethod
  cases (Arena.class_eq_ok.mp hn).symm.trans (Arena.method_eq_ok.mp hk)

/-- Two instantiations are the same just if they were asked for alike and are shared, provided that
the one which is not shared was new. -/
theorem Knows.result_eq_iff (wf : s.vm.WellFormed) (apart : s.vm.Apart) {i j : Inflation}
    (hi : s.Knows i) (hj : s.Knows j) (new : ¬s.Shares i.request → i.result ≠ j.result) :
    i.result = j.result ↔ i.request = j.request ∧ s.Shares i.request := by
  cases hi with
  | class_ can typesOf recorded =>
      cases hj with
      | class_ can' typesOf' recorded' =>
          refine (recorded_eq_iff wf apart.classes recorded recorded' typesOf typesOf').trans ?_
          simp [Shares]
      | compiled can' typesOf' spans' tells' recorded' =>
          exact iff_of_false (Knows.class_ne_method wf (.class_ can typesOf recorded)
            (.compiled can' typesOf' spans' tells' recorded')) (by simp)
      | made can' typesOf' spans' tells' off' =>
          exact iff_of_false (Knows.class_ne_method wf (.class_ can typesOf recorded)
            (.made can' typesOf' spans' tells' off')) (by simp)
  | compiled can typesOf spans tells recorded =>
      cases hj with
      | class_ can' typesOf' recorded' =>
          exact iff_of_false (Knows.class_ne_method wf (.class_ can' typesOf' recorded')
            (.compiled can typesOf spans tells recorded)).symm (by simp)
      | compiled can' typesOf' spans' tells' recorded' =>
          refine (recorded_eq_iff wf apart.methods recorded recorded' typesOf typesOf').trans ?_
          have hshares : s.Shares (.method _ _) := ⟨_, tells⟩
          simp [hshares]
      | made can' typesOf' spans' tells' off' =>
          refine iff_of_false (off'.absent _ (Access.mem_of_find? recorded)) ?_
          rintro ⟨hsame, _⟩
          obtain ⟨rfl, has⟩ := Inflation.Request.method.inj hsame
          rw [← has] at tells'
          cases tells.unique tells'
  | @made m _ cs _ can typesOf spans tells off =>
      have hprivate : ¬s.Shares (.method m (cs.map View.handle)) := by
        rintro ⟨address, haddress⟩
        cases tells.unique haddress
      exact iff_of_false (new hprivate) fun h => hprivate h.2

/-! ## What is known after an inflation -/

theorem TypesOf.tellsTypeNames {types : List Handle} {names : List String}
    (h : s.TypesOf cs types) (hnames : List.Forall₂ s.vm.arena.NamesType types names) :
    List.Forall₂ s.vm.TellsTypeName (cs.map View.handle) names := by
  refine List.forall₂_map_left_iff.mpr
    (forall₂_compose h (fun c type name htype hname => ?_) hnames)
  obtain ⟨n, hn, rfl⟩ := hname
  exact ⟨type, Arena.ne_null_of_get? (Arena.type_eq_ok.mp hn), htype,
    Vm.tells_typeName.mpr ⟨n, hn, rfl⟩⟩

/-- A method is found just if it is compiled for the classes. -/
theorem Gives.found {array m k : Handle} {types : List Handle} (gives : s.Gives cs array types)
    (hst : s.Later t) {w : Vm} (run : Access.findInflatedMethod m array s.vm = .ok k w)
    {address? : Option Nat} (tells : t.TellsCompiled m (cs.map View.handle) address?) :
    (k = .null → address? = none ∧ w = s.vm) ∧ (k ≠ .null → address? ≠ none) := by
  obtain ⟨args, hargs, ⟨node, names, hm, hnames, hcompiled⟩, hsame⟩ :=
    (Access.findInflatedMethod_steps gives.sound.vm m array).of_eq_ok run
  cases Access.arguments_unique hargs gives.arguments
  have htells : s.TellsCompiled m (cs.map View.handle) (compiledAddress? names node.instantiations) :=
    ⟨node, names, hm, gives.typesOf.tellsTypeNames hnames, rfl⟩
  cases tells.unique (htells.later hst)
  cases haddress : compiledAddress? names node.instantiations with
  | none =>
      simp only [haddress] at hcompiled
      exact ⟨fun hnull => ⟨rfl, hsame hnull⟩, fun hne => absurd hcompiled hne⟩
  | some address =>
      simp only [haddress] at hcompiled
      exact ⟨fun hnull => absurd hnull (Arena.ne_null_of_get? (Arena.method_eq_ok.mp hcompiled)),
        fun _ => nofun⟩

end Session

open Session

theorem Class.inflate_knows (hs : s.Sound) {c r : Class} (hc : s.Shows c)
    (hcs : ∀ d ∈ cs, s.Shows d) (run : c.inflate cs s = .ok r u) :
    u.Knows ⟨.class_ c.handle (cs.map View.handle), r.handle⟩ := by
  obtain ⟨t, array, types, _, later, gives, hmade⟩ := inflate_made hs hc hcs run
  obtain ⟨_, _, _, types', d, n, typesOf, hclosed⟩ :=
    (inflate_agrees (.refl hs) hc hcs).runs.of_ok run
  have harity := hclosed.arity.trans typesOf.length_eq.symm
  exact .class_ ⟨gives.arguable.later later, d, hclosed.definition, hclosed.isOpen, harity⟩
    (gives.typesOf.later later)
    (Access.inflateClass_find? (Access.typeArguments_eq_ok.mpr ⟨rfl, gives.arguments⟩) hmade)

/-- A method that is not shared was nothing at all before. -/
theorem Method.inflate_knows (hs : s.Sound) {m r : Method} (hm : s.Shows m)
    (hcs : ∀ d ∈ cs, s.Shows d) (run : m.inflate cs s = .ok r u) :
    u.Knows ⟨.method m.handle (cs.map View.handle), r.handle⟩ ∧
      (¬u.Shares (.method m.handle (cs.map View.handle)) → s.vm.arena.get? r.handle = none) := by
  obtain ⟨t, array, types, later, later', gives, can, hmade⟩ := inflate_made hs hm hcs run
  obtain ⟨_, _, _, types', typesOf, spans⟩ := (inflate_agrees (.refl hs) hm hcs).runs.of_ok run
  cases typesOf.unique (gives.typesOf.later later')
  obtain ⟨node, names, hnode, hnames, hresult⟩ := spans
  have tells : u.TellsCompiled m.handle (cs.map View.handle)
      (compiledAddress? names node.instantiations) :=
    ⟨node, names, hnode, typesOf.tellsTypeNames hnames, rfl⟩
  have spans : u.vm.arena.InstantiatedOver m.handle types r.handle :=
    ⟨node, names, hnode, hnames, hresult⟩
  rcases hmade with ⟨hne, hfound⟩ | ⟨v, hfound, hmade⟩
  · obtain ⟨address, haddress⟩ :=
      Option.ne_none_iff_exists'.mp ((gives.found later' hfound tells).2 hne)
    rw [haddress] at tells
    have recorded := Access.findInflatedMethod_find?
      (Access.typeArguments_eq_ok.mpr ⟨rfl, gives.arguments⟩) hfound hne
    exact ⟨.compiled (can.later later') typesOf spans tells recorded,
      fun hprivate => absurd ⟨address, tells⟩ hprivate⟩
  · obtain ⟨hnone, rfl⟩ := (gives.found later' hfound tells).1 rfl
    rw [hnone] at tells
    obtain ⟨hnext, off⟩ := Access.inflateMethodRaw_offRecord gives.sound.vm hmade
    refine ⟨.made (can.later later') typesOf spans tells off, fun _ => ?_⟩
    cases hold : s.vm.arena.get? r.handle with
    | none => rfl
    | some n =>
        obtain ⟨n', hn', _⟩ := later.vm.arena _ n hold
        exact absurd hnext (Arena.ne_next_of_get? hn')

end VmMetadata
