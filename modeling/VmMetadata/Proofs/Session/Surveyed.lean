import VmMetadata.Proofs.Dump.Events
import VmMetadata.Proofs.Session.Answered
import VmMetadata.Proofs.Session.Still

/-!
A survey repeats the description. What it says of an assembly, a class, a member or a type follows
from the description alone, but for the handles of types, which `place` gives: one for each thing
that a text can refer to. Main statement: the survey of a session without overrides does not fail,
and it lists what is described, in the order of the description and nothing else.
-/

namespace VmMetadata

open Query (Runs)

/-! ## What a survey is to say -/

/-- Where the compiled body of the method lies. A method that is abstract or open has none, and
there is none in an open class. -/
def MethodDescription.body? (m : MethodDescription) (c : ClassDescription) : Option Nat :=
  if m.isAbstract || !m.typeParameters.isEmpty || !c.typeParameters.isEmpty then none
  else m.address.filter (· ≠ 0)

/-- The address column of the method. -/
def MethodDescription.token? (m : MethodDescription) (s : Snapshot) (c : ClassDescription) :
    Option String :=
  (m.body? c).map (addressToken s.moduleBase s.pointerSize)

/-- The type lies at the handle and is as the node says. -/
structure SurveyedType.Reports (out : SurveyedType) (t : Handle) (n : TypeNode) : Prop where
  handle : out.type.handle = t
  name : out.name = n.name
  kind : out.kind = n.kind
  class_ : out.class?.map View.handle = n.class.nonNull?

section

variable (s : Snapshot) (place : TypeRef → Handle) (u : Session)

/-- The type is the one that the reference stands for. -/
def SurveyedType.RefersTo (out : SurveyedType) (r : TypeRef) : Prop :=
  out.Reports (place r) (s.typeNode r)

/-- The field of the class is as it is described. -/
structure SurveyedField.Reports (out : SurveyedField) (c : ClassDescription)
    (f : FieldDescription) : Prop where
  name : out.name = f.name
  type : out.type.RefersTo s place (f.ref c)
  offset : out.offset = f.offset
  flags : out.flags = f.flags

/-- The method of the class at `cls` is as it is described, and it names that class as its own
whenever it is asked. Its parameters and type parameters are counted by words of 32 bits. -/
structure SurveyedMethod.Reports (out : SurveyedMethod) (cls : Handle) (c : ClassDescription)
    (m : MethodDescription) : Prop where
  class_ : u.Answers out.method.class_ fun k _ => k.handle = cls
  name : out.name = m.name
  returnType : out.returnType.RefersTo s place (m.returnRef c)
  parameters : List.Forall₂ (fun p (q : String × SurveyedType) =>
    q.1 = p.name ∧ q.2.RefersTo s place (ParameterDescription.ref p c m))
    (counted m.parameters) out.parameters
  flags : out.flags = m.flags
  isGeneric : out.isGeneric = !m.typeParameters.isEmpty
  typeParameterCount : out.typeParameterCount = word32 m.typeParameters.length
  isInflated : out.isInflated = false
  address : out.address = m.token? s c

/-- The class of the image lies at the handle and is as it is described, and it names the image as
its own whenever it is asked. -/
structure SurveyedClass.Reports (out : SurveyedClass) (p : Site) (h : Handle)
    (c : ClassDescription) : Prop where
  handle : out.class_.handle = h
  image : u.Answers out.class_.image fun i _ => i.handle = p.image
  name : out.name = c.name
  namespace_ : out.namespace = c.namespace
  type : out.type.Reports out.type.type.handle (c.typeNode h)
  /-- The first class of a name has the type that texts with this name have. -/
  first : s.classNamed? c.fullName = some (h, c) →
    out.type.type.handle = place (.global c.fullName)
  assembly : out.assembly = assemblyNameOf p.name
  parent : out.parent.map View.handle = (s.parent? h c).map Prod.fst
  declaring : out.declaring.map View.handle = (s.declaring? c).map Prod.fst
  interfaces : out.interfaces.map View.handle = (s.interfaces c).map Prod.fst
  flags : out.flags = c.flags
  kind : out.kind = c.kind
  isGeneric : out.isGeneric = !c.typeParameters.isEmpty
  typeParameterCount : out.typeParameterCount = word32 c.typeParameters.length
  fields : List.Forall₂ (fun f out => SurveyedField.Reports s place out c f) c.fields out.fields
  methods : List.Forall₂ (fun m out => SurveyedMethod.Reports s place u out h c m)
    c.methods out.methods

/-- The assembly is the one of the site, with all classes of the site. -/
structure SurveyedAssembly.Reports (out : SurveyedAssembly) (p : Site) : Prop where
  handle : out.assembly.handle = p.assembly
  name : out.name = assemblyNameOf p.name
  image : out.image.handle = p.image
  imageName : out.imageName = p.name
  classStart : out.classStart = s.windowStart p
  classCount : out.classCount = p.described.length
  classes : List.Forall₂ (fun q out => SurveyedClass.Reports s place u out p q.1 q.2)
    (p.classes.zip p.described) out.classes

end

section

variable {s : Snapshot} {place : TypeRef → Handle} {u v : Session} (huv : u.Later v)
include huv

theorem SurveyedMethod.Reports.later {out : SurveyedMethod} {cls : Handle} {c : ClassDescription}
    {m : MethodDescription} (h : out.Reports s place u cls c m) : out.Reports s place v cls c m :=
  { h with class_ := h.class_.later huv }

theorem SurveyedClass.Reports.later {out : SurveyedClass} {p : Site} {h : Handle}
    {c : ClassDescription} (hc : out.Reports s place u p h c) : out.Reports s place v p h c :=
  { hc with
    image := hc.image.later huv
    methods := hc.methods.imp fun _ _ hm => hm.later huv }

theorem SurveyedAssembly.Reports.later {out : SurveyedAssembly} {p : Site}
    (h : out.Reports s place u p) : out.Reports s place v p :=
  { h with classes := h.classes.imp fun _ _ hc => hc.later huv }

end

/-! ## Types and members -/

variable {b : Session} {s : Snapshot} {place : TypeRef → Handle}

theorem Arena.HoldsType.ne_null {a : Arena} {t : Handle} {n : TypeNode} (h : a.HoldsType t n) :
    t ≠ .null := by
  obtain ⟨m, hm, _⟩ := h
  exact ne_null_of_get? (type_eq_ok.mp hm)

theorem TypeView.survey_answers {t : TypeView} (ht : b.Shows t) {n : TypeNode}
    (hn : b.vm.arena.HoldsType t.handle n) (hkind : n.kind.HasTag) :
    b.Answers t.survey fun out _ => out.Reports t.handle n :=
  (class?_answers ht hn).andThen fun _ hclass => (name_yields ht hn).bind <|
    (kind_yields ht hn hkind).bind <| .pure fun _ _ => ⟨rfl, rfl, rfl, hclass⟩

/-- The type at the handle is surveyed through whatever view of it a query yields. -/
theorem TypeView.survey_throughView {x : Query TypeView} {t : Handle} {n : TypeNode}
    (hx : b.Answers x fun v u => v.handle = t ∧ u.Shows v) (hn : b.vm.arena.HoldsType t n)
    (hkind : n.kind.HasTag) :
    b.Answers (do (← x).survey) fun out _ => out.Reports t n := by
  refine hx.throughView fun v u later _ hv hhandle => ?_
  subst hhandle
  exact survey_answers hv (hn.later later.vm.arena) hkind

theorem Field.survey_answers {c : ClassDescription} {f : FieldDescription} {v : Field}
    (hv : b.Shows v) (hf : f.StandsAt s place b.vm.arena c v.handle) :
    b.Answers v.survey fun out _ => out.Reports s place c f := by
  obtain ⟨hnode, htype⟩ := hf
  have hsurvey := TypeView.survey_throughView (type_answers hv hnode htype.ne_null) htype
    (s.hasTag_typeNode _)
  exact (name_yields hv hnode).bind <| .assoc <| hsurvey.andThen fun _ htype =>
    (offset_yields hv hnode).bind <| (flags_yields hv hnode).bind <|
    .pure fun _ _ => ⟨rfl, htype, rfl, rfl⟩

namespace Method

variable {c : ClassDescription} {m : MethodDescription} {v : Method} (hv : b.Shows v)
include hv

theorem surveyParameters_answers {cls : Handle} (hm : m.StandsAt s place b.vm.arena c cls v.handle) :
    b.Answers (do (← v.parameters).mapM fun p => do pure (p.name, ← p.type.survey))
      fun out _ => List.Forall₂ (fun p (q : String × SurveyedType) =>
        q.1 = p.name ∧ q.2.RefersTo s place (ParameterDescription.ref p c m))
        (counted m.parameters) out := by
  refine (parameters_answers hv hm.node fun q hq => ?_).bind fun ps t later _ hps =>
    .mapM (fun _ _ _ _ _ h => h) ?_
  · obtain ⟨p, hp, rfl⟩ := List.mem_map.mp hq
    obtain ⟨n, hn, _⟩ := hm.parameters p hp
    exact ⟨n, hn⟩
  obtain ⟨hkeys, hshown⟩ := hps
  simp only [MethodDescription.node, counted_map] at hkeys
  have hlength : (counted m.parameters).length = ps.length := by
    simpa using congrArg List.length hkeys.symm
  refine List.forall₂_iff_get.mpr ⟨hlength, fun i hi hi' => ?_⟩
  have hkey := List.getElem_of_eq hkeys (i := i) (by simpa using hi')
  simp only [List.getElem_map, parameterKey, Prod.mk.injEq] at hkey
  have hparameter :=
    (hm.parameters _ (mem_of_mem_counted (List.getElem_mem hi))).later later.vm.arena
  rw [← hkey.2] at hparameter
  refine (TypeView.survey_answers (hshown _ (List.getElem_mem hi')) hparameter
    (s.hasTag_typeNode _)).andThen fun out hout => .pure fun _ _ => ⟨hkey.1, ?_⟩
  rw [hkey.2] at hout
  exact hout

end Method

/-- The pointer that the machine tells gives the address column of the description. -/
theorem MethodDescription.token?_eq (hb : b.On s) (m : MethodDescription) (c : ClassDescription)
    (cls ret : Handle) (ps : List (String × Handle)) :
    b.vm.token? (if !c.typeParameters.isEmpty || !(m.node cls ret ps).typeParameters.isEmpty then 0
      else (m.node cls ret ps).address.getD 0) = m.token? s c := by
  unfold Vm.token? token? body?
  rw [hb.moduleBase, hb.pointerSize]
  cases hclass : c.typeParameters.isEmpty <;> cases hmethod : m.typeParameters.isEmpty <;>
    cases habstract : m.isAbstract <;>
    simp only [node, hmethod, habstract, Bool.not_true, Bool.not_false, Bool.or_true, Bool.or_false,
      if_true, if_false, Bool.false_eq_true, Option.map_none, Option.getD_none]
  cases m.address with
  | none => rfl
  | some address =>
      by_cases hzero : address = 0
      · rw [hzero]
        rfl
      · simp [hzero, Option.filter_some]

theorem Method.survey_answers {c : ClassDescription} {m : MethodDescription} {v : Method}
    (hb : b.On s) (hv : b.Shows v) {cls : Handle} {n : ClassNode}
    (hn : b.vm.arena.class_ cls = .ok n) (hopen : n.isOpen = !c.typeParameters.isEmpty)
    (hm : m.StandsAt s place b.vm.arena c cls v.handle) :
    b.Answers v.survey fun out u => out.Reports s place u cls c m := by
  have hnode := hm.node
  have hreturn := TypeView.survey_throughView (returnType_answers hv hnode hm.returnType.ne_null)
    hm.returnType (s.hasTag_typeNode _)
  have hclass := (class_answers hv hnode
    (Arena.ne_null_of_get? (Arena.class_eq_ok.mp hn))).weaken fun _ _ _ hk => hk.1
  have hpointer := Vm.tells_methodPointer hnode hn
  rw [hopen] at hpointer
  refine .assoc <| (surveyParameters_answers hv hm).andThen fun _ hparameters =>
    (name_yields hv hnode).bind <| .assoc <| hreturn.andThen fun _ hreturn =>
    (flags_yields hv hnode).bind <| (isGeneric_yields hv hnode).bind <|
    (typeParameterCount_yields hv hnode).bind <| (isInflated_yields hv hnode).bind <|
    (addressToken_yields hv hpointer).bind <| .pure fun u later => ?_
  exact {
    class_ := hclass.later later
    name := rfl
    returnType := hreturn
    parameters := hparameters
    flags := rfl
    isGeneric := rfl
    typeParameterCount := rfl
    isInflated := rfl
    address := m.token?_eq hb c _ _ _ }

/-! ## Classes -/

theorem ClassDescription.isOpen_classNode (s : Snapshot) (image t h : Handle) (c : ClassDescription)
    (fields methods : List Handle) :
    (s.classNode image t h c fields methods).isOpen = !c.typeParameters.isEmpty := by
  unfold ClassNode.isOpen
  exact Bool.and_true _

namespace Class

variable {v : Class} {p : Site} {c : ClassDescription}

theorem survey_answers (hb : b.On s) (hp : p ∈ s.images) (hv : b.Shows v)
    (hc : c.StandsAt s place p.image b.vm.arena v.handle) :
    b.Answers v.survey fun out u => out.Reports s place u p v.handle c := by
  obtain ⟨t, fields, methods, hnode, htype, hfirst, hfields, hmethods⟩ := hc
  have hopen := c.isOpen_classNode s p.image t v.handle fields methods
  have hnull : ∀ q ∈ s.entries, q.1 ≠ .null := fun _ => Snapshot.ne_null_of_mem_entries
  have hlinks := hb.sound.vm.arena.class_ hnode
  have hfieldsSurvey := (fields_answers hv hnode hlinks.null_not_mem_fields).throughViews
    (g := Field.survey) (R := fun f out _ => SurveyedField.Reports s place out c f)
    (fun _ _ _ _ _ h => h) hfields
    fun f w u later _ hw hf => Field.survey_answers hw (hf.later later.vm.arena)
  have hmethodsSurvey := (methods_answers hv hnode hlinks.null_not_mem_methods).throughViews
    (g := Method.survey) (R := fun m out u => SurveyedMethod.Reports s place u out v.handle c m)
    (fun _ _ _ _ hst h => h.later hst) hmethods
    fun m w u later sound hw hm => Method.survey_answers (hb.later later sound) hw
      (later.vm.arena.class_ hnode) hopen (hm.later later.vm.arena)
  have htypeSurvey := TypeView.survey_throughView (type_answers hv hnode htype.ne_null) htype
    (TypeKind.hasTag_of_named _ c.typeKind_mem)
  have hparent := parent_answers (k := (s.parent? v.handle c).map Prod.fst) hv hnode rfl
    fun k hk => by
      obtain ⟨q, hq, rfl⟩ := Option.map_eq_some_iff.mp hk
      exact hnull q (Snapshot.mem_entries_of_parent? hq)
  have hdeclaring := declaringClass_answers (k := (s.declaring? c).map Prod.fst) hv hnode rfl
    fun k hk => by
      obtain ⟨q, hq, rfl⟩ := Option.map_eq_some_iff.mp hk
      exact hnull q (Snapshot.mem_entries_of_declaring? hq)
  have hinterfaces := (interfaces_answers hv hnode fun hnull' => by
    obtain ⟨q, hq, hnull'⟩ := List.mem_map.mp hnull'
    exact hnull q (Snapshot.mem_entries_of_interfaces hq) hnull').weaken
    (Q := fun vs _ => vs.map View.handle = (s.interfaces c).map Prod.fst) fun _ _ _ hvs => hvs.1
  have himage := (image_answers hv hnode (Arena.ne_null_of_get?
    (Arena.image_eq_ok.mp (hb.image hp)))).weaken (Q := fun i _ => i.handle = p.image)
    fun _ _ _ hi => hi.1
  refine .assoc <| hfieldsSurvey.andThen fun _ hfields => .assoc <| hmethodsSurvey.andKeep
    (fun _ _ _ hst hms => hms.imp fun _ _ hm => hm.later hst) fun _ =>
    (name_yields hv hnode).bind <| (namespace_yields hv hnode).bind <|
    .assoc <| htypeSurvey.andThen fun _ htype => (assemblyName_yields hv hnode (hb.image hp)).bind <|
    hparent.andThen fun _ hparent => hdeclaring.andThen fun _ hdeclaring =>
    hinterfaces.andThen fun _ hinterfaces => (flags_yields hv hnode).bind <|
    (kind_yields hv hnode).bind <| (isGeneric_yields hv hnode).bind <|
    (typeParameterCount_yields hv hnode).bind <| .pure fun u later hmethods => ?_
  exact {
    handle := rfl
    image := himage.later later
    name := rfl
    namespace_ := rfl
    type := { htype with handle := rfl }
    first := fun hsome => htype.handle.trans (hfirst hsome).symm
    assembly := rfl
    parent := hparent
    declaring := hdeclaring
    interfaces := hinterfaces
    flags := rfl
    kind := rfl
    isGeneric := hopen
    typeParameterCount := rfl
    fields := hfields
    methods := hmethods }

end Class

/-! ## Assemblies -/

/-- The snapshot lies in the arena, with the types where `place` says. -/
def Snapshot.StandsIn (s : Snapshot) (place : TypeRef → Handle) (a : Arena) : Prop :=
  ∀ p ∈ s.images, List.Forall₂ (fun c h => c.StandsAt s place p.image a h) p.described p.classes

theorem Snapshot.StandsIn.later {a a' : Arena} (h : s.StandsIn place a) (ha : a.Later a') :
    s.StandsIn place a' :=
  fun p hp => (h p hp).imp fun _ _ hc => hc.later ha

/-- In a session that has just been attached every class stands where its image has put it. -/
theorem Session.stands_of_attach {vm : Vm} {config : Config} {b : Session}
    (hvm : Vm.ofSnapshot s = .ok vm) (hattach : Session.attach vm config = .ok b)
    (hplain : s.Plain) : ∃ place, s.StandsIn place b.vm.arena := by
  obtain ⟨place, hstands⟩ := s.classes_stand hplain
  exact ⟨place, Session.machine_of_attach hvm hattach ▸ hstands⟩

theorem Session.Fits.classStart_yields (hfits : b.Fits s) {p : Site} (hp : p ∈ s.images)
    {i : Image} (hi : b.Shows i) (himage : i.handle = p.image) :
    b.Yields i.classStart (s.windowStart p) := by
  have hstart := Vm.tells_imageClassStart.mpr ⟨p.node, himage ▸ hfits.on.image hp, rfl⟩
  rw [hfits.on.startOf] at hstart
  intro t later sound
  have hstart := hstart.later rfl later.vm
  exact (Image.classStart_runs sound (hi.later later)).weaken
    (fun start u hlater ht => ht.1.unique (hstart.later rfl hlater.vm)) fun hnone => hnone _ hstart

/-- The number of classes is reported in 32 bits. -/
theorem Session.On.classCount_yields (hs : b.On s) {p : Site} (hp : p ∈ s.images) {i : Image}
    (hi : b.Shows i) (himage : i.handle = p.image) :
    b.Yields i.classCount (word32 p.described.length) := by
  have hcount := Vm.tells_imageClassCount.mpr ⟨p.node, himage ▸ hs.image hp, rfl⟩
  rw [Site.size_classes_node] at hcount
  intro t later sound
  have hcount := hcount.later rfl later.vm
  exact (Image.classCount_runs sound (hi.later later)).weaken
    (fun count u hlater ht => ht.1.unique (hcount.later rfl hlater.vm)) fun hnone =>
    hnone _ hcount

/-- The classes are few enough to be counted. -/
theorem Session.Fits.classCount_yields (hfits : b.Fits s) {p : Site} (hp : p ∈ s.sites)
    {i : Image} (hi : b.Shows i) (himage : i.handle = p.image) :
    b.Yields i.classCount p.described.length := by
  have hyields := hfits.on.classCount_yields (Snapshot.mem_images.mpr (Or.inl hp)) hi himage
  have hend := Snapshot.start_add_length_le hp
  have hfew := hfits.count
  rwa [word32_eq_self_iff.mpr (by omega)] at hyields

theorem Assembly.survey_runs (hfits : b.Fits s) (hbelow : b.vm.arena.BelowScratch)
    (hstands : s.StandsIn place b.vm.arena) {a : Assembly} (ha : b.Shows a) {p : Site}
    (hp : p ∈ s.sites) (hassembly : a.handle = p.assembly) :
    Runs a.survey b (fun out u => out.Reports s place u p) False := by
  have hmem := Snapshot.mem_images.mpr (Or.inl hp)
  refine (hfits.on.assemblyImage_runs ha hp hassembly).bind fun i t later sound hi => ?_
  obtain ⟨⟨hi, himage⟩, harena⟩ := hi
  have hfits := hfits.later later sound
  refine (hfits.classes_agrees hfits (.refl sound) hp hp hi himage (harena ▸ hbelow)).runs.bind
    fun cs u later' sound' hcs => ?_
  have hfits := hfits.later later' sound'
  have hi := hi.later later'
  have ha := (ha.later later).later later'
  have hnode := hfits.on.image hmem
  obtain ⟨⟨hshown, hhandles⟩, -⟩ := hcs
  have hclasses := (hstands.later later.vm.arena).later later'.vm.arena p hmem
  have hsurveys : u.Answers (cs.mapM Class.survey) fun outs w =>
      List.Forall₂ (fun q out => SurveyedClass.Reports s place w out p q.1 q.2)
        (p.classes.zip p.described) outs := by
    refine .mapM (fun _ _ _ _ hst h => h.later hst) ?_
    have hlength : cs.length = p.classes.length := by rw [← hhandles, List.length_map]
    refine List.forall₂_iff_get.mpr ⟨by simp [hlength], fun k hk hk' => ?_⟩
    have hclass := hclasses.get (i := k) (by simpa using hk) (by simpa using hk)
    have hhandle := List.getElem_of_eq hhandles (i := k) (by simpa using hk')
    simp only [List.get_eq_getElem, List.getElem_map, List.getElem_zip] at hclass hhandle ⊢
    rw [← hhandle] at hclass ⊢
    exact Class.survey_answers hfits.on hmem (hshown _ (List.getElem_mem hk')) hclass
  have hname : u.Yields a.name (assemblyNameOf p.name) := fun w hlater hsound =>
    (hfits.on.later hlater hsound).assemblyName_runs (ha.later hlater) hp hassembly
  have hall : u.Answers (do
      let classes ← cs.mapM Class.survey
      pure (⟨a, ← a.name, i, ← i.name, ← i.classStart, ← i.classCount, classes⟩ :
        SurveyedAssembly)) fun out w => out.Reports s place w p :=
    hsurveys.andKeep (fun _ _ _ hst hcs => hcs.imp fun _ _ h => h.later hst) fun classes =>
      hname.bind <| (Image.name_yields hi (himage ▸ hnode)).bind <|
      (hfits.classStart_yields hmem hi himage).bind <|
      (hfits.classCount_yields hp hi himage).bind <|
      .pure fun w _ hclasses => ⟨hassembly, rfl, himage, rfl, rfl, rfl, hclasses⟩
  exact hall u (.refl u) sound'

theorem Query.Still.runs {x : Query α} (hx : x.Still) {P : α → Session → Prop} {E : Prop}
    (h : Runs x b P E) : Runs x b (fun a u => P a u ∧ u.vm.arena = b.vm.arena) E :=
  Query.Moves.runs (R := Session.SameArena) hx h

/-- One assembly after the other. The arena stays as it is, and so below scratch memory. -/
theorem mapM_survey_runs : ∀ {ps : List Site} {as : List Assembly} {b : Session}, b.Fits s →
    b.vm.arena.BelowScratch → s.StandsIn place b.vm.arena → (∀ a ∈ as, b.Shows a) →
    List.Forall₂ (fun p a => p ∈ s.sites ∧ View.handle a = p.assembly) ps as →
    Runs (as.mapM Assembly.survey) b (fun outs u =>
      List.Forall₂ (fun p out => SurveyedAssembly.Reports s place u out p) ps outs) False
  | _, _, _, hfits, _, _, _, .nil => by
      rw [List.mapM_nil]
      exact .pure hfits.on.sound .nil
  | _, a :: as, b, hfits, hbelow, hstands, has, .cons ⟨hp, hassembly⟩ hrest => by
      rw [List.mapM_cons]
      refine ((Assembly.survey_still a).runs (Assembly.survey_runs hfits hbelow hstands
        (has a List.mem_cons_self) hp hassembly)).bind fun out t later sound hout => ?_
      obtain ⟨hout, harena⟩ := hout
      refine (mapM_survey_runs (hfits.later later sound) (harena ▸ hbelow) (harena ▸ hstands)
        (fun d hd => (has d (List.mem_cons_of_mem a hd)).later later) hrest).bind
        fun outs u later' sound' houts => ?_
      exact .pure sound' (.cons (hout.later later') houts)

theorem survey_runs (hfits : b.Fits s) (hbelow : b.vm.arena.BelowScratch)
    (hstands : s.StandsIn place b.vm.arena) :
    Runs survey b (fun outs u =>
      List.Forall₂ (fun p out => SurveyedAssembly.Reports s place u out p) s.sites outs) False := by
  have hsurvey : survey = (do (← Query.domain).assemblies) >>= fun as =>
      as.mapM Assembly.survey := (bind_assoc _ _ _).symm
  rw [hsurvey]
  refine (assemblies_still.runs ((Query.assemblies_agrees (.refl hfits.on.sound)).runs.weaken
    (fun _ _ _ has => has) fun hnull => ?_)).bind fun as t later sound has => ?_
  · obtain ⟨p, hp, hassembly, _⟩ := hfits.on.site_of_mem hnull
    exact Arena.ne_null_of_get? (Arena.assembly_eq_ok.mp (hfits.on.assembly hp)) hassembly.symm
  obtain ⟨⟨hshown, hhandles⟩, harena⟩ := has
  have hfits := hfits.later later sound
  rw [hfits.on.assemblies] at hhandles
  exact mapM_survey_runs hfits (harena ▸ hbelow) (harena ▸ hstands) hshown
    (Session.forall₂_of_handles hhandles)

/-- The survey of a session without overrides does not fail and reports the description, if no name
begins like the key of a type parameter. -/
theorem survey_reports {snapshot : Snapshot} {vm : Vm} {s : Session}
    (hvm : Vm.ofSnapshot snapshot = .ok vm) (hattach : Session.attach vm = .ok s)
    (hcount : snapshot.classCount < 0x1_0000_0000) (hbelow : vm.arena.BelowScratch)
    (hplain : snapshot.Plain) :
    ∃ outs t place, survey s = .ok outs t ∧
      List.Forall₂ (fun p out => SurveyedAssembly.Reports snapshot place t out p)
        snapshot.sites outs := by
  obtain ⟨place, hstands⟩ := Session.stands_of_attach hvm hattach hplain
  have hsame := (Session.sound_of_attach hvm hattach).2.1
  obtain ⟨outs, t, hrun, -, -, houts⟩ := (survey_runs (Session.Fits.of_attach hvm hattach hcount)
    (hsame ▸ hbelow) hstands).exists_ok
  exact ⟨outs, t, place, hrun, houts⟩

theorem survey_reports_small :
    let s := Session.new Snapshot.small.machine ⟨2020, 3, 1, some "f1"⟩ .current
    Session.attach Snapshot.small.machine = .ok s ∧ Snapshot.small.Plain ∧
      ∃ outs t, survey s = .ok outs t ∧
        outs.map (fun out => (out.name, out.imageName, out.classCount)) =
          [("Game", "Game.dll", 1), ("mscorlib", "mscorlib.dll", 2)] := by
  intro s
  have hattach : Session.attach Snapshot.small.machine = .ok s :=
    Session.attach_eq_ok.mpr ⟨_, _, by decide +kernel, rfl⟩
  have hplain : Snapshot.small.Plain := by decide +kernel
  obtain ⟨outs, t, place, hrun, houts⟩ := survey_reports
    (Vm.ofSnapshot_machine (s := Snapshot.small) (Or.inr rfl)) hattach (by decide)
    (Arena.belowScratch_of_size (by decide +kernel)) hplain
  refine ⟨hattach, hplain, outs, t, hrun, ?_⟩
  have hsites : [("Game", "Game.dll", 1), ("mscorlib", "mscorlib.dll", 2)] =
      Snapshot.small.sites.map fun p => (assemblyNameOf p.name, p.name, p.described.length) := by
    decide +kernel
  rw [hsites]
  refine List.forall₂_eq_eq_eq ▸ List.forall₂_map_left_iff.mpr
    (List.forall₂_map_right_iff.mpr (houts.flip.imp fun out p hout => ?_))
  rw [hout.name, hout.imageName, hout.classCount]

/-- The text of the second field is the key of the type parameter once it is trimmed. -/
def Snapshot.blankMarked : Snapshot where
  vmVersion := "2020.3.1f1"
  assemblies := [
    { image := "Game.dll"
      classes := [
        { name := "Pool"
          typeParameters := ["T"]
          fields := [{ name := "a", type := "T" }, { name := "b", type := " !T" }] }] }]

/-- No name or text itself begins like a key, but a text does so behind a blank. Its field is
reported with the type parameter. -/
theorem survey_reports_blankMarked :
    let s := Session.new Snapshot.blankMarked.machine ⟨2020, 3, 1, some "f1"⟩ .current
    Session.attach Snapshot.blankMarked.machine = .ok s ∧
      Snapshot.blankMarked.classCount < 0x1_0000_0000 ∧
      Snapshot.blankMarked.machine.arena.BelowScratch ∧
      (∀ a ∈ Snapshot.blankMarked.assemblies, ∀ c ∈ a.classes,
        ¬IsMarked c.fullName ∧ ∀ text ∈ c.typeTexts, ¬IsMarked text) ∧
      TypeName.normalized " !T" = "!T" ∧
      (∀ a ∈ Snapshot.blankMarked.assemblies, ∀ c ∈ a.classes, "!T" ∉ c.typeParameters) ∧
      ((Query.attempt survey s).1.map fun outs => outs.flatMap fun out =>
        out.classes.flatMap fun c => c.fields.map fun f => (f.name, f.type.name, f.type.kind)) =
          .ok [("a", "T", .var), ("b", "T", .var)] :=
  ⟨Session.attach_eq_ok.mpr ⟨_, _, by decide +kernel, rfl⟩, by decide,
    Arena.belowScratch_of_size (by decide +kernel), by decide +kernel, by decide +kernel,
    by decide, by decide +kernel⟩

end VmMetadata
