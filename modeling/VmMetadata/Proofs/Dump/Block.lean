import VmMetadata.Proofs.Session.Surveyed

/-!
The dump of classes as a rendering of the description. The loader turns what is described into flags
and links, and a declaration reads these back; what comes out can be written down from the
description alone. Main statement: the dump of classes of a session without overrides gives no
error, and one block for each described class, in the order of the description.
-/

namespace VmMetadata

/-! ## The rendering -/

def FieldDescription.modifiers (f : FieldDescription) : String :=
  if f.isLiteral then "const "
  else (if f.isStatic then "static " else "") ++ if f.isReadOnly then "readonly " else ""

/-- The field of the class, such as `static readonly System.Int32 count; // 0x10`. -/
def FieldDescription.declaration (f : FieldDescription) (s : Snapshot) (c : ClassDescription) :
    String :=
  f.modifiers ++ (s.typeNode (f.ref c)).name ++ " " ++ f.name ++ ";" ++
    if f.isLiteral then "" else " // " ++ offsetText f.offset

def ParameterDescription.text (p : ParameterDescription) (s : Snapshot) (c : ClassDescription)
    (m : MethodDescription) : String :=
  (s.typeNode (p.ref c m)).name ++ " " ++ p.name

namespace MethodDescription

def dispatch (m : MethodDescription) : String :=
  if m.isAbstract then "abstract " else if m.isVirtual then "virtual " else ""

/-- The type parameters of the method itself, as many as it counts, under the names that stand in for
their own. -/
def ownParameters (m : MethodDescription) : String :=
  if m.typeParameters = [] then ""
  else genericName "" (parameterNames (word32 m.typeParameters.length))

/-- The method of the class, such as `static System.Void Run(System.Int32 count); // 0x00001234`. It
shows the parameters that can be counted. -/
def declaration (m : MethodDescription) (s : Snapshot) (c : ClassDescription) : String :=
  (if m.isStatic then "static " else "") ++ m.dispatch ++ (s.typeNode (m.returnRef c)).name ++
    " " ++ m.name ++ m.ownParameters ++
    "(" ++ ", ".intercalate ((counted m.parameters).map fun p => p.text s c m) ++ ");" ++
    match m.token? s c with
    | some token => " // " ++ token
    | none => ""

end MethodDescription

namespace ClassDescription

/-- Only a class proper has modifiers. -/
def modifiers (c : ClassDescription) : String :=
  if c.kind = .class_ then Class.modifiers c.isAbstract c.isSealed else ""

/-- The base class, of a class proper and unless it is the root of all classes. -/
def inheritedParent (c : ClassDescription) (s : Snapshot) (h : Handle) : List String :=
  match s.parent? h c with
  | some p =>
      if c.kind = .class_ then
        if p.2.typeName = "System.Object" then [] else [p.2.typeName]
      else []
  | none => []

/-- What stands behind the colon. -/
def inherited (c : ClassDescription) (s : Snapshot) (h : Handle) : List String :=
  c.inheritedParent s h ++ (s.interfaces c).map fun i => i.2.typeName

/-- The declaration of the class at the handle with its members, under the name of its image. -/
def declaration (c : ClassDescription) (s : Snapshot) (image : String) (h : Handle) : String :=
  let inherited := c.inherited s h
  "// " ++ image ++ "\n" ++ c.modifiers ++ c.kind.keyword ++ " " ++ c.typeName ++
    (if inherited = [] then "" else " : " ++ ", ".intercalate inherited) ++ "\n\x7b\n" ++
    Class.indentedLines (c.fields.map fun f => f.declaration s c) ++
    (if c.fields = [] ∨ c.methods = [] then "" else "\n") ++
    Class.indentedLines (c.methods.map fun m => m.declaration s c) ++ "\x7d"

end ClassDescription

/-- The blocks of the classes of a site, each followed by an empty line. -/
def Site.blocks (p : Site) (s : Snapshot) : List String :=
  (p.classes.zip p.described).map fun q => q.2.declaration s p.name q.1 ++ "\n\n"

theorem Site.map_fst_zip (p : Site) : (p.classes.zip p.described).map Prod.fst = p.classes :=
  List.map_fst_zip (by simp)

/-! ## Flags -/

/-- Whether a bit is set in the flags. -/
abbrev Attribute.isSet (flags bit : UInt32) : Bool :=
  flags &&& bit != 0

theorem FieldDescription.flags_has (f : FieldDescription) :
    Attribute.isSet f.flags Attribute.literalField = f.isLiteral ∧
      Attribute.isSet f.flags Attribute.staticField = (f.isStatic || f.isLiteral) ∧
      Attribute.isSet f.flags Attribute.readOnlyField = f.isReadOnly := by
  unfold flags
  cases f.isLiteral <;> cases f.isStatic <;> cases f.isReadOnly <;> decide

theorem MethodDescription.flags_has (m : MethodDescription) :
    Attribute.isSet m.flags Attribute.staticMethod = m.isStatic ∧
      Attribute.isSet m.flags Attribute.virtualMethod = (m.isVirtual || m.isAbstract) ∧
      Attribute.isSet m.flags Attribute.abstractMethod = m.isAbstract := by
  unfold flags
  cases m.isStatic <;> cases m.isVirtual <;> cases m.isAbstract <;> decide

theorem ClassDescription.flags_has (c : ClassDescription) :
    Attribute.isSet c.flags Attribute.abstractClass = (c.isAbstract || c.kind = .interface) ∧
      Attribute.isSet c.flags Attribute.sealedClass =
        (c.isSealed || c.kind = .struct || c.kind = .enum) := by
  unfold flags
  cases c.kind <;> cases c.isAbstract <;> cases c.isSealed <;> decide

/-! ## What is looked up -/

namespace Look

variable {v : Vm} {h t : Handle}

/-- The type that a call names has the name that its node says. -/
theorem finds_objectName {n : TypeNode} (ht : v.arena.HoldsType t n) {c : Call .handle}
    {hc : c.isStable = true} (hasks : (ask c hc).Finds v t) {f : String → Look β} {b : β}
    (hf : (f n.name).Finds v b) :
    (object c hc >>= fun t => ask (.typeName t) rfl >>= f).Finds v b :=
  finds_bind.mpr ⟨t, finds_object.mpr ⟨hasks, ht.ne_null⟩,
    finds_bind.mpr ⟨n.name, finds_typeName ht, hf⟩⟩

section

variable {s : Snapshot} {place : TypeRef → Handle} {c : ClassDescription}

/-! ### Members -/

theorem finds_fieldDeclaration {f : FieldDescription} (hf : f.StandsAt s place v.arena c h) :
    (fieldDeclaration h).Finds v (f.declaration s c) := by
  obtain ⟨hnode, htype⟩ := hf
  obtain ⟨hliteral, hstatic, hreadOnly⟩ := f.flags_has
  have hisLiteral : (fieldFlag h Attribute.literalField).Finds v f.isLiteral :=
    finds_fieldFlag hnode hliteral
  have hmodifiers : (fieldModifiers h).Finds v f.modifiers := by
    refine finds_bind.mpr ⟨_, hisLiteral, ?_⟩
    unfold FieldDescription.modifiers
    cases hlit : f.isLiteral with
    | true => exact finds_pure.mpr rfl
    | false =>
        rw [hlit, Bool.or_false] at hstatic
        exact finds_bind.mpr ⟨_, finds_fieldFlag hnode hstatic,
          finds_bind.mpr ⟨_, finds_fieldFlag hnode hreadOnly, finds_pure.mpr rfl⟩⟩
  have hplace : (fieldPlace h).Finds v
      (if f.isLiteral then "" else " // " ++ offsetText f.offset) := by
    refine finds_bind.mpr ⟨_, hisLiteral, ?_⟩
    cases f.isLiteral with
    | true => exact finds_pure.mpr rfl
    | false =>
        exact finds_bind.mpr ⟨_, finds_field hnode (.fieldOffset h) FieldNode.offset rfl rfl,
          finds_pure.mpr rfl⟩
  exact finds_bind.mpr ⟨_, hmodifiers,
    finds_objectName htype (finds_field hnode (.fieldType h) FieldNode.type rfl rfl) <|
    finds_bind.mpr ⟨_, finds_field hnode (.fieldName h) FieldNode.name rfl rfl,
    finds_bind.mpr ⟨_, hplace, finds_pure.mpr rfl⟩⟩⟩

section

variable {m : MethodDescription} {cls : Handle} (hm : m.StandsAt s place v.arena c cls h)
include hm

theorem finds_dispatch : (dispatch h).Finds v m.dispatch := by
  obtain ⟨-, hvirtual, habstract⟩ := m.flags_has
  refine finds_bind.mpr ⟨_, finds_methodFlag hm.node habstract, ?_⟩
  unfold MethodDescription.dispatch
  cases habs : m.isAbstract with
  | true => exact finds_pure.mpr rfl
  | false =>
      rw [habs, Bool.or_false] at hvirtual
      exact finds_bind.mpr ⟨_, finds_methodFlag hm.node hvirtual, finds_pure.mpr rfl⟩

theorem finds_ownParameters : (ownParameters h).Finds v m.ownParameters := by
  refine finds_bind.mpr ⟨_, Vm.tells_methodIsGeneric.mpr ⟨_, hm.node, rfl⟩, ?_⟩
  unfold MethodDescription.ownParameters
  change Look.Finds (if (!m.typeParameters.isEmpty) = true then _ else _) v _
  by_cases hempty : m.typeParameters = []
  · rw [if_pos hempty, hempty]
    exact finds_pure.mpr rfl
  · rw [if_neg hempty, if_pos (by simpa using hempty)]
    exact finds_bind.mpr ⟨_, Vm.tells_methodTypeParameterCount.mpr ⟨_, hm.node, rfl⟩,
      finds_pure.mpr rfl⟩

theorem finds_parameterTexts :
    (parameters h >>= fun ps => ps.mapM parameterText).Finds v
      ((counted m.parameters).map fun p => p.text s c m) := by
  refine finds_bind.mpr ⟨_, finds_parameters hm.node fun q hq => ?_, finds_mapM.mpr ?_⟩
  · obtain ⟨p, hp, rfl⟩ := List.mem_map.mp hq
    obtain ⟨n, hn, _⟩ := hm.parameters p hp
    exact ⟨n, hn⟩
  rw [MethodDescription.node, counted_map]
  refine List.forall₂_map_left_iff.mpr (List.forall₂_map_right_iff.mpr
    (List.forall₂_same.mpr fun p hp => ?_))
  exact finds_bind.mpr ⟨_, finds_typeName (hm.parameters p (mem_of_mem_counted hp)),
    finds_pure.mpr rfl⟩

end

theorem finds_methodDeclaration {b : Session} (hb : b.On s) {m : MethodDescription} {cls : Handle}
    {n : ClassNode} (hn : b.vm.arena.class_ cls = .ok n)
    (hopen : n.isOpen = !c.typeParameters.isEmpty)
    (hm : m.StandsAt s place b.vm.arena c cls h) :
    (methodDeclaration h).Finds b.vm (m.declaration s c) := by
  have hnode := hm.node
  have hpointer := Vm.tells_methodPointer hnode hn
  rw [hopen] at hpointer
  have htoken : (token? h).Finds b.vm (m.token? s c) :=
    finds_token?.mpr ⟨_, hpointer, (m.token?_eq hb c _ _ _).symm⟩
  have hplace : (methodPlace h).Finds b.vm (match m.token? s c with
      | some token => " // " ++ token
      | none => "") := by
    refine finds_bind.mpr ⟨_, htoken, ?_⟩
    cases m.token? s c <;> exact finds_pure.mpr rfl
  obtain ⟨ps, hps, htexts⟩ := finds_bind.mp (finds_parameterTexts hm)
  exact finds_bind.mpr ⟨_, finds_methodFlag hnode m.flags_has.1,
    finds_bind.mpr ⟨_, finds_dispatch hm, finds_objectName hm.returnType
    (finds_method hnode (.methodReturnType h) MethodNode.returnType rfl rfl) <|
    finds_bind.mpr ⟨_, finds_method hnode (.methodName h) MethodNode.name rfl rfl,
    finds_bind.mpr ⟨_, finds_ownParameters hm, finds_bind.mpr ⟨ps, hps,
    finds_bind.mpr ⟨_, htexts, finds_bind.mpr ⟨_, hplace, finds_pure.mpr rfl⟩⟩⟩⟩⟩⟩⟩

/-! ### Classes -/

/-- A class that stands in the arena has the type name of its description. -/
theorem finds_className {image : Handle} (hc : c.StandsAt s place image v.arena h) :
    (className h).Finds v c.typeName := by
  obtain ⟨t, fields, methods, hnode, htype, -⟩ := hc
  exact finds_bind.mpr ⟨t, finds_object.mpr ⟨finds_class hnode (.classType h) ClassNode.type rfl rfl,
    htype.ne_null⟩, finds_typeName htype⟩

end

end Look

namespace Snapshot.StandsIn

variable {s : Snapshot} {place : TypeRef → Handle} {v : Vm} (hstands : s.StandsIn place v.arena)
include hstands

theorem finds_className {q : Handle × ClassDescription} (hq : q ∈ s.entries) :
    (Look.className q.1).Finds v q.2.typeName := by
  obtain ⟨p, hp, hq⟩ := List.mem_flatMap.mp hq
  exact Look.finds_className (List.forall₂_zip (hstands p hp).flip hq)

variable {c : ClassDescription} {p : Site} {h t : Handle} {fields methods : List Handle}
  (hnode : v.arena.class_ h = .ok (s.classNode p.image t h c fields methods))
include hnode

theorem finds_inherited : (Look.inherited h c.kind).Finds v (c.inherited s h) := by
  have hparent : (Look.parentName h c.kind).Finds v (c.inheritedParent s h) := by
    refine Look.finds_bind.mpr ⟨_, Look.finds_class hnode (.classParent h) ClassNode.parent rfl rfl,
      ?_⟩
    have hnamed : (s.classNode p.image t h c fields methods).parent =
        ((s.parent? h c).map Prod.fst).getD .null := rfl
    rw [hnamed]
    unfold ClassDescription.inheritedParent
    cases hparent : s.parent? h c with
    | none => exact Look.finds_pure.mpr rfl
    | some q =>
        have hq := mem_entries_of_parent? hparent
        have hne : ¬q.1.isNull = true := fun hnull =>
          ne_null_of_mem_entries hq (Handle.isNull_iff.mp hnull)
        rw [Option.map_some, Option.getD_some, Handle.nonNull?, if_neg hne]
        simp only []
        split
        · exact Look.finds_bind.mpr ⟨_, hstands.finds_className hq, Look.finds_pure.mpr rfl⟩
        · exact Look.finds_pure.mpr rfl
  have hinterfaces := Look.finds_objects_class hnode (.classInterfaces h) ClassNode.interfaces rfl
    rfl fun hnull => by
      obtain ⟨q, hq, hnull⟩ := List.mem_map.mp hnull
      exact ne_null_of_mem_entries (mem_entries_of_interfaces hq) hnull
  refine Look.finds_bind.mpr ⟨_, hparent, Look.finds_bind.mpr ⟨_, hinterfaces,
    Look.finds_bind.mpr ⟨_, Look.finds_mapM.mpr ?_, Look.finds_pure.mpr rfl⟩⟩⟩
  exact List.forall₂_map_left_iff.mpr (List.forall₂_map_right_iff.mpr
    (List.forall₂_same.mpr fun q hq => hstands.finds_className (mem_entries_of_interfaces hq)))

end Snapshot.StandsIn

theorem Look.finds_modifierText {v : Vm} {h : Handle} {n : ClassNode} {c : ClassDescription}
    (hn : v.arena.class_ h = .ok n) (hflags : n.flags = c.flags) :
    (modifierText h c.kind).Finds v c.modifiers := by
  obtain ⟨habstract, hsealed⟩ := c.flags_has
  unfold modifierText ClassDescription.modifiers
  split
  · rename_i hkind
    simp only [hkind, reduceCtorEq, decide_false, Bool.or_false] at habstract hsealed
    rw [← hflags] at habstract hsealed
    exact finds_bind.mpr ⟨_, finds_classFlag hn habstract,
      finds_bind.mpr ⟨_, finds_classFlag hn hsealed, finds_pure.mpr rfl⟩⟩
  · exact finds_pure.mpr rfl

/-- The declaration of a class that stands in the arena is the one of its description. -/
theorem Look.finds_classDeclaration {b : Session} {s : Snapshot} (hb : b.On s)
    {place : TypeRef → Handle} (hstands : s.StandsIn place b.vm.arena) {p : Site}
    (hp : p ∈ s.images) {c : ClassDescription} {h : Handle}
    (hc : c.StandsAt s place p.image b.vm.arena h) :
    (classDeclaration h).Finds b.vm (c.declaration s p.name h) := by
  have hname := finds_className hc
  obtain ⟨t, fields, methods, hnode, -, -, hfields, hmethods⟩ := hc
  have himage := hb.image hp
  have hlinks := hb.sound.vm.arena.class_ hnode
  have hfieldHandles := finds_objects_class hnode (.classFields h) ClassNode.fields rfl rfl
    hlinks.null_not_mem_fields
  have hmethodHandles := finds_objects_class hnode (.classMethods h) ClassNode.methods rfl rfl
    hlinks.null_not_mem_methods
  have hfieldTexts : List.Forall₂ (fun k text => (fieldDeclaration k).Finds b.vm text) fields
      (c.fields.map fun f => f.declaration s c) :=
    List.forall₂_map_right_iff.mpr (hfields.flip.imp fun _ _ hf => finds_fieldDeclaration hf)
  have hmethodTexts : List.Forall₂ (fun k text => (methodDeclaration k).Finds b.vm text) methods
      (c.methods.map fun m => m.declaration s c) :=
    List.forall₂_map_right_iff.mpr (hmethods.flip.imp fun _ _ hm =>
      finds_methodDeclaration hb hnode (c.isOpen_classNode s p.image t h fields methods) hm)
  refine finds_bind.mpr ⟨_, finds_kind_class hnode, finds_bind.mpr ⟨_, finds_object.mpr
    ⟨finds_class hnode (.classImage h) ClassNode.image rfl rfl,
      Arena.ne_null_of_get? (Arena.image_eq_ok.mp himage)⟩, finds_bind.mpr ⟨_,
    Vm.tells_imageName.mpr ⟨_, himage, rfl⟩, finds_bind.mpr ⟨_, finds_modifierText hnode rfl,
    finds_bind.mpr ⟨_, hname, finds_bind.mpr ⟨_, hstands.finds_inherited hnode,
    finds_bind.mpr ⟨_, hfieldHandles, finds_bind.mpr ⟨_, finds_mapM.mpr hfieldTexts,
    finds_bind.mpr ⟨_, hmethodHandles, finds_bind.mpr ⟨_, finds_mapM.mpr hmethodTexts,
    finds_pure.mpr ?_⟩⟩⟩⟩⟩⟩⟩⟩⟩⟩
  simp only [List.map_eq_nil_iff]
  rfl

/-! ## The dump -/

variable {s : Session} {snapshot : Snapshot}

/-- The listing of an assembly is that of its classes. -/
theorem Session.Fits.listing_eq (hfits : s.Fits snapshot) {p : Site} (hp : p ∈ snapshot.sites) :
    snapshot.listing p s.layout = .ok p.classes := by
  have hmem := Snapshot.mem_images.mpr (Or.inl hp)
  have hcovers := hfits.suits.covers hfits.count hp
  exact Snapshot.listing_eq_ok_iff.mpr ⟨hfits.suits.hasRoom hfits.pointerSize, hcovers,
    (Snapshot.found_eq_iff hmem hcovers).mpr (hfits.suits.meets hfits.count hp)⟩

/-- Where the declaration of every class is known, the dump of classes consists of these. -/
theorem pullDump_declared (hfits : s.Fits snapshot) (hbelow : s.vm.arena.BelowScratch)
    {declared : Handle → String} (hdeclared : ∀ h ∈ snapshot.classHandles,
      (Look.classDeclaration h).Finds s.vm (declared h)) :
    (pullDump .classes .endless s).1 = ⟨snapshot.sites.flatMap fun p =>
      .progress (assemblyNameOf p.name) ::
        p.classes.map fun h => .item (.ok (declared h ++ "\n\n")), some .endless⟩ := by
  have hitems : ∀ h ∈ snapshot.classHandles,
      s.Settles .classes h ((fun h => [.ok (declared h ++ "\n\n")]) h) :=
    fun h hh => Session.On.settles_classes (hdeclared h hh)
  have hends := pullDump_ends hitems (.refl s) hfits.on .endless
  have hstill := pullDump_stills .endless s
  rw [hends.post (hstill ▸ hbelow), if_neg (by decide), Pulled.cut_endless]
  refine congrArg (Pulled.mk · _) (List.flatMap_congr fun p hp => ?_)
  rw [Snapshot.siteEvents, hfits.listing_eq hp]
  simp only [← List.map_eq_flatMap, List.map_map, Function.comp_def]

/-- Where every class stands, the dump of classes consists of the blocks of the description. -/
theorem pullDump_classes_ends (hfits : s.Fits snapshot) (hbelow : s.vm.arena.BelowScratch)
    {place : TypeRef → Handle} (hstands : snapshot.StandsIn place s.vm.arena) :
    (pullDump .classes .endless s).1 = ⟨snapshot.sites.flatMap fun p =>
      .progress (assemblyNameOf p.name) :: (p.blocks snapshot).map fun block => .item (.ok block),
      some .endless⟩ := by
  have hdeclares : ∀ p ∈ snapshot.images, ∀ q ∈ p.classes.zip p.described,
      (Look.classDeclaration q.1).Finds s.vm (q.2.declaration snapshot p.name q.1) :=
    fun p hp q hq => Look.finds_classDeclaration hfits.on hstands hp
      (List.forall₂_zip (hstands p hp).flip hq)
  have hall : ∀ h ∈ snapshot.classHandles, ∃ text,
      (Look.classDeclaration h).Finds s.vm text := by
    intro h hh
    obtain ⟨p, hp, hh⟩ := List.mem_flatMap.mp hh
    rw [← p.map_fst_zip] at hh
    obtain ⟨q, hq, rfl⟩ := List.mem_map.mp hh
    exact ⟨_, hdeclares p hp q hq⟩
  choose! text htext using hall
  rw [pullDump_declared hfits hbelow htext]
  refine congrArg (Pulled.mk · _) (List.flatMap_congr fun p hp => ?_)
  have hmem := Snapshot.mem_images.mpr (Or.inl hp)
  -- the declaration of each class is the one that its look finds
  rw [← p.map_fst_zip, Site.blocks, List.map_map, List.map_map]
  refine congrArg _ (List.map_congr_left fun q hq => ?_)
  have hclass : q.1 ∈ snapshot.classHandles :=
    List.mem_flatMap.mpr ⟨p, hmem, (List.of_mem_zip hq).1⟩
  simp only [Function.comp_apply, (htext q.1 hclass).unique (hdeclares p hmem q hq)]

/-- In a session without overrides the dump of classes gives no error and one block for each class,
in the order of the description, if no name begins like the key of a type parameter. -/
theorem pullDump_classes_eq {vm : Vm} (hvm : Vm.ofSnapshot snapshot = .ok vm)
    (hattach : Session.attach vm = .ok s) (hcount : snapshot.classCount < 0x1_0000_0000)
    (hbelow : vm.arena.BelowScratch) (hplain : snapshot.Plain) :
    (pullDump .classes .endless s).1.ended = true ∧
      (pullDump .classes .endless s).1.items =
        (snapshot.sites.flatMap fun p => p.blocks snapshot).map .ok := by
  obtain ⟨place, hstands⟩ := Session.stands_of_attach hvm hattach hplain
  have hsame := (Session.sound_of_attach hvm hattach).2.1
  rw [pullDump_classes_ends (.of_attach hvm hattach hcount) (hsame ▸ hbelow) hstands]
  refine ⟨rfl, ?_⟩
  unfold Pulled.items
  simp [List.filterMap_flatMap, List.filterMap_map, List.map_flatMap]

theorem pullDump_classes_eq_small :
    let s := Session.new Snapshot.small.machine ⟨2020, 3, 1, some "f1"⟩ .current
    Session.attach Snapshot.small.machine = .ok s ∧ Snapshot.small.Plain ∧
      (pullDump .classes .endless s).1.items =
        [.ok "// Game.dll\nclass Pool<T>\n\x7b\n    T Get();\n\x7d\n\n",
          .ok ("// mscorlib.dll\nclass System.Object\n\x7b\n" ++
            "    System.Void Finalize(); // 0x00000080\n\x7d\n\n"),
          .ok "// mscorlib.dll\nclass System.Type\n\x7b\n\x7d\n\n"] := by
  intro s
  have hattach : Session.attach Snapshot.small.machine = .ok s :=
    Session.attach_eq_ok.mpr ⟨_, _, by decide +kernel, rfl⟩
  have hplain : Snapshot.small.Plain := by decide +kernel
  refine ⟨hattach, hplain, ?_⟩
  rw [(pullDump_classes_eq (Vm.ofSnapshot_machine (s := Snapshot.small) (Or.inr rfl)) hattach
    (by decide) (Arena.belowScratch_of_size (by decide +kernel)) hplain).2]
  decide +kernel

/-- No name or text itself begins like a key, but a text does so behind a blank. Its field is
declared with the type parameter. -/
theorem pullDump_classes_blankMarked :
    let s := Session.new Snapshot.blankMarked.machine ⟨2020, 3, 1, some "f1"⟩ .current
    Session.attach Snapshot.blankMarked.machine = .ok s ∧
      Snapshot.blankMarked.classCount < 0x1_0000_0000 ∧
      Snapshot.blankMarked.machine.arena.BelowScratch ∧
      (∀ a ∈ Snapshot.blankMarked.assemblies, ∀ c ∈ a.classes,
        ¬IsMarked c.fullName ∧ ∀ text ∈ c.typeTexts, ¬IsMarked text) ∧
      (pullDump .classes .endless s).1.items =
        [.ok "// Game.dll\nclass Pool<T>\n\x7b\n    T a; // 0x0\n    T b; // 0x0\n\x7d\n\n"] ∧
      (Snapshot.blankMarked.sites.flatMap fun p => p.blocks Snapshot.blankMarked) =
        ["// Game.dll\nclass Pool<T>\n\x7b\n    T a; // 0x0\n    !T b; // 0x0\n\x7d\n\n"] :=
  ⟨Session.attach_eq_ok.mpr ⟨_, _, by decide +kernel, rfl⟩, by decide,
    Arena.belowScratch_of_size (by decide +kernel), by decide +kernel, by decide +kernel,
    by decide +kernel⟩

end VmMetadata
