import VmMetadata.Inspect.Host
import VmMetadata.Proofs.Machine.Blind
import VmMetadata.Proofs.Machine.Run
import VmMetadata.Proofs.Machine.Told
import VmMetadata.Proofs.Session.Notes

/-!
What a note has to say to be true. A note repeats the answers of calls, and the views in it show
the objects that the answers name. True notes stay true while the session goes on, as the answers
they repeat are stable; and a session is sound if its machine is well-formed, no call is spoiled,
and all its notes are true.
-/

namespace VmMetadata

open Std (TreeMap)

/-! ## Answers -/

namespace Vm

variable {v w : Vm} {c : Call r} {a : r.Value}

theorem Tells.alike (h : v.Tells c a) (hc : c.isBlind = true) (hvw : v.Alike w) :
    w.Tells c a := by
  unfold Tells at h ⊢
  rw [hvw, answer_blind hc, h]

end Vm

/-! ## Names -/

/-- What stands under each name; of several things of one name the last. -/
def tabulate (names : List String) (things : List α) : TreeMap String α :=
  (names.zip things).foldl (fun table entry => table.insert entry.1 entry.2) ∅

namespace Vm

/-- The other machine repeats whatever the one tells that is stable and does not show its build. -/
def Repeats (v w : Vm) : Prop :=
  ∀ (r : Reply) (c : Call r) (a : r.Value), c.isStable = true → c.isBlind = true →
    v.Tells c a → w.Tells c a

theorem Later.repeats {v w : Vm} (h : v.Later w) : v.Repeats w :=
  fun _ _ _ hstable _ htells => htells.later hstable h

theorem Alike.repeats {v w : Vm} (h : v.Alike w) : v.Repeats w :=
  fun _ _ _ _ hblind htells => htells.alike hblind h

/-- The class has a type of the name. -/
def TellsTypeName (vm : Vm) (cls : Handle) (name : String) : Prop :=
  ∃ t, t ≠ .null ∧ vm.Tells (.classType cls) t ∧ vm.Tells (.typeName t) name

/-- The assembly has its name from the file of its image. -/
def TellsAssemblyName (vm : Vm) (assembly : Handle) (name : String) : Prop :=
  ∃ image text, vm.Tells (.assemblyImage assembly) image ∧ vm.Tells (.imageName image) text ∧
    name = assemblyNameOf text

/-- The last assembly of the name, if there is one. -/
def TellsNamed (vm : Vm) (domain : Handle) (name : String) (assembly? : Option Handle) : Prop :=
  ∃ as names, vm.Tells (.domainAssemblies domain) as ∧
    List.Forall₂ vm.TellsAssemblyName as names ∧ assembly? = (tabulate names as)[name]?

/-- The application class of the host in the first of the named assemblies that has one, or null. -/
def TellsHost (vm : Vm) (domain : Handle) : List String → Handle → Prop
  | [], k => k = .null
  | name :: rest, k => (vm.TellsNamed domain name none ∧ vm.TellsHost domain rest k) ∨
      ∃ assembly image c, vm.TellsNamed domain name (some assembly) ∧
        vm.Tells (.assemblyImage assembly) image ∧
        vm.Tells (.classFromName image "UnityEngine" "Application") c ∧
        (if c = .null then vm.TellsHost domain rest k else k = c)

variable {v w : Vm} (hvw : v.Repeats w)
include hvw

theorem Repeats.typeName {cls : Handle} {name : String} (h : v.TellsTypeName cls name) :
    w.TellsTypeName cls name := by
  obtain ⟨t, hne, ht, hname⟩ := h
  exact ⟨t, hne, hvw _ _ _ rfl rfl ht, hvw _ _ _ rfl rfl hname⟩

theorem Repeats.assemblyName {assembly : Handle} {name : String}
    (h : v.TellsAssemblyName assembly name) : w.TellsAssemblyName assembly name := by
  obtain ⟨image, text, himage, htext, hname⟩ := h
  exact ⟨image, text, hvw _ _ _ rfl rfl himage, hvw _ _ _ rfl rfl htext, hname⟩

theorem Repeats.named {domain : Handle} {name : String} {assembly? : Option Handle}
    (h : v.TellsNamed domain name assembly?) : w.TellsNamed domain name assembly? := by
  obtain ⟨as, names, has, hnames, hlast⟩ := h
  exact ⟨as, names, hvw _ _ _ rfl rfl has, hnames.imp fun _ _ => hvw.assemblyName, hlast⟩

theorem Repeats.host {domain : Handle} {names : List String} {k : Handle}
    (h : v.TellsHost domain names k) : w.TellsHost domain names k := by
  induction names with
  | nil => exact h
  | cons name rest ih =>
      rcases h with ⟨hnone, hrest⟩ | ⟨assembly, image, c, hsome, himage, hc, hrest⟩
      · exact Or.inl ⟨hvw.named hnone, ih hrest⟩
      · refine Or.inr ⟨assembly, image, c, hvw.named hsome, hvw _ _ _ rfl rfl himage,
          hvw _ _ _ rfl rfl hc, ?_⟩
        split at hrest
        · rename_i hnull
          rw [if_pos hnull]
          exact ih hrest
        · rename_i hne
          rw [if_neg hne]
          exact hrest

end Vm

/-! ## Views -/

namespace Session

/-- The one session has become the other. -/
structure Later (s t : Session) : Prop where
  vm : s.vm.Later t.vm
  layout : t.layout = s.layout
  shown : ∀ page h, s.notebook.shown? page = some h → t.notebook.shown? page = some h

namespace Later

theorem refl (s : Session) : s.Later s :=
  ⟨.refl _, rfl, fun _ _ h => h⟩

theorem trans {s t u : Session} (hst : s.Later t) (htu : t.Later u) : s.Later u :=
  ⟨hst.vm.trans htu.vm, htu.layout.trans hst.layout,
    fun page h hp => htu.shown page h (hst.shown page h hp)⟩

theorem pointerSize {s t : Session} (h : s.Later t) : t.vm.pointerSize = s.vm.pointerSize :=
  congrArg Catalog.pointerSize h.vm.catalog

end Later

/-- The view is one of this session. -/
def Shows (s : Session) (v : View e) : Prop :=
  v.handle ≠ .null ∧ s.notebook.shown? v.page = some v.handle

/-- The view shows the object that the call names. -/
def ShowsAt (s : Session) (c : Call .handle) (v : View e) : Prop :=
  s.Shows v ∧ s.vm.Tells c v.handle

/-- The view shows the object that the call names, if it names one. -/
def ShowsAny (s : Session) (c : Call .handle) : Option (View e) → Prop
  | some v => s.ShowsAt c v
  | none => s.vm.Tells c .null

/-- The views show the objects that the call names, in this order. -/
def ShowsAll (s : Session) (c : Call .handles) (vs : List (View e)) : Prop :=
  (∀ v ∈ vs, s.Shows v) ∧ s.vm.Tells c (vs.map View.handle)

/-- All views in the table are views of this session. -/
def ShowsIn (s : Session) (table : TreeMap String (View e)) : Prop :=
  ∀ (name : String) (v : View e), table[name]? = some v → s.Shows v

/-- The table has the views under the names that are told of their objects. -/
def Indexes (tells : Handle → String → Prop) (vs : List (View e))
    (table : TreeMap String (View e)) : Prop :=
  ∃ names, List.Forall₂ (fun v name => tells v.handle name) vs names ∧ table = tabulate names vs

variable {s t : Session}

theorem Shows.later {v : View e} (h : s.Shows v) (hst : s.Later t) : t.Shows v :=
  ⟨h.1, hst.shown _ _ h.2⟩

theorem ShowsAt.later {c : Call .handle} {v : View e} (h : s.ShowsAt c v)
    (hc : c.isStable = true) (hst : s.Later t) : t.ShowsAt c v :=
  ⟨h.1.later hst, h.2.later hc hst.vm⟩

theorem ShowsAny.later {c : Call .handle} {v? : Option (View e)} (h : s.ShowsAny c v?)
    (hc : c.isStable = true) (hst : s.Later t) : t.ShowsAny c v? := by
  cases v? with
  | some v => exact ShowsAt.later h hc hst
  | none => exact Vm.Tells.later h hc hst.vm

theorem ShowsAll.later {c : Call .handles} {vs : List (View e)} (h : s.ShowsAll c vs)
    (hc : c.isStable = true) (hst : s.Later t) : t.ShowsAll c vs :=
  ⟨fun v hv => (h.1 v hv).later hst, h.2.later hc hst.vm⟩

theorem Indexes.imp {tells tells' : Handle → String → Prop} {vs : List (View e)}
    {table : TreeMap String (View e)} (h : Indexes tells vs table)
    (himp : ∀ k name, tells k name → tells' k name) : Indexes tells' vs table := by
  obtain ⟨names, hnames, htable⟩ := h
  exact ⟨names, hnames.imp fun _ _ => himp _ _, htable⟩

end Session

/-! ## The classes of an image -/

namespace Session

/-- The layout of the session finds the class at the index of the image. -/
def FindsClass (s : Session) (n : ImageNode) (index : Nat) (h : Handle) : Prop :=
  match s.layout with
  | .current => s.vm.isLegacy = false ∧ n.classes[index]? = some h
  | .legacy offset => offset = typeKindOffset s.vm.pointerSize ∧
      s.vm.globalClasses[s.vm.startOf n + index]? = some h

/-- Under the legacy layout the end of the image's window is a number of 32 bits. -/
def WindowFits (s : Session) (n : ImageNode) : Prop :=
  match s.layout with
  | .current => True
  | .legacy _ => s.vm.startOf n + word32 n.classes.size < 0x1_0000_0000

/-- The layout of the session has room for a descriptor, if it needs one. The size of a descriptor
may be no word. -/
def HasRoom (s : Session) : Prop :=
  ∀ offset, s.layout = .legacy offset → ∃ size, s.layout.descriptorSize s.vm.pointerSize = .ok size

/-- The layout of the session finds these classes for the image. -/
structure Lists (s : Session) (image : Handle) (hs : List Handle) (n : ImageNode) : Prop where
  room : s.HasRoom
  image : s.vm.arena.image image = .ok n
  length : hs.length = word32 n.classes.size
  fits : s.WindowFits n
  found : ∀ (k : Nat) (hk : k < hs.length), s.FindsClass n k hs[k]

variable {s t : Session}

theorem Later.findsClass_iff (hst : s.Later t) {n : ImageNode} {index : Nat} {h : Handle} :
    t.FindsClass n index h ↔ s.FindsClass n index h := by
  unfold FindsClass Vm.startOf
  rw [hst.layout, hst.vm.catalog]

theorem Later.windowFits_iff (hst : s.Later t) {n : ImageNode} :
    t.WindowFits n ↔ s.WindowFits n := by
  unfold WindowFits Vm.startOf
  rw [hst.layout, hst.vm.catalog]

theorem HasRoom.later (h : s.HasRoom) (hst : s.Later t) : t.HasRoom := by
  intro offset hlayout
  rw [hst.layout] at hlayout ⊢
  rw [hst.pointerSize]
  exact h offset hlayout

theorem Lists.later {image : Handle} {hs : List Handle} {n : ImageNode} (h : s.Lists image hs n)
    (hst : s.Later t) : t.Lists image hs n where
  room := h.room.later hst
  image := hst.vm.arena.image h.image
  length := h.length
  fits := hst.windowFits_iff.mpr h.fits
  found := fun k hk => hst.findsClass_iff.mpr (h.found k hk)

/-- An image has one list of classes. -/
theorem Lists.unique {image : Handle} {hs ks : List Handle} {n m : ImageNode}
    (h : s.Lists image hs n) (k : s.Lists image ks m) : hs = ks := by
  have hnm : n = m := Except.ok.inj (h.image.symm.trans k.image)
  subst hnm
  refine List.ext_getElem (h.length.trans k.length.symm) fun i hi ki => ?_
  have hfound := h.found i hi
  have kfound := k.found i ki
  cases hlayout : s.layout with
  | current =>
      simp only [FindsClass, hlayout] at hfound kfound
      exact Option.some.inj (hfound.2.symm.trans kfound.2)
  | legacy offset =>
      simp only [FindsClass, hlayout] at hfound kfound
      exact Option.some.inj (hfound.2.symm.trans kfound.2)

end Session

/-- All objects lie below scratch memory. -/
def Arena.BelowScratch (a : Arena) : Prop :=
  ∀ h n, a.get? h = some n → h.address < Scratch.base

theorem Arena.Later.belowScratch {a b : Arena} (hab : a.Later b) (hb : b.BelowScratch) :
    a.BelowScratch := by
  intro h n hn
  obtain ⟨m, hm, _⟩ := hab h n hn
  exact hb h m hm

theorem Arena.belowScratch_of_size {a : Arena} (h : a.nodes.size < 0x100_0000_0000) :
    a.BelowScratch := by
  intro k n hn
  obtain ⟨i, rfl, _⟩ := get?_eq_some_iff.mp hn
  have hlt := lt_size_of_get? hn
  simp only [handleAt, base, stride, Scratch.base]
  omega

/-! ## Notes -/

namespace Session

/-- The descriptor is a piece of scratch memory of the size that the layout asks for. -/
def HasDescriptor (s : Session) (d : Handle) : Prop :=
  d ≠ .null ∧ ∃ bytes, s.vm.scratch.read? d.address = some bytes ∧
    s.layout.descriptorSize s.vm.pointerSize = .ok bytes.length

/-- The handle names the class of the core library. -/
def KnowsClass (s : Session) (namespace_ name : String) (h : Handle) : Prop :=
  h ≠ .null ∧ s.vm.Tells (.classFromName s.vm.corlib namespace_ name) h

/-- The kind follows from what the machine says about the class. -/
def TellsKind (s : Session) (cls : Handle) : ClassKind → Prop
  | .interface => s.vm.Tells (.classIsInterface cls) true
  | .enum => s.vm.Tells (.classIsInterface cls) false ∧ s.vm.Tells (.classIsEnum cls) true
  | .struct => s.vm.Tells (.classIsInterface cls) false ∧ s.vm.Tells (.classIsEnum cls) false ∧
      s.vm.Tells (.classIsValueType cls) true
  | .class_ => s.vm.Tells (.classIsInterface cls) false ∧ s.vm.Tells (.classIsEnum cls) false ∧
      s.vm.Tells (.classIsValueType cls) false

/-- The views are of the classes that the layout finds for the image. -/
def ShowsClasses (s : Session) (image : Handle) (cs : List Class) : Prop :=
  (∀ c ∈ cs, s.Shows c) ∧
    (s.vm.arena.BelowScratch → ∃ n, s.Lists image (cs.map View.handle) n)

/-- The parameter is the one of the method at the position. -/
structure ShowsParameter (s : Session) (method : Handle) (k : Nat) (p : Parameter) : Prop where
  position : p.position = k
  name : s.vm.Tells (.methodParameterName method k) p.name
  type : s.ShowsAt (.methodParameterType method k) p.type

end Session

/-- The value of the fact is true of the object at `h`. -/
def Fact.Holds (s : Session) (h : Handle) : (f : Fact) → f.Value → Prop
  | .descriptor, d => s.HasDescriptor d
  | .rootClass, r => s.KnowsClass "System" "Object" r
  | .reflectionClass, r => s.KnowsClass "System" "Type" r
  | .domainAssemblies, as => s.ShowsAll (.domainAssemblies h) as
  | .assemblyImage, i => s.ShowsAt (.assemblyImage h) i
  | .assemblyName, name => s.vm.TellsAssemblyName h name
  | .imageName, name => s.vm.Tells (.imageName h) name
  | .imageClassCount, count => s.vm.Tells (.imageClassCount h) count
  | .imageClassStart, start => s.vm.Tells (.imageClassStart h) start
  | .imageClasses, cs => s.ShowsClasses h cs
  | .className, name => s.vm.Tells (.className h) name
  | .classNamespace, name => s.vm.Tells (.classNamespace h) name
  | .classImage, i => s.ShowsAt (.classImage h) i
  | .classParent, c? => s.ShowsAny (.classParent h) c?
  | .classDeclaring, c? => s.ShowsAny (.classDeclaringType h) c?
  | .classInterfaces, cs => s.ShowsAll (.classInterfaces h) cs
  | .classFields, fs => s.ShowsAll (.classFields h) fs
  | .classMethods, ms => s.ShowsAll (.classMethods h) ms
  | .classType, t => s.ShowsAt (.classType h) t
  | .classFlags, flags => s.vm.Tells (.classFlags h) flags
  | .classKind, kind => s.TellsKind h kind
  | .classIsGeneric, b => s.vm.Tells (.classIsGeneric h) b
  | .classIsInflated, b => s.vm.Tells (.classIsInflated h) b
  | .classParameterCount, n => s.vm.Tells (.classParameterCount h) n
  | .typeName, name => s.vm.Tells (.typeName h) name
  | .typeKind, kind => ∃ tag, s.vm.Tells (.typeKind h) tag ∧ kind = TypeKind.ofTag tag
  | .typeClass, c? => ∃ c, s.vm.Tells (.typeClass h) c ∧ c? = c.nonNull?
  | .typeObject, o => o ≠ .null ∧ s.vm.arena.object o = .ok (.typeObject h)
  | .fieldName, name => s.vm.Tells (.fieldName h) name
  | .fieldType, t => s.ShowsAt (.fieldType h) t
  | .fieldOffset, offset => s.vm.Tells (.fieldOffset h) offset
  | .fieldFlags, flags => s.vm.Tells (.fieldFlags h) flags
  | .methodName, name => s.vm.Tells (.methodName h) name
  | .methodClass, c => s.ShowsAt (.methodClass h) c
  | .methodReturnType, t => s.ShowsAt (.methodReturnType h) t
  | .methodParameters, ps => s.vm.Tells (.methodParameterCount h) ps.length ∧
      ∀ k p, ps[k]? = some p → s.ShowsParameter h k p
  | .methodFlags, flags => s.vm.Tells (.methodFlags h) flags
  | .methodIsGeneric, b => s.vm.Tells (.methodIsGeneric h) b
  | .methodIsInflated, b => s.vm.Tells (.methodIsInflated h) b
  | .methodTypeParameterCount, n => s.vm.Tells (.methodTypeParameterCount h) n
  | .methodPointer, p => s.vm.Tells (.methodPointer h) p
  | .objectClass, c => c ≠ .null ∧ s.vm.Tells (.objectClass h) c
  | .arrayLength, n => s.vm.Tells (.arrayLength h) n
  | .domainAssembliesByName, table => ∃ as, s.ShowsAll (.domainAssemblies h) as ∧
      Session.Indexes s.vm.TellsAssemblyName as table
  | .imageClassesByName, table => ∃ cs, s.ShowsClasses h cs ∧
      Session.Indexes s.vm.TellsTypeName cs table
  | .hostClass, c? => (∀ c ∈ c?, s.Shows c) ∧ ∃ d, s.vm.Tells .domainGet d ∧
      s.vm.TellsHost d Host.assemblyNames ((c?.map View.handle).getD .null)

namespace Session

variable {s t : Session}

theorem HasDescriptor.later {d : Handle} (h : s.HasDescriptor d) (hst : s.Later t) :
    t.HasDescriptor d := by
  obtain ⟨hne, bytes, hread, hlen⟩ := h
  obtain ⟨bytes', hread', hlen'⟩ := hst.vm.scratch _ _ hread
  exact ⟨hne, bytes', hread', by rw [hlen', ← hlen, hst.layout, hst.pointerSize]⟩

theorem KnowsClass.later {namespace_ name : String} {h : Handle}
    (hk : s.KnowsClass namespace_ name h) (hst : s.Later t) : t.KnowsClass namespace_ name h := by
  have hcorlib : t.vm.corlib = s.vm.corlib := congrArg Catalog.corlib hst.vm.catalog
  exact ⟨hk.1, hcorlib ▸ hk.2.later rfl hst.vm⟩

theorem TellsKind.later {cls : Handle} {kind : ClassKind} (hk : s.TellsKind cls kind)
    (hst : s.Later t) : t.TellsKind cls kind := by
  cases kind with
  | interface => exact Vm.Tells.later hk rfl hst.vm
  | enum => exact ⟨hk.1.later rfl hst.vm, hk.2.later rfl hst.vm⟩
  | struct | class_ =>
      exact ⟨hk.1.later rfl hst.vm, hk.2.1.later rfl hst.vm, hk.2.2.later rfl hst.vm⟩

theorem ShowsClasses.later {image : Handle} {cs : List Class} (h : s.ShowsClasses image cs)
    (hst : s.Later t) : t.ShowsClasses image cs := by
  refine ⟨fun c hc => (h.1 c hc).later hst, fun hbelow => ?_⟩
  obtain ⟨n, hn⟩ := h.2 (hst.vm.arena.belowScratch hbelow)
  exact ⟨n, hn.later hst⟩

theorem ShowsParameter.later {method : Handle} {k : Nat} {p : Parameter}
    (hp : s.ShowsParameter method k p) (hst : s.Later t) : t.ShowsParameter method k p :=
  ⟨hp.position, hp.name.later rfl hst.vm, hp.type.later rfl hst⟩

end Session

/-- What is true of an object stays true. -/
theorem Fact.Holds.later {s t : Session} (hst : s.Later t) {h : Handle} {f : Fact} {v : f.Value}
    (hv : f.Holds s h v) : f.Holds t h v := by
  cases f with
  | descriptor => exact Session.HasDescriptor.later hv hst
  | rootClass | reflectionClass => exact Session.KnowsClass.later hv hst
  | domainAssemblies | classInterfaces | classFields | classMethods =>
      exact Session.ShowsAll.later hv rfl hst
  | assemblyImage | classImage | classType | fieldType | methodClass | methodReturnType =>
      exact Session.ShowsAt.later hv rfl hst
  | classParent | classDeclaring => exact Session.ShowsAny.later hv rfl hst
  | assemblyName => exact hst.vm.repeats.assemblyName hv
  | imageName | imageClassCount | imageClassStart | className | classNamespace | classFlags
  | classIsGeneric | classIsInflated | classParameterCount | typeName | fieldName | fieldOffset
  | fieldFlags | methodName | methodFlags | methodIsGeneric | methodIsInflated
  | methodTypeParameterCount | methodPointer | arrayLength =>
      exact Vm.Tells.later hv rfl hst.vm
  | imageClasses => exact Session.ShowsClasses.later hv hst
  | classKind => exact Session.TellsKind.later hv hst
  | typeKind =>
      obtain ⟨tag, htag, hkind⟩ := hv
      exact ⟨tag, htag.later rfl hst.vm, hkind⟩
  | typeClass =>
      obtain ⟨c, hc, hsome⟩ := hv
      exact ⟨c, hc.later rfl hst.vm, hsome⟩
  | typeObject => exact ⟨hv.1, hst.vm.arena.typeObject hv.2⟩
  | methodParameters =>
      exact ⟨hv.1.later rfl hst.vm, fun k p hp => (hv.2 k p hp).later hst⟩
  | objectClass => exact ⟨hv.1, hv.2.later rfl hst.vm⟩
  | domainAssembliesByName =>
      obtain ⟨as, has, htable⟩ := hv
      exact ⟨as, has.later rfl hst, htable.imp fun _ _ => hst.vm.repeats.assemblyName⟩
  | imageClassesByName =>
      obtain ⟨cs, hcs, htable⟩ := hv
      exact ⟨cs, hcs.later hst, htable.imp fun _ _ => hst.vm.repeats.typeName⟩
  | hostClass =>
      obtain ⟨hshown, d, hd, hhost⟩ := hv
      exact ⟨fun c hc => (hshown c hc).later hst, d, hd.later rfl hst.vm, hst.vm.repeats.host hhost⟩

/-! ## Sound sessions -/

structure Session.Sound (s : Session) : Prop where
  vm : s.vm.WellFormed
  pointerSize : s.vm.pointerSize = 4 ∨ s.vm.pointerSize = 8
  /-- No call is spoiled. -/
  faults : s.probe.faults = []
  front : s.notebook.shown? Notebook.front = some .null
  notes : ∀ page h f v, s.notebook.shown? page = some h → s.notebook.find? page f = some v →
    f.Holds s h v

/-- A session has no note when it begins, whatever its layout. -/
theorem Session.sound_new {snapshot : Snapshot} {vm : Vm} (hvm : Vm.ofSnapshot snapshot = .ok vm)
    (version : Version) (layout : ClassLayout) : (Session.new vm version layout).Sound := by
  obtain ⟨hsize, known, l, rfl, _⟩ := Vm.ofSnapshot_eq_ok hvm
  refine ⟨Vm.wellFormed_ofSnapshot hvm, hsize, rfl, rfl, fun page k f v hpage hv => ?_⟩
  match page with
  | 0 => cases hv
  | page + 1 => cases hpage

theorem Session.sound_of_attach {snapshot : Snapshot} {vm : Vm} {config : Config} {s : Session}
    (hvm : Vm.ofSnapshot snapshot = .ok vm) (h : Session.attach vm config = .ok s) :
    s.Sound ∧ s.vm = vm ∧
      ∃ version, config.resolveLayout vm.vmVersion vm.pointerSize = .ok (version, s.layout) := by
  unfold Session.attach at h
  cases hlayout : config.resolveLayout vm.vmVersion vm.pointerSize with
  | error e =>
      rw [hlayout] at h
      cases h
  | ok r =>
      obtain ⟨version, layout⟩ := r
      rw [hlayout] at h
      cases h
      exact ⟨Session.sound_new hvm version layout, rfl, version, rfl⟩

end VmMetadata
