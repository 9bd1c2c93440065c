import VmMetadata.Proofs.Load.Interned
import VmMetadata.Proofs.Machine.Later

/-!
The machine of a snapshot, object by object. Every described class lies in it with the parent, the
enclosing class and the interfaces that its names stand for, every field and every method with the
types that its texts stand for. Main statement: this is so in every machine that was loaded from a
snapshot whose names are kept apart, and it stays so while calls are answered.
-/

namespace VmMetadata

/-! ## What names stand for -/

namespace Snapshot

/-- The base class of the class at the handle: the one that is named, else the usual one for the
kind of class. The root of all classes and interfaces have none. -/
def parent? (s : Snapshot) (h : Handle) (c : ClassDescription) :
    Option (Handle × ClassDescription) :=
  match c.parent, c.kind with
  | some name, _ => s.classNamed? (TypeName.normalized name)
  | none, .class_ => (s.classNamed? "System.Object").filter fun root => root.1 ≠ h
  | none, .struct => s.classNamed? "System.ValueType"
  | none, .enum => s.classNamed? "System.Enum"
  | none, .interface => none

/-- The enclosing class. -/
def declaring? (s : Snapshot) (c : ClassDescription) : Option (Handle × ClassDescription) :=
  c.declaringType.bind s.classNamed?

/-- The interfaces, as far as there are classes of their names. -/
def interfaces (s : Snapshot) (c : ClassDescription) : List (Handle × ClassDescription) :=
  c.interfaces.filterMap fun name => s.classNamed? (TypeName.normalized name)

/-- A described class as it lies in the arena. -/
def classNode (s : Snapshot) (image type h : Handle) (c : ClassDescription)
    (fields methods : List Handle) : ClassNode :=
  { Load.declaredClass image type c with
    parent := ((s.parent? h c).map Prod.fst).getD .null
    declaring := ((s.declaring? c).map Prod.fst).getD .null
    interfaces := (s.interfaces c).map Prod.fst
    fields
    methods }

end Snapshot

/-- The type lies in the arena. Its reflection object is another matter. -/
def Arena.HoldsType (a : Arena) (t : Handle) (n : TypeNode) : Prop :=
  ∃ m, a.type t = .ok m ∧ m.name = n.name ∧ m.kind = n.kind ∧ m.class = n.class

/-- The field lies at the handle and has the type that its text stands for; `place` says where the
types lie. -/
def FieldDescription.StandsAt (f : FieldDescription) (s : Snapshot) (place : TypeRef → Handle)
    (a : Arena) (c : ClassDescription) (h : Handle) : Prop :=
  a.field h = .ok (f.node (place (f.ref c))) ∧ a.HoldsType (place (f.ref c)) (s.typeNode (f.ref c))

/-- The method of the class at `cls` lies at the handle and has the types that its texts stand
for. -/
structure MethodDescription.StandsAt (m : MethodDescription) (s : Snapshot)
    (place : TypeRef → Handle) (a : Arena) (c : ClassDescription) (cls h : Handle) : Prop where
  node : a.method h = .ok (m.node cls (place (m.returnRef c))
    (m.parameters.map fun p => (p.name, place (p.ref c m))))
  returnType : a.HoldsType (place (m.returnRef c)) (s.typeNode (m.returnRef c))
  parameters : ∀ p ∈ m.parameters, a.HoldsType (place (p.ref c m)) (s.typeNode (p.ref c m))

/-- The class of the image lies at the handle with its type and all its members. If it is the first
of its name, its type is the one that texts with this name have. -/
def ClassDescription.StandsAt (c : ClassDescription) (s : Snapshot) (place : TypeRef → Handle)
    (image : Handle) (a : Arena) (h : Handle) : Prop :=
  ∃ t fields methods,
    a.class_ h = .ok (s.classNode image t h c fields methods) ∧
    a.HoldsType t (c.typeNode h) ∧
    (s.classNamed? c.fullName = some (h, c) → place (.global c.fullName) = t) ∧
    List.Forall₂ (fun f => FieldDescription.StandsAt f s place a c) c.fields fields ∧
    List.Forall₂ (fun m => MethodDescription.StandsAt m s place a c h) c.methods methods

section

variable {a b : Arena} (hab : a.Later b)
include hab

theorem Arena.HoldsType.later {t : Handle} {n : TypeNode} (h : a.HoldsType t n) :
    b.HoldsType t n := by
  obtain ⟨m, hm, hname, hkind, hclass⟩ := h
  obtain ⟨u, hu, hname', hkind', hclass'⟩ := hab.typeClass hm
  exact ⟨u, hu, hname'.trans hname, hkind'.trans hkind, hclass'.trans hclass⟩

variable {s : Snapshot} {place : TypeRef → Handle} {c : ClassDescription} {h : Handle}

theorem FieldDescription.StandsAt.later {f : FieldDescription} (hf : f.StandsAt s place a c h) :
    f.StandsAt s place b c h :=
  ⟨hab.field hf.1, hf.2.later hab⟩

theorem MethodDescription.StandsAt.later {m : MethodDescription} {cls : Handle}
    (hm : m.StandsAt s place a c cls h) : m.StandsAt s place b c cls h where
  node := hab.method hm.node
  returnType := hm.returnType.later hab
  parameters p hp := (hm.parameters p hp).later hab

theorem ClassDescription.StandsAt.later {image : Handle} (hc : c.StandsAt s place image a h) :
    c.StandsAt s place image b h := by
  obtain ⟨t, fields, methods, hclass, htype, hfirst, hfields, hmethods⟩ := hc
  exact ⟨t, fields, methods, hab.class_ hclass, htype.later hab, hfirst,
    hfields.imp fun _ _ hf => hf.later hab, hmethods.imp fun _ _ hm => hm.later hab⟩

end

/-! ## The loaded machine -/

namespace Load

variable {s : Snapshot} {l : Loader} (hnamed : ∀ name, l.named name = s.handleNamed name)
include hnamed

theorem parentIn_eq (cls : Handle) (c : ClassDescription) :
    parentIn l s.wellKnown cls c = ((s.parent? cls c).map Prod.fst).getD .null := by
  unfold parentIn Snapshot.parent?
  cases c.parent with
  | some name => exact hnamed _
  | none =>
      cases c.kind with
      | class_ =>
          change (if cls = s.handleNamed "System.Object" then Handle.null
            else s.handleNamed "System.Object") = _
          unfold Snapshot.handleNamed
          cases s.classNamed? "System.Object" with
          | none => simp
          | some root =>
              by_cases hroot : root.1 = cls
              · simp [Option.filter_some, hroot]
              · simp [Option.filter_some, hroot, Ne.symm hroot]
      | struct | enum | interface => rfl

theorem declaringIn_eq (c : ClassDescription) :
    declaringIn l c = ((s.declaring? c).map Prod.fst).getD .null := by
  unfold declaringIn Snapshot.declaring?
  cases c.declaringType with
  | none => rfl
  | some name => exact hnamed name

theorem interfacesIn_eq (hnull : ∀ q ∈ s.entries, q.1 ≠ .null) (c : ClassDescription) :
    interfacesIn l c = (s.interfaces c).map Prod.fst := by
  unfold interfacesIn Snapshot.interfaces
  induction c.interfaces with
  | nil => rfl
  | cons name rest ih =>
      rw [List.map_cons, List.filter_cons, List.filterMap_cons, hnamed, ih,
        Snapshot.handleNamed]
      cases hq : s.classNamed? (TypeName.normalized name) with
      | none => rfl
      | some q =>
          have hne : q.1.isNull = false :=
            Bool.eq_false_iff.mpr fun hn =>
              hnull q (List.mem_of_find?_eq_some hq) (Handle.isNull_iff.mp hn)
          simp [hne]

end Load

namespace Snapshot

theorem ne_null_of_mem_entries {s : Snapshot} {q : Handle × ClassDescription}
    (hq : q ∈ s.entries) : q.1 ≠ .null := by
  obtain ⟨p, _, hq⟩ := List.mem_flatMap.mp hq
  obtain ⟨j, _, hj⟩ := Site.mem_classes.mp (List.of_mem_zip hq).1
  rw [hj]
  exact Arena.handleAt_ne_null _

section

variable {s : Snapshot} {h : Handle} {c : ClassDescription} {q : Handle × ClassDescription}

theorem mem_entries_of_parent? (hq : s.parent? h c = some q) : q ∈ s.entries := by
  unfold parent? at hq
  split at hq
  · exact List.mem_of_find?_eq_some hq
  · exact List.mem_of_find?_eq_some (Option.filter_eq_some_iff.mp hq).1
  · exact List.mem_of_find?_eq_some hq
  · exact List.mem_of_find?_eq_some hq
  · cases hq

theorem mem_entries_of_declaring? (hq : s.declaring? c = some q) : q ∈ s.entries := by
  obtain ⟨name, _, hname⟩ := Option.bind_eq_some_iff.mp hq
  exact List.mem_of_find?_eq_some hname

theorem mem_entries_of_interfaces (hq : q ∈ s.interfaces c) : q ∈ s.entries := by
  obtain ⟨name, _, hname⟩ := List.mem_filterMap.mp hq
  exact List.mem_of_find?_eq_some hname

end

/-- A linked class has what its names stand for. -/
theorem linkedClass_eq {s : Snapshot} {l : Loader}
    (hnamed : ∀ name, l.named name = s.handleNamed name) (image t h : Handle)
    (c : ClassDescription) (fields methods : List Handle) :
    Load.linkedClass l s.wellKnown image t h c fields methods =
      s.classNode image t h c fields methods := by
  rw [Load.linkedClass, Load.parentIn_eq hnamed, Load.declaringIn_eq hnamed,
    Load.interfacesIn_eq hnamed fun _ => ne_null_of_mem_entries]
  rfl

/-- What the machine of a snapshot is made of. -/
theorem machine_kept (s : Snapshot) : ∃ l, s.machine = .fresh (s.catalog s.wellKnown) l.arena ∧
    s.LaidOut s.wellKnown l ∧ Load.Kept s.entries s.refs l := by
  obtain ⟨known, l, hrun, hlaid⟩ := Load.snapshot_laidOut s
  obtain ⟨hknown, hkept⟩ := Load.snapshot_kept s
  rw [hrun] at hknown hkept
  obtain rfl : known = s.wellKnown := hknown
  exact ⟨l, by rw [machine, hrun], hlaid, hkept⟩

/-- Every described class was linked. -/
theorem LaidOut.linkedAt {s : Snapshot} {known : WellKnown} {l : Loader} (h : s.LaidOut known l)
    {q : Handle × ClassDescription} (hq : q ∈ s.entries) :
    ∃ p ∈ s.images, Load.LinkedAt l known p.image q.2 q.1 := by
  obtain ⟨p, hp, hq⟩ := List.mem_flatMap.mp hq
  exact ⟨p, hp, (List.forall₂_iff_zip.mp (h.classes p hp).flip).2 hq⟩

/-- Where the tables hold the type of a reference. -/
def placeIn (l : Loader) (r : TypeRef) : Handle :=
  l.types[r.key]?.getD .null

variable {s : Snapshot} (hs : s.Plain) {l : Loader} (h : Load.Interned s.entries l)
include hs h

theorem place_of_kept {text : String} (hplain : ¬IsMarked (TypeName.normalized text))
    {classScope methodScope : List String} {t : Handle}
    (ht : Load.TypeKept l text classScope methodScope t) :
    placeIn l (.ofText text classScope methodScope) = t ∧
      l.arena.HoldsType t (s.typeNode (.ofText text classScope methodScope)) := by
  have hnode := h.type_of_kept (fun q hq => (hs.entries hq).1) hplain ht
  rw [Load.TypeKept, TypeRef.typeKey_eq] at ht
  exact ⟨by rw [placeIn, ht, Option.getD_some], _, hnode, rfl, rfl, rfl⟩

theorem field_stands {c : ClassDescription} (hc : c.Plain) {f : FieldDescription}
    (hf : f ∈ c.fields) {k : Handle} (hlinked : Load.LinkedField l c f k) :
    f.StandsAt s (placeIn l) l.arena c k := by
  obtain ⟨t, ht, hnode⟩ := hlinked
  obtain ⟨hplace, htype⟩ := place_of_kept hs h (hc.field hf) ht
  rw [FieldDescription.StandsAt, FieldDescription.ref, hplace]
  exact ⟨hnode, htype⟩

theorem method_stands {c : ClassDescription} (hc : c.Plain) {m : MethodDescription}
    (hm : m ∈ c.methods) {cls k : Handle} (hlinked : Load.LinkedMethod l cls c m k) :
    m.StandsAt s (placeIn l) l.arena c cls k := by
  obtain ⟨ret, ps, hret, hps, hnode⟩ := hlinked
  obtain ⟨hplace, htype⟩ := place_of_kept hs h (hc.returnType hm) hret
  have hparameter : ∀ p ∈ m.parameters, ∀ q, Load.LinkedParameter l c m p q →
      q = (p.name, placeIn l (p.ref c m)) ∧
        l.arena.HoldsType (placeIn l (p.ref c m)) (s.typeNode (p.ref c m)) := by
    rintro p hp q ⟨hname, hkept⟩
    obtain ⟨hplace, htype⟩ := place_of_kept hs h (hc.parameter hm hp) hkept
    rw [ParameterDescription.ref, hplace]
    exact ⟨Prod.ext hname rfl, htype⟩
  have hps' : ps = m.parameters.map fun p => (p.name, placeIn l (p.ref c m)) := by
    refine (List.forall₂_eq_eq_eq ▸ List.forall₂_map_right_iff.mpr ?_ : ps = _)
    refine List.forall₂_iff_get.mpr ⟨hps.length_eq.symm, fun k hk hk' => ?_⟩
    exact (hparameter _ (List.getElem_mem hk') _ (hps.get hk' hk)).1
  refine ⟨?_, ?_, fun p hp => ?_⟩
  · rw [MethodDescription.returnRef, hplace, ← hps']
    exact hnode
  · rw [MethodDescription.returnRef, hplace]
    exact htype
  · obtain ⟨q, _, hq⟩ := Load.mem_of_forall₂ hps.flip hp
    exact (hparameter p hp q hq).2

theorem class_stands (wf : l.arena.WellFormed) {c : ClassDescription} (hc : c.Plain)
    {image k : Handle} (hlinked : Load.LinkedAt l s.wellKnown image c k) :
    c.StandsAt s (placeIn l) image l.arena k := by
  obtain ⟨t, fields, methods, hclass, htype, hfields, hmethods⟩ := hlinked
  refine ⟨t, fields, methods, ?_, ⟨_, htype, rfl, rfl, rfl⟩, fun hfirst => ?_, ?_, ?_⟩
  · rw [hclass, linkedClass_eq (Load.named_eq h.named)]
  · -- a type that names a class is the type of that class
    obtain ⟨u, hu, hnode⟩ := h.typed hfirst
    rw [placeIn, TypeRef.key, hu, Option.getD_some]
    rcases (wf u _ (Arena.type_eq_ok.mp hnode)).1 with hnull | ⟨d, hd, rfl⟩
    · exact absurd hnull (Arena.ne_null_of_get? (Arena.class_eq_ok.mp hclass))
    · cases hd.symm.trans hclass
      rfl
  · refine List.forall₂_iff_get.mpr ⟨hfields.length_eq, fun i hi hi' => ?_⟩
    exact field_stands hs h hc (List.getElem_mem hi) (hfields.get hi hi')
  · refine List.forall₂_iff_get.mpr ⟨hmethods.length_eq, fun i hi hi' => ?_⟩
    exact method_stands hs h hc (List.getElem_mem hi) (hmethods.get hi hi')

omit h in
/-- Every class of a loaded snapshot stands where its image has put it. -/
theorem classes_stand : ∃ place : TypeRef → Handle, ∀ p ∈ s.images,
    List.Forall₂ (fun c h => c.StandsAt s place p.image s.machine.arena h)
      p.described p.classes := by
  obtain ⟨l, hmachine, hlaid, hkept⟩ := s.machine_kept
  have hinterned := hkept.interned fun _ => hs.refs
  have harena : s.machine.arena = l.arena := by rw [hmachine, Vm.fresh]
  refine ⟨placeIn l, fun p hp => ?_⟩
  rw [harena]
  have hplain : ∀ c ∈ p.described, c.Plain := by
    intro c hc
    obtain ⟨i, hi, rfl⟩ := List.getElem_of_mem hc
    have hlength : i < p.classes.length := by simpa using hi
    refine hs.entries (q := (p.classes[i], p.described[i])) (List.mem_flatMap.mpr ⟨p, hp, ?_⟩)
    rw [← List.getElem_zip (h := by simpa using hi)]
    exact List.getElem_mem _
  refine List.forall₂_iff_get.mpr ⟨by simp, fun i hi hi' => ?_⟩
  exact class_stands hs hinterned hlaid.sound.arena (hplain _ (List.getElem_mem hi))
    ((hlaid.classes p hp).get hi hi')

end Snapshot

end VmMetadata
