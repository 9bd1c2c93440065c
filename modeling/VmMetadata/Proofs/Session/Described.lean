import VmMetadata.Proofs.Session.Listing

/-!
What a session on the machine of a snapshot knows of the description: every described class and
method lies in the arena as it is described, and the core library's classes are found by name.
-/

namespace VmMetadata

/-- The class lies at the handle as it is described, with its methods. -/
structure ClassDescription.LiesAt (c : ClassDescription) (a : Arena) (h : Handle)
    (n : ClassNode) : Prop where
  node : a.class_ h = .ok n
  name : n.name = c.name
  namespace_ : n.namespace = c.namespace
  fullName : n.fullName = c.fullName
  typeParameters : n.typeParameters = c.typeParameters
  definition : n.definition = .null
  type : a.NamesType n.type c.typeName
  methods : List.Forall₂
    (fun m k => ∃ ret ps, a.method k = .ok (MethodDescription.node m h ret ps)) c.methods n.methods

namespace ClassDescription.LiesAt

variable {c : ClassDescription} {a b : Arena} {h : Handle} {n : ClassNode}

theorem later (hc : c.LiesAt a h n) (hab : a.Later b) : c.LiesAt b h n where
  node := hab.class_ hc.node
  name := hc.name
  namespace_ := hc.namespace_
  fullName := hc.fullName
  typeParameters := hc.typeParameters
  definition := hc.definition
  type := hc.type.later hab
  methods := hc.methods.imp fun _ _ ⟨ret, ps, hk⟩ => ⟨ret, ps, hab.method hk⟩

/-- A described class is open just if it has type parameters. -/
theorem isOpen_eq (hc : c.LiesAt a h n) : n.isOpen = !c.typeParameters.isEmpty := by
  unfold ClassNode.isOpen
  rw [hc.definition, hc.typeParameters]
  exact Bool.and_true _

theorem of_linkedAt {l : Loader} {known : WellKnown} {image : Handle}
    (hc : Load.LinkedAt l known image c h) : ∃ n, c.LiesAt l.arena h n := by
  obtain ⟨t, fields, methods, hclass, htype, _, hmethods⟩ := hc
  exact ⟨_, {
    node := hclass
    name := rfl
    namespace_ := rfl
    fullName := rfl
    typeParameters := rfl
    definition := rfl
    type := ⟨_, htype, rfl⟩
    methods := hmethods.imp fun _ _ ⟨ret, ps, _, _, hk⟩ => ⟨ret, ps, hk⟩ }⟩

end ClassDescription.LiesAt

/-- The first class of the name among the described ones. -/
def firstNamed? (namespace_ name : String) (cs : List ClassDescription) : Option ClassDescription :=
  cs.find? fun c => c.namespace = namespace_ ∧ c.name = name

/-- Of a described class the look-up sees the namespace and the name of the description. -/
theorem Vm.findClass_cons {a : Arena} {k : Handle} {n : ClassNode} {c : ClassDescription}
    (hn : c.LiesAt a k n) (namespace_ name : String) (hs : List Handle) :
    Vm.findClass a namespace_ name (k :: hs) =
      if c.namespace = namespace_ ∧ c.name = name then .ok k
      else Vm.findClass a namespace_ name hs := by
  rw [Vm.findClass, hn.node, ← hn.name, ← hn.namespace_]
  rfl

/-- Looking through the handles finds the first described class of the name. -/
theorem Vm.findClass_described {a : Arena} {namespace_ name : String} {d : ClassDescription}
    {cs : List ClassDescription} {hs : List Handle}
    (h : List.Forall₂ (fun c k => ∃ n, c.LiesAt a k n) cs hs)
    (hd : firstNamed? namespace_ name cs = some d) :
    ∃ k n, Vm.findClass a namespace_ name hs = .ok k ∧ d.LiesAt a k n := by
  induction h with
  | nil => cases hd
  | @cons c k cs hs hck _ ih =>
      obtain ⟨n, hn⟩ := hck
      rw [Vm.findClass_cons hn]
      unfold firstNamed? at hd ih
      by_cases hc : c.namespace = namespace_ ∧ c.name = name
      · rw [List.find?_cons_of_pos (by simpa using hc)] at hd
        cases hd
        exact ⟨k, n, if_pos hc, hn⟩
      · rw [List.find?_cons_of_neg (by simpa using hc)] at hd
        rw [if_neg hc]
        exact ih hd

namespace Session

/-- The handles are those of the described classes, in the same order. -/
def Presents (s : Session) (cs : List ClassDescription) (hs : List Handle) : Prop :=
  List.Forall₂ (fun c h => ∃ n, c.LiesAt s.vm.arena h n) cs hs

namespace On

variable {s : Session} {snapshot : Snapshot} (hs : s.On snapshot)
include hs

theorem presents {p : Site} (hp : p ∈ snapshot.images) : s.Presents p.described p.classes := by
  obtain ⟨known, l, hlaid, hlater⟩ := hs.origin
  refine (hlaid.classes p hp).imp fun c h hc => ?_
  obtain ⟨n, hn⟩ := ClassDescription.LiesAt.of_linkedAt hc
  exact ⟨n, hn.later hlater.arena⟩

/-- A described class of the core library is known by its name. -/
theorem knowsClass {namespace_ name : String} {d : ClassDescription}
    (hd : firstNamed? namespace_ name snapshot.corlibSite.described = some d) :
    ∃ k n, s.KnowsClass namespace_ name k ∧ d.LiesAt s.vm.arena k n := by
  have hmem := snapshot.corlibSite_mem
  obtain ⟨k, n, hfind, hn⟩ := Vm.findClass_described (hs.presents hmem) hd
  refine ⟨k, n, ⟨Arena.ne_null_of_get? (Arena.class_eq_ok.mp hn.node), ?_⟩, hn⟩
  refine Access.lift_eq_ok.mpr ⟨?_, rfl⟩
  rw [hs.corlib, hs.image hmem]
  change Vm.findClass s.vm.arena namespace_ name snapshot.corlibSite.node.classes.toList = .ok k
  rw [Site.node, List.toList_toArray]
  exact hfind

/-- The type of the root class has the name that its description gives it. -/
theorem namesType_root {d : ClassDescription} {type : Handle}
    (hd : firstNamed? "System" "Object" snapshot.corlibSite.described = some d)
    (htype : s.RootType type) : s.vm.arena.NamesType type d.typeName := by
  obtain ⟨k, n, hk, hn⟩ := hs.knowsClass hd
  obtain ⟨root, hroot, htype⟩ := htype
  cases hk.2.unique hroot.2
  obtain ⟨n', hn', rfl⟩ := Vm.tells_classType.mp htype
  cases hn'.symm.trans hn.node
  exact hn.type

end On

end Session

end VmMetadata
