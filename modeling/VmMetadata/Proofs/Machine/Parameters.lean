import VmMetadata.Proofs.Load.Interned
import VmMetadata.Proofs.Machine.Registry
import VmMetadata.Proofs.Machine.Told

/-!
Types that stand for type parameters are the types of no class. They are made where a text names
them, and neither is a class given such a type when it is described nor when it is closed. Main
statement: this holds of a machine that was loaded from a snapshot and whatever it is asked; so the
types of classes, which take the place of type parameters, are no type parameters themselves.
-/

namespace VmMetadata

/-- A type that stands for a type parameter is the type of no class. -/
def Node.Bare : Node → Prop
  | .type t => t.kind.isParameter = true → t.class = .null
  | _ => True

namespace Arena

def Bare (a : Arena) : Prop :=
  ∀ n ∈ a.nodes, n.Bare

variable {a : Arena} (ha : a.Bare)
include ha

theorem Bare.push {n : Node} (hn : n.Bare) : (a.push n).Bare := by
  intro m hm
  rcases Array.mem_push.mp hm with hm | rfl
  · exact ha m hm
  · exact hn

theorem Bare.append {l : List Node} (hl : ∀ n ∈ l, n.Bare) : (a.append l).Bare := by
  intro m hm
  rcases Array.mem_append.mp hm with hm | hm
  · exact ha m hm
  · exact hl m (List.mem_toArray.mp hm)

theorem Bare.set (h : Handle) {n : Node} (hn : n.Bare) : (a.set h n).Bare := by
  intro m hm
  unfold Arena.set at hm
  split at hm
  · rcases Array.mem_or_eq_of_mem_setIfInBounds hm with hm | rfl
    · exact ha m hm
    · exact hn
  · exact ha m hm

theorem Bare.type {t : Handle} {n : TypeNode} (ht : a.type t = .ok n) : (Node.type n).Bare := by
  obtain ⟨i, _, hi⟩ := Option.bind_eq_some_iff.mp (type_eq_ok.mp ht)
  exact ha _ (Array.mem_of_getElem? hi)

end Arena

/-! ## Loading -/

theorem TypeKind.isParameter_of_named : ∀ k ∈ named, k.isParameter = false := by
  decide

namespace Load

/-- The step leaves the types of parameters bare. -/
abbrev KeepsBare (x : Load α) : Prop :=
  Upholds (fun l => l.arena.Bare) x

theorem push_keepsBare {n : Node} (hn : n.Bare) : KeepsBare (push n) :=
  fun _ h => h.push hn

theorem set_keepsBare (h : Handle) {n : Node} (hn : n.Bare) : KeepsBare (set h n) :=
  fun _ hl => hl.set h hn

theorem declareClass_keepsBare (image : Handle) (c : ClassDescription) :
    KeepsBare (declareClass image c) := by
  refine .bind (push_keepsBare trivial) fun cls => .bind (push_keepsBare fun hparameter => ?_)
    fun type => .bind (set_keepsBare cls trivial) fun _ => .bind (fun _ h => h) fun _ => .pure _
  rw [TypeKind.isParameter_of_named _ c.typeKind_mem] at hparameter
  cases hparameter

theorem declareImage_keepsBare (name : String) (classes : List ClassDescription)
    (classStart : Nat) : KeepsBare (declareImage name classes classStart) :=
  .bind (push_keepsBare trivial) fun image =>
    (Upholds.mapM fun c _ => declareClass_keepsBare image c).bind fun _ =>
    .bind (set_keepsBare image trivial) fun _ => .pure _

theorem declareAssemblies_keepsBare : ∀ (as : List AssemblyDescription) (classStart : Nat),
    KeepsBare (declareAssemblies as classStart)
  | [], _ => .pure _
  | a :: as, classStart => (declareImage_keepsBare a.image a.classes (word32 classStart)).bind
      fun _ => .bind (push_keepsBare trivial) fun _ =>
      (declareAssemblies_keepsBare as _).bind fun _ => .pure _

theorem corlibOf_keepsBare (declared : Declared) : KeepsBare (corlibOf declared) := by
  unfold corlibOf
  cases declared.corlib with
  | some image => exact .pure _
  | none => exact (declareImage_keepsBare corlibImage builtinCorlib 0).bind fun _ => .pure _

/-- A type that a text names has no class. -/
theorem internType_keepsBare (text : String) (classScope methodScope : List String) :
    KeepsBare (internType text classScope methodScope) := by
  intro l h
  cases hkey : l.types[(typeKey (TypeName.normalized text) classScope methodScope).1]? with
  | some t =>
      rw [internType_known hkey]
      exact h
  | none =>
      rw [internType_new hkey]
      exact h.push fun _ => rfl

theorem linkField_keepsBare (c : ClassDescription) (f : FieldDescription) :
    KeepsBare (linkField c f) :=
  (internType_keepsBare _ _ _).bind fun _ => push_keepsBare trivial

theorem linkMethod_keepsBare (cls : Handle) (c : ClassDescription) (m : MethodDescription) :
    KeepsBare (linkMethod cls c m) :=
  (internType_keepsBare _ _ _).bind fun _ =>
    (Upholds.mapM fun _ _ => (internType_keepsBare _ _ _).bind fun _ => .pure _).bind fun _ =>
    push_keepsBare trivial

theorem linkClass_keepsBare (known : WellKnown) (cls : Handle) (c : ClassDescription) :
    KeepsBare (linkClass known cls c) := by
  have hparent : KeepsBare (parentOf known cls c) := fun l h => by
    rw [parentOf_apply]
    exact h
  have hdeclaring : KeepsBare (declaringOf c) := fun l h => by
    rw [declaringOf_apply]
    exact h
  refine hparent.bind fun parent => hdeclaring.bind fun declaring =>
    (Upholds.mapM fun name _ => classNamed_upholds _).bind fun interfaces =>
    (Upholds.mapM fun f _ => linkField_keepsBare c f).bind fun fields =>
    (Upholds.mapM fun m _ => linkMethod_keepsBare cls c m).bind fun methods l h => ?_
  rw [modify_apply]
  split
  · exact h.set cls trivial
  · exact h

theorem snapshot_keepsBare (s : Snapshot) : KeepsBare (snapshot s) :=
  .bind (push_keepsBare trivial) fun _ => (declareAssemblies_keepsBare _ _).bind fun _ =>
    (corlibOf_keepsBare _).bind fun _ => .bind (fun _ h => h) fun known =>
    (Upholds.forM fun q _ => linkClass_keepsBare known q.1 q.2).bind fun _ => .pure _

end Load

/-! ## Calls -/

namespace Vm

theorem bare_ofSnapshot {s : Snapshot} {vm : Vm} (h : ofSnapshot s = .ok vm) : vm.arena.Bare := by
  have hbare := Load.snapshot_keepsBare s ⟨.empty, ∅, ∅⟩ fun n hn => absurd hn (by simp [Arena.empty])
  unfold ofSnapshot at h
  split at h
  · cases h
    exact hbare
  · cases h

/-- The type of a closed class is its own, and no other step makes a type or gives it a class. -/
theorem Step.bare {v w : Vm} (h : v.Step w) (hv : v.arena.Bare) : w.arena.Bare := by
  cases h with
  | idle => exact hv
  | scratch used => exact hv
  | string value => exact hv.push trivial
  | array length known => exact hv.push trivial
  | slot index value known => exact hv.set _ trivial
  | @reflect t node known missing =>
      have hobject : (Node.object (.typeObject t)).Bare := trivial
      have hold := hv.type known
      have htype : (Node.type { node with object := v.arena.next }).Bare := hold
      exact (hv.push hobject).set t htype
  | @close cls args d names fields methods new closing =>
      refine hv.append fun n hn => ?_
      simp only [Arena.closedNodes, List.mem_cons, List.mem_append, List.mem_map] at hn
      rcases hn with rfl | rfl | ⟨f, _, rfl⟩ | ⟨m, _, rfl⟩
      · trivial
      · exact fun hparameter => by cases hparameter
      · trivial
      · trivial
  | instantiate address known types => exact hv.push trivial
  | compile new known named compiled => exact hv.push trivial

theorem Steps.bare {v w : Vm} (wf : v.WellFormed) (h : v.Steps w) (hv : v.arena.Bare) :
    w.arena.Bare :=
  h.keep (P := fun u => u.arena.Bare) (fun _ _ _ step hu => step.bare hu) wf hv

/-- The type of a class is no type parameter. -/
theorem WellFormed.isParameter_classType {v : Vm} (wf : v.WellFormed) (hv : v.arena.Bare)
    {c t : Handle} (hc : v.Tells (.classType c) t) {n : TypeNode} (hn : v.arena.type t = .ok n) :
    n.kind.isParameter = false := by
  obtain ⟨d, hd, rfl⟩ := tells_classType.mp hc
  obtain ⟨m, hm, hclass⟩ := (wf.arena.class_ hd).type
  cases hm.symm.trans hn
  by_contra hparameter
  have hnull := hv.type hn (by simpa using hparameter)
  exact Arena.ne_null_of_get? (Arena.class_eq_ok.mp hd) (hclass.symm.trans hnull)

end Vm

end VmMetadata
