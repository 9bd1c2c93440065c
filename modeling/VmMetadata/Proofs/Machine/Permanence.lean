import VmMetadata.Proofs.Machine.Run

/-!
What calls leave alone. A call that writes into an array writes into that array alone, and no other
call writes into arrays; an instantiation on record is never replaced. Main statement: whatever is
called, what was read of the metadata is read again, and an object changes only by what is written
into its slots and by the reflection object that a type gets once.
-/

namespace VmMetadata

open Arena (handleAt)

/-! ## Slots -/

/-- All arrays hold what they held. -/
def Arena.SameSlots (a b : Arena) : Prop :=
  ∀ h cls items, a.object h = .ok (.array cls items) → b.object h = .ok (.array cls items)

namespace Arena.SameSlots

theorem refl (a : Arena) : a.SameSlots a :=
  fun _ _ _ h => h

theorem trans {a b c : Arena} (hab : a.SameSlots b) (hbc : b.SameSlots c) : a.SameSlots c :=
  fun h cls items ho => hbc h cls items (hab h cls items ho)

theorem push (a : Arena) (n : Node) : a.SameSlots (a.push n) :=
  fun _ _ _ ho => object_eq_ok.mpr (get?_push_of_get? (object_eq_ok.mp ho) n)

/-- Putting a node in the place of something that is no array. -/
theorem set {a : Arena} {h : Handle} {m : Node} (hm : a.get? h = some m)
    (hother : ∀ cls items, m ≠ .object (.array cls items)) (n : Node) :
    a.SameSlots (a.set h n) := by
  intro k cls items ho
  have ho := object_eq_ok.mp ho
  have hne : k ≠ h := by
    rintro rfl
    exact hother cls items (Option.some.inj (hm.symm.trans ho))
  exact object_eq_ok.mpr (by rw [get?_set_of_ne hne, ho])

end Arena.SameSlots

namespace Access

/-- The computation writes into no array of the machine. -/
def Spares (x : Access α) (v : Vm) : Prop :=
  match x v with
  | .ok _ w => v.arena.SameSlots w.arena
  | .error _ w => v.arena.SameSlots w.arena

theorem Reads.spares {x : Access α} (hx : x.Reads) (v : Vm) : x.Spares v := by
  obtain ⟨r, hr⟩ := hx v
  unfold Spares
  rw [hr]
  cases r <;> exact .refl _

namespace Spares

variable {v : Vm}

theorem bind {x : Access α} {f : α → Access β} (hx : x.Spares v)
    (hf : ∀ a w, x v = .ok a w → (f a).Spares w) : (x >>= f).Spares v := by
  unfold Spares at hx ⊢
  cases hrun : x v with
  | ok a w =>
      rw [hrun] at hx
      have hfa := hf a w hrun
      unfold Spares at hfa
      rw [bind_ok hrun]
      cases hlast : f a w with
      | ok _ _ | error _ _ =>
          rw [hlast] at hfa
          exact hx.trans hfa
  | error e w =>
      rw [hrun] at hx
      rw [bind_error hrun]
      exact hx

theorem mapM {f : α → Access β} (hf : ∀ a v, (f a).Spares v) : ∀ (as : List α) (v : Vm),
    (as.mapM f).Spares v
  | [], v => by
      rw [List.mapM_nil]
      exact (Reads.pure []).spares v
  | a :: as, v => by
      rw [List.mapM_cons]
      exact (hf a v).bind fun b w _ => (mapM hf as w).bind fun bs u _ =>
        (Reads.pure (b :: bs)).spares u

theorem push (n : Node) (v : Vm) : (Access.push n).Spares v :=
  Arena.SameSlots.push v.arena n

theorem set {h : Handle} {m : Node} (hm : v.arena.get? h = some m)
    (hother : ∀ cls items, m ≠ .object (.array cls items)) (n : Node) : (Access.set h n).Spares v :=
  Arena.SameSlots.set hm hother n

/-- A note in one of the records. -/
theorem update {f : Vm → Vm} (hf : (f v).arena = v.arena) :
    (modify f : Access Unit).Spares v := by
  change v.arena.SameSlots (f v).arena
  rw [hf]
  exact .refl _

theorem typeObject (t : Handle) (v : Vm) : (typeObject t).Spares v := by
  refine ((Reads.lift_node _).spares v).bind fun node w hnode => ?_
  obtain ⟨hnode, rfl⟩ := typeNode_eq_ok.mp hnode
  split
  · refine (push _ w).bind fun object u hpush => ?_
    cases hpush
    have ht := Arena.get?_push_of_get? (Arena.type_eq_ok.mp hnode) (.object (.typeObject t))
    exact (set ht (by simp) _).bind fun _ _ _ => (Reads.pure _).spares _
  · exact (Reads.pure _).spares w

theorem invoke (method : Handle) (v : Vm) : (invoke method).Spares v := by
  refine ((Reads.lift_node _).spares v).bind fun node w _ => ?_
  cases node.result with
  | some value => exact push _ w
  | none => exact (Reads.pure _).spares w

theorem arrayNew (cls : Handle) (length : Nat) (v : Vm) : (arrayNew cls length).Spares v :=
  ((Reads.lift_node _).spares v).bind fun _ w _ => push _ w

theorem substituteParameters (cls method : Substitution) (ps : List (String × Handle)) (v : Vm) :
    (substituteParameters cls method ps).Spares v := by
  unfold Spares
  rw [substituteParameters_apply]
  exact .refl _

theorem closeField (σ : Substitution) (field : Handle) (v : Vm) : (closeField σ field).Spares v :=
  ((Reads.lift_node _).spares v).bind fun _ w _ => ((reads_read _).spares w).bind fun _ u _ =>
    push _ u

theorem closeMethod (inflated : Handle) (σ : Substitution) (method : Handle) (v : Vm) :
    (closeMethod inflated σ method).Spares v :=
  ((Reads.lift_node _).spares v).bind fun _ w _ => ((reads_read _).spares w).bind fun _ u _ =>
    (substituteParameters _ _ _ u).bind fun _ x _ => push _ x

theorem closeClass (cls : Handle) (definition : ClassNode) (arguments : List Handle) (v : Vm) :
    (closeClass cls definition arguments).Spares v := by
  refine ((typeNames_reads arguments).spares v).bind fun names w _ => ?_
  refine (push _ w).bind fun inflated w _ => (push _ w).bind fun type w _ => ?_
  refine (mapM (closeField _) _ w).bind fun fields w _ => ?_
  refine (mapM (closeMethod _ _) _ w).bind fun methods w _ => ?_
  refine ((Reads.lift_node _).spares w).bind fun node u hnode => ?_
  obtain ⟨hnode, rfl⟩ := classNode_eq_ok.mp hnode
  exact (set (Arena.class_eq_ok.mp hnode) (by simp) _).bind fun _ _ _ => (Reads.pure _).spares _

theorem inflateClass (cls array : Handle) (v : Vm) : (inflateClass cls array).Spares v := by
  refine ((typeArguments_reads array).spares v).bind fun arguments w _ => ?_
  refine ((reads_read _).spares w).bind fun known u _ => ?_
  cases Instance.find? cls arguments known with
  | some result => exact (Reads.pure _).spares u
  | none =>
      refine ((Reads.lift_node _).spares u).bind fun definition x _ => ?_
      split
      · exact (Reads.refuse _).spares x
      · split
        · exact (Reads.refuse _).spares x
        · refine (closeClass cls definition arguments x).bind fun _ y _ => ?_
          exact Spares.bind (update (by rfl)) fun _ z _ => (Reads.pure _).spares z

theorem pushMethodInstance (method : Handle) (arguments : List Handle) (address : Option Nat)
    (v : Vm) : (pushMethodInstance method arguments address).Spares v :=
  ((Reads.lift_node _).spares v).bind fun _ w _ => ((reads_read _).spares w).bind fun _ u _ =>
    (substituteParameters _ _ _ u).bind fun _ x _ => push _ x

theorem findInflatedMethod (method array : Handle) (v : Vm) :
    (findInflatedMethod method array).Spares v := by
  refine ((typeArguments_reads array).spares v).bind fun arguments w _ => ?_
  refine ((reads_read _).spares w).bind fun known u _ => ?_
  cases Instance.find? method arguments known with
  | some result => exact (Reads.pure _).spares u
  | none =>
      refine ((typeNames_reads arguments).spares u).bind fun names u _ => ?_
      refine ((Reads.lift_node _).spares u).bind fun node x _ => ?_
      cases compiledAddress? names node.instantiations with
      | none => exact (Reads.pure _).spares x
      | some address =>
          refine (pushMethodInstance method arguments (some address) x).bind fun _ y _ => ?_
          exact Spares.bind (update (by rfl)) fun _ z _ => (Reads.pure _).spares z

theorem inflateMethodRaw (method array : Handle) (v : Vm) :
    (inflateMethodRaw method array).Spares v := by
  refine ((typeArguments_reads array).spares v).bind fun arguments w _ => ?_
  refine ((Reads.lift_node _).spares w).bind fun node u _ => ?_
  split
  · exact (Reads.refuse _).spares u
  · exact pushMethodInstance method arguments node.address u

end Spares

end Access

/-- The contents of an array after a call. An index behind the last slot writes nothing. -/
def AnyCall.fill (array : Handle) (items : List Handle) : AnyCall → List Handle
  | ⟨_, .arraySet at_ index value⟩ => if at_ = array then items.set index value else items
  | _ => items

namespace Vm

variable {v : Vm}

open Access in
/-- Only the call that fills a slot writes into an array, and only into the one it names. -/
theorem answer_spares (c : Call r) (hc : ∀ array index value, ⟨r, c⟩ ≠
    (⟨_, .arraySet array index value⟩ : AnyCall)) (v : Vm) : (answer c).Spares v := by
  by_cases hread : c.isReading = true
  · exact (answer_reads hread).spares v
  · cases c with
    | alloc size => exact Arena.SameSlots.refl _
    | writeBytes at_ bytes =>
        refine ((reads_read _).spares v).bind fun m w _ => ?_
        refine Spares.bind ?_ fun n u _ => Spares.update (by rfl)
        exact Reads.spares (.lift_node fun _ => m.scratch.write at_ bytes) w
    | typeObject t => exact .typeObject t v
    | methodInvoke method _ _ => exact .invoke method v
    | arrayNew cls length => exact .arrayNew cls length v
    | arraySet array index value => exact absurd rfl (hc array index value)
    | classInflate cls array => exact .inflateClass cls array v
    | methodFindInflated method array => exact .findInflatedMethod method array v
    | methodInflateRaw method array => exact .inflateMethodRaw method array v
    | _ => exact absurd rfl hread

/-- A call that fills a slot fills it in the array it names, if the array has it. -/
theorem arraySet_slots {h cls : Handle} {items : List Handle}
    (ho : v.arena.object h = .ok (.array cls items)) (array : Handle) (index : Nat)
    (value : Handle) :
    (v.afterCall ⟨_, .arraySet array index value⟩).arena.object h =
      .ok (.array cls (if array = h then items.set index value else items)) := by
  have hsteps : (answer (.arraySet array index value)).Steps v _ _ :=
    Access.arraySet_steps v array index value
  unfold Access.Steps at hsteps
  unfold afterCall
  cases hrun : answer (.arraySet array index value) v with
  | ok a w =>
      rw [hrun] at hsteps
      obtain ⟨-, cls', items', ho', hw⟩ := hsteps
      simp only [hw]
      split
      · rename_i heq
        subst heq
        rw [ho] at ho'
        cases ho'
        exact Arena.object_eq_ok.mpr (Arena.get?_set_same (Arena.object_eq_ok.mp ho) _)
      · rename_i hne
        rw [Arena.object_eq_ok, Arena.get?_set_of_ne (Ne.symm hne)]
        exact Arena.object_eq_ok.mp ho
  | error e w =>
      rw [hrun] at hsteps
      obtain ⟨rfl, hfails⟩ := hsteps
      simp only [ho]
      split
      · rename_i heq
        subst heq
        have hle : items.length ≤ index := Nat.not_lt.mp fun hlt => hfails ⟨cls, items, ho, hlt⟩
        rw [List.set_eq_of_length_le hle]
      · rfl

/-- What a call makes of the slots of an array. -/
theorem afterCall_slots {h cls : Handle} {items : List Handle}
    (ho : v.arena.object h = .ok (.array cls items)) (c : AnyCall) :
    (v.afterCall c).arena.object h = .ok (.array cls (c.fill h items)) := by
  by_cases hc : ∃ array index value, c = ⟨_, .arraySet array index value⟩
  · obtain ⟨array, index, value, rfl⟩ := hc
    exact arraySet_slots ho array index value
  · have hspares := answer_spares c.2 (fun array index value he => hc ⟨array, index, value, he⟩) v
    have hfill : c.fill h items = items := by
      unfold AnyCall.fill
      split
      · exact absurd ⟨_, _, _, rfl⟩ hc
      · rfl
    rw [hfill]
    unfold Access.Spares at hspares
    unfold afterCall
    cases hrun : answer c.2 v with
    | ok _ _ | error _ _ =>
        rw [hrun] at hspares
        exact hspares h cls items ho

/-- What calls make of the slots of an array. -/
theorem after_slots {h cls : Handle} {items : List Handle}
    (ho : v.arena.object h = .ok (.array cls items)) (calls : List AnyCall) :
    (v.after calls).arena.object h = .ok (.array cls (calls.foldl (AnyCall.fill h) items)) := by
  induction calls generalizing v items with
  | nil => exact ho
  | cons c calls ih => exact ih (afterCall_slots ho c)

/-! ## Instantiations on record -/

/-- A new entry hides none of the others, as there was none for its definition and its types. -/
theorem find?_cons_of_new {known : List Instance} {definition definition' result result' : Handle}
    {args args' : List Handle} (new : Instance.find? definition' args' known = none)
    (hfind : Instance.find? definition args known = some result) :
    Instance.find? definition args (⟨definition', args', result'⟩ :: known) = some result := by
  have hother : ¬(definition' = definition ∧ args' = args) := by
    rintro ⟨rfl, rfl⟩
    rw [new] at hfind
    cases hfind
  unfold Instance.find? at hfind ⊢
  rw [List.find?_cons_of_neg (by simpa using hother)]
  exact hfind

/-- A class is put on record only where there is none for the definition and the types. -/
theorem Step.find?_class {w : Vm} (h : v.Step w) {cls result : Handle} {args : List Handle}
    (hfind : Instance.find? cls args v.classInstances = some result) :
    Instance.find? cls args w.classInstances = some result := by
  cases h with
  | close new _ => exact find?_cons_of_new new hfind
  | _ => exact hfind

theorem WellFormed.find?_class_after (wf : v.WellFormed) {cls result : Handle}
    {args : List Handle} (hfind : Instance.find? cls args v.classInstances = some result)
    (calls : List AnyCall) :
    Instance.find? cls args (v.after calls).classInstances = some result := by
  induction calls generalizing v with
  | nil => exact hfind
  | cons c calls ih =>
      have hstep := afterCall_step wf c
      exact ih (hstep.wellFormed wf) (hstep.find?_class hfind)

end Vm

namespace Access

variable {v w : Vm}

/-- A class that has been closed is on record. -/
theorem inflateClass_find? {cls array result : Handle} {args : List Handle}
    (hargs : typeArguments array v = .ok args v) (h : inflateClass cls array v = .ok result w) :
    Instance.find? cls args w.classInstances = some result := by
  rw [inflateClass, bind_ok hargs] at h
  obtain ⟨known, u, hknown, h⟩ := bind_eq_ok.mp h
  cases hknown
  cases hfind : Instance.find? cls args v.classInstances with
  | some known =>
      rw [hfind] at h
      cases h
      exact hfind
  | none =>
      rw [hfind] at h
      obtain ⟨d, u, -, h⟩ := bind_eq_ok.mp h
      split at h
      · cases h
      · split at h
        · cases h
        · obtain ⟨closed, x, -, h⟩ := bind_eq_ok.mp h
          obtain ⟨_, y, hrecord, hdone⟩ := bind_eq_ok.mp h
          cases hrecord
          cases hdone
          simp [Instance.find?]

/-- A class on record is not closed again. -/
theorem inflateClass_of_find? {cls array result : Handle} {args : List Handle}
    (hargs : typeArguments array v = .ok args v)
    (hfind : Instance.find? cls args v.classInstances = some result) :
    inflateClass cls array v = .ok result v := by
  rw [inflateClass, bind_ok hargs,
    bind_ok (show read (·.classInstances) v = .ok v.classInstances v from rfl), hfind]
  rfl

/-- A type that has its reflection object hands it out. -/
theorem typeObject_of_object {t : Handle} {node : TypeNode} (hnode : v.arena.type t = .ok node)
    (hobject : node.object ≠ .null) : typeObject t v = .ok node.object v := by
  rw [typeObject, bind_ok (typeNode_eq_ok.mpr ⟨hnode, rfl⟩),
    if_neg (by rwa [Handle.isNull_iff])]
  rfl

end Access

/-! ## What stays -/

/-- The call reads metadata: it makes nothing, writes nothing, and looks neither into a slot of an
array nor into scratch memory. -/
def Call.readsMetadata (scratch : Scratch) : Call r → Bool
  | .classFromType descriptor => (scratch.read? descriptor.address).isNone
  | c => c.isStable

/-- What an object is after the calls. -/
def Node.Lasts (calls : List AnyCall) (h : Handle) : Node → Node → Prop
  | .type t, m => ∃ object, m = .type { t with object } ∧ (t.object ≠ .null → object = t.object)
  | .object (.array cls items), m => m = .object (.array cls (calls.foldl (AnyCall.fill h) items))
  | n, m => m = n

namespace Vm

/-- The machine keeps its metadata while it answers the calls. -/
structure Permanent (v : Vm) (calls : List AnyCall) : Prop where
  /-- What was read is read again. -/
  reads : ∀ {r : Reply} (c : Call r) {value : r.Value} {w : Vm},
    c.readsMetadata v.scratch = true → answer c v = .ok value w →
      answer c (v.after calls) = .ok value (v.after calls)
  /-- Every object is found where it was. -/
  nodes : ∀ {h : Handle} {n : Node}, v.arena.get? h = some n →
    ∃ m, (v.after calls).arena.get? h = some m ∧ n.Lasts calls h m
  /-- A type has one reflection object. -/
  typeObject : ∀ {t object : Handle} {w : Vm}, answer (.typeObject t) v = .ok object w →
    answer (.typeObject t) (w.after calls) = .ok object (w.after calls)
  /-- A definition has one closed class for each list of types. -/
  classInflate : ∀ {cls array array' result : Handle} {args : List Handle} {w : Vm},
    Access.typeArguments array v = .ok args v →
    answer (.classInflate cls array) v = .ok result w →
    Access.typeArguments array' (w.after calls) = .ok args (w.after calls) →
      answer (.classInflate cls array') (w.after calls) = .ok result (w.after calls)

variable {v w : Vm}

/-- A class that was found through a type is found again. -/
theorem Later.classOf (h : v.Later w) {descriptor cls : Handle}
    (hscratch : v.scratch.read? descriptor.address = none)
    (hfound : v.classOf descriptor = .ok cls) : w.classOf descriptor = .ok cls := by
  unfold Vm.classOf at hfound ⊢
  cases ht : v.arena.type descriptor with
  | ok t =>
      obtain ⟨o, hu, -⟩ := h.arena.type ht
      rw [ht] at hfound
      rw [hu]
      exact hfound
  | error e =>
      rw [ht, hscratch] at hfound
      cases hfound

theorem Later.answer_metadata (h : v.Later w) {c : Call r} {value : r.Value} {u : Vm}
    (hc : c.readsMetadata v.scratch = true) (hv : answer c v = .ok value u) :
    answer c w = .ok value w := by
  by_cases hstable : c.isStable = true
  · obtain rfl := (answer_stable hstable).reads.eq_of_ok hv
    exact (answer_stable hstable).later h hv
  · cases c with
    | classFromType descriptor =>
        have hfound := (Access.lift_eq_ok.mp hv).1
        exact Access.lift_eq_ok.mpr ⟨h.classOf (Option.isNone_iff_eq_none.mp hc) hfound, rfl⟩
    | _ => exact absurd hc hstable

theorem lasts_after (wf : v.WellFormed) (calls : List AnyCall) {h : Handle} {n : Node}
    (hn : v.arena.get? h = some n) :
    ∃ m, (v.after calls).arena.get? h = some m ∧ n.Lasts calls h m := by
  obtain ⟨m, hm, hages⟩ := (wf.after calls).2.arena h n hn
  refine ⟨m, hm, ?_⟩
  cases hages with
  | type object missing => exact ⟨object, rfl, fun hne => absurd missing hne⟩
  | array cls length =>
      have hslots := Arena.object_eq_ok.mp (after_slots (Arena.object_eq_ok.mpr hn) calls)
      exact Option.some.inj (hm.symm.trans hslots)
  | same =>
      cases n with
      | type t => exact ⟨t.object, rfl, fun _ => rfl⟩
      | object o =>
          cases o with
          | array cls items =>
              have hslots := Arena.object_eq_ok.mp (after_slots (Arena.object_eq_ok.mpr hn) calls)
              exact Option.some.inj (hm.symm.trans hslots)
          | _ => rfl
      | _ => rfl

theorem typeObject_after (wf : v.WellFormed) {t object : Handle}
    (h : answer (.typeObject t) v = .ok object w) (calls : List AnyCall) :
    answer (.typeObject t) (w.after calls) = .ok object (w.after calls) := by
  have hsteps : (answer (.typeObject t)).Steps v _ _ := Access.typeObject_steps wf t
  unfold Access.Steps at hsteps
  rw [h] at hsteps
  obtain ⟨hstep, ho⟩ := hsteps
  have wfw := hstep.wellFormed wf
  obtain ⟨node, hnode, rfl⟩ := wfw.arena.typeObject ho
  have hnull : node.object ≠ .null := Arena.ne_null_of_get? (Arena.object_eq_ok.mp ho)
  obtain ⟨o, hlater, hkept⟩ := (wfw.after calls).2.arena.type hnode
  obtain rfl := hkept hnull
  exact Access.typeObject_of_object hlater hnull

theorem classInflate_after (wf : v.WellFormed) {cls array array' result : Handle}
    {args : List Handle} (hargs : Access.typeArguments array v = .ok args v)
    (h : answer (.classInflate cls array) v = .ok result w) (calls : List AnyCall)
    (hargs' : Access.typeArguments array' (w.after calls) = .ok args (w.after calls)) :
    answer (.classInflate cls array') (w.after calls) = .ok result (w.after calls) := by
  have hstep : v.Step w := by
    have hsteps := answer_steps wf (.classInflate cls array)
    unfold Access.Steps at hsteps
    rw [h] at hsteps
    exact hsteps.1
  have hfind := Access.inflateClass_find? hargs h
  exact Access.inflateClass_of_find? hargs'
    ((hstep.wellFormed wf).find?_class_after hfind calls)

/-- From every state that a machine can reach it keeps its metadata, whatever is called. -/
theorem permanent_of_snapshot {s : Snapshot} {vm : Vm} (h : ofSnapshot s = .ok vm)
    (before calls : List AnyCall) : (vm.after before).Permanent calls := by
  have wf := ((wellFormed_ofSnapshot h).after before).1
  exact {
    reads := fun _ => (wf.after calls).2.answer_metadata
    nodes := lasts_after wf calls
    typeObject := fun ht => typeObject_after wf ht calls
    classInflate := fun hargs hrun => classInflate_after wf hargs hrun calls }

/-- In the small snapshot the type of the root class gets its reflection object, and the generic
class is closed over it. -/
theorem permanent_of_snapshot_small :
    let v := Snapshot.small.machine
    let calls : List AnyCall := [⟨_, .typeObject (handleAt 7)⟩, ⟨_, .arrayNew (handleAt 8) 1⟩,
      ⟨_, .arraySet (handleAt 16) 0 (handleAt 15)⟩,
      ⟨_, .classInflate (handleAt 2) (handleAt 16)⟩]
    (v.after []).Permanent calls ∧
      (v.after calls).arena.type (handleAt 7) =
        (v.arena.type (handleAt 7)).map ({ · with object := handleAt 15 }) := by
  intro v calls
  exact ⟨permanent_of_snapshot (ofSnapshot_machine (s := Snapshot.small) (Or.inr rfl)) [] calls,
    by decide +kernel⟩

end Vm

end VmMetadata
