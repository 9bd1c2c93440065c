import VmMetadata.Proofs.Machine.State
import VmMetadata.Vm.Answer

/-!
Calls that read. A reading computation leaves the machine alone; a stable one also finds the same
again whenever it is made later. Main statement: all calls but the nine that make or write
something are reading, and all of these but two are stable.
-/

namespace VmMetadata

namespace Access

theorem bind_apply (x : Access α) (f : α → Access β) (vm : Vm) :
    (x >>= f) vm = match x vm with
      | .ok a vm => f a vm
      | .error e vm => .error e vm := by
  change EStateM.bind x f vm = _
  unfold EStateM.bind
  cases x vm <;> rfl

theorem bind_ok {x : Access α} {f : α → Access β} {vm w : Vm} {a : α} (h : x vm = .ok a w) :
    (x >>= f) vm = f a w := by
  rw [bind_apply, h]

theorem bind_error {x : Access α} {f : α → Access β} {vm w : Vm} {e : Error}
    (h : x vm = .error e w) : (x >>= f) vm = .error e w := by
  rw [bind_apply, h]

theorem bind_eq_ok {x : Access α} {f : α → Access β} {vm w : Vm} {b : β} :
    (x >>= f) vm = .ok b w ↔ ∃ a v, x vm = .ok a v ∧ f a v = .ok b w := by
  rw [bind_apply]
  cases x vm with
  | ok a v => simp
  | error e v => simp

theorem pure_apply (a : α) (vm : Vm) : (pure a : Access α) vm = .ok a vm := rfl

theorem get_bind_apply (f : Vm → Access α) (vm : Vm) : (get >>= f) vm = f vm vm := rfl

theorem lift_eq_ok {r : Except Error α} {v w : Vm} {a : α} :
    lift r v = .ok a w ↔ r = .ok a ∧ w = v := by
  cases r with
  | ok b => simp [lift, eq_comm]
  | error e => simp [lift]

/-! ## Look-ups of nodes -/

variable {h : Handle} {v w : Vm}

theorem imageNode_eq_ok {n : ImageNode} :
    imageNode h v = .ok n w ↔ v.arena.image h = .ok n ∧ w = v := lift_eq_ok

theorem classNode_eq_ok {n : ClassNode} :
    classNode h v = .ok n w ↔ v.arena.class_ h = .ok n ∧ w = v := lift_eq_ok

theorem typeNode_eq_ok {n : TypeNode} :
    typeNode h v = .ok n w ↔ v.arena.type h = .ok n ∧ w = v := lift_eq_ok

theorem fieldNode_eq_ok {n : FieldNode} :
    fieldNode h v = .ok n w ↔ v.arena.field h = .ok n ∧ w = v := lift_eq_ok

theorem methodNode_eq_ok {n : MethodNode} :
    methodNode h v = .ok n w ↔ v.arena.method h = .ok n ∧ w = v := lift_eq_ok

theorem objectNode_eq_ok {n : ObjectNode} :
    objectNode h v = .ok n w ↔ v.arena.object h = .ok n ∧ w = v := lift_eq_ok

/-! ## Reading -/

/-- The computation leaves the machine alone. -/
def Reads (x : Access α) : Prop :=
  ∀ vm, ∃ r, x vm = lift r vm

/-- The computation leaves the machine alone, and what it has found it finds again later. -/
structure Stable (x : Access α) : Prop where
  reads : x.Reads
  later : ∀ {v w : Vm} {a : α}, v.Later w → x v = .ok a v → x w = .ok a w

namespace Reads

theorem pure (a : α) : (Pure.pure a : Access α).Reads :=
  fun _ => ⟨.ok a, rfl⟩

theorem throw (e : Error) : (MonadExcept.throw e : Access α).Reads :=
  fun _ => ⟨.error e, rfl⟩

theorem refuse (r : Refusal) : (Access.refuse r : Access α).Reads :=
  .throw (.accessor r)

theorem lift_node (f : Vm → Except Error α) : Reads (fun vm => Access.lift (f vm) vm) :=
  fun vm => ⟨f vm, rfl⟩

theorem bind {x : Access α} {f : α → Access β} (hx : x.Reads) (hf : ∀ a, (f a).Reads) :
    (x >>= f).Reads := by
  intro vm
  obtain ⟨r, hr⟩ := hx vm
  cases r with
  | ok a =>
      obtain ⟨q, hq⟩ := hf a vm
      exact ⟨q, (bind_ok hr).trans hq⟩
  | error e => exact ⟨.error e, bind_error hr⟩

theorem mapM {f : α → Access β} (hf : ∀ a, (f a).Reads) : ∀ as : List α, (as.mapM f).Reads
  | [] => by
      rw [List.mapM_nil]
      exact .pure []
  | a :: as => by
      rw [List.mapM_cons]
      exact (hf a).bind fun b => (mapM hf as).bind fun bs => .pure (b :: bs)

theorem eq_of_ok {x : Access α} (hx : x.Reads) {v w : Vm} {a : α} (h : x v = .ok a w) : w = v := by
  obtain ⟨r, hr⟩ := hx v
  rw [hr] at h
  cases r with
  | ok b =>
      cases h
      rfl
  | error e => cases h

end Reads

namespace Stable

theorem pure (a : α) : (Pure.pure a : Access α).Stable :=
  ⟨.pure a, fun _ h => by cases h; rfl⟩

theorem throw (e : Error) : (MonadExcept.throw e : Access α).Stable :=
  ⟨.throw e, fun _ h => by cases h⟩

theorem refuse (r : Refusal) : (Access.refuse r : Access α).Stable :=
  .throw (.accessor r)

theorem bind {x : Access α} {f : α → Access β} (hx : x.Stable) (hf : ∀ a, (f a).Stable) :
    (x >>= f).Stable where
  reads := hx.reads.bind fun a => (hf a).reads
  later := fun {v w b} hvw h => by
    obtain ⟨a, u, ha, hb⟩ := bind_eq_ok.mp h
    obtain rfl := hx.reads.eq_of_ok ha
    exact (bind_ok (hx.later hvw ha)).trans ((hf a).later hvw hb)

/-- A look-up is stable if what it finds stays. -/
theorem lift_node {f : Vm → Except Error α}
    (hf : ∀ {v w a}, v.Later w → f v = .ok a → f w = .ok a) :
    Stable (fun vm => Access.lift (f vm) vm) where
  reads := .lift_node f
  later := fun hvw h => lift_eq_ok.mpr ⟨hf hvw (lift_eq_ok.mp h).1, rfl⟩

theorem imageNode (h : Handle) : (imageNode h).Stable :=
  lift_node fun hvw => hvw.arena.image

theorem classNode (h : Handle) : (classNode h).Stable :=
  lift_node fun hvw => hvw.arena.class_

theorem fieldNode (h : Handle) : (fieldNode h).Stable :=
  lift_node fun hvw => hvw.arena.field

theorem methodNode (h : Handle) : (methodNode h).Stable :=
  lift_node fun hvw => hvw.arena.method

/-- What is read of a type is stable unless it is the reflection object. -/
theorem typeNode (h : Handle) {f : TypeNode → α}
    (hf : ∀ t object, f { t with object } = f t) :
    (do Pure.pure (f (← Access.typeNode h)) : Access α).Stable where
  reads := Reads.bind (.lift_node _) fun _ => .pure _
  later := fun {v w a} hvw ha => by
    obtain ⟨t, u, ht, hfa⟩ := bind_eq_ok.mp ha
    obtain ⟨ht, rfl⟩ := typeNode_eq_ok.mp ht
    obtain ⟨o, hu, _⟩ := hvw.arena.type ht
    rw [bind_ok (typeNode_eq_ok.mpr ⟨hu, rfl⟩), hf]
    cases hfa
    rfl

/-- What is read of an object is stable unless it is a slot of an array. -/
theorem objectNode (h : Handle) {f : ObjectNode → Access α} (hf : ∀ o, (f o).Stable)
    (harray : ∀ cls xs ys, List.length ys = xs.length → f (.array cls ys) = f (.array cls xs)) :
    (Access.objectNode h >>= f).Stable where
  reads := Reads.bind (.lift_node _) fun o => (hf o).reads
  later := fun {v w a} hvw ha => by
    obtain ⟨o, u, ho, hfa⟩ := bind_eq_ok.mp ha
    obtain ⟨ho, rfl⟩ := objectNode_eq_ok.mp ho
    cases o with
    | typeObject t =>
        rw [bind_ok (objectNode_eq_ok.mpr ⟨hvw.arena.typeObject ho, rfl⟩)]
        exact (hf _).later hvw hfa
    | string value =>
        rw [bind_ok (objectNode_eq_ok.mpr ⟨hvw.arena.string ho, rfl⟩)]
        exact (hf _).later hvw hfa
    | array cls xs =>
        obtain ⟨ys, hys, hlen⟩ := hvw.arena.array ho
        rw [bind_ok (objectNode_eq_ok.mpr ⟨hys, rfl⟩), harray cls xs ys hlen]
        exact (hf _).later hvw hfa

/-- What the snapshot fixed is stable. -/
theorem catalog (f : Catalog → α) : (read fun vm => f vm.toCatalog).Stable where
  reads := fun vm => ⟨.ok _, rfl⟩
  later := fun hvw h => by
    cases h
    simp only [read, hvw.catalog]

end Stable

theorem findClass_later {v w : Vm} (hvw : v.Later w) (namespace_ name : String) :
    ∀ {hs : List Handle} {h : Handle}, Vm.findClass v.arena namespace_ name hs = .ok h →
      Vm.findClass w.arena namespace_ name hs = .ok h
  | [], _, hh => hh
  | k :: hs, h, hh => by
      rw [Vm.findClass] at hh ⊢
      cases hk : v.arena.class_ k with
      | error e =>
          rw [hk] at hh
          cases hh
      | ok node =>
          rw [hk] at hh
          rw [hvw.arena.class_ hk]
          change (if _ then _ else _) = _ at hh
          change (if _ then _ else _) = _
          split at hh
          · rename_i hmatch
            rw [if_pos hmatch]
            exact hh
          · rename_i hmatch
            rw [if_neg hmatch]
            exact findClass_later hvw namespace_ name hh

end Access

/-- The call makes nothing and writes nothing. -/
def Call.isReading : Call r → Bool
  | .alloc _ | .writeBytes _ _ | .typeObject _ | .methodInvoke _ _ _ | .arrayNew _ _
  | .arraySet _ _ _ | .classInflate _ _ | .methodFindInflated _ _ | .methodInflateRaw _ _ => false
  | _ => true

/-- The call reads something that never changes. -/
def Call.isStable : Call r → Bool
  | .classFromType _ | .arrayGet _ _ => false
  | c => c.isReading

namespace Access

theorem classFromType_reads (descriptor : Handle) : (classFromType descriptor).Reads :=
  .lift_node fun vm => vm.classOf descriptor

theorem arrayItems_reads (array : Handle) : (arrayItems array).Reads := by
  refine Reads.bind (.lift_node _) fun o => ?_
  cases o with
  | array _ items => exact .pure items
  | _ => exact .refuse _

theorem arrayGet_reads (array : Handle) (index : Nat) : (arrayGet array index).Reads := by
  refine (arrayItems_reads array).bind fun items => ?_
  cases items[index]? with
  | some item => exact .pure item
  | none => exact .refuse _

theorem domainAssemblies_stable (domain : Handle) : (domainAssemblies domain).Stable := by
  refine (Stable.catalog Catalog.domain).bind fun d => ?_
  split
  · exact .catalog Catalog.assemblies
  · exact .refuse _

theorem assemblyImage_stable (assembly : Handle) : (assemblyImage assembly).Stable :=
  .lift_node fun hvw => hvw.arena.assembly

theorem imageClassStart_stable (image : Handle) : (imageClassStart image).Stable :=
  (Stable.imageNode image).bind fun node =>
    .catalog fun c => if c.isLegacy then node.classStart else 0

theorem imageGetClass_stable (image : Handle) (index : Nat) :
    (imageGetClass image index).Stable := by
  refine (Stable.catalog Catalog.isLegacy).bind fun isLegacy => ?_
  split
  · exact .throw _
  · exact (Stable.imageNode image).bind fun _ => .pure _

theorem classFromName_stable (image : Handle) (namespace_ name : String) :
    (classFromName image namespace_ name).Stable := by
  refine .lift_node fun {v w a} hvw h => ?_
  cases himage : v.arena.image image with
  | error e =>
      rw [himage] at h
      cases h
  | ok node =>
      rw [himage] at h
      rw [hvw.arena.image himage]
      exact findClass_later hvw namespace_ name h

theorem methodPointer_stable (method : Handle) : (methodPointer method).Stable :=
  (Stable.methodNode method).bind fun node =>
    (Stable.classNode node.class).bind fun _ => .pure _

theorem objectClass_stable (object : Handle) : (objectClass object).Stable := by
  refine .objectNode object (fun o => ?_) fun _ _ _ _ => rfl
  cases o with
  | typeObject _ => exact .catalog fun c => c.wellKnown.typeClass
  | string _ => exact .catalog fun c => c.wellKnown.string
  | array elementClass _ => exact .pure elementClass

theorem stringChars_stable (string : Handle) : (stringChars string).Stable := by
  refine .objectNode string (fun o => ?_) fun _ _ _ _ => rfl
  cases o with
  | string value => exact .pure value
  | _ => exact .refuse _

theorem parameter_stable (method : Handle) (index : Nat) : (parameter method index).Stable := by
  refine (Stable.methodNode method).bind fun node => ?_
  cases node.parameters[index]? with
  | some p => exact .pure p
  | none => exact .refuse _

/-- The length of an array is stable although its slots are not. -/
theorem arrayLength_stable (array : Handle) :
    (do pure (word32 (← arrayItems array).length) : Access Nat).Stable := by
  rw [arrayItems, bind_assoc]
  refine .objectNode array (fun o => ?_) fun _ _ _ hlen => ?_
  · cases o with
    | array _ items => exact .pure _
    | _ => exact .refuse _
  · simp only [pure_bind, hlen]

end Access

open Access in
theorem Vm.answer_stable {c : Call r} (hc : c.isStable = true) : (answer c).Stable := by
  cases c with
  | pointerSize => exact .catalog Catalog.pointerSize
  | moduleBase => exact .catalog Catalog.moduleBase
  | vmVersion => exact .catalog Catalog.vmVersion
  | domainGet => exact .catalog Catalog.domain
  | corlib => exact .catalog Catalog.corlib
  | domainAssemblies domain => exact domainAssemblies_stable domain
  | assemblyImage assembly => exact assemblyImage_stable assembly
  | imageName h | imageClassCount h => exact (Stable.imageNode h).bind fun _ => .pure _
  | imageClassStart image => exact imageClassStart_stable image
  | imageGetClass image index => exact imageGetClass_stable image index
  | classFromName image namespace_ name => exact classFromName_stable image namespace_ name
  | className h | classNamespace h | classImage h | classParent h | classDeclaringType h
  | classInterfaces h | classFields h | classMethods h | classType h | classFlags h
  | classIsValueType h | classIsEnum h | classIsInterface h | classIsGeneric h | classIsInflated h
  | classParameterCount h => exact (Stable.classNode h).bind fun _ => .pure _
  | typeName h | typeKind h | typeClass h => exact .typeNode h fun _ _ => rfl
  | fieldName h | fieldType h | fieldOffset h | fieldFlags h =>
      exact (Stable.fieldNode h).bind fun _ => .pure _
  | methodName h | methodClass h | methodReturnType h | methodFlags h | methodParameterCount h
  | methodIsGeneric h | methodIsInflated h | methodTypeParameterCount h =>
      exact (Stable.methodNode h).bind fun _ => .pure _
  | methodParameterName h index | methodParameterType h index =>
      exact (parameter_stable h index).bind fun _ => .pure _
  | methodPointer method => exact methodPointer_stable method
  | objectClass object => exact objectClass_stable object
  | stringChars string => exact stringChars_stable string
  | arrayLength array => exact arrayLength_stable array
  | _ => cases hc

open Access in
theorem Vm.answer_reads {c : Call r} (hc : c.isReading = true) : (answer c).Reads := by
  by_cases hs : c.isStable = true
  · exact (answer_stable hs).reads
  · cases c with
    | classFromType descriptor => exact classFromType_reads descriptor
    | arrayGet array index => exact arrayGet_reads array index
    | _ => exact absurd hc hs

end VmMetadata
