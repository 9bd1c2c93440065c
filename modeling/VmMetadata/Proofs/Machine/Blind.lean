import VmMetadata.Proofs.Machine.Reading

/-!
Machines that differ in their build alone. A blind computation does not look at the build or at
scratch memory: it does the same to machines that differ in nothing else. Main statement: all calls
are blind but those by which a build shows itself and those that use scratch memory.
-/

namespace VmMetadata

namespace Vm

/-- The machine with another build and other scratch memory. -/
def disguised (vm : Vm) (vmVersion : String) (isLegacy : Bool) (scratch : Scratch) : Vm :=
  { vm with vmVersion, isLegacy, scratch }

/-- The machines differ in their build and their scratch memory alone. -/
def Alike (v w : Vm) : Prop :=
  w = v.disguised w.vmVersion w.isLegacy w.scratch

namespace Alike

theorem refl (v : Vm) : v.Alike v := rfl

theorem symm {v w : Vm} (h : v.Alike w) : w.Alike v := by
  unfold Alike at h ⊢
  rw [h]
  rfl

theorem trans {v w x : Vm} (hvw : v.Alike w) (hwx : w.Alike x) : v.Alike x := by
  unfold Alike at hvw hwx ⊢
  rw [hwx, hvw]
  rfl

variable {v w : Vm} (h : v.Alike w)
include h

theorem arena : w.arena = v.arena := by
  rw [h]
  rfl

theorem corlib : w.corlib = v.corlib := by
  rw [h]
  rfl

theorem globalClasses : w.globalClasses = v.globalClasses := by
  rw [h]
  rfl

end Alike

end Vm

namespace Access

/-- The computation does the same to machines in disguise. -/
def Blind (x : Access α) : Prop :=
  ∀ (vm : Vm) (version : String) (isLegacy : Bool) (scratch : Scratch),
    x (vm.disguised version isLegacy scratch) = match x vm with
      | .ok a w => .ok a (w.disguised version isLegacy scratch)
      | .error e w => .error e (w.disguised version isLegacy scratch)

namespace Blind

theorem pure (a : α) : (Pure.pure a : Access α).Blind :=
  fun _ _ _ _ => rfl

theorem throw (e : Error) : (MonadExcept.throw e : Access α).Blind :=
  fun _ _ _ _ => rfl

theorem refuse (r : Refusal) : (Access.refuse r : Access α).Blind :=
  .throw (.accessor r)

theorem bind {x : Access α} {f : α → Access β} (hx : x.Blind) (hf : ∀ a, (f a).Blind) :
    (x >>= f).Blind := by
  intro vm version isLegacy scratch
  have hx := hx vm version isLegacy scratch
  cases hrun : x vm with
  | ok a w =>
      rw [hrun] at hx
      rw [bind_ok hx, bind_ok hrun]
      exact hf a w version isLegacy scratch
  | error e w =>
      rw [hrun] at hx
      rw [bind_error hx, bind_error hrun]

theorem mapM {f : α → Access β} (hf : ∀ a, (f a).Blind) : ∀ as : List α, (as.mapM f).Blind
  | [] => by
      rw [List.mapM_nil]
      exact .pure []
  | a :: as => by
      rw [List.mapM_cons]
      exact (hf a).bind fun b => (mapM hf as).bind fun bs => .pure (b :: bs)

/-- A look-up is blind if the disguise does not change what is found. -/
theorem lift_node {f : Vm → Except Error α}
    (hf : ∀ vm version isLegacy scratch, f (vm.disguised version isLegacy scratch) = f vm) :
    Blind (fun vm => Access.lift (f vm) vm) := by
  intro vm version isLegacy scratch
  simp only [hf]
  cases f vm <;> rfl

theorem read {f : Vm → α}
    (hf : ∀ vm version isLegacy scratch, f (vm.disguised version isLegacy scratch) = f vm) :
    (Access.read f).Blind := by
  intro vm version isLegacy scratch
  simp only [Access.read, hf]

theorem update {f : Vm → Vm} (hf : ∀ vm version isLegacy scratch,
    f (vm.disguised version isLegacy scratch) = (f vm).disguised version isLegacy scratch) :
    (modify f : Access Unit).Blind := by
  intro vm version isLegacy scratch
  change EStateM.Result.ok () (f _) = EStateM.Result.ok () _
  rw [hf]

theorem imageNode (h : Handle) : (imageNode h).Blind :=
  lift_node fun _ _ _ _ => rfl

theorem classNode (h : Handle) : (classNode h).Blind :=
  lift_node fun _ _ _ _ => rfl

theorem typeNode (h : Handle) : (typeNode h).Blind :=
  lift_node fun _ _ _ _ => rfl

theorem fieldNode (h : Handle) : (fieldNode h).Blind :=
  lift_node fun _ _ _ _ => rfl

theorem methodNode (h : Handle) : (methodNode h).Blind :=
  lift_node fun _ _ _ _ => rfl

theorem objectNode (h : Handle) : (objectNode h).Blind :=
  lift_node fun _ _ _ _ => rfl

theorem push (node : Node) : (push node).Blind :=
  fun _ _ _ _ => rfl

theorem set (h : Handle) (node : Node) : (set h node).Blind :=
  fun _ _ _ _ => rfl

theorem substitute (cls method : Substitution) (type : Handle) :
    (substitute cls method type).Blind :=
  read fun _ _ _ _ => rfl

theorem substituteParameters (cls method : Substitution) (ps : List (String × Handle)) :
    (substituteParameters cls method ps).Blind :=
  mapM (fun _ => (substitute cls method _).bind fun _ => .pure _) ps

theorem typeNames (types : List Handle) : (typeNames types).Blind :=
  mapM (fun t => (typeNode t).bind fun _ => .pure _) types

theorem typeArguments (array : Handle) : (typeArguments array).Blind := by
  refine (objectNode array).bind fun o => ?_
  cases o with
  | array _ items =>
      refine mapM (fun i => (objectNode i).bind fun o => ?_) items
      cases o with
      | typeObject t => exact .pure t
      | _ => exact .refuse _
  | _ => exact .refuse _

theorem typeObject (type : Handle) : (typeObject type).Blind := by
  refine (typeNode type).bind fun node => ?_
  split
  · exact (push _).bind fun _ => (set type _).bind fun _ => .pure _
  · exact .pure _

theorem invoke (method : Handle) : (invoke method).Blind := by
  refine (methodNode method).bind fun node => ?_
  cases node.result with
  | some value => exact push _
  | none => exact .pure _

theorem objectClass (object : Handle) : (objectClass object).Blind := by
  refine (objectNode object).bind fun o => ?_
  cases o with
  | array elementClass _ => exact .pure _
  | _ => exact read fun _ _ _ _ => rfl

theorem stringChars (string : Handle) : (stringChars string).Blind := by
  refine (objectNode string).bind fun o => ?_
  cases o with
  | string value => exact .pure _
  | _ => exact .refuse _

theorem arrayNew (elementClass : Handle) (length : Nat) : (arrayNew elementClass length).Blind :=
  (classNode elementClass).bind fun _ => push _

theorem arrayItems (array : Handle) : (arrayItems array).Blind := by
  refine (objectNode array).bind fun o => ?_
  cases o with
  | array _ items => exact .pure _
  | _ => exact .refuse _

theorem arrayGet (array : Handle) (index : Nat) : (arrayGet array index).Blind := by
  refine (arrayItems array).bind fun items => ?_
  cases items[index]? with
  | some item => exact .pure _
  | none => exact .refuse _

theorem arraySet (array : Handle) (index : Nat) (value : Handle) :
    (arraySet array index value).Blind := by
  refine (objectNode array).bind fun o => ?_
  cases o with
  | array elementClass items =>
      by_cases h : index < items.length
      · simp only [if_pos h]
        exact set array _
      · simp only [if_neg h]
        exact .refuse _
  | _ => exact .refuse _

theorem parameter (method : Handle) (index : Nat) : (parameter method index).Blind := by
  refine (methodNode method).bind fun node => ?_
  cases node.parameters[index]? with
  | some p => exact .pure _
  | none => exact .refuse _

theorem methodPointer (method : Handle) : (methodPointer method).Blind :=
  (methodNode method).bind fun node => (classNode node.class).bind fun _ => .pure _

theorem closeField (σ : Substitution) (field : Handle) : (closeField σ field).Blind :=
  (fieldNode field).bind fun _ => (substitute _ _ _).bind fun _ => push _

theorem closeMethod (inflated : Handle) (σ : Substitution) (method : Handle) :
    (closeMethod inflated σ method).Blind :=
  (methodNode method).bind fun _ => (substitute _ _ _).bind fun _ =>
    (substituteParameters _ _ _).bind fun _ => push _

theorem closeClass (cls : Handle) (definition : ClassNode) (arguments : List Handle) :
    (closeClass cls definition arguments).Blind :=
  (typeNames arguments).bind fun _ => (push _).bind fun _ => (push _).bind fun _ =>
    (mapM (closeField _) _).bind fun _ => (mapM (closeMethod _ _) _).bind fun _ =>
    (classNode _).bind fun _ => (set _ _).bind fun _ => .pure _

theorem inflateClass (cls array : Handle) : (inflateClass cls array).Blind := by
  refine (typeArguments array).bind fun arguments => ?_
  refine Blind.bind (read fun _ _ _ _ => rfl) fun known => ?_
  cases Instance.find? cls arguments known with
  | some result => exact .pure _
  | none =>
      refine (classNode cls).bind fun definition => ?_
      split
      · exact .refuse _
      · split
        · exact .refuse _
        · exact (closeClass cls definition arguments).bind fun _ =>
            (update fun _ _ _ _ => rfl).bind fun _ => .pure _

theorem pushMethodInstance (method : Handle) (arguments : List Handle) (address : Option Nat) :
    (pushMethodInstance method arguments address).Blind :=
  (methodNode method).bind fun _ => (substitute _ _ _).bind fun _ =>
    (substituteParameters _ _ _).bind fun _ => push _

theorem findInflatedMethod (method array : Handle) : (findInflatedMethod method array).Blind := by
  refine (typeArguments array).bind fun arguments => ?_
  refine Blind.bind (read fun _ _ _ _ => rfl) fun known => ?_
  cases Instance.find? method arguments known with
  | some result => exact .pure _
  | none =>
      refine (typeNames arguments).bind fun names => (methodNode method).bind fun node => ?_
      cases compiledAddress? names node.instantiations with
      | none => exact .pure _
      | some address =>
          exact (pushMethodInstance method arguments (some address)).bind fun _ =>
            (update fun _ _ _ _ => rfl).bind fun _ => .pure _

theorem inflateMethodRaw (method array : Handle) : (inflateMethodRaw method array).Blind := by
  refine (typeArguments array).bind fun arguments => (methodNode method).bind fun node => ?_
  split
  · exact .refuse _
  · exact pushMethodInstance method arguments node.address

theorem domainAssemblies (domain : Handle) : (domainAssemblies domain).Blind := by
  refine Blind.bind (read fun _ _ _ _ => rfl) fun d => ?_
  split
  · exact read fun _ _ _ _ => rfl
  · exact .refuse _

end Blind

end Access

/-- The build does not show in the answer, nor does scratch memory. -/
def Call.isBlind : Call r → Bool
  | .vmVersion | .alloc _ | .writeBytes _ _ | .imageClassStart _ | .imageGetClass _ _
  | .classFromType _ => false
  | _ => true

open Access in
theorem Vm.answer_blind {c : Call r} (hc : c.isBlind = true) : (answer c).Blind := by
  cases c with
  | pointerSize | moduleBase | domainGet | corlib => exact .read fun _ _ _ _ => rfl
  | domainAssemblies domain => exact .domainAssemblies domain
  | assemblyImage assembly => exact .lift_node fun _ _ _ _ => rfl
  | imageName h | imageClassCount h => exact (Blind.imageNode h).bind fun _ => .pure _
  | classFromName image namespace_ name => exact .lift_node fun _ _ _ _ => rfl
  | className h | classNamespace h | classImage h | classParent h | classDeclaringType h
  | classInterfaces h | classFields h | classMethods h | classType h | classFlags h
  | classIsValueType h | classIsEnum h | classIsInterface h | classIsGeneric h | classIsInflated h
  | classParameterCount h => exact (Blind.classNode h).bind fun _ => .pure _
  | typeName h | typeKind h | typeClass h => exact (Blind.typeNode h).bind fun _ => .pure _
  | typeObject h => exact .typeObject h
  | fieldName h | fieldType h | fieldOffset h | fieldFlags h =>
      exact (Blind.fieldNode h).bind fun _ => .pure _
  | methodName h | methodClass h | methodReturnType h | methodFlags h | methodParameterCount h
  | methodIsGeneric h | methodIsInflated h | methodTypeParameterCount h =>
      exact (Blind.methodNode h).bind fun _ => .pure _
  | methodParameterName h index | methodParameterType h index =>
      exact (Blind.parameter h index).bind fun _ => .pure _
  | methodPointer method => exact .methodPointer method
  | methodInvoke method _ _ => exact .invoke method
  | objectClass object => exact .objectClass object
  | stringChars string => exact .stringChars string
  | arrayNew elementClass length => exact .arrayNew elementClass length
  | arrayLength array => exact (Blind.arrayItems array).bind fun _ => .pure _
  | arrayGet array index => exact .arrayGet array index
  | arraySet array index value => exact .arraySet array index value
  | classInflate cls arguments => exact .inflateClass cls arguments
  | methodFindInflated method arguments => exact .findInflatedMethod method arguments
  | methodInflateRaw method arguments => exact .inflateMethodRaw method arguments
  | _ => cases hc

end VmMetadata
