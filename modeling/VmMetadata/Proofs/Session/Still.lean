import VmMetadata.Dump.Content
import VmMetadata.Inspect.Survey
import VmMetadata.Proofs.Machine.Answer
import VmMetadata.Proofs.Session.Gathers
import VmMetadata.Proofs.Session.Moves

/-!
Queries that leave the arena alone. They write notes, and they may write into scratch memory, but
they make no object and change none, whatever calls are spoiled. Main statements: a survey leaves
the arena as it is, and so does a dump of classes.
-/

namespace VmMetadata

/-- A call that neither makes an object nor changes one. -/
def Call.isStill : Call r → Bool
  | .alloc _ | .writeBytes _ _ => true
  | c => c.isReading

namespace Access

/-- The computation leaves the arena of the machine as it is. -/
def Stays (x : Access α) (v : Vm) : Prop :=
  match x v with
  | .ok _ w => w.arena = v.arena
  | .error _ w => w.arena = v.arena

theorem Reads.stays {x : Access α} (hx : x.Reads) (v : Vm) : x.Stays v := by
  obtain ⟨r, hr⟩ := hx v
  unfold Stays
  rw [hr]
  cases r <;> rfl

theorem writeBytes_stays (at_ : Handle) (bytes : List UInt8) (v : Vm) :
    (writeBytes at_ bytes).Stays v := by
  unfold Stays writeBytes
  rw [get_bind_apply]
  cases v.scratch.write at_ bytes <;> rfl

end Access

theorem Vm.answer_stays {c : Call r} (hc : c.isStill = true) (v : Vm) : (Vm.answer c).Stays v := by
  by_cases hreads : c.isReading = true
  · exact (answer_reads hreads).stays v
  · cases c with
    | alloc size => exact (rfl : v.arena = v.arena)
    | writeBytes at_ bytes => exact Access.writeBytes_stays at_ bytes v
    | _ => exact absurd hc hreads

/-- The arena is the same in both sessions. -/
abbrev Session.SameArena (s t : Session) : Prop :=
  t.vm.arena = s.vm.arena

instance : Session.IgnoresNotes Session.SameArena where
  noted := fun _ _ => rfl
  trans := fun hst htu => htu.trans hst

/-- The query leaves the arena as it is, whether it fails or not. -/
def Query.Still (x : Query α) : Prop :=
  ∀ s, (x.leaves s).vm.arena = s.vm.arena

namespace Query.Still

variable {x : Query α}

theorem pure (a : α) : Still (Pure.pure a) :=
  Moves.pure (R := Session.SameArena) a

theorem throw (e : Error) : Still (MonadExcept.throw e : Query α) :=
  Moves.throw (R := Session.SameArena) e

theorem bind {f : α → Query β} (hx : x.Still) (hf : ∀ a, (f a).Still) : (x >>= f).Still :=
  Moves.bind (R := Session.SameArena) hx hf

theorem map (hx : x.Still) (f : α → β) : (f <$> x).Still :=
  Moves.map (R := Session.SameArena) hx f

theorem get {f : Session → Query α} (hf : ∀ s, (f s).Still) : Still (MonadState.get >>= f) :=
  Moves.get (R := Session.SameArena) hf

theorem lift (r : Except Error α) : (Query.lift r).Still :=
  Moves.lift (R := Session.SameArena) r

theorem ask {c : Call r} (hc : c.isStill = true) : (Query.ask c).Still := by
  intro s
  obtain ⟨p, -, ⟨result, -, hrun, -⟩ | hrun⟩ := ask_cases c s
  · have hleaves : (Query.ask c).leaves s = (Query.lift result).leaves { s with probe := p } := by
      unfold leaves
      rw [hrun]
    rw [hleaves, lift]
  · have hstill := Vm.answer_stays hc s.vm
    unfold Access.Stays at hstill
    rw [access_apply] at hrun
    cases hanswer : Vm.answer c s.vm with
    | ok a w =>
        rw [hanswer] at hrun hstill
        rw [leaves_of_ok hrun]
        exact hstill
    | error e w =>
        rw [hanswer] at hrun hstill
        rw [leaves_of_error hrun]
        exact hstill

theorem remember {page : Nat} {f : Fact} {find : Query f.Value} (hfind : find.Still) :
    (Query.remember page f find).Still :=
  Moves.remember (R := Session.SameArena) hfind

theorem view (e : Entity) (h : Handle) : (Query.view e h).Still :=
  Moves.view (R := Session.SameArena) e h

theorem viewAny (e : Entity) (h : Handle) : (Query.view? e h).Still :=
  Moves.viewAny (R := Session.SameArena) e h

theorem mapM {f : α → Query β} (hf : ∀ a, (f a).Still) (as : List α) : (as.mapM f).Still :=
  Moves.mapM (R := Session.SameArena) hf as

theorem foldlM {f : β → α → Query β} (hf : ∀ b a, (f b a).Still) (as : List α) (b : β) :
    (as.foldlM f b).Still :=
  Moves.foldlM (R := Session.SameArena) hf as b

/-- A noted answer. -/
theorem note {page : Nat} {f : Fact} {c : Call r} (hc : c.isStill = true)
    {g : r.Value → Query f.Value} (hg : ∀ a, (g a).Still) :
    (Query.remember page f (Query.ask c >>= g)).Still :=
  .remember ((ask hc).bind hg)

end Query.Still

open Query (Still)

/-! ## Getters -/

namespace TypeView

variable (t : TypeView)

theorem name_still : t.name.Still :=
  .remember (.ask rfl)

theorem kind_still : t.kind.Still :=
  .remember (Still.map (.ask (c := .typeKind t.handle) rfl) TypeKind.ofTag)

theorem class?_still : t.class?.Still := by
  refine .bind (.remember (Still.map (.ask (c := .typeClass t.handle) rfl) Handle.nonNull?))
    fun h? => ?_
  cases h? with
  | none => exact .pure none
  | some h => exact .map (.view _ h) some

theorem survey_still : t.survey.Still :=
  (class?_still t).bind fun _ => (name_still t).bind fun _ => (kind_still t).bind fun _ => .pure _

end TypeView

namespace Field

variable (f : Field)

theorem name_still : f.name.Still :=
  .remember (.ask rfl)

theorem type_still : f.type.Still :=
  .note rfl (.view _)

theorem offset_still : f.offset.Still :=
  .remember (.ask rfl)

theorem flags_still : f.flags.Still :=
  .remember (.ask rfl)

theorem survey_still : f.survey.Still :=
  (name_still f).bind fun _ => (type_still f).bind fun t => (TypeView.survey_still t).bind fun _ =>
    (offset_still f).bind fun _ => (flags_still f).bind fun _ => .pure _

theorem declaration_still : f.declaration.Still := by
  have hflag (bit : UInt32) : Still (do Pure.pure ((← f.flags) &&& bit != 0)) :=
    (flags_still f).bind fun _ => .pure _
  have hmodifiers : f.modifiers.Still := by
    refine (hflag _).bind fun isLiteral => ?_
    cases isLiteral with
    | true => exact .pure _
    | false => exact (hflag _).bind fun _ => (hflag _).bind fun _ => .pure _
  have hplace : f.place.Still := by
    refine (hflag _).bind fun isLiteral => ?_
    cases isLiteral with
    | true => exact .pure _
    | false => exact (offset_still f).bind fun _ => .pure _
  exact hmodifiers.bind fun _ => (type_still f).bind fun t => (TypeView.name_still t).bind fun _ =>
    (name_still f).bind fun _ => hplace.bind fun _ => .pure _

end Field

namespace Method

variable (m : Method)

theorem name_still : m.name.Still :=
  .remember (.ask rfl)

theorem returnType_still : m.returnType.Still :=
  .note rfl (.view _)

theorem readParameters_still : ∀ count position : Nat, (m.readParameters position count).Still
  | 0, _ => .pure []
  | count + 1, position => .bind (.ask rfl) fun _ => .bind (.ask rfl) fun _ =>
      .bind (.view _ _) fun _ => (readParameters_still count (position + 1)).bind fun _ => .pure _

theorem parameters_still : m.parameters.Still :=
  .note rfl fun count => readParameters_still m count 0

theorem flags_still : m.flags.Still :=
  .remember (.ask rfl)

theorem isGeneric_still : m.isGeneric.Still :=
  .remember (.ask rfl)

theorem isInflated_still : m.isInflated.Still :=
  .remember (.ask rfl)

theorem typeParameterCount_still : m.typeParameterCount.Still :=
  .remember (.ask rfl)

theorem addressToken_still : m.addressToken?.Still := by
  refine .bind (.bind (.remember (.ask rfl)) fun _ => .pure _) fun address? => ?_
  cases address? with
  | none => exact .pure none
  | some address =>
      refine .bind (.ask rfl) fun base => ?_
      cases relativeTo? base address with
      | some offset => exact .pure _
      | none => exact .bind (.ask rfl) fun _ => .pure _

theorem survey_still : m.survey.Still := by
  have hparameter (p : Parameter) : Still (do Pure.pure (p.name, ← p.type.survey)) :=
    (TypeView.survey_still p.type).bind fun _ => .pure _
  exact (parameters_still m).bind fun ps => (Still.mapM hparameter ps).bind fun _ =>
    (name_still m).bind fun _ => (returnType_still m).bind fun t =>
    (TypeView.survey_still t).bind fun _ => (flags_still m).bind fun _ =>
    (isGeneric_still m).bind fun _ => (typeParameterCount_still m).bind fun _ =>
    (isInflated_still m).bind fun _ => (addressToken_still m).bind fun _ => .pure _

theorem declaration_still : m.declaration.Still := by
  have hflag (bit : UInt32) : Still (do Pure.pure ((← m.flags) &&& bit != 0)) :=
    (flags_still m).bind fun _ => .pure _
  have hdispatch : m.dispatch.Still := by
    refine (hflag _).bind fun isAbstract => ?_
    cases isAbstract with
    | true => exact .pure _
    | false => exact (hflag _).bind fun _ => .pure _
  have hown : m.ownParameters.Still := by
    refine (isGeneric_still m).bind fun isGeneric => ?_
    cases isGeneric with
    | true => exact (typeParameterCount_still m).bind fun _ => .pure _
    | false => exact .pure _
  have hplace : m.place.Still := by
    refine (addressToken_still m).bind fun token? => ?_
    cases token? <;> exact .pure _
  have hparameter (p : Parameter) : p.text.Still :=
    (TypeView.name_still p.type).bind fun _ => .pure _
  exact (hflag _).bind fun _ => hdispatch.bind fun _ => (returnType_still m).bind fun t =>
    (TypeView.name_still t).bind fun _ => (name_still m).bind fun _ => hown.bind fun _ =>
    (parameters_still m).bind fun ps => (Still.mapM hparameter ps).bind fun _ =>
    hplace.bind fun _ => .pure _

end Method

theorem Image.name_still (i : Image) : i.name.Still :=
  .remember (.ask rfl)

namespace Class

variable (c : Class)

theorem name_still : c.name.Still :=
  .remember (.ask rfl)

theorem namespace_still : c.namespace_.Still :=
  .remember (.ask rfl)

theorem type_still : c.type.Still :=
  .note rfl (.view _)

theorem typeName_still : c.typeName.Still :=
  (type_still c).bind fun t => TypeView.name_still t

theorem image_still : c.image.Still :=
  .note rfl (.view _)

theorem assemblyName_still : c.assemblyName.Still :=
  (image_still c).bind fun i => (Image.name_still i).bind fun _ => .pure _

theorem parent_still : c.parent.Still :=
  .note rfl (.viewAny _)

theorem declaringClass_still : c.declaringClass.Still :=
  .note rfl (.viewAny _)

theorem interfaces_still : c.interfaces.Still :=
  .note rfl (.mapM (.view _))

theorem fields_still : c.fields.Still :=
  .note rfl (.mapM (.view _))

theorem methods_still : c.methods.Still :=
  .note rfl (.mapM (.view _))

theorem flags_still : c.flags.Still :=
  .remember (.ask rfl)

theorem kind_still : c.kind.Still := by
  refine .note rfl fun isInterface => ?_
  cases isInterface with
  | true => exact .pure _
  | false =>
      refine .bind (.ask rfl) fun isEnum => ?_
      cases isEnum with
      | true => exact .pure _
      | false =>
          refine .bind (.ask rfl) fun isValueType => ?_
          cases isValueType <;> exact .pure _

theorem isGeneric_still : c.isGeneric.Still :=
  .remember (.ask rfl)

theorem typeParameterCount_still : c.typeParameterCount.Still :=
  .remember (.ask rfl)

theorem survey_still : c.survey.Still :=
  (fields_still c).bind fun fs => (Still.mapM Field.survey_still fs).bind fun _ =>
    (methods_still c).bind fun ms => (Still.mapM Method.survey_still ms).bind fun _ =>
    (name_still c).bind fun _ => (namespace_still c).bind fun _ => (type_still c).bind fun t =>
    (TypeView.survey_still t).bind fun _ => (assemblyName_still c).bind fun _ =>
    (parent_still c).bind fun _ => (declaringClass_still c).bind fun _ =>
    (interfaces_still c).bind fun _ => (flags_still c).bind fun _ => (kind_still c).bind fun _ =>
    (isGeneric_still c).bind fun _ => (typeParameterCount_still c).bind fun _ => .pure _

theorem declaration_still : c.declaration.Still := by
  have hflag (bit : UInt32) : Still (do Pure.pure ((← c.flags) &&& bit != 0)) :=
    (flags_still c).bind fun _ => .pure _
  have hmodifiers (kind : ClassKind) : (c.modifierText kind).Still := by
    unfold modifierText
    split
    · exact (hflag _).bind fun _ => (hflag _).bind fun _ => .pure _
    · exact .pure _
  have hparent (kind : ClassKind) : (c.parentName kind).Still := by
    refine (parent_still c).bind fun p? => ?_
    cases p? with
    | none => exact .pure _
    | some p =>
        by_cases hkind : kind = .class_
        · simp only [if_pos hkind]
          exact (typeName_still p).bind fun _ => .pure _
        · simp only [if_neg hkind]
          exact .pure _
  have hinherited (kind : ClassKind) : (c.inherited kind).Still :=
    (hparent kind).bind fun _ => (interfaces_still c).bind fun is =>
      (Still.mapM typeName_still is).bind fun _ => .pure _
  exact (kind_still c).bind fun kind => (image_still c).bind fun i => (Image.name_still i).bind
    fun _ => (hmodifiers kind).bind fun _ => (typeName_still c).bind fun _ =>
    (hinherited kind).bind fun _ => (fields_still c).bind fun fs =>
    (Still.mapM Field.declaration_still fs).bind fun _ => (methods_still c).bind fun ms =>
    (Still.mapM Method.declaration_still ms).bind fun _ => .pure _

end Class

namespace Image

variable (i : Image)

theorem classCount_still : i.classCount.Still :=
  .remember (.ask rfl)

theorem classStart_still : i.classStart.Still :=
  .remember (.ask rfl)

theorem mismatch_still (layout : String) (index : Nat) :
    (i.mismatch layout index : Query α).Still :=
  (name_still i).bind fun _ => .throw _

theorem classAt_still (layout : String) (index : Nat) (h : Handle) :
    (i.classAt layout index h).Still := by
  unfold classAt
  split
  · exact mismatch_still i layout index
  · exact .view _ h

theorem classesFrom_still {find : Nat → Query Class} (hfind : ∀ index, (find index).Still) :
    ∀ count index : Nat, (classesFrom find index count).Still
  | 0, _ => .pure []
  | count + 1, index => (hfind index).bind fun _ =>
      (classesFrom_still hfind count (index + 1)).bind fun _ => .pure _

theorem descriptor_still : Query.descriptor.Still := by
  refine .get fun s => .bind (.ask rfl) fun pointerSize => .bind (.lift _) fun size => ?_
  have hnote : Still (Query.remember Notebook.front .descriptor do
      Query.lift ((← Query.ask (.alloc size)).require "descriptor")) :=
    .note rfl fun _ => .lift _
  by_cases hsize : size = 0
  · simp only [hsize, if_true]
    exact .bind (.throw _) fun _ => hsize ▸ hnote
  · simp only [hsize, if_false]
    exact hnote

theorem classes_still : i.classes.Still := by
  refine .remember (.get fun s => ?_)
  cases s.layout with
  | current =>
      have hfind (index : Nat) :
          Still (do i.classAt "current" index (← Query.ask (.imageGetClass i.handle index))) :=
        .bind (.ask rfl) fun h => classAt_still i "current" index h
      exact (classCount_still i).bind fun count => classesFrom_still hfind count 0
  | legacy offset =>
      have hfind (d : Handle) (bytes : Nat → List UInt8) (index : Nat) :
          (i.windowClass d bytes index).Still :=
        .bind (.ask rfl) fun _ => .bind (.ask rfl) fun h => classAt_still i "legacy" index h
      refine .bind (.ask rfl) fun pointerSize => (classStart_still i).bind fun start =>
        (classCount_still i).bind fun count => descriptor_still.bind fun d => .get fun s =>
        .bind (.lift _) fun size => ?_
      by_cases hend : start + count < 0x1_0000_0000
      · simp only [if_pos hend]
        exact classesFrom_still (hfind d _) count start
      · simp only [if_neg hend]
        exact mismatch_still i "legacy" start

theorem classesByName_still : i.classesByName.Still :=
  .remember ((classes_still i).bind fun cs => .foldlM (fun _ c =>
    (Class.typeName_still c).bind fun _ => .pure _) cs _)

end Image

namespace Assembly

variable (a : Assembly)

theorem image_still : a.image.Still :=
  .note rfl (.view _)

theorem name_still : a.name.Still :=
  .remember ((image_still a).bind fun i => (Image.name_still i).bind fun _ => .pure _)

theorem survey_still : a.survey.Still :=
  (image_still a).bind fun i => (Image.classes_still i).bind fun cs =>
    (Still.mapM Class.survey_still cs).bind fun _ => (name_still a).bind fun _ =>
    (Image.name_still i).bind fun _ => (Image.classStart_still i).bind fun _ =>
    (Image.classCount_still i).bind fun _ => .pure _

end Assembly

theorem assemblies_still : Still (do (← Query.domain).assemblies) :=
  .bind (.bind (.ask rfl) (.view _)) fun _ => .note rfl (.mapM (.view _))

/-! ## Dumps -/

/-- The computation, which does not fail, leaves the arena as it is. -/
def Stills (x : StateM Session α) : Prop :=
  ∀ s, (x s).2.vm.arena = s.vm.arena

namespace Stills

theorem pure (a : α) : Stills (Pure.pure a) :=
  fun _ => rfl

theorem bind {x : StateM Session α} {f : α → StateM Session β} (hx : Stills x)
    (hf : ∀ a, Stills (f a)) : Stills (x >>= f) :=
  fun s => (hf (x s).1 (x s).2).trans (hx s)

theorem attempt {x : Query α} (hx : x.Still) : Stills x.attempt := by
  intro s
  have hleaves := hx s
  unfold Query.leaves at hleaves
  unfold Query.attempt
  cases hrun : x s with
  | ok a t | error e t =>
      rw [hrun] at hleaves
      exact hleaves

theorem andThen (first : Pulled) {rest : Patience → StateM Session Pulled}
    (hrest : ∀ left, Stills (rest left)) : Stills (first.andThen rest) := by
  unfold Pulled.andThen
  cases first.patience with
  | none => exact .pure first
  | some left => exact (hrest left).bind fun _ => .pure _

end Stills

theorem pullClasses_stills : ∀ (cs : List Class) (p : Patience), Stills (pullClasses .classes cs p)
  | [], _ => .pure _
  | c :: rest, _ => by
      refine .bind (.bind (.attempt ?_) fun _ => .pure _) fun items =>
        .andThen _ (pullClasses_stills rest)
      exact (Class.declaration_still c).bind fun _ => .pure _

theorem pullAssembly_stills (a : Assembly) (p : Patience) : Stills (pullAssembly .classes a p) := by
  refine .bind (.attempt (Assembly.name_still a)) fun name? => ?_
  cases name? with
  | error e => exact .pure _
  | ok name =>
      have hclasses : Still (do (← a.image).classes) :=
        (Assembly.image_still a).bind fun i => Image.classes_still i
      refine .bind (.attempt hclasses) fun classes? => ?_
      cases classes? with
      | error e => exact .bind (.pure _) fun _ => .pure _
      | ok classes => exact .bind (pullClasses_stills classes p) fun _ => .pure _

theorem pullAssemblies_stills : ∀ (as : List Assembly) (p : Patience),
    Stills (pullAssemblies .classes as p)
  | [], _ => .pure _
  | a :: rest, p => .bind (pullAssembly_stills a p) fun _ =>
      .andThen _ (pullAssemblies_stills rest)

/-- A dump of classes leaves the arena as it is. -/
theorem pullDump_stills (p : Patience) : Stills (pullDump .classes p) := by
  refine .bind (.attempt assemblies_still) fun as? => ?_
  split
  · exact .pure _
  · cases as? with
    | error e => exact .pure _
    | ok as => exact pullAssemblies_stills as p

end VmMetadata
