import VmMetadata.Proofs.Session.ReadOnce
import VmMetadata.Proofs.Session.SteadyListing

/-!
Failures that pass leave nothing wrong behind. A client asks for what can be read without making
anything in the machine, while calls fail, now these and now those, and are healed again. Main
statement: whatever it is told in the end is what a new view of the same object is told in a session
in which no call ever failed.
-/

namespace VmMetadata

open Query (Matches Steady Settled Retells)

namespace Query

/-- The getters that make nothing in the machine, with what it means that they answer the same: views
are the same if they show the same objects. -/
inductive Quiet : {e : Entity} → {α : Type} → (View e → Query α) → (α → α → Prop) → Prop
  /-- Whatever is noted of an object, but for the reflection object of a type. -/
  | fact {f : Fact} (about : f.subject = some e) (quiet : f ≠ .typeObject) :
      Quiet (fun v : View e => f.getter v.handle v.page) f.Same
  | typeClass : Quiet TypeView.class? fun c? d? => c?.map View.handle = d?.map View.handle
  | assembly (name : String) :
      Quiet (Domain.assembly? · name) fun a? b? => a?.map View.handle = b?.map View.handle
  | findClass (name : String) :
      Quiet (Domain.findClass · name) fun c? d? => c?.map View.handle = d?.map View.handle
  | classFromName (namespace_ name : String) : Quiet (Image.classFromName · namespace_ name)
      fun c? d? => c?.map View.handle = d?.map View.handle
  | method (name : String) (count : Option Nat) : Quiet (Class.method? · name count)
      fun m? n? => m?.map View.handle = n?.map View.handle
  | field (name : String) :
      Quiet (Class.field? · name) fun f? g? => f?.map View.handle = g?.map View.handle
  | classTypeName : Quiet Class.typeName Eq
  | classAssemblyName : Quiet Class.assemblyName Eq
  | classDeclaration : Quiet Class.declaration Eq
  | fieldDeclaration : Quiet Field.declaration Eq
  | methodDeclaration : Quiet Method.declaration Eq
  | virtualAddress : Quiet Method.virtualAddress Eq
  | relativeVirtualAddress : Quiet Method.relativeVirtualAddress Eq
  | addressToken : Quiet Method.addressToken? Eq
  /-- What follows from an answer, such as one of the flags. -/
  | derived {x : View e → Query α} (quiet : Quiet x Eq) (g : α → β) :
      Quiet (fun v => do pure (g (← x v))) Eq

end Query

namespace Session

/-- What a session becomes while a client reads, and calls fail or are healed. -/
inductive Calm (b : Session) : Session → Prop
  | start : Calm b b
  | domain {s : Session} (before : Calm b s) : Calm b (Query.domain.leaves s)
  | corlib {s : Session} (before : Calm b s) : Calm b (Query.corlib.leaves s)
  | rootClass {s : Session} (before : Calm b s) : Calm b (Query.rootClass.leaves s)
  | reflectionClass {s : Session} (before : Calm b s) : Calm b (Query.reflectionClass.leaves s)
  | view {s : Session} (before : Calm b s) (e : Entity) (h : Handle) :
      Calm b ((Query.view e h).leaves s)
  | get {s : Session} (before : Calm b s) {x : View e → Query α} {Same : α → α → Prop}
      (quiet : Query.Quiet x Same) {v : View e} (shown : s.Shows v) : Calm b ((x v).leaves s)
  /-- From now on some calls of the entry point fail. -/
  | fail {s : Session} (before : Calm b s) (entry : String) (passing : Nat)
      (remaining : Option Nat) (text : String) :
      Calm b { s with probe := s.probe.setFault entry ⟨passing, remaining, .fails text⟩ }
  | heal {s : Session} (before : Calm b s) : Calm b s.healed

end Session

variable {b s r : Session} (hb : b.Fresh)

section

include hb

/-- The getter of every fact about an object is steady. -/
theorem Fact.getter_retells {f : Fact} (about : f.subject = some e) (quiet : f ≠ .typeObject) :
    Retells b f fun v : View e => f.getter v.handle v.page := by
  cases f <;> cases about
  case typeObject => exact absurd rfl quiet
  case domainAssemblies => exact Domain.assemblies_retells hb
  case domainAssembliesByName => exact Domain.table_retells hb
  case assemblyImage => exact Assembly.image_retells hb
  case assemblyName => exact Assembly.name_retells hb
  case imageName => exact Image.name_retells hb
  case imageClassCount => exact Image.classCount_retells hb
  case imageClassStart => exact Image.classStart_retells hb
  case imageClasses => exact Image.classes_retells hb
  case imageClassesByName => exact Image.classesByName_retells hb
  case className => exact Class.name_retells hb
  case classNamespace => exact Class.namespace_retells hb
  case classImage => exact Class.image_retells hb
  case classParent => exact Class.parent_retells hb
  case classDeclaring => exact Class.declaringClass_retells hb
  case classInterfaces => exact Class.interfaces_retells hb
  case classFields => exact Class.fields_retells hb
  case classMethods => exact Class.methods_retells hb
  case classType => exact Class.type_retells hb
  case classFlags => exact Class.flags_retells hb
  case classKind => exact Class.kind_retells hb
  case classIsGeneric => exact Class.isGeneric_retells hb
  case classIsInflated => exact Class.isInflated_retells hb
  case classParameterCount => exact Class.typeParameterCount_retells hb
  case typeName => exact TypeView.name_retells hb
  case typeKind => exact TypeView.kind_retells hb
  case typeClass => exact TypeView.classNote_retells hb
  case fieldName => exact Field.name_retells hb
  case fieldType => exact Field.type_retells hb
  case fieldOffset => exact Field.offset_retells hb
  case fieldFlags => exact Field.flags_retells hb
  case methodName => exact Method.name_retells hb
  case methodClass => exact Method.class_retells hb
  case methodReturnType => exact Method.returnType_retells hb
  case methodParameters => exact Method.parameters_retells hb
  case methodFlags => exact Method.flags_retells hb
  case methodIsGeneric => exact Method.isGeneric_retells hb
  case methodIsInflated => exact Method.isInflated_retells hb
  case methodTypeParameterCount => exact Method.typeParameterCount_retells hb
  case methodPointer => exact Method.pointer_retells hb
  case objectClass => exact Object.classNote_retells hb
  case arrayLength => exact ArrayView.length_retells hb

theorem Query.Quiet.steady {x : View e → Query α} {Same : α → α → Prop} (h : Quiet x Same) :
    Steady b x fun _ _ a c => Same a c := by
  induction h with
  | fact about quiet => exact (Fact.getter_retells hb about quiet).same
  | typeClass => exact (TypeView.class?_reaches hb).handles
  | assembly name => exact (Domain.assembly?_reaches hb name).handles
  | findClass name => exact (Domain.findClass_reaches hb name).handles
  | classFromName namespace_ name => exact (Image.classFromName_reaches namespace_ name).handles
  | method name count => exact (Class.method?_reaches hb name count).handles
  | field name => exact (Class.field?_reaches hb name).handles
  | classTypeName => exact Class.typeName_settled hb
  | classAssemblyName => exact Class.assemblyName_settled hb
  | classDeclaration => exact Class.declaration_settled hb
  | fieldDeclaration => exact Field.declaration_settled hb
  | methodDeclaration => exact Method.declaration_settled hb
  | virtualAddress => exact Method.virtualAddress_settled hb
  | relativeVirtualAddress => exact Method.relativeVirtualAddress_settled hb
  | addressToken => exact Method.addressToken_settled hb
  | derived _ g ih => exact ih.map g

/-- Reading keeps a session faithful, and so do calls that fail. -/
theorem Session.Calm.faithful (h : b.Calm s) : b.Faithful s := by
  have beside {t : Session} (ht : b.Faithful t) : b.Beside t b := ⟨ht, hb.faithful, hb.faults⟩
  induction h with
  | start => exact hb.faithful
  | domain _ ih => exact (Matches.viewOf (beside ih) .domain (c := .domainGet) rfl).leaves
  | corlib _ ih => exact (Matches.viewOf (beside ih) .image (c := .corlib) rfl).leaves
  | rootClass _ ih => exact (Matches.rootClass hb (beside ih)).leaves
  | reflectionClass _ ih => exact (Matches.reflectionClass hb (beside ih)).leaves
  | view _ e h ih => exact (Matches.view (beside ih) e h).leaves
  | get _ quiet shown ih =>
      rename_i v
      exact (quiet.steady hb _ _ v ⟨v.handle, b.notebook.next⟩
        ⟨ih, hb.faithful.paged v.handle, hb.faults⟩
        ⟨shown, ⟨shown.1, b.shown?_paged v.handle⟩, rfl⟩).leaves
  | fail _ entry passing remaining text ih =>
      refine ih.renewed (fun x hx => ?_) ih.scratch
      rcases List.mem_cons.mp hx with rfl | hx
      · exact ⟨text, rfl⟩
      · exact ih.honest x (List.mem_filter.mp hx).1
  | heal _ ih => exact ih.renewed (Session.honest_of_faults_nil rfl) ih.scratch

end

/-- Whatever calls have failed in a session, and whatever was read in it, in part or in whole: an
answer that a getter gives about an object is the answer that it gives about a new view of the object
in a session on the same machine in which no call fails. -/
theorem Session.Calm.answers_as_new {snapshot : Snapshot} {vm : Vm} {config : Config}
    {b s r : Session} (hvm : Vm.ofSnapshot snapshot = .ok vm)
    (hattach : Session.attach vm config = .ok b) (hs : b.Calm s) (hr : b.Calm r)
    (clean : r.probe.faults = []) {e : Entity} {α : Type} {x : View e → Query α}
    {Same : α → α → Prop} (quiet : Query.Quiet x Same) {v : View e} (shown : s.Shows v) {a : α}
    {t : Session} (answered : x v s = .ok a t) :
    ∃ c u, (do x (← Query.view e v.handle)) r = .ok c u ∧ Same a c := by
  have hb := Session.fresh_of_attach hvm hattach
  have hright := (hr.faithful hb).paged v.handle
  obtain ⟨c, u, hrun, _, hsame⟩ := (quiet.steady hb s (r.paged v.handle) v
    ⟨v.handle, r.notebook.next⟩ ⟨hs.faithful hb, hright, clean⟩
    ⟨shown, ⟨shown.1, r.shown?_paged v.handle⟩, rfl⟩).of_ok answered
  exact ⟨c, u, (Query.bind_ok (Query.view_of_ne_null shown.1 e r)).trans hrun, hsame⟩

/-- The second class of the core library is not handed out once, so that a listing fails half-way;
then the image is listed, and it is listed just so in a session without failures. -/
theorem Session.Calm.answers_as_new_small :
    let b := Session.new Snapshot.small.machine ⟨2020, 3, 1, some "f1"⟩ .current
    let i : Image := ⟨Snapshot.small.corlibSite.image, 1⟩
    let s₁ := Query.corlib.leaves b
    let s := { s₁ with probe := s₁.probe.setFault "image_get_class" ⟨1, some 1, .fails "lost"⟩ }
    let t := i.classes.leaves s
    Session.attach Snapshot.small.machine = .ok b ∧ (∃ e, i.classes s = .error e t) ∧
      ∃ cs u, i.classes t = .ok cs u ∧ ∃ ds w,
        (do Image.classes (← Query.view .image i.handle)) b = .ok ds w ∧
          cs.map View.handle = ds.map View.handle ∧ cs.length = 2 := by
  intro b i s₁ s t
  have hvm : Vm.ofSnapshot Snapshot.small = .ok Snapshot.small.machine :=
    Vm.ofSnapshot_machine (Or.inr rfl)
  have hattach : Session.attach Snapshot.small.machine = .ok b :=
    Session.attach_eq_ok.mpr ⟨_, _, by decide +kernel, rfl⟩
  have hshows : t.Shows i := ⟨by decide +kernel, by decide +kernel⟩
  have hcalm : b.Calm t := .get (.fail (.corlib .start) _ _ _ _)
    (.fact (f := .imageClasses) rfl (by decide)) (v := i) ⟨hshows.1, by decide +kernel⟩
  have hfails : (match i.classes s with | .ok _ _ => false | .error _ _ => true) = true := by
    decide +kernel
  have hlists : (match i.classes t with | .ok cs _ => cs.length | .error _ _ => 0) = 2 := by
    decide +kernel
  refine ⟨hattach, ?_, ?_⟩
  · cases hrun : i.classes s with
    | ok cs u =>
        rw [hrun] at hfails
        cases hfails
    | error e u => exact ⟨e, by rw [show t = u from Query.leaves_of_error hrun]⟩
  · cases hrun : i.classes t with
    | error e u =>
        rw [hrun] at hlists
        cases hlists
    | ok cs u =>
        rw [hrun] at hlists
        obtain ⟨ds, w, hnew, hsame⟩ := answers_as_new hvm hattach hcalm .start rfl
          (.fact (f := .imageClasses) rfl (by decide)) hshows hrun
        exact ⟨cs, u, rfl, ds, w, hnew, hsame, hlists⟩

end VmMetadata
