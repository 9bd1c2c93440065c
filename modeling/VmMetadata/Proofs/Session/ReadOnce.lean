import VmMetadata.Proofs.Session.Course

/-!
Everything that a getter derives is read once. Main statement: in a session that a client has got to,
whatever was done to its calls, what a getter has answered it answers ever after, and nothing is
called for it but what never changes; and a getter that fails has noted nothing for itself, so that
it is computed anew when it is called again.
-/

namespace VmMetadata

open Query (Gathers Memoizes Notes Lasts)

/-- The kind of the objects that the fact is about. The other facts are about the session or the
host. -/
def Fact.subject : Fact → Option Entity
  | .descriptor | .rootClass | .reflectionClass | .hostClass => none
  | .domainAssemblies | .domainAssembliesByName => some .domain
  | .assemblyImage | .assemblyName => some .assembly
  | .imageName | .imageClassCount | .imageClassStart | .imageClasses | .imageClassesByName =>
      some .image
  | .className | .classNamespace | .classImage | .classParent | .classDeclaring | .classInterfaces
  | .classFields | .classMethods | .classType | .classFlags | .classKind | .classIsGeneric
  | .classIsInflated | .classParameterCount => some .class_
  | .typeName | .typeKind | .typeClass | .typeObject => some .type
  | .fieldName | .fieldType | .fieldOffset | .fieldFlags => some .field
  | .methodName | .methodClass | .methodReturnType | .methodParameters | .methodFlags
  | .methodIsGeneric | .methodIsInflated | .methodTypeParameterCount | .methodPointer =>
      some .method
  | .objectClass => some .object
  | .arrayLength => some .array

namespace Session

variable {s t : Session}

/-- The getters whose answers are kept, with what is seen of an answer: all of it, or of a new view
the object that it shows. -/
inductive Getter (s : Session) : {α β : Type} → Query α → (α → β) → Prop
  | rootClass : Getter s Query.rootClass View.handle
  | reflectionClass : Getter s Query.reflectionClass View.handle
  | assemblies {d : Domain} (shown : s.Shows d) : Getter s d.assemblies id
  | assembly {d : Domain} (shown : s.Shows d) (name : String) : Getter s (d.assembly? name) id
  | ofAssembly {a : Assembly} (shown : s.Shows a) {x : AnyQuery} (member : x ∈ a.readings) :
      Getter s x.2 id
  | ofImage {i : Image} (shown : s.Shows i) {x : AnyQuery} (member : x ∈ i.readings) :
      Getter s x.2 id
  | ofClass {c : Class} (shown : s.Shows c) {x : AnyQuery} (member : x ∈ c.readings) :
      Getter s x.2 id
  | method {c : Class} (shown : s.Shows c) (name : String) (count : Option Nat) :
      Getter s (c.method? name count) id
  | field {c : Class} (shown : s.Shows c) (name : String) : Getter s (c.field? name) id
  | typeName {t : TypeView} (shown : s.Shows t) : Getter s t.name id
  | typeKind {t : TypeView} (shown : s.Shows t) : Getter s t.kind id
  | typeClass {t : TypeView} (shown : s.Shows t) : Getter s t.class? (Option.map View.handle)
  | typeObject {t : TypeView} (shown : s.Shows t) : Getter s t.object View.handle
  | ofField {f : Field} (shown : s.Shows f) {x : AnyQuery} (member : x ∈ f.readings) :
      Getter s x.2 id
  | ofMethod {m : Method} (shown : s.Shows m) {x : AnyQuery} (member : x ∈ m.readings) :
      Getter s x.2 id
  | objectClass {o : Object} (shown : s.Shows o) : Getter s (Object.class_ o) View.handle
  | arrayLength {a : ArrayView} (shown : s.Shows a) : Getter s a.length id
  | arrayIsEmpty {a : ArrayView} (shown : s.Shows a) : Getter s a.isEmpty id
  | hostClass {h : Host} (hosts : s.Hosts h) : Getter s h.class? id

/-- The getters that note what they find themselves, with the fact and the page under which they
note it. -/
inductive KeepsUnder (s : Session) : {α : Type} → Query α → Nat → Fact → Prop
  | rootClass : KeepsUnder s Query.rootClass Notebook.front .rootClass
  | reflectionClass : KeepsUnder s Query.reflectionClass Notebook.front .reflectionClass
  | fact {v : View e} (shown : s.Shows v) {f : Fact} (about : f.subject = some e) :
      KeepsUnder s (f.getter v.handle v.page) v.page f
  | typeClass {t : TypeView} (shown : s.Shows t) : KeepsUnder s t.class? t.page .typeClass
  | typeObject {t : TypeView} (shown : s.Shows t) : KeepsUnder s t.object t.page .typeObject
  | objectClass {o : Object} (shown : s.Shows o) : KeepsUnder s (Object.class_ o) o.page .objectClass
  | hostClass {h : Host} (hosts : s.Hosts h) : KeepsUnder s h.class? h.page .hostClass
  /-- What follows from a kept answer, such as a flag or an entry of a table. -/
  | derived {x : Query α} {page : Nat} {f : Fact} (kept : KeepsUnder s x page f) (g : α → β) :
      KeepsUnder s (do pure (g (← x))) page f

theorem Getter.lasts (hs : s.Intact) {x : Query α} {seen : α → β} (h : s.Getter x seen) :
    ∃ P, x.Lasts 7 seen s P := by
  cases h with
  | rootClass => exact ⟨_, Query.rootClass_lasts hs (by decide)⟩
  | reflectionClass => exact ⟨_, Query.reflectionClass_lasts hs (by decide)⟩
  | assemblies shown => exact ⟨_, (Domain.assemblies_notes hs shown (by decide)).lasts⟩
  | assembly shown name => exact ⟨_, (Domain.assembly?_memoizes hs shown (by decide) name).lasts⟩
  | ofAssembly shown member =>
      exact ⟨_, (Assembly.readings_memoize hs shown (by decide) _ member).lasts⟩
  | ofImage shown member =>
      exact ⟨_, (Image.readings_memoize hs shown (by decide) _ member).lasts⟩
  | ofClass shown member => exact ⟨_, (Class.readings_memoize hs shown (by decide) _ member).lasts⟩
  | method shown name count =>
      exact ⟨_, (Class.method?_memoizes hs shown (by decide) name count).lasts⟩
  | field shown name => exact ⟨_, (Class.field?_memoizes hs shown (by decide) name).lasts⟩
  | typeName shown => exact ⟨_, (TypeView.name_notes hs shown (by decide)).lasts⟩
  | typeKind shown => exact ⟨_, (TypeView.kind_notes hs shown (by decide)).lasts⟩
  | typeClass shown => exact ⟨_, TypeView.class?_lasts hs shown (by decide)⟩
  | typeObject shown => exact ⟨_, TypeView.object_lasts hs shown (by decide)⟩
  | ofField shown member => exact ⟨_, (Field.readings_memoize hs shown (by decide) _ member).lasts⟩
  | ofMethod shown member =>
      exact ⟨_, (Method.readings_memoize hs shown (by decide) _ member).lasts⟩
  | objectClass shown => exact ⟨_, Object.class_lasts hs shown (by decide)⟩
  | arrayLength shown => exact ⟨_, (ArrayView.length_notes hs shown (by decide)).lasts⟩
  | arrayIsEmpty shown => exact ⟨_, (ArrayView.isEmpty_memoizes hs shown (by decide)).lasts⟩
  | hostClass hosts => exact ⟨_, (Host.class?_notes hs hosts (by decide)).lasts⟩

end Session

variable {s t : Session}

/-- The getter of every fact about an object notes it, and leaves no note of it when it fails. -/
theorem Fact.getter_notes (hs : s.Intact) {v : View e} (hv : s.Shows v) {f : Fact}
    (about : f.subject = some e) :
    Notes 7 v.page f (f.getter v.handle v.page) s := by
  cases f <;> cases about
  case domainAssemblies => exact Domain.assemblies_notes hs hv (by decide)
  case domainAssembliesByName => exact Domain.table_notes hs hv (by decide)
  case assemblyImage => exact Assembly.image_notes hs hv (by decide)
  case assemblyName => exact Assembly.name_notes hs hv (by decide)
  case imageName => exact Image.name_notes hs hv (by decide)
  case imageClassCount => exact Image.classCount_notes hs hv (by decide)
  case imageClassStart => exact Image.classStart_notes hs hv (by decide)
  case imageClasses => exact Image.classes_notes hs hv (by decide)
  case imageClassesByName => exact Image.classesByName_notes hs hv (by decide)
  case className => exact Class.name_notes hs hv (by decide)
  case classNamespace => exact Class.namespace_notes hs hv (by decide)
  case classImage => exact Class.image_notes hs hv (by decide)
  case classParent => exact Class.parent_notes hs hv (by decide)
  case classDeclaring => exact Class.declaringClass_notes hs hv (by decide)
  case classInterfaces => exact Class.interfaces_notes hs hv (by decide)
  case classFields => exact Class.fields_notes hs hv (by decide)
  case classMethods => exact Class.methods_notes hs hv (by decide)
  case classType => exact Class.type_notes hs hv (by decide)
  case classFlags => exact Class.flags_notes hs hv (by decide)
  case classKind => exact Class.kind_notes hs hv (by decide)
  case classIsGeneric => exact Class.isGeneric_notes hs hv (by decide)
  case classIsInflated => exact Class.isInflated_notes hs hv (by decide)
  case classParameterCount => exact Class.typeParameterCount_notes hs hv (by decide)
  case typeName => exact TypeView.name_notes hs hv (by decide)
  case typeKind => exact TypeView.kind_notes hs hv (by decide)
  case typeClass => exact TypeView.classNote_notes hs hv (by decide)
  case typeObject => exact TypeView.objectNote_notes hs hv (by decide)
  case fieldName => exact Field.name_notes hs hv (by decide)
  case fieldType => exact Field.type_notes hs hv (by decide)
  case fieldOffset => exact Field.offset_notes hs hv (by decide)
  case fieldFlags => exact Field.flags_notes hs hv (by decide)
  case methodName => exact Method.name_notes hs hv (by decide)
  case methodClass => exact Method.class_notes hs hv (by decide)
  case methodReturnType => exact Method.returnType_notes hs hv (by decide)
  case methodParameters => exact Method.parameters_notes hs hv (by decide)
  case methodFlags => exact Method.flags_notes hs hv (by decide)
  case methodIsGeneric => exact Method.isGeneric_notes hs hv (by decide)
  case methodIsInflated => exact Method.isInflated_notes hs hv (by decide)
  case methodTypeParameterCount => exact Method.typeParameterCount_notes hs hv (by decide)
  case methodPointer => exact Method.pointer_notes hs hv (by decide)
  case objectClass => exact Object.classNote_notes hs hv (by decide)
  case arrayLength => exact ArrayView.length_notes hs hv (by decide)

namespace Session.KeepsUnder

variable {x : Query α} {page : Nat} {f : Fact}

/-- A getter looks for a note first. -/
theorem shape (hs : s.Intact) (h : s.KeepsUnder x page f) :
    ∃ find next, x = Query.remember page f find >>= next := by
  induction h with
  | fact shown about =>
      obtain ⟨find, hfind⟩ := (Fact.getter_notes hs shown about).shape
      exact ⟨find, Pure.pure, hfind.trans (bind_pure _).symm⟩
  | hostClass hosts => exact ⟨_, Pure.pure, (bind_pure _).symm⟩
  | rootClass | reflectionClass | typeClass | typeObject | objectClass => exact ⟨_, _, rfl⟩
  | derived _ g ih =>
      obtain ⟨find, next, rfl⟩ := ih
      exact ⟨find, _, bind_assoc _ _ _⟩

/-- A getter that fails notes nothing for itself. -/
theorem blank (hs : s.Intact) (h : s.KeepsUnder x page f) :
    ∀ e t, x s = .error e t → t.notebook.find? page f = none := by
  induction h with
  | fact shown about => exact (Fact.getter_notes hs shown about).blank
  | hostClass hosts =>
      exact (Host.class?_notes hs hosts (Nat.lt_succ_self 6)).blank
  | rootClass =>
      have hnote := Query.rootNote_notes hs Nat.one_pos
      exact fun _ _ hx => hnote.blank _ _ (hnote.error_of_view hx)
  | reflectionClass =>
      have hnote := Query.reflectionNote_notes hs Nat.one_pos
      exact fun _ _ hx => hnote.blank _ _ (hnote.error_of_view hx)
  | typeClass shown =>
      have hnote := TypeView.classNote_notes hs shown Nat.one_pos
      exact fun _ _ hx => hnote.blank _ _ (hnote.error_of_viewAny hx)
  | typeObject shown =>
      have hnote := TypeView.objectNote_notes hs shown Nat.one_pos
      exact fun _ _ hx => hnote.blank _ _ (hnote.error_of_view hx)
  | objectClass shown =>
      have hnote := Object.classNote_notes hs shown Nat.one_pos
      exact fun _ _ hx => hnote.blank _ _ (hnote.error_of_view hx)
  | @derived _ _ y _ _ _ g ih =>
      intro e t hx
      cases hy : y s with
      | ok a u =>
          rw [Query.bind_ok hy] at hx
          cases hx
      | error e' u =>
          rw [Query.bind_error hy] at hx
          cases hx
          exact ih _ _ hy

end Session.KeepsUnder

/-- Without a note the search is made, and its result is noted. -/
theorem Query.remember_bind_miss {page : Nat} {f : Fact} (find : Query f.Value)
    (next : f.Value → Query α) (h : s.notebook.find? page f = none) :
    (remember page f find >>= next) s = match find s with
      | .ok v t => next v (t.noted page f v)
      | .error e t => .error e t := by
  rw [bind_apply, remember_miss h]
  cases find s <;> rfl

/-- A call that no fault decides is answered by the machine. -/
theorem Query.ask_of_intercept {c : Call r} {p : Probe} {a : r.Value} {w : Vm}
    (hpass : (s.probe.record c).intercept c = (none, p)) (hanswer : Vm.answer c s.vm = .ok a w) :
    ask c s = .ok a { s with probe := p, vm := w } := by
  unfold ask
  rw [hpass]
  exact (access_apply (Vm.answer c) { s with probe := p }).trans (by rw [hanswer])

/-! ## Reading once -/

/-- In any session that comes about from a snapshot, however its calls are spoiled: what a getter has
answered it answers ever after, and nothing is called for it but what never changes; a getter that
fails leaves no note of its own, so that the next time its search is made anew; and whatever is noted
then was noted before or has been answered by its own getter in the meantime. -/
theorem Session.Course.reads_once {snapshot : Snapshot} {vm : Vm} {version : Version}
    {layout : ClassLayout} {s : Session} (hvm : Vm.ofSnapshot snapshot = .ok vm)
    (course : (Session.new vm version layout).Course s) {α β : Type} {x : Query α} {seen : α → β}
    (getter : s.Getter x seen) :
    (∀ a t, x s = .ok a t → ∀ u, t.Course u →
      ∃ b v, x u = .ok b v ∧ seen b = seen a ∧ u.Undisturbed v) ∧
    ∀ e t, x s = .error e t →
      (∀ page f, s.KeepsUnder x page f → t.notebook.find? page f = none ∧
        ∃ find next, x = Query.remember page f find >>= next ∧
          x t = match find t with
            | .ok v u => next v (u.noted page f v)
            | .error e u => .error e u) ∧
      ∀ page f v, t.notebook.find? page f = some v → s.notebook.find? page f = some v ∨
        ∃ h u w, s.Grows u ∧ u.notebook.shown? page = some h ∧ f.getter h page u = .ok v w ∧
          w.Grows t := by
  have hs : s.Intact :=
    (course.onward (Session.intact_new (Vm.wellFormed_ofSnapshot hvm) version layout)).intact
  obtain ⟨P, hlasts⟩ := getter.lasts hs
  constructor
  · intro a t hrun u htu
    obtain ⟨trail, _⟩ := hlasts.gathers.of_ok hrun
    exact hlasts.repeats a t hrun u (htu.onward (trail.grows hs).2).grows
  · intro e t hrun
    have trail := hlasts.gathers.leaves
    rw [Query.leaves_of_error hrun] at trail
    refine ⟨fun page f keeps => ?_, fun page f v hv => trail.origin hs hv⟩
    have hblank := keeps.blank hs _ _ hrun
    obtain ⟨find, next, hshape⟩ := keeps.shape hs
    refine ⟨hblank, find, next, hshape, ?_⟩
    rw [hshape]
    exact Query.remember_bind_miss find next hblank

/-- The name of a class fails once, is read then, and is what it was when a false one is offered. -/
theorem Session.Course.reads_once_small : ∃ vm, Vm.ofSnapshot Snapshot.small = .ok vm ∧
    let s₀ := Session.new vm ⟨2020, 3, 1, some "f1"⟩ .current
    let c : Class := ⟨Arena.handleAt 2, 1⟩
    let s₁ : Session := (Query.view .class_ c.handle).leaves s₀
    let s := { s₁ with probe := s₁.probe.setFault "class_name" ⟨0, some 1, .fails "lost"⟩ }
    let t := c.name.leaves s
    let u := c.name.leaves t
    let w := { u with probe := u.probe.setFault "class_name" ⟨0, none, .answers .text "None"⟩ }
    s₀.Course s ∧ c.name s = .error (.accessor (.reported "lost")) t ∧
      t.notebook.find? c.page .className = none ∧ c.name t = .ok "Pool" u ∧
        ∃ v, c.name w = .ok "Pool" v ∧ w.Undisturbed v := by
  obtain ⟨vm, hvm, hname⟩ : ∃ vm, Vm.ofSnapshot Snapshot.small = .ok vm ∧
      vm.Tells (.className (Arena.handleAt 2)) "Pool" := by
    have hclass : (Snapshot.small.machine.arena.class_ (Arena.handleAt 2)).toOption.map
        ClassNode.name = some "Pool" := by
      decide +kernel
    refine ⟨_, Vm.ofSnapshot_machine (Or.inr rfl), ?_⟩
    cases hn : Snapshot.small.machine.arena.class_ (Arena.handleAt 2) with
    | error e =>
        rw [hn] at hclass
        cases hclass
    | ok n =>
        rw [hn] at hclass
        have htells : Snapshot.small.machine.Tells (.className (Arena.handleAt 2)) n.name :=
          (Vm.told_iff ClassNode.name Access.classNode_eq_ok).mpr ⟨n, hn, rfl⟩
        exact Option.some.inj hclass ▸ htells
  refine ⟨vm, hvm, ?_⟩
  intro s₀ c s₁ s t u w
  have before : s₀.Course s := .spoil (.ask .start (.view .class_ _)) _ _
  have shown : s.Shows c := ⟨by decide, rfl⟩
  have member : (⟨_, c.name⟩ : AnyQuery) ∈ c.readings := by simp [Class.readings]
  have hfails : c.name s = .error (.accessor (.reported "lost")) t := rfl
  obtain ⟨hblank, _⟩ := ((reads_once hvm before (.ofClass shown member)).2 _ t hfails).1 c.page
    .className (.fact (f := .className) shown rfl)
  have hread : c.name t = .ok "Pool" u := by
    obtain ⟨p, hpass⟩ : ∃ p, (t.probe.record (.className c.handle)).intercept
        (.className c.handle) = (none, p) := ⟨_, rfl⟩
    have hanswer : Vm.answer (.className c.handle) t.vm = .ok "Pool" t.vm := hname
    have hmiss := Query.remember_miss hblank (Query.ask (.className c.handle))
    rw [Query.ask_of_intercept hpass hanswer] at hmiss
    have hrun : c.name t = .ok "Pool" _ := hmiss
    exact hrun.trans (congrArg (EStateM.Result.ok "Pool") (Query.leaves_of_ok hrun).symm)
  obtain ⟨b, v, hagain, hb, quiet⟩ := (reads_once hvm (.ask before (.readClass shown member))
    (.ofClass ⟨shown.1, rfl⟩ member)).1 _ u hread w (.spoil .start _ _)
  cases hb
  exact ⟨before, hfails, hblank, hread, v, hagain, quiet⟩

end VmMetadata
