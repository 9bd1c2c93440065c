import VmMetadata.Proofs.Dump.Files
import VmMetadata.Proofs.Machine.Registry
import VmMetadata.Proofs.Session.Origin
import VmMetadata.Proofs.Session.Wander

/-!
Sessions whose calls are spoiled. A client asks what it likes, surveys the machine, dumps it, and in
between makes calls fail or be answered falsely, and heals them again, in any order. Main statement:
what a getter has once answered it answers ever after, without a call into the machine; and a getter
that has failed has noted nothing for itself.
-/

namespace VmMetadata

open Query (Gathers Memoizes Notes Lasts)

/-! ## Courses -/

namespace Session

/-- The one session has become the other: nothing that it knew is lost, the views among its notes
are its own, and its machine has gone on step by step. -/
structure Onward (s t : Session) : Prop where
  grows : s.Grows t
  intact : t.Intact
  machine : s.vm.Steps t.vm

theorem Onward.refl {s : Session} (hs : s.Intact) : s.Onward s :=
  ⟨.refl s, hs, .refl⟩

theorem Onward.trans {s t u : Session} (hst : s.Onward t) (htu : t.Onward u) : s.Onward u :=
  ⟨hst.grows.trans htu.grows, htu.intact, Relation.ReflTransGen.trans hst.machine htu.machine⟩

/-- What a session becomes by what a client does with it and by what is done to its calls. -/
inductive Course (s : Session) : Session → Prop
  | start : Course s s
  | ask {t : Session} (before : Course s t) {x : AnyQuery} (asked : t.Asks x) :
      Course s (x.2.leaves t)
  | survey {t : Session} (before : Course s t) : Course s (survey.leaves t)
  | pull {t : Session} (before : Course s t) (kind : DumpKind) (patience : Patience) :
      Course s (pullDump kind patience t).2
  | write {t : Session} (before : Course s t) (d : Destination) (kind : DumpKind) (now : String)
      (tree : FileTree) : Course s ((d.run kind now t : StateM FileTree _) tree).1.2
  /-- From now on some calls of the entry point fail or are answered falsely. -/
  | spoil {t : Session} (before : Course s t) (entry : String) (f : Fault) :
      Course s { t with probe := t.probe.setFault entry f }
  | heal {t : Session} (before : Course s t) : Course s t.healed

end Session

variable {s t : Session}

/-- Nothing is known of the probe. -/
theorem Session.Intact.probed (hs : s.Intact) (p : Probe) : s.Onward { s with probe := p } := by
  have grows : s.Grows { s with probe := p } := Session.grows_of_notebook rfl rfl rfl
  exact ⟨grows, hs.of_notebook grows hs.vm rfl, .refl⟩

theorem Session.Trail.steps {n : Nat} (hs : s.Intact) (h : Session.Trail n s t) :
    s.vm.Steps t.vm := by
  induction h with
  | refl => exact .refl
  | trans first _ ih ih' => exact (ih hs).trans (ih' (first.grows hs).2)
  | call c _ _ => exact .single (Query.ask_leaves hs.vm c).1
  | page h => exact .refl
  | note _ _ _ _ _ _ _ ih => exact ih hs

theorem Session.Trail.onward {n : Nat} (hs : s.Intact) (h : Session.Trail n s t) : s.Onward t := by
  obtain ⟨grows, intact⟩ := h.grows hs
  exact ⟨grows, intact, h.steps hs⟩

theorem Query.Gathers.onward {n : Nat} {x : Query α} {P : α → Session → Prop} (hs : s.Intact)
    (h : x.Gathers n s P) : s.Onward (x.leaves s) :=
  h.leaves.onward hs

/-- A copy of a page knows what the page knows. -/
theorem Query.copy_onward (hs : s.Intact) {v : View e} (hv : s.Shows v) :
    s.Onward ((Query.copy v).leaves s) := by
  have hold {page : Nat} {k : Handle} (hk : s.notebook.shown? page = some k) :
      page ≠ s.notebook.next :=
    Nat.ne_of_lt (Notebook.lt_size_of_shown? hk)
  have hfound (page : Nat) (f : Fact) := Notebook.find?_copyPage hv.2 page f
  have hshown (page : Nat) := Notebook.shown?_copyPage hv.2 page
  have grows : s.Grows ((Query.copy v).leaves s) := by
    refine ⟨rfl, rfl, fun page k hk => ?_, fun page f w hw => ?_⟩
    · exact (hshown page).trans ((if_neg (hold hk)).trans hk)
    · have hpage : page ≠ s.notebook.next := by
        rintro rfl
        unfold Notebook.find? Notebook.next at hw
        rw [Array.getElem?_eq_none (Nat.le_refl _)] at hw
        cases hw
      exact (hfound page f).trans ((if_neg hpage).trans hw)
  refine ⟨grows, ⟨hs.vm, grows.shown _ _ hs.front, fun page f w hw => grows.factShown ?_⟩, .refl⟩
  have hw := (hfound page f).symm.trans hw
  split at hw
  · exact hs.notes _ f w hw
  · exact hs.notes _ f w hw

/-! ## What a client asks -/

section

variable {n : Nat} (hs : s.Intact)
include hs

theorem Field.readings_memoize {f : Field} (hf : s.Shows f) (hn : 0 < n) :
    ∀ x ∈ f.readings, x.2.Memoizes n s (fun _ _ => True) := by
  have hflags := flags_notes hs hf hn
  simp only [readings, List.forall_mem_cons]
  exact ⟨(name_notes hs hf hn).loose, (type_notes hs hf hn).loose, (offset_notes hs hf hn).loose,
    hflags.loose, hflags.map hs _, hflags.map hs _, hflags.map hs _, declaration_memoizes hs hf hn,
    by simp⟩

theorem Method.readings_memoize {m : Method} (hm : s.Shows m) (hn : 0 < n) :
    ∀ x ∈ m.readings, x.2.Memoizes n s (fun _ _ => True) := by
  have hflags := flags_notes hs hm hn
  simp only [readings, List.forall_mem_cons]
  exact ⟨(name_notes hs hm hn).loose, (class_notes hs hm hn).loose, (returnType_notes hs hm hn).loose,
    (parameters_notes hs hm hn).loose, hflags.loose, hflags.map hs _, hflags.map hs _,
    hflags.map hs _, (isGeneric_notes hs hm hn).loose, (isInflated_notes hs hm hn).loose,
    (typeParameterCount_notes hs hm hn).loose, virtualAddress_memoizes hs hm hn,
    relativeVirtualAddress_memoizes hs hm hn, addressToken_memoizes hs hm hn,
    declaration_memoizes hs hm hn, by simp⟩

theorem Class.readings_memoize {c : Class} (hc : s.Shows c) (hn : 0 < n) :
    ∀ x ∈ c.readings, x.2.Memoizes n s (fun _ _ => True) := by
  have hflags := flags_notes hs hc hn
  have hkind := kind_notes hs hc hn
  simp only [readings, List.forall_mem_cons]
  exact ⟨(name_notes hs hc hn).loose, (namespace_notes hs hc hn).loose, (type_notes hs hc hn).loose,
    typeName_memoizes hs hc hn, (image_notes hs hc hn).loose, assemblyName_memoizes hs hc hn,
    (parent_notes hs hc hn).loose, (declaringClass_notes hs hc hn).loose,
    (interfaces_notes hs hc hn).loose, (fields_notes hs hc hn).loose, (methods_notes hs hc hn).loose,
    hflags.loose, hflags.map hs _, hflags.map hs _, hkind.loose, hkind.map hs _, hkind.map hs _,
    hkind.map hs _, hkind.map hs _, (isGeneric_notes hs hc hn).loose,
    (isInflated_notes hs hc hn).loose, (typeParameterCount_notes hs hc hn).loose,
    declaration_memoizes hs hc hn, by simp⟩

theorem Image.readings_memoize {i : Image} (hi : s.Shows i) (hn : 2 < n) :
    ∀ x ∈ i.readings, x.2.Memoizes n s (fun _ _ => True) := by
  simp only [readings, List.forall_mem_cons]
  exact ⟨(name_notes hs hi (by omega)).loose, (classCount_notes hs hi (by omega)).loose,
    (classStart_notes hs hi (by omega)).loose, (classes_notes hs hi (by omega)).loose,
    (classesByName_notes hs hi hn).loose, by simp⟩

theorem Assembly.readings_memoize {a : Assembly} (ha : s.Shows a) (hn : 4 < n) :
    ∀ x ∈ a.readings, x.2.Memoizes n s (fun _ _ => True) := by
  simp only [readings, List.forall_mem_cons]
  exact ⟨(name_notes hs ha hn).loose, (image_notes hs ha (by omega)).loose, by simp⟩

theorem TypeView.readings_wander {t : TypeView} (ht : s.Shows t) :
    ∀ x ∈ t.readings, x.2.Wanders s (fun _ _ => True) := by
  simp only [readings, List.forall_mem_cons]
  exact ⟨(name_notes hs ht (by decide)).gathers.loose, (kind_notes hs ht (by decide)).gathers.loose,
    (class?_lasts hs ht (by decide)).gathers.loose,
    (object_lasts hs ht (by decide)).gathers.loose, by simp⟩

theorem Object.readings_wander {o : Object} (ho : s.Shows o) :
    ∀ x ∈ o.readings, x.2.Wanders s (fun _ _ => True) := by
  simp only [readings, List.forall_mem_cons]
  exact ⟨(class_lasts hs ho (by decide)).gathers.loose, .call _ (ho.serves rfl rfl), by simp⟩

theorem ArrayView.readings_wander {a : ArrayView} (ha : s.Shows a) :
    ∀ x ∈ a.readings, x.2.Wanders s (fun _ _ => True) := by
  simp only [readings, List.forall_mem_cons]
  exact ⟨(length_notes hs ha (by decide)).gathers.loose, (isEmpty_memoizes hs ha (by decide)).gathers,
    by simp⟩

theorem Host.readings_wander {h : Host} (hh : s.Hosts h) :
    ∀ x ∈ h.readings, x.2.Wanders s (fun _ _ => True) := by
  simp only [readings, List.forall_mem_cons]
  exact ⟨(class?_notes hs hh (by decide)).gathers.loose, text?_wanders hs hh _,
    identifier_wanders hs hh, text?_wanders hs hh _, by simp⟩

/-- The client hands the machine a null handle itself: in a call of its own, or in place of an object
that a method or an array is to be given. -/
inductive Session.HandsNull : AnyQuery → Prop
  | call {c : Call r} (null : ¬c.NamesObjects) : HandsNull ⟨_, Query.ask c⟩
  | invoke (m : Method) (object : Option Object) {arguments : List Object}
      (null : ¬∀ o ∈ arguments, o.handle ≠ .null) : HandsNull ⟨_, m.invoke object arguments⟩
  | array (c : Class) {objects : List Object} (null : ¬∀ o ∈ objects, o.handle ≠ .null) :
      HandsNull ⟨_, ArrayView.ofObjects c objects⟩

/-- Whatever is asked leaves a trail, unless it copies a view or hands over a null handle. -/
theorem Session.Asks.wanders_or {x : AnyQuery} (h : s.Asks x) :
    x.2.Wanders s (fun _ _ => True) ∨
      (∃ e, ∃ v : View e, s.Shows v ∧ x = ⟨_, Query.copy v⟩) ∨ HandsNull x := by
  cases h with
  | copy shown => exact Or.inr (Or.inl ⟨_, _, shown, rfl⟩)
  | call c =>
      by_cases names : c.NamesObjects
      · exact Or.inl (.call c ⟨names, c.rank_le.trans (by decide)⟩)
      · exact Or.inr (Or.inr (.call names))
  | invoke shown object arguments =>
      by_cases names : ∀ o ∈ arguments, o.handle ≠ .null
      · exact Or.inl (Method.invoke_wanders hs shown object names).loose
      · exact Or.inr (Or.inr (.invoke _ object names))
  | array shown objects =>
      by_cases names : ∀ o ∈ objects, o.handle ≠ .null
      · exact Or.inl (ArrayView.ofObjects_gathers hs shown names).loose
      · exact Or.inr (Or.inr (.array _ names))
  | view e k => exact Or.inl (Gathers.view e k).loose
  | domain => exact Or.inl (Query.domain_gathers hs).loose
  | corlib => exact Or.inl (Query.corlib_gathers hs).loose
  | rootClass => exact Or.inl (Query.rootClass_lasts hs (by decide)).gathers.loose
  | reflectionClass => exact Or.inl (Query.reflectionClass_lasts hs (by decide)).gathers.loose
  | host => exact Or.inl (Host.new_wanders s).loose
  | readHost hosts member => exact Or.inl (Host.readings_wander hs hosts _ member)
  | path d kind now => exact Or.inl (d.path_wanders hs kind now)
  | assemblies shown => exact Or.inl (Domain.assemblies_notes hs shown (by decide)).gathers.loose
  | assembly shown name =>
      exact Or.inl (Domain.assembly?_memoizes hs shown (by decide) name).gathers.loose
  | findClass shown name => exact Or.inl (Domain.findClass_gathers hs shown (by decide) name).loose
  | readAssembly shown member =>
      exact Or.inl (Assembly.readings_memoize hs shown (by decide) _ member).gathers
  | readImage shown member =>
      exact Or.inl (Image.readings_memoize hs shown (by decide) _ member).gathers
  | classFromName shown namespace_ name =>
      exact Or.inl (Image.classFromName_gathers hs shown namespace_ name).loose
  | readClass shown member =>
      exact Or.inl (Class.readings_memoize hs shown (by decide) _ member).gathers
  | method shown name count =>
      exact Or.inl (Class.method?_memoizes hs shown (by decide) name count).gathers.loose
  | field shown name => exact Or.inl (Class.field?_memoizes hs shown (by decide) name).gathers.loose
  | readType shown member => exact Or.inl (TypeView.readings_wander hs shown _ member)
  | readField shown member =>
      exact Or.inl (Field.readings_memoize hs shown (by decide) _ member).gathers
  | readMethod shown member =>
      exact Or.inl (Method.readings_memoize hs shown (by decide) _ member).gathers
  | parameter shown =>
      exact Or.inl (Method.parameterText_memoizes hs shown (by decide)).gathers
  | readObject shown member => exact Or.inl (Object.readings_wander hs shown _ member)
  | readArray shown member => exact Or.inl (ArrayView.readings_wander hs shown _ member)
  | element shown index =>
      exact Or.inl (Gathers.callView hs .object (.arrayGet _ index) (shown.serves rfl rfl)).loose
  | placeholders count => exact Or.inl (placeholderArguments_gathers (by decide) hs count).loose
  | inflateClass shown arguments =>
      exact Or.inl (Class.inflate_gathers (by decide) hs shown arguments).loose
  | representClass shown => exact Or.inl (Class.representative_gathers (by decide) hs shown).loose
  | inflateMethod shown arguments =>
      exact Or.inl (Method.inflate_gathers (by decide) hs shown arguments).loose
  | representMethod shown classWasGeneric =>
      exact Or.inl (Method.representative_gathers (by decide) hs shown classWasGeneric).loose

theorem Query.ask_onward (c : Call r) : s.Onward ((ask c).leaves s) :=
  ⟨(ask_grows hs c).1, (ask_grows hs c).2, .single (ask_leaves hs.vm c).1⟩

omit hs in
theorem Query.bind_onward {x : Query α} {next : α → Query β} (hx : s.Onward (x.leaves s))
    (hnext : ∀ a (t : Session), t.Intact → t.Onward ((next a).leaves t)) :
    s.Onward ((x >>= next).leaves s) := by
  rw [leaves_bind]
  cases hrun : x s with
  | ok a t =>
      rw [leaves_of_ok hrun] at hx
      exact hx.trans (hnext a t hx.intact)
  | error e t =>
      rw [leaves_of_error hrun] at hx
      exact hx

omit hs in
theorem ArrayView.fill_onward (array : ArrayView) : ∀ (objects : List Object) (index : Nat)
    {s : Session}, s.Intact → s.Onward ((array.fill index objects).leaves s)
  | [], _, _, hs => .refl hs
  | _ :: rest, index, _, hs =>
      Query.bind_onward (Query.ask_onward hs _) fun _ _ ht => fill_onward array rest (index + 1) ht

/-- An array is made of whatever objects it is given. -/
theorem ArrayView.ofObjects_onward (c : Class) (objects : List Object) :
    s.Onward ((ArrayView.ofObjects c objects).leaves s) := by
  unfold ArrayView.ofObjects
  split
  · exact .refl hs
  · refine Query.bind_onward (Query.ask_onward hs _) fun h t ht => ?_
    refine Query.bind_onward ((Gathers.view (n := 0) .array h).onward ht) fun array u hu => ?_
    exact Query.bind_onward (fill_onward array objects 0 hu) fun _ _ hv => .refl hv

theorem Session.HandsNull.onward {x : AnyQuery} (h : HandsNull x) : s.Onward (x.2.leaves s) := by
  cases h with
  | call _ => exact Query.ask_onward hs _
  | invoke m object _ =>
      exact Query.bind_onward (Query.ask_onward hs _) fun h _ ht =>
        (Gathers.viewAny (n := 0) ht .object h).onward ht
  | array c _ => exact ArrayView.ofObjects_onward hs c _

theorem Session.Asks.onward {x : AnyQuery} (h : s.Asks x) : s.Onward (x.2.leaves s) := by
  rcases h.wanders_or hs with hx | ⟨e, v, shown, rfl⟩ | hx
  · exact hx.onward hs
  · exact Query.copy_onward hs shown
  · exact hx.onward hs

end

/-! ## Dumps -/

/-- The computation leaves a trail, and what it yields is as said. -/
structure Roams (n : Nat) (x : StateM Session α) (s : Session) (P : α → Session → Prop) : Prop where
  trail : Session.Trail n s (x s).2
  post : P (x s).1 (x s).2

namespace Roams

variable {n : Nat}

theorem pure {a : α} {P : α → Session → Prop} (ha : P a s) : Roams n (Pure.pure a) s P :=
  ⟨.refl n s, ha⟩

theorem bind {x : StateM Session α} {f : α → StateM Session β} {P : α → Session → Prop}
    {R : β → Session → Prop} (hs : s.Intact) (hx : Roams n x s P)
    (hf : ∀ a t, s.Grows t → t.Intact → P a t → Roams n (f a) t R) : Roams n (x >>= f) s R := by
  obtain ⟨grows, ht⟩ := hx.trail.grows hs
  have hrest := hf _ _ grows ht hx.post
  exact ⟨hx.trail.trans hrest.trail, hrest.post⟩

theorem attempt {x : Query α} {P : α → Session → Prop} (h : x.Gathers n s P) :
    Roams n x.attempt s (fun r t => ∀ a, r = .ok a → P a t) := by
  unfold Query.attempt
  cases h with
  | ok run trail post =>
      refine ⟨?_, fun a ha => ?_⟩
      · simp only [run]
        exact trail
      · simp only [run] at ha ⊢
        cases ha
        exact post
  | error run trail =>
      refine ⟨?_, fun a ha => ?_⟩
      · simp only [run]
        exact trail
      · simp only [run] at ha
        cases ha

end Roams

section

variable {n : Nat} (hn : 0 < n)
include hn

theorem methodLine_gathers (hs : s.Intact) (classWasGeneric : Bool) {m : Method}
    (hm : s.Shows m) : (methodLine classWasGeneric m).Gathers n s (fun _ _ => True) := by
  refine (Method.representative_gathers hn hs hm classWasGeneric).bind hs fun m t _ ht hm => ?_
  refine (Method.addressToken_memoizes ht hm hn).gathers.bind ht fun token? u grows hu _ => ?_
  have hm := grows.shows hm
  cases token? with
  | none => exact .pure trivial
  | some token =>
      refine (Method.class_notes hu hm hn).gathers.bind hu fun c v grows hv hc => ?_
      have hm := grows.shows hm
      refine (Class.typeName_memoizes hv hc hn).gathers.bind hv fun _ w grows hw _ => ?_
      exact (Method.name_notes hw (grows.shows hm) hn).gathers.bind hw
        fun _ _ _ _ _ => .pure trivial

theorem methodLines_gathers (hs : s.Intact) {c : Class} (hc : s.Shows c) :
    (methodLines c).Gathers n s (fun _ _ => True) := by
  refine (Class.isGeneric_notes hs hc hn).gathers.bind hs fun isGeneric t grows ht _ => ?_
  refine (Class.representative_gathers hn ht (grows.shows hc)).bind ht fun closed u _ hu hclosed => ?_
  refine (Class.methods_notes hu hclosed hn).gathers.bind hu fun ms v _ hv hms => ?_
  exact (Gathers.mapM (G := fun (m : Method) t => t.Shows m) (R := fun _ _ => True)
    (fun _ _ _ grows hm => grows.shows hm) (fun _ _ _ _ _ => trivial) hv hms
    fun m _ _ ht hm => methodLine_gathers hn ht isGeneric hm).bind hv fun _ _ _ _ _ => .pure trivial

theorem classItems_roams (hs : s.Intact) (kind : DumpKind) {c : Class} (hc : s.Shows c) :
    Roams n (classItems kind c) s (fun _ _ => True) := by
  cases kind with
  | classes =>
      have hblock : (classBlock c).Gathers n s (fun _ _ => True) :=
        (Class.declaration_memoizes hs hc hn).gathers.bind hs fun _ _ _ _ _ => .pure trivial
      exact (Roams.attempt hblock).bind hs fun _ _ _ _ _ => .pure trivial
  | methods =>
      refine (Roams.attempt (methodLines_gathers hn hs hc)).bind hs fun r _ _ _ _ => ?_
      cases r <;> exact .pure trivial

omit hn in
theorem Pulled.andThen_roams (hs : s.Intact) (first : Pulled)
    {rest : Patience → StateM Session Pulled}
    (hrest : ∀ left, Roams n (rest left) s (fun _ _ => True)) :
    Roams n (first.andThen rest) s (fun _ _ => True) := by
  unfold andThen
  cases first.patience with
  | none => exact .pure trivial
  | some left => exact (hrest left).bind hs fun _ _ _ _ _ => .pure trivial

theorem pullClasses_roams (kind : DumpKind) : ∀ (cs : List Class) (p : Patience) {s : Session},
    s.Intact → (∀ c ∈ cs, s.Shows c) → Roams n (pullClasses kind cs p) s (fun _ _ => True)
  | [], _, _, _, _ => .pure trivial
  | c :: rest, p, _, hs, hcs => by
      obtain ⟨hc, hrest⟩ := List.forall_mem_cons.mp hcs
      exact (classItems_roams hn hs kind hc).bind hs fun items t grows ht _ =>
        Pulled.andThen_roams ht _ fun left =>
          pullClasses_roams kind rest left ht (grows.showsEach hrest)

end

theorem pullAssembly_roams (hs : s.Intact) (kind : DumpKind) {a : Assembly} (ha : s.Shows a)
    (p : Patience) : Roams 7 (pullAssembly kind a p) s (fun _ _ => True) := by
  refine (Roams.attempt (Assembly.name_notes hs ha (by decide)).gathers).bind hs
    fun name t grows ht _ => ?_
  have ha := grows.shows ha
  cases name with
  | error e => exact .pure trivial
  | ok name =>
      have hclasses : Query.Wanders (do (← a.image).classes) t
          (fun cs u => ∀ c ∈ cs, u.Shows c) :=
        (Assembly.image_notes ht ha (by decide)).gathers.bind ht fun i u _ hu hi =>
          (Image.classes_notes hu hi (by decide)).gathers
      refine (Roams.attempt hclasses).bind ht fun classes u _ hu hcs => ?_
      cases classes with
      | error e => exact .pure trivial
      | ok classes =>
          exact (pullClasses_roams (by decide) kind classes p hu (hcs classes rfl)).bind hu
            fun _ _ _ _ _ => .pure trivial

theorem pullAssemblies_roams (kind : DumpKind) : ∀ (as : List Assembly) (p : Patience)
    {s : Session}, s.Intact → (∀ a ∈ as, s.Shows a) →
      Roams 7 (pullAssemblies kind as p) s (fun _ _ => True)
  | [], _, _, _, _ => .pure trivial
  | a :: rest, p, _, hs, has => by
      obtain ⟨ha, hrest⟩ := List.forall_mem_cons.mp has
      exact (pullAssembly_roams hs kind ha p).bind hs fun pulled t grows ht _ =>
        Pulled.andThen_roams ht pulled fun left =>
          pullAssemblies_roams kind rest left ht (grows.showsEach hrest)

/-- Opening a dump reads the list of assemblies. -/
theorem Query.assemblies_gathers (hs : s.Intact) :
    Query.Wanders (do (← Query.domain).assemblies) s (fun as t => ∀ a ∈ as, t.Shows a) :=
  (Query.domain_gathers hs).bind hs fun _ _ _ ht hd =>
    (Domain.assemblies_notes ht hd (by decide)).gathers

theorem pullDump_roams (hs : s.Intact) (kind : DumpKind) (p : Patience) :
    Roams 7 (pullDump kind p) s (fun _ _ => True) := by
  refine (Roams.attempt (Query.assemblies_gathers hs)).bind hs fun assemblies t _ ht has => ?_
  split
  · exact .pure trivial
  · cases assemblies with
    | error e => exact .pure trivial
    | ok assemblies => exact pullAssemblies_roams kind assemblies p ht (has assemblies rfl)

theorem Destination.fillFile_session (path : String) (kind : DumpKind) (s : Session)
    (tree : FileTree) : ((fillFile path kind s : StateM FileTree _) tree).1.2 =
      (pullDump kind ⟨none, true⟩ s).2 :=
  rfl

theorem Destination.run_trail (hs : s.Intact) (d : Destination) (kind : DumpKind) (now : String)
    (tree : FileTree) :
    Session.Trail 7 s ((d.run kind now s : StateM FileTree _) tree).1.2 := by
  have hpath := (d.path_wanders hs kind now).leaves
  cases hrun : d.path kind now s with
  | error e t =>
      rw [Query.leaves_of_error hrun] at hpath
      rw [run_of_path_error hrun]
      exact hpath
  | ok path t =>
      rw [Query.leaves_of_ok hrun] at hpath
      rw [run_of_path hrun]
      split
      · exact hpath
      · rw [fillFile_session]
        exact hpath.trans (pullDump_roams (hpath.grows hs).2 kind _).trail

/-- Along a course nothing that was known is lost. -/
theorem Session.Course.onward (hs : s.Intact) (h : s.Course t) : s.Onward t := by
  induction h with
  | start => exact .refl hs
  | ask _ asked ih => exact ih.trans (asked.onward ih.intact)
  | survey _ ih => exact ih.trans ((survey_wanders ih.intact).onward ih.intact)
  | pull _ kind patience ih =>
      exact ih.trans ((pullDump_roams ih.intact kind patience).trail.onward ih.intact)
  | write _ d kind now tree ih =>
      exact ih.trans ((d.run_trail ih.intact kind now tree).onward ih.intact)
  | spoil _ entry f ih => exact ih.trans (ih.intact.probed _)
  | heal _ ih => exact ih.trans (ih.intact.probed _)

end VmMetadata
