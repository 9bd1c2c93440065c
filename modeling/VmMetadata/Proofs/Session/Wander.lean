import VmMetadata.Inspect.Survey
import VmMetadata.Proofs.Session.Enumerated

/-!
Objects, arrays, instantiations, the host and the survey: whatever else a client asks leaves a trail
too, and what is kept of objects and arrays is kept for good.
-/

namespace VmMetadata

open Query (Gathers Memoizes Notes Lasts)

namespace Query

/-- The query leaves a trail, on which anything may be noted. -/
abbrev Wanders (x : Query α) (s : Session) (P : α → Session → Prop) : Prop :=
  x.Gathers 7 s P

end Query

variable {n : Nat} {s : Session}

/-! ## Objects and arrays -/

namespace TypeView

/-- The machine makes the reflection object when it is first asked for it. -/
theorem objectNote_notes (hs : s.Intact) {t : TypeView} (ht : s.Shows t) (hn : 0 < n) :
    Notes n t.page .typeObject (Fact.getter t.handle t.page .typeObject) s := by
  refine .remember hs ht.2 hn rfl ?_
  refine (Gathers.call (.typeObject t.handle) (ht.serves rfl rfl)).bind hs fun h u _ _ _ => ?_
  refine (Gathers.require h "type object").weaken ?_
  rintro k _ ⟨rfl, hne⟩
  exact hne

theorem object_lasts (hs : s.Intact) {t : TypeView} (ht : s.Shows t) (hn : 0 < n) :
    t.object.Lasts n View.handle s (fun o u => u.Shows o) :=
  (objectNote_notes hs ht hn).lasts_view hs .object

end TypeView

namespace Object

variable (hs : s.Intact) {o : Object} (ho : s.Shows o) (hn : 0 < n)
include hs ho hn

theorem classNote_notes :
    Notes n o.page .objectClass (Fact.getter o.handle o.page .objectClass) s := by
  refine .remember hs ho.2 hn rfl ?_
  refine (Gathers.call (.objectClass o.handle) (ho.serves rfl rfl)).bind hs fun h u _ _ _ => ?_
  refine (Gathers.require h "object class").weaken ?_
  rintro k _ ⟨rfl, hne⟩
  exact hne

theorem class_lasts : (Object.class_ o).Lasts n View.handle s (fun c t => t.Shows c) :=
  (classNote_notes hs ho hn).lasts_view hs .class_

end Object

namespace ArrayView

theorem length_notes (hs : s.Intact) {a : ArrayView} (ha : s.Shows a) (hn : 0 < n) :
    Notes n a.page .arrayLength a.length s :=
  .remember hs ha.2 hn rfl (.call _ (ha.serves rfl rfl))

theorem isEmpty_memoizes (hs : s.Intact) {a : ArrayView} (ha : s.Shows a) (hn : 0 < n) :
    a.isEmpty.Memoizes n s (fun _ _ => True) :=
  (length_notes hs ha hn).map hs _

theorem fill_gathers {array : ArrayView} (harray : array.handle ≠ .null) :
    ∀ {objects : List Object} (index : Nat) {s : Session}, s.Intact →
      (∀ o ∈ objects, o.handle ≠ .null) → (array.fill index objects).Gathers n s (fun _ _ => True)
  | [], _, _, _, _ => .pure trivial
  | o :: rest, index, _, hs, hobjects => by
      obtain ⟨ho, hrest⟩ := List.forall_mem_cons.mp hobjects
      have names : (Call.arraySet array.handle index o.handle).NamesObjects :=
        List.forall_mem_cons.mpr ⟨harray, List.forall_mem_singleton.mpr ho⟩
      exact (Gathers.call _ (names.serves rfl)).bind hs
        fun _ _ _ ht _ => fill_gathers harray (index + 1) ht hrest

theorem ofObjects_gathers (hs : s.Intact) {cls : Class} (hcls : s.Shows cls)
    {objects : List Object} (hobjects : ∀ o ∈ objects, o.handle ≠ .null) :
    (ArrayView.ofObjects cls objects).Gathers n s (fun a t => t.Shows a) := by
  unfold ArrayView.ofObjects
  split
  · exact .throw _
  · refine (Gathers.call (.arrayNew cls.handle objects.length) (hcls.serves rfl rfl)).bind hs
      fun h t _ ht _ => ?_
    refine (Gathers.view .array h).bind ht fun a u _ hu ha => ?_
    exact (fill_gathers ha.1.1 0 hu hobjects).bind hu fun _ _ grows _ _ => .pure (grows.shows ha.1)

end ArrayView

/-- An invocation may do without an object, and then carries a null handle in its place. -/
theorem Method.invoke_wanders (hs : s.Intact) {m : Method} (hm : s.Shows m) (object : Option Object)
    {arguments : List Object} (harguments : ∀ o ∈ arguments, o.handle ≠ .null) :
    (m.invoke object arguments).Wanders s (fun o? t => ∀ o ∈ o?, t.Shows o) :=
  .callView hs .object _ (Call.NamesObjects.serves
    (List.forall_mem_cons.mpr ⟨hm.1, List.forall_mem_map.mpr harguments⟩) rfl)

/-! ## Instantiations -/

section

variable (hn : 0 < n)
include hn

theorem argumentArray_gathers (hs : s.Intact) {cs : List Class} (hcs : ∀ c ∈ cs, s.Shows c) :
    (argumentArray cs).Gathers n s (fun a t => t.Shows a) := by
  refine (Gathers.mapM (G := fun (c : Class) t => t.Shows c) (R := fun (o : Object) t => t.Shows o)
    (fun _ _ _ grows hc => grows.shows hc) (fun _ _ _ grows ho => grows.shows ho) hs hcs
    fun c _ t ht hc => ?_).bind hs fun objects t _ ht hobjects => ?_
  · exact (Class.type_notes ht hc hn).gathers.bind ht fun type u _ hu htype =>
      (TypeView.object_lasts hu htype hn).gathers
  · exact (Query.reflectionClass_lasts ht hn).gathers.bind ht fun cls _ _ hu hcls =>
      ArrayView.ofObjects_gathers hu hcls fun o ho => (hobjects o ho).1

theorem placeholderArguments_gathers (hs : s.Intact) (count : Nat) :
    (placeholderArguments count).Gathers n s (fun cs t => ∀ c ∈ cs, t.Shows c) :=
  (Query.rootClass_lasts hs hn).gathers.bind hs fun _ _ _ _ hc =>
    .pure (List.forall_mem_replicate.mpr (Or.inr hc))

omit hn in
theorem checkArity_gathers (name : String) (expected : Nat) (cs : List Class) :
    (checkArity name expected cs).Gathers n s (fun _ _ => True) := by
  unfold checkArity
  split
  · exact .pure trivial
  · exact .throw _

namespace Class

theorem inflate_gathers (hs : s.Intact) {c : Class} (hc : s.Shows c) {cs : List Class}
    (hcs : ∀ d ∈ cs, s.Shows d) : (c.inflate cs).Gathers n s (fun d t => t.Shows d) := by
  refine (typeName_memoizes hs hc hn).gathers.bind hs fun name t grows ht _ => ?_
  have hc := grows.shows hc
  have hcs := grows.showsEach hcs
  refine (isGeneric_notes ht hc hn).gathers.bind ht fun isGeneric u grows hu _ => ?_
  have hc := grows.shows hc
  have hcs := grows.showsEach hcs
  cases isGeneric with
  | false => exact .throw _
  | true =>
      refine (typeParameterCount_notes hu hc hn).gathers.bind hu fun count v grows hv _ => ?_
      have hc := grows.shows hc
      have hcs := grows.showsEach hcs
      refine (checkArity_gathers name count cs).bind hv fun _ w grows hw _ => ?_
      have hc := grows.shows hc
      refine (argumentArray_gathers hn hw (grows.showsEach hcs)).bind hw
        fun array a grows ha harray => ?_
      have names : (Call.classInflate c.handle array.handle).NamesObjects :=
        List.forall_mem_cons.mpr ⟨(grows.shows hc).1, List.forall_mem_singleton.mpr harray.1⟩
      refine (Gathers.call _ (names.serves rfl)).bind ha fun h _ _ _ _ => ?_
      exact (Gathers.view .class_ h).weaken fun _ _ hv => hv.1

theorem representative_gathers (hs : s.Intact) {c : Class} (hc : s.Shows c) :
    c.representative.Gathers n s (fun d t => t.Shows d) := by
  refine (isGeneric_notes hs hc hn).gathers.bind hs fun isGeneric t grows ht _ => ?_
  have hc := grows.shows hc
  cases isGeneric with
  | false => exact .pure hc
  | true =>
      refine (typeParameterCount_notes ht hc hn).gathers.bind ht fun count u grows hu _ => ?_
      exact (placeholderArguments_gathers hn hu count).bind hu fun cs v grows' hv hcs =>
        inflate_gathers hn hv ((grows.trans grows').shows hc) hcs

end Class

namespace Method

omit hn in
theorem instantiate_gathers (hs : s.Intact) {m : Method} (hm : s.Shows m) {array : ArrayView}
    (harray : s.Shows array) : (m.instantiate array).Gathers n s (fun _ _ => True) := by
  have names : ∀ h ∈ [m.handle, array.handle], h ≠ .null :=
    List.forall_mem_cons.mpr ⟨hm.1, List.forall_mem_singleton.mpr harray.1⟩
  refine (Gathers.call (.methodFindInflated m.handle array.handle) ⟨names, Nat.zero_le n⟩).bind hs
    fun h t _ _ _ => ?_
  cases h.nonNull? with
  | some k => exact .pure trivial
  | none => exact .call (.methodInflateRaw m.handle array.handle) ⟨names, Nat.zero_le n⟩

theorem inflate_gathers (hs : s.Intact) {m : Method} (hm : s.Shows m) {cs : List Class}
    (hcs : ∀ d ∈ cs, s.Shows d) : (m.inflate cs).Gathers n s (fun d t => t.Shows d) := by
  refine (name_notes hs hm hn).gathers.bind hs fun name t grows ht _ => ?_
  have hm := grows.shows hm
  have hcs := grows.showsEach hcs
  refine (isGeneric_notes ht hm hn).gathers.bind ht fun isGeneric u grows hu _ => ?_
  have hm := grows.shows hm
  have hcs := grows.showsEach hcs
  cases isGeneric with
  | false => exact .throw _
  | true =>
      refine (typeParameterCount_notes hu hm hn).gathers.bind hu fun count v grows hv _ => ?_
      have hm := grows.shows hm
      have hcs := grows.showsEach hcs
      refine (checkArity_gathers name count cs).bind hv fun _ w grows hw _ => ?_
      have hm := grows.shows hm
      refine (argumentArray_gathers hn hw (grows.showsEach hcs)).bind hw
        fun array a grows ha harray => ?_
      refine (instantiate_gathers ha (grows.shows hm) harray).bind ha fun h _ _ _ _ => ?_
      exact (Gathers.view .method h).weaken fun _ _ hv => hv.1

theorem representative_gathers (hs : s.Intact) {m : Method} (hm : s.Shows m)
    (classWasGeneric : Bool) :
    (m.representative classWasGeneric).Gathers n s (fun d t => t.Shows d) := by
  unfold representative
  split
  · exact .pure hm
  refine (isGeneric_notes hs hm hn).gathers.bind hs fun isGeneric t grows ht _ => ?_
  have hm := grows.shows hm
  cases isGeneric with
  | false => exact .pure hm
  | true =>
      refine (typeParameterCount_notes ht hm hn).gathers.bind ht fun count u grows hu _ => ?_
      exact (placeholderArguments_gathers hn hu count).bind hu fun cs v grows' hv hcs =>
        inflate_gathers hn hv ((grows.trans grows').shows hm) hcs

end Method

end

/-! ## The host -/

namespace Session.Grows

theorem hosts {t : Session} (hst : s.Grows t) {h : Host} (hh : s.Hosts h) : t.Hosts h :=
  hst.shown _ _ hh

end Session.Grows

namespace Host

theorem new_wanders (s : Session) : Host.new.Wanders s (fun h t => t.Hosts h) :=
  .ok rfl (.page .null) (by simp [Session.Hosts, Notebook.shown?_addPage])

theorem findClass_wanders : ∀ {names : List String} {d : Domain} {s : Session}, s.Intact →
    s.Shows d → Gathers 6 (findClass d names) s (fun c? t => ∀ c ∈ c?, t.Shows c)
  | [], _, _, _, _ => .pure (by simp)
  | name :: rest, d, _, hs, hd => by
      unfold findClass
      refine (Domain.assembly?_memoizes hs hd (by decide) name).gathers.bind hs
        fun a? t grows ht ha => ?_
      have hd := grows.shows hd
      cases a? with
      | none => exact findClass_wanders ht hd
      | some a =>
          refine (Assembly.image_notes ht (ha a rfl) (by decide)).gathers.bind ht
            fun i u grows hu hi => ?_
          have hd := grows.shows hd
          refine (Image.classFromName_gathers hu hi _ _).bind hu fun c? v grows hv hc => ?_
          cases c? with
          | some c => exact .pure hc
          | none => exact findClass_wanders hv (grows.shows hd)

variable (hs : s.Intact) {h : Host} (hh : s.Hosts h)
include hs hh

theorem class?_notes (hn : 6 < n) :
    Notes n h.page .hostClass h.class? s :=
  .remember hs hh hn rfl
    ((Query.domain_gathers hs).bind hs fun _ _ _ ht hd => findClass_wanders ht hd)

theorem text?_wanders (getter : String) : (h.text? getter).Wanders s (fun _ _ => True) := by
  refine (class?_notes hs hh (by decide)).gathers.bind hs fun c? t _ ht hc => ?_
  cases c? with
  | none => exact .pure trivial
  | some c =>
      refine (Class.method?_memoizes ht (hc c rfl) (by decide) getter (some 0)).gathers.bind ht
        fun m? u _ hu hm => ?_
      cases m? with
      | none => exact .pure trivial
      | some m =>
          refine (Method.invoke_wanders hu (hm m rfl) none (List.forall_mem_nil _)).bind hu
            fun o? v _ hv ho => ?_
          cases o? with
          | none => exact .pure trivial
          | some o =>
              have hcontents : o.contents.Wanders v (fun _ _ => True) := .call _ ((ho o rfl).serves rfl rfl)
              exact hcontents.bind hv fun _ _ _ _ _ => .pure trivial

theorem identifier_wanders : h.identifier.Wanders s (fun _ _ => True) := by
  refine (text?_wanders hs hh _).bind hs fun text? t grows ht _ => ?_
  cases text? with
  | some text => exact .pure trivial
  | none => exact text?_wanders ht (grows.hosts hh) _

end Host

theorem Destination.path_wanders (hs : s.Intact) (d : Destination) (kind : DumpKind)
    (now : String) : (d.path kind now).Wanders s (fun _ _ => True) := by
  refine (Host.new_wanders s).bind hs fun host t _ ht hhost => ?_
  have hdirectory : (d.resolveDirectory host).Wanders t (fun _ _ => True) := by
    unfold resolveDirectory
    cases d.directory with
    | some directory => exact .pure trivial
    | none => exact (Host.text?_wanders ht hhost _).bind ht fun _ _ _ _ _ => .pure trivial
  refine hdirectory.bind ht fun directory u grows hu _ => ?_
  have hhost := grows.hosts hhost
  have hname : (d.resolveFileName host now).Wanders u (fun _ _ => True) := by
    unfold resolveFileName
    cases d.fileName with
    | some name => exact .pure trivial
    | none =>
        refine (Host.identifier_wanders hu hhost).bind hu fun identifier v grows hv _ => ?_
        refine (Host.text?_wanders hv (grows.hosts hhost) _).bind hv fun version _ _ _ _ => ?_
        split <;> exact .pure trivial
  exact hname.bind hu fun _ _ _ _ _ => .pure trivial

/-! ## The survey -/

theorem TypeView.survey_wanders (hs : s.Intact) {t : TypeView} (ht : s.Shows t) :
    t.survey.Wanders s (fun _ _ => True) := by
  refine (class?_lasts hs ht (by decide)).gathers.bind hs fun _ u grows hu _ => ?_
  have ht := grows.shows ht
  refine (name_notes hu ht (by decide)).gathers.bind hu fun _ v grows hv _ => ?_
  exact (kind_notes hv (grows.shows ht) (by decide)).gathers.bind hv
    fun _ _ _ _ _ => .pure trivial

theorem Field.survey_wanders (hs : s.Intact) {f : Field} (hf : s.Shows f) :
    f.survey.Wanders s (fun _ _ => True) := by
  refine (name_notes hs hf (by decide)).gathers.bind hs fun _ t grows ht _ => ?_
  have hf := grows.shows hf
  refine (type_notes ht hf (by decide)).gathers.bind ht fun type u grows hu htype => ?_
  have hf := grows.shows hf
  refine (TypeView.survey_wanders hu htype).bind hu fun _ v grows hv _ => ?_
  have hf := grows.shows hf
  refine (offset_notes hv hf (by decide)).gathers.bind hv fun _ w grows hw _ => ?_
  exact (flags_notes hw (grows.shows hf) (by decide)).gathers.bind hw
    fun _ _ _ _ _ => .pure trivial

theorem Method.survey_wanders (hs : s.Intact) {m : Method} (hm : s.Shows m) :
    m.survey.Wanders s (fun _ _ => True) := by
  refine (parameters_notes hs hm (by decide)).gathers.bind hs fun ps t grows ht hps => ?_
  have hm := grows.shows hm
  refine (Gathers.mapM (G := fun (p : Parameter) t => t.Shows p.type) (R := fun _ _ => True)
    (fun _ _ _ grows hp => grows.shows hp) (fun _ _ _ _ _ => trivial) ht hps
    fun p _ t ht hp => (TypeView.survey_wanders ht hp).bind ht
      fun _ _ _ _ _ => .pure trivial).bind ht fun _ u grows hu _ => ?_
  have hm := grows.shows hm
  refine (name_notes hu hm (by decide)).gathers.bind hu fun _ v grows hv _ => ?_
  have hm := grows.shows hm
  refine (returnType_notes hv hm (by decide)).gathers.bind hv fun type w grows hw htype => ?_
  have hm := grows.shows hm
  refine (TypeView.survey_wanders hw htype).bind hw fun _ a grows ha _ => ?_
  have hm := grows.shows hm
  refine (flags_notes ha hm (by decide)).gathers.bind ha fun _ b grows hb _ => ?_
  have hm := grows.shows hm
  refine (isGeneric_notes hb hm (by decide)).gathers.bind hb fun _ c grows hc _ => ?_
  have hm := grows.shows hm
  refine (typeParameterCount_notes hc hm (by decide)).gathers.bind hc fun _ d grows hd _ => ?_
  have hm := grows.shows hm
  refine (isInflated_notes hd hm (by decide)).gathers.bind hd fun _ e grows he _ => ?_
  exact (addressToken_memoizes he (grows.shows hm) (by decide)).gathers.bind he
    fun _ _ _ _ _ => .pure trivial

theorem Class.survey_wanders (hs : s.Intact) {c : Class} (hc : s.Shows c) :
    c.survey.Wanders s (fun _ _ => True) := by
  refine (fields_notes hs hc (by decide)).gathers.bind hs fun fs t grows ht hfs => ?_
  have hc := grows.shows hc
  refine (Gathers.mapM (G := fun (f : Field) t => t.Shows f) (R := fun _ _ => True)
    (fun _ _ _ grows hf => grows.shows hf) (fun _ _ _ _ _ => trivial) ht hfs
    fun f _ _ ht hf => Field.survey_wanders ht hf).bind ht fun _ u grows hu _ => ?_
  have hc := grows.shows hc
  refine (methods_notes hu hc (by decide)).gathers.bind hu fun ms v grows hv hms => ?_
  have hc := grows.shows hc
  refine (Gathers.mapM (G := fun (m : Method) t => t.Shows m) (R := fun _ _ => True)
    (fun _ _ _ grows hm => grows.shows hm) (fun _ _ _ _ _ => trivial) hv hms
    fun m _ _ ht hm => Method.survey_wanders ht hm).bind hv fun _ w grows hw _ => ?_
  have hc := grows.shows hc
  refine (name_notes hw hc (by decide)).gathers.bind hw fun _ t grows ht _ => ?_
  have hc := grows.shows hc
  refine (namespace_notes ht hc (by decide)).gathers.bind ht fun _ u grows hu _ => ?_
  have hc := grows.shows hc
  refine (type_notes hu hc (by decide)).gathers.bind hu fun type v grows hv htype => ?_
  have hc := grows.shows hc
  refine (TypeView.survey_wanders hv htype).bind hv fun _ w grows hw _ => ?_
  have hc := grows.shows hc
  refine (assemblyName_memoizes hw hc (by decide)).gathers.bind hw fun _ t grows ht _ => ?_
  have hc := grows.shows hc
  refine (parent_notes ht hc (by decide)).gathers.bind ht fun _ u grows hu _ => ?_
  have hc := grows.shows hc
  refine (declaringClass_notes hu hc (by decide)).gathers.bind hu fun _ v grows hv _ => ?_
  have hc := grows.shows hc
  refine (interfaces_notes hv hc (by decide)).gathers.bind hv fun _ w grows hw _ => ?_
  have hc := grows.shows hc
  refine (flags_notes hw hc (by decide)).gathers.bind hw fun _ t grows ht _ => ?_
  have hc := grows.shows hc
  refine (kind_notes ht hc (by decide)).gathers.bind ht fun _ u grows hu _ => ?_
  have hc := grows.shows hc
  refine (isGeneric_notes hu hc (by decide)).gathers.bind hu fun _ v grows hv _ => ?_
  exact (typeParameterCount_notes hv (grows.shows hc) (by decide)).gathers.bind hv
    fun _ _ _ _ _ => .pure trivial

theorem Assembly.survey_wanders (hs : s.Intact) {a : Assembly} (ha : s.Shows a) :
    a.survey.Wanders s (fun _ _ => True) := by
  refine (image_notes hs ha (by decide)).gathers.bind hs fun i t grows ht hi => ?_
  have ha := grows.shows ha
  refine (Image.classes_notes ht hi (by decide)).gathers.bind ht
    fun cs u grows hu hcs => ?_
  have ha := grows.shows ha
  have hi := grows.shows hi
  refine (Gathers.mapM (G := fun (c : Class) t => t.Shows c) (R := fun _ _ => True)
    (fun _ _ _ grows hc => grows.shows hc) (fun _ _ _ _ _ => trivial) hu hcs
    fun c _ _ ht hc => Class.survey_wanders ht hc).bind hu fun _ v grows hv _ => ?_
  have ha := grows.shows ha
  have hi := grows.shows hi
  refine (name_notes hv ha (by decide)).gathers.bind hv fun _ w grows hw _ => ?_
  have hi := grows.shows hi
  refine (Image.name_notes hw hi (by decide)).gathers.bind hw fun _ t grows ht _ => ?_
  have hi := grows.shows hi
  refine (Image.classStart_notes ht hi (by decide)).gathers.bind ht fun _ u grows hu _ => ?_
  exact (Image.classCount_notes hu (grows.shows hi) (by decide)).gathers.bind hu
    fun _ _ _ _ _ => .pure trivial

theorem survey_wanders (hs : s.Intact) : survey.Wanders s (fun _ _ => True) := by
  refine (Query.domain_gathers hs).bind hs fun d t _ ht hd => ?_
  refine (Domain.assemblies_notes ht hd (by decide)).gathers.bind ht fun as u _ hu has => ?_
  exact (Gathers.mapM (G := fun (a : Assembly) t => t.Shows a) (R := fun _ _ => True)
    (fun _ _ _ grows ha => grows.shows ha) (fun _ _ _ _ _ => trivial) hu has
    fun a _ _ ht ha => Assembly.survey_wanders ht ha).loose

end VmMetadata
