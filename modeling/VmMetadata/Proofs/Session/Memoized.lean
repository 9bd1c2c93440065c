import VmMetadata.Inspect.Declaration
import VmMetadata.Proofs.Session.Gathers

/-!
The getters whose answers are noted, and those that are made of such getters: the flags, the names of
types, the look-up of members by name, and the declarations. Main statements: each of them keeps what
it has answered, or, where it makes a new view each time, keeps what object the view shows.
-/

namespace VmMetadata

open Query (Gathers Memoizes Notes)

variable {n : Nat} {s : Session}

/-! ## New views of the same object -/

namespace Session

/-- The machine is as before, and nothing was called but what never changes. -/
structure Undisturbed (u v : Session) : Prop where
  vm : v.vm = u.vm
  faults : v.probe.faults = u.probe.faults
  calls : ∃ calls : List AnyCall, (∀ c ∈ calls, c.2.isConstant = true) ∧
    v.probe.calls = calls ++ u.probe.calls

theorem Hushed.undisturbed {u v : Session} (h : u.Hushed v) : u.Undisturbed v := by
  obtain ⟨calls, hcalls, rfl⟩ := h
  exact ⟨rfl, rfl, calls, hcalls, rfl⟩

end Session

namespace Query

/-- At any later time the query answers, the answers are not told apart, and the machine is not
asked. -/
def Repeats (x : Query α) (seen : α → β) (t : Session) (a : α) : Prop :=
  ∀ u, t.Grows u → ∃ b v, x u = .ok b v ∧ seen b = seen a ∧ u.Undisturbed v

theorem Recalls.repeats {x : Query α} {t : Session} {a : α} (h : x.Recalls t a) :
    x.Repeats id t a := by
  intro u htu
  obtain ⟨v, hv, huv⟩ := h u htu
  exact ⟨a, v, hv, rfl, huv.undisturbed⟩

/-- The query leaves a trail, and what is seen of its answer does not change any more. -/
structure Lasts (n : Nat) (x : Query α) (seen : α → β) (s : Session)
    (P : α → Session → Prop) : Prop where
  gathers : x.Gathers n s P
  repeats : ∀ a t, x s = .ok a t → x.Repeats seen t a

theorem Memoizes.lasts {x : Query α} {P : α → Session → Prop} (h : x.Memoizes n s P) :
    x.Lasts n id s P :=
  ⟨h.gathers, fun a t hrun => (h.recalls a t hrun).repeats⟩

/-- New views of an object whose handle is kept. -/
theorem Memoizes.lasts_view {x : Query Handle} (hs : s.Intact)
    (hx : x.Memoizes n s (fun h _ => h ≠ .null)) (e : Entity) :
    Lasts n (do Query.view e (← x)) View.handle s (fun v t => t.Shows v) where
  gathers := hx.gathers.bind hs fun h _ _ _ _ => (Gathers.view e h).weaken fun _ _ hv => hv.1
  repeats := fun a t hrun u htu => by
    obtain ⟨k, t₁, hk, hview⟩ := bind_eq_ok.mp hrun
    have hne : k ≠ .null := (hx.gathers.of_ok hk).2
    rw [view_of_ne_null hne] at hview
    cases hview
    obtain ⟨v, hv, huv⟩ := hx.recalls k t₁ hk u ((t₁.grows_paged k).trans htu)
    have hsame := huv.undisturbed
    exact ⟨_, _, (bind_ok hv).trans (view_of_ne_null hne e v), rfl, hsame.vm, hsame.faults,
      hsame.calls⟩

/-- The new view is not what fails. -/
theorem Memoizes.error_of_view {x : Query Handle} {e : Entity} {t : Session} {error : Error}
    (hx : x.Memoizes n s (fun h _ => h ≠ .null))
    (h : (do Query.view e (← x)) s = .error error t) : x s = .error error t := by
  cases hrun : x s with
  | ok k t₁ =>
      rw [bind_ok hrun, view_of_ne_null (hx.gathers.of_ok hrun).2] at h
      cases h
  | error error' t₁ =>
      rw [bind_error hrun] at h
      cases h
      rfl

/-- New views of an object whose handle is kept, if there is one. -/
theorem Memoizes.lasts_viewAny {x : Query (Option Handle)} (hs : s.Intact)
    (hx : x.Memoizes n s (fun h? _ => ∀ h ∈ h?, h ≠ .null)) (e : Entity) :
    Lasts n (do
        match ← x with
        | some h => some <$> Query.view e h
        | none => Pure.pure none)
      (Option.map View.handle) s (fun v? t => ∀ v ∈ v?, t.Shows v) where
  gathers := hx.gathers.bind hs fun h? t _ ht _ => by
    cases h? with
    | none => exact .pure (by simp)
    | some h =>
        refine ((Gathers.view e h).map ht some).weaken ?_
        rintro _ u ⟨v, hv, rfl⟩ w hw
        cases hw
        exact hv.1
  repeats := fun a t hrun u htu => by
    obtain ⟨h?, t₁, hnote, hrest⟩ := bind_eq_ok.mp hrun
    have hne := (hx.gathers.of_ok hnote).2
    cases h? with
    | none =>
        cases hrest
        obtain ⟨v, hv, huv⟩ := hx.recalls none _ hnote u htu
        exact ⟨none, v, bind_ok hv, rfl, huv.undisturbed⟩
    | some k =>
        have hview (w : Session) :
            (some <$> Query.view e k) w = .ok (some ⟨k, w.notebook.next⟩) (w.paged k) := by
          rw [map_eq_pure_bind]
          exact bind_ok (view_of_ne_null (hne k rfl) e w)
        change (some <$> Query.view e k) t₁ = _ at hrest
        rw [hview] at hrest
        cases hrest
        obtain ⟨v, hv, huv⟩ := hx.recalls (some k) t₁ hnote u ((t₁.grows_paged k).trans htu)
        have hsame := huv.undisturbed
        exact ⟨_, _, (bind_ok hv).trans (hview v), rfl, hsame.vm, hsame.faults, hsame.calls⟩

theorem Memoizes.error_of_viewAny {x : Query (Option Handle)} {e : Entity} {t : Session}
    {error : Error} (hx : x.Memoizes n s (fun h? _ => ∀ h ∈ h?, h ≠ .null))
    (h : (do
        match ← x with
        | some h => some <$> Query.view e h
        | none => Pure.pure none) s = .error error t) : x s = .error error t := by
  cases hrun : x s with
  | ok h? t₁ =>
      rw [bind_ok hrun] at h
      cases h? with
      | none => cases h
      | some k =>
          change (some <$> Query.view e k) t₁ = _ at h
          rw [map_eq_pure_bind,
            bind_ok (view_of_ne_null ((hx.gathers.of_ok hrun).2 k rfl) e t₁)] at h
          cases h
  | error error' t₁ =>
      rw [bind_error hrun] at h
      cases h
      rfl

end Query

/-! ## Types and fields -/

namespace TypeView

variable (hs : s.Intact) {t : TypeView} (ht : s.Shows t) (hn : 0 < n)
include hs ht hn

theorem name_notes : Notes n t.page .typeName t.name s :=
  .remember hs ht.2 hn rfl (.call _ (ht.serves rfl rfl))

theorem kind_notes : Notes n t.page .typeKind t.kind s :=
  .remember hs ht.2 hn rfl
    ((Gathers.call (.typeKind t.handle) (ht.serves rfl rfl)).map hs TypeKind.ofTag).loose

theorem classNote_notes :
    Notes n t.page .typeClass (Fact.getter t.handle t.page .typeClass) s := by
  refine .remember hs ht.2 hn rfl ?_
  refine ((Gathers.call (.typeClass t.handle) (ht.serves rfl rfl)).map hs Handle.nonNull?).weaken ?_
  rintro _ u ⟨h, _, rfl⟩ k hk
  exact Handle.ne_null_of_nonNull? hk

theorem class?_lasts : t.class?.Lasts n (Option.map View.handle) s
    (fun c? u => ∀ c ∈ c?, u.Shows c) :=
  (classNote_notes hs ht hn).lasts_viewAny hs .class_

end TypeView

namespace Field

variable (hs : s.Intact) {f : Field} (hf : s.Shows f) (hn : 0 < n)
include hs hf hn

theorem name_notes : Notes n f.page .fieldName f.name s :=
  .remember hs hf.2 hn rfl (.call _ (hf.serves rfl rfl))

theorem type_notes : Notes n f.page .fieldType f.type s :=
  .remember hs hf.2 hn rfl (.viewOf hs .type _ (hf.serves rfl rfl))

theorem offset_notes : Notes n f.page .fieldOffset f.offset s :=
  .remember hs hf.2 hn rfl (.call _ (hf.serves rfl rfl))

theorem flags_notes : Notes n f.page .fieldFlags f.flags s :=
  .remember hs hf.2 hn rfl (.call _ (hf.serves rfl rfl))

theorem modifiers_memoizes : f.modifiers.Memoizes n s (fun _ _ => True) := by
  refine ((flags_notes hs hf hn).map hs _).bind hs fun isLiteral t grows ht _ => ?_
  have hf := grows.shows hf
  cases isLiteral with
  | true => exact .pure trivial
  | false =>
      refine ((flags_notes ht hf hn).map ht _).bind ht fun isStatic u grows hu _ => ?_
      exact ((flags_notes hu (grows.shows hf) hn).map hu _).bind hu fun _ _ _ _ _ =>
        .pure trivial

theorem place_memoizes : f.place.Memoizes n s (fun _ _ => True) := by
  refine ((flags_notes hs hf hn).map hs _).bind hs fun isLiteral t grows ht _ => ?_
  cases isLiteral with
  | true => exact .pure trivial
  | false => exact (offset_notes ht (grows.shows hf) hn).map ht _

theorem declaration_memoizes : f.declaration.Memoizes n s (fun _ _ => True) := by
  refine (modifiers_memoizes hs hf hn).bind hs fun _ t grows ht _ => ?_
  have hf := grows.shows hf
  refine (type_notes ht hf hn).bind ht fun type u grows hu htype => ?_
  have hf := grows.shows hf
  refine (TypeView.name_notes hu htype hn).bind hu fun _ v grows hv _ => ?_
  have hf := grows.shows hf
  refine (name_notes hv hf hn).bind hv fun _ w grows hw _ => ?_
  exact (place_memoizes hw (grows.shows hf) hn).bind hw fun _ _ _ _ _ => .pure trivial

end Field

/-! ## Methods -/

namespace Method

theorem readParameters_gathers {m : Method} : ∀ (count position : Nat) {s : Session}, s.Intact →
    s.Shows m →
    (m.readParameters position count).Gathers n s (fun ps t => ∀ p ∈ ps, t.Shows p.type)
  | 0, _, _, _, _ => .pure (by simp)
  | count + 1, position, _, hs, hm => by
      refine (Gathers.call (.methodParameterName m.handle position) (hm.serves rfl rfl)).bind hs
        fun name t grows ht _ => ?_
      have hm := grows.shows hm
      refine (Gathers.call (.methodParameterType m.handle position) (hm.serves rfl rfl)).bind ht
        fun k u grows hu _ => ?_
      have hm := grows.shows hm
      refine (Gathers.view .type k).bind hu fun type v grows hv htype => ?_
      have hm := grows.shows hm
      refine (readParameters_gathers count (position + 1) hv hm).bind hv
        fun rest w grows _ hrest => .pure ?_
      exact List.forall_mem_cons.mpr ⟨grows.shows htype.1, hrest⟩

theorem parameterText_memoizes (hs : s.Intact) {p : Parameter} (hp : s.Shows p.type) (hn : 0 < n) :
    p.text.Memoizes n s (fun _ _ => True) :=
  (TypeView.name_notes hs hp hn).map hs _

variable (hs : s.Intact) {m : Method} (hm : s.Shows m) (hn : 0 < n)
include hs hm hn

theorem name_notes : Notes n m.page .methodName m.name s :=
  .remember hs hm.2 hn rfl (.call _ (hm.serves rfl rfl))

theorem class_notes : Notes n m.page .methodClass m.class_ s :=
  .remember hs hm.2 hn rfl (.viewOf hs .class_ _ (hm.serves rfl rfl))

theorem returnType_notes : Notes n m.page .methodReturnType m.returnType s :=
  .remember hs hm.2 hn rfl (.viewOf hs .type _ (hm.serves rfl rfl))

theorem parameters_notes :
    Notes n m.page .methodParameters m.parameters s :=
  .remember hs hm.2 hn rfl ((Gathers.call (.methodParameterCount m.handle) (hm.serves rfl rfl)).bind hs
    fun count _ grows ht _ => readParameters_gathers count 0 ht (grows.shows hm))

theorem flags_notes : Notes n m.page .methodFlags m.flags s :=
  .remember hs hm.2 hn rfl (.call _ (hm.serves rfl rfl))

theorem isGeneric_notes : Notes n m.page .methodIsGeneric m.isGeneric s :=
  .remember hs hm.2 hn rfl (.call _ (hm.serves rfl rfl))

theorem isInflated_notes : Notes n m.page .methodIsInflated m.isInflated s :=
  .remember hs hm.2 hn rfl (.call _ (hm.serves rfl rfl))

theorem typeParameterCount_notes : Notes n m.page .methodTypeParameterCount m.typeParameterCount s :=
  .remember hs hm.2 hn rfl (.call _ (hm.serves rfl rfl))

theorem pointer_notes :
    Notes n m.page .methodPointer (Fact.getter m.handle m.page .methodPointer) s :=
  .remember hs hm.2 hn rfl (.call _ (hm.serves rfl rfl))

theorem virtualAddress_memoizes : m.virtualAddress.Memoizes n s (fun _ _ => True) :=
  (pointer_notes hs hm hn).map hs _

/-- The module base is asked for each time. -/
theorem relativeVirtualAddress_memoizes :
    m.relativeVirtualAddress.Memoizes n s (fun _ _ => True) := by
  refine (Memoizes.constant .moduleBase rfl).bind hs fun base t grows ht _ => ?_
  exact (virtualAddress_memoizes ht (grows.shows hm) hn).map ht _

theorem addressToken_memoizes : m.addressToken?.Memoizes n s (fun _ _ => True) := by
  refine (virtualAddress_memoizes hs hm hn).bind hs fun address? t _ ht _ => ?_
  cases address? with
  | none => exact .pure trivial
  | some address =>
      refine (Memoizes.constant .moduleBase rfl).bind ht fun base u _ hu _ => ?_
      cases hrelative : relativeTo? base address with
      | some offset =>
          exact .pure trivial
      | none =>
          exact (Memoizes.constant .pointerSize rfl).map hu _

theorem dispatch_memoizes : m.dispatch.Memoizes n s (fun _ _ => True) := by
  refine ((flags_notes hs hm hn).map hs _).bind hs fun isAbstract t grows ht _ => ?_
  cases isAbstract with
  | true => exact .pure trivial
  | false => exact ((flags_notes ht (grows.shows hm) hn).map ht _).map ht _

theorem ownParameters_memoizes : m.ownParameters.Memoizes n s (fun _ _ => True) := by
  refine (isGeneric_notes hs hm hn).bind hs fun isGeneric t grows ht _ => ?_
  cases isGeneric with
  | true => exact (typeParameterCount_notes ht (grows.shows hm) hn).map ht _
  | false => exact .pure trivial

theorem place_memoizes : m.place.Memoizes n s (fun _ _ => True) := by
  refine (addressToken_memoizes hs hm hn).bind hs fun token? _ _ _ _ => ?_
  cases token? <;> exact .pure trivial

theorem declaration_memoizes : m.declaration.Memoizes n s (fun _ _ => True) := by
  refine ((flags_notes hs hm hn).map hs _).bind hs fun isStatic t grows ht _ => ?_
  have hm := grows.shows hm
  refine (dispatch_memoizes ht hm hn).bind ht fun _ u grows hu _ => ?_
  have hm := grows.shows hm
  refine (returnType_notes hu hm hn).bind hu fun type v grows hv htype => ?_
  have hm := grows.shows hm
  refine (TypeView.name_notes hv htype hn).bind hv fun _ w grows hw _ => ?_
  have hm := grows.shows hm
  refine (name_notes hw hm hn).bind hw fun _ a grows ha _ => ?_
  have hm := grows.shows hm
  refine (ownParameters_memoizes ha hm hn).bind ha fun _ b grows hb _ => ?_
  have hm := grows.shows hm
  refine (parameters_notes hb hm hn).bind hb fun ps c grows hc hps => ?_
  have hm := grows.shows hm
  refine (Memoizes.mapM (G := fun (p : Parameter) t => t.Shows p.type) (R := fun _ _ => True)
    (fun _ _ _ grows hp => grows.shows hp) (fun _ _ _ _ _ => trivial) hc hps
    fun p _ _ ht hp => parameterText_memoizes ht hp hn).bind hc fun _ d grows hd _ => ?_
  exact (place_memoizes hd (grows.shows hm) hn).bind hd fun _ _ _ _ _ => .pure trivial

end Method

/-! ## Classes -/

theorem Image.name_notes (hs : s.Intact) {i : Image} (hi : s.Shows i) (hn : 0 < n) :
    Notes n i.page .imageName i.name s :=
  .remember hs hi.2 hn rfl (.call _ (hi.serves rfl rfl))

namespace Class

theorem firstMethod_memoizes (name : String) (count : Option Nat) (hn : 0 < n) :
    ∀ {ms : List Method} {s : Session}, s.Intact → (∀ m ∈ ms, s.Shows m) →
      (firstMethod name count ms).Memoizes n s (fun m? t => ∀ m ∈ m?, t.Shows m)
  | [], _, _, _ => .pure (by simp)
  | m :: rest, _, hs, hms => by
      obtain ⟨hm, hrest⟩ := List.forall_mem_cons.mp hms
      unfold firstMethod
      refine (Method.name_notes hs hm hn).bind hs fun found t grows ht _ => ?_
      have hm := grows.shows hm
      have hrest := grows.showsEach hrest
      split
      · exact firstMethod_memoizes name count hn ht hrest
      · cases count with
        | none =>
            refine .pure fun d hd => ?_
            cases hd
            exact hm
        | some k =>
            refine (Method.parameters_notes ht hm hn).bind ht fun ps u grows hu _ => ?_
            split
            · refine .pure fun d hd => ?_
              cases hd
              exact grows.shows hm
            · exact firstMethod_memoizes name (some k) hn hu (grows.showsEach hrest)

theorem firstField_memoizes (name : String) (hn : 0 < n) :
    ∀ {fs : List Field} {s : Session}, s.Intact → (∀ f ∈ fs, s.Shows f) →
      (firstField name fs).Memoizes n s (fun f? t => ∀ f ∈ f?, t.Shows f)
  | [], _, _, _ => .pure (by simp)
  | f :: rest, _, hs, hfs => by
      obtain ⟨hf, hrest⟩ := List.forall_mem_cons.mp hfs
      unfold firstField
      refine (Field.name_notes hs hf hn).bind hs fun found t grows ht _ => ?_
      split
      · refine .pure fun d hd => ?_
        cases hd
        exact grows.shows hf
      · exact firstField_memoizes name hn ht (grows.showsEach hrest)

variable (hs : s.Intact) {c : Class} (hc : s.Shows c) (hn : 0 < n)
include hs hc hn

theorem name_notes : Notes n c.page .className c.name s :=
  .remember hs hc.2 hn rfl (.call _ (hc.serves rfl rfl))

theorem namespace_notes : Notes n c.page .classNamespace c.namespace_ s :=
  .remember hs hc.2 hn rfl (.call _ (hc.serves rfl rfl))

theorem type_notes : Notes n c.page .classType c.type s :=
  .remember hs hc.2 hn rfl (.viewOf hs .type _ (hc.serves rfl rfl))

theorem typeName_memoizes : c.typeName.Memoizes n s (fun _ _ => True) :=
  (type_notes hs hc hn).bind hs fun _ _ _ ht htype =>
    (TypeView.name_notes ht htype hn).toMemoizes

theorem image_notes : Notes n c.page .classImage c.image s :=
  .remember hs hc.2 hn rfl (.viewOf hs .image _ (hc.serves rfl rfl))

theorem assemblyName_memoizes : c.assemblyName.Memoizes n s (fun _ _ => True) :=
  (image_notes hs hc hn).bind hs fun _ _ _ ht hi =>
    (Image.name_notes ht hi hn).map ht _

theorem parent_notes : Notes n c.page .classParent c.parent s :=
  .remember hs hc.2 hn rfl (.callView hs .class_ _ (hc.serves rfl rfl))

theorem declaringClass_notes :
    Notes n c.page .classDeclaring c.declaringClass s :=
  .remember hs hc.2 hn rfl (.callView hs .class_ _ (hc.serves rfl rfl))

theorem interfaces_notes : Notes n c.page .classInterfaces c.interfaces s :=
  .remember hs hc.2 hn rfl (.viewsOf hs .class_ _ (hc.serves rfl rfl))

theorem fields_notes : Notes n c.page .classFields c.fields s :=
  .remember hs hc.2 hn rfl (.viewsOf hs .field _ (hc.serves rfl rfl))

theorem methods_notes : Notes n c.page .classMethods c.methods s :=
  .remember hs hc.2 hn rfl (.viewsOf hs .method _ (hc.serves rfl rfl))

theorem flags_notes : Notes n c.page .classFlags c.flags s :=
  .remember hs hc.2 hn rfl (.call _ (hc.serves rfl rfl))

theorem isGeneric_notes : Notes n c.page .classIsGeneric c.isGeneric s :=
  .remember hs hc.2 hn rfl (.call _ (hc.serves rfl rfl))

theorem isInflated_notes : Notes n c.page .classIsInflated c.isInflated s :=
  .remember hs hc.2 hn rfl (.call _ (hc.serves rfl rfl))

theorem typeParameterCount_notes : Notes n c.page .classParameterCount c.typeParameterCount s :=
  .remember hs hc.2 hn rfl (.call _ (hc.serves rfl rfl))

/-- The machine is asked until the kind is known. -/
theorem kind_notes : Notes n c.page .classKind c.kind s := by
  refine .remember hs hc.2 hn rfl ?_
  refine (Gathers.call (.classIsInterface c.handle) (hc.serves rfl rfl)).bind hs
    fun isInterface t grows ht _ => ?_
  have hc := grows.shows hc
  cases isInterface with
  | true => exact .pure trivial
  | false =>
      refine (Gathers.call (.classIsEnum c.handle) (hc.serves rfl rfl)).bind ht fun isEnum u grows hu _ => ?_
      have hc := grows.shows hc
      cases isEnum with
      | true => exact .pure trivial
      | false =>
          refine (Gathers.call (.classIsValueType c.handle) (hc.serves rfl rfl)).bind hu
            fun isValueType _ _ _ _ => ?_
          cases isValueType <;> exact .pure trivial

theorem method?_memoizes (name : String) (count : Option Nat) :
    (c.method? name count).Memoizes n s (fun m? t => ∀ m ∈ m?, t.Shows m) :=
  (methods_notes hs hc hn).bind hs fun _ _ _ ht hms =>
    firstMethod_memoizes name count hn ht hms

theorem field?_memoizes (name : String) :
    (c.field? name).Memoizes n s (fun f? t => ∀ f ∈ f?, t.Shows f) :=
  (fields_notes hs hc hn).bind hs fun _ _ _ ht hfs => firstField_memoizes name hn ht hfs

theorem modifierText_memoizes (kind : ClassKind) :
    (c.modifierText kind).Memoizes n s (fun _ _ => True) := by
  unfold modifierText
  split
  · refine ((flags_notes hs hc hn).map hs _).bind hs fun _ t grows ht _ => ?_
    exact ((flags_notes ht (grows.shows hc) hn).map ht _).map ht _
  · exact .pure trivial

theorem parentName_memoizes (kind : ClassKind) :
    (c.parentName kind).Memoizes n s (fun _ _ => True) := by
  refine (parent_notes hs hc hn).bind hs fun p? t _ ht hp => ?_
  cases p? with
  | none => exact .pure trivial
  | some p =>
      simp only []
      split
      · exact (typeName_memoizes ht (hp p rfl) hn).map ht _
      · exact .pure trivial

theorem inherited_memoizes (kind : ClassKind) :
    (c.inherited kind).Memoizes n s (fun _ _ => True) := by
  refine (parentName_memoizes hs hc hn kind).bind hs fun _ t grows ht _ => ?_
  refine (interfaces_notes ht (grows.shows hc) hn).bind ht fun is u _ hu his => ?_
  exact (Memoizes.mapM (G := fun (i : Class) t => t.Shows i) (R := fun _ _ => True)
    (fun _ _ _ grows hi => grows.shows hi) (fun _ _ _ _ _ => trivial) hu his
    fun i _ _ ht hi => typeName_memoizes ht hi hn).bind hu fun _ _ _ _ _ => .pure trivial

theorem declaration_memoizes : c.declaration.Memoizes n s (fun _ _ => True) := by
  refine (kind_notes hs hc hn).bind hs fun kind t grows ht _ => ?_
  have hc := grows.shows hc
  refine (image_notes ht hc hn).bind ht fun image u grows hu himage => ?_
  have hc := grows.shows hc
  refine (Image.name_notes hu himage hn).bind hu fun _ v grows hv _ => ?_
  have hc := grows.shows hc
  refine (modifierText_memoizes hv hc hn kind).bind hv fun _ w grows hw _ => ?_
  have hc := grows.shows hc
  refine (typeName_memoizes hw hc hn).bind hw fun _ a grows ha _ => ?_
  have hc := grows.shows hc
  refine (inherited_memoizes ha hc hn kind).bind ha fun _ b grows hb _ => ?_
  have hc := grows.shows hc
  refine (fields_notes hb hc hn).bind hb fun fs d grows hd hfs => ?_
  have hc := grows.shows hc
  refine (Memoizes.mapM (G := fun (f : Field) t => t.Shows f) (R := fun _ _ => True)
    (fun _ _ _ grows hf => grows.shows hf) (fun _ _ _ _ _ => trivial) hd hfs
    fun f _ _ ht hf => Field.declaration_memoizes ht hf hn).bind hd fun _ e grows he _ => ?_
  refine (methods_notes he (grows.shows hc) hn).bind he fun ms x _ hx hms => ?_
  exact (Memoizes.mapM (G := fun (m : Method) t => t.Shows m) (R := fun _ _ => True)
    (fun _ _ _ grows hm => grows.shows hm) (fun _ _ _ _ _ => trivial) hx hms
    fun m _ _ ht hm => Method.declaration_memoizes ht hm hn).bind hx fun _ _ _ _ _ => .pure trivial

end Class

end VmMetadata
