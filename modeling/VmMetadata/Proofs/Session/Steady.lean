import VmMetadata.Inspect.Declaration
import VmMetadata.Proofs.Session.Matches

/-!
Getters that make nothing in the machine. Each of them is steady: asked about one object, it finds
the same in a session with failures as in one without, or it fails. Main statements: the getters of
types, fields, methods and classes are steady, and so are the declarations.
-/

namespace VmMetadata

open Query (Matches)

namespace Query

/-- In two sessions that began alike, and of which the second has no failures, the query matches
itself on views of one object. -/
def Steady (b : Session) (x : View e → Query α) (P : Session → Session → α → α → Prop) : Prop :=
  ∀ s r v w, b.Beside s r → s.Twins r v w → Matches b (x v) (x w) s r P

/-- The query finds the same value, in which there are no views. -/
abbrev Settled (b : Session) (x : View e → Query α) : Prop :=
  Steady b x fun _ _ a c => a = c

/-- The getter of the fact finds the same value but for the pages of views. -/
abbrev Retells (b : Session) (f : Fact) (x : View e → Query f.Value) : Prop :=
  Steady b x fun t u v w => f.Twins t u v w

/-- The query finds a view of the same object. -/
abbrev Reaches (b : Session) (x : View e → Query (View k)) : Prop :=
  Steady b x fun t u v w => t.Twins u v w

/-- The query finds views of the same objects. -/
abbrev ReachesAll (b : Session) (x : View e → Query (List (View k))) : Prop :=
  Steady b x fun t u vs ws => List.Forall₂ (t.Twins u) vs ws

/-- The query finds a view of the same object, or both find none. -/
abbrev ReachesAny (b : Session) (x : View e → Query (Option (View k))) : Prop :=
  Steady b x fun t u v? w? => Option.Rel (t.Twins u) v? w?

variable {b : Session} {x : View e → Query α} {P Q : Session → Session → α → α → Prop}

namespace Steady

theorem weaken (hx : Steady b x P) (hPQ : ∀ t u a c, P t u a c → Q t u a c) : Steady b x Q :=
  fun s r v w on tw => (hx s r v w on tw).weaken hPQ

theorem pure (a : α) : Settled b fun _ : View e => Pure.pure a :=
  fun _ _ _ _ on _ => .pure on rfl

theorem bind {f : View e → α → Query β} {R : Session → Session → β → β → Prop}
    (hx : Steady b x P) (hf : ∀ t u v w a c, b.Beside t u → t.Twins u v w → P t u a c →
      Matches b (f v a) (f w c) t u R) : Steady b (fun v => x v >>= f v) R :=
  fun s r v w on tw => (hx s r v w on tw).bind fun t u a c on' h =>
    hf t u v w a c on'.toBeside (tw.grows on'.grows on'.grows') h

/-- A value without views, and what is made of it. -/
theorem andThen {f : View e → α → Query β} {R : Session → Session → β → β → Prop}
    (hx : Settled b x) (hf : ∀ a, Steady b (fun v => f v a) R) :
    Steady b (fun v => x v >>= f v) R :=
  hx.bind fun t u v w a _ on tw heq => heq ▸ hf a t u v w on tw

theorem map (hx : Settled b x) (f : α → β) : Settled b (fun v => do Pure.pure (f (← x v))) :=
  hx.andThen fun a => .pure (f a)

/-- What is asked about the view that was found. -/
theorem via {y : View e → Query (View k)} {f : View k → Query β}
    {R : Session → Session → β → β → Prop} (hy : Reaches b y) (hf : Steady b f R) :
    Steady b (fun v => y v >>= f) R :=
  hy.bind fun t u _ _ v w on _ tw => hf t u v w on tw

/-- What is asked about the view that was found, and what is made of the answer. -/
theorem viaThen {y : View e → Query (View k)} {f : View k → Query α} {g : View e → α → Query β}
    {R : Session → Session → β → β → Prop} (hy : Reaches b y) (hf : Settled b f)
    (hg : ∀ a, Steady b (fun v => g v a) R) : Steady b (fun v => y v >>= fun w => f w >>= g v) R :=
  hy.bind fun t u v w v' w' on tw tw' => (hf t u v' w' on tw').bind fun t' u' a _ on' heq =>
    heq ▸ hg a t' u' v w on'.toBeside (tw.grows on'.grows on'.grows')

/-- What is asked about each of the views that were found, and what is made of the answers. -/
theorem eachThen {y : View e → Query (List (View k))} {f : View k → Query α}
    {g : View e → List α → Query β} {R : Session → Session → β → β → Prop} (hy : ReachesAll b y)
    (hf : Settled b f) (hg : ∀ as, Steady b (fun v => g v as) R) :
    Steady b (fun v => y v >>= fun ws => ws.mapM f >>= g v) R :=
  hy.bind fun t u v w vs ws on tw htwins =>
    (Matches.mapM (G := fun t u v w => t.Twins u v w) (R := fun _ _ a c => a = c)
      (fun _ _ _ _ _ _ on tw => tw.grows on.grows on.grows') (fun _ _ _ _ _ _ _ heq => heq)
      (fun t u v w on tw => hf t u v w on tw) on htwins).bind fun t' u' as cs on' heq => by
        rw [List.forall₂_eq_eq_eq] at heq
        exact heq ▸ hg as t' u' v w on'.toBeside (tw.grows on'.grows on'.grows')

/-! ## Facts -/

/-- A fact of which no views are noted. -/
theorem same {f : Fact} {x : View e → Query f.Value} (hx : Retells b f x) :
    Steady b x fun _ _ v w => f.Same v w :=
  hx.weaken fun _ _ _ _ h => h.same

/-- The objects count, and not the views of them. -/
theorem handles {x : View e → Query (Option (View k))} (hx : ReachesAny b x) :
    Steady b x fun _ _ v? w? => v?.map View.handle = w?.map View.handle :=
  hx.weaken fun _ _ _ _ h => (Session.rel_twins.mp h).2.2

/-! ## Calls and notes -/

theorem ask (c : Handle → Call ρ) (hc : ∀ h, (c h).isStable = true) :
    Settled b fun v : View e => Query.ask (c v.handle) :=
  by
  intro s r v w on tw
  simp only [tw.handle]
  exact .ask on (hc _)

theorem view (k : Entity) (c : Handle → Call .handle) (hc : ∀ h, (c h).isStable = true) :
    Reaches b (fun v : View e => do Query.view k (← Query.ask (c v.handle))) :=
  by
  intro s r v w on tw
  simp only [tw.handle]
  exact .viewOf on k (hc _)

theorem viewAny (k : Entity) (c : Handle → Call .handle) (hc : ∀ h, (c h).isStable = true) :
    ReachesAny b (fun v : View e => do Query.view? k (← Query.ask (c v.handle))) :=
  by
  intro s r v w on tw
  simp only [tw.handle]
  exact .callView on k (hc _)

theorem views (k : Entity) (c : Handle → Call .handles) (hc : ∀ h, (c h).isStable = true) :
    ReachesAll b (fun v : View e => do (← Query.ask (c v.handle)).mapM (Query.view k)) :=
  by
  intro s r v w on tw
  simp only [tw.handle]
  exact .viewsOf on k (hc _)

/-- What is found about an object can be noted. -/
theorem remember (hb : b.Fresh) {f : Fact} (hf : f ≠ .descriptor) {find : View e → Query f.Value}
    (hgetter : ∀ h page, f.getter h page = Query.remember page f (find ⟨h, page⟩))
    (hfind : Retells b f find) : Retells b f fun v => Query.remember v.page f (find v) := by
  rintro s r ⟨h, page⟩ ⟨k, page'⟩ on ⟨⟨hne, hp⟩, ⟨_, hq⟩, rfl⟩
  exact .remember hb (hgetter h) (fun s r page page' on hp hq =>
    hfind s r ⟨h, page⟩ ⟨h, page'⟩ on ⟨⟨hne, hp⟩, ⟨hne, hq⟩, rfl⟩) on hf hp hq

end Steady

end Query

open Query

variable {b : Session} (hb : b.Fresh)

/-! ## Types and fields -/

namespace TypeView

include hb

theorem name_retells : Retells b .typeName name :=
  .remember hb (by decide) (fun _ _ => rfl) ((Steady.ask .typeName fun _ => rfl).weaken
    fun _ _ _ _ h => ⟨trivial, trivial, h⟩)

theorem kind_retells : Retells b .typeKind kind :=
  .remember hb (by decide) (fun _ _ => rfl) (((Steady.ask .typeKind fun _ => rfl).map
    TypeKind.ofTag).weaken fun _ _ _ _ h => ⟨trivial, trivial, h⟩)

theorem classNote_retells : Retells b .typeClass fun t : TypeView =>
    Fact.getter t.handle t.page .typeClass :=
  .remember hb (by decide) (fun _ _ => rfl) ((Steady.ask .typeClass fun _ => rfl).bind
    fun _ _ _ _ _ _ on _ heq => .pure on ⟨fun _ hk => Handle.ne_null_of_nonNull? hk,
      fun _ hk => Handle.ne_null_of_nonNull? hk, congrArg Handle.nonNull? heq⟩)

/-- A new view each time, of the class whose handle is noted. -/
theorem class?_reaches : ReachesAny b class? := by
  refine (classNote_retells hb).same.andThen fun h? => ?_
  cases h? with
  | none => exact fun _ _ _ _ on _ => .pure on .none
  | some h =>
      exact fun _ _ _ _ on _ => (Matches.view on .class_ h).bind
        fun _ _ _ _ on' tw => .pure on'.toBeside (.some tw)

end TypeView

namespace Field

include hb

theorem name_retells : Retells b .fieldName name :=
  .remember hb (by decide) (fun _ _ => rfl) ((Steady.ask .fieldName fun _ => rfl).weaken
    fun _ _ _ _ h => ⟨trivial, trivial, h⟩)

theorem type_retells : Retells b .fieldType type :=
  .remember hb (by decide) (fun _ _ => rfl) ((Steady.view .type .fieldType fun _ => rfl).weaken
    fun _ _ _ _ h => ⟨h.left, h.right, h.handle⟩)

theorem type_reaches : Reaches b type :=
  (type_retells hb).weaken fun _ _ _ _ h => ⟨h.left, h.right, h.same⟩

theorem offset_retells : Retells b .fieldOffset offset :=
  .remember hb (by decide) (fun _ _ => rfl) ((Steady.ask .fieldOffset fun _ => rfl).weaken
    fun _ _ _ _ h => ⟨trivial, trivial, h⟩)

theorem flags_retells : Retells b .fieldFlags flags :=
  .remember hb (by decide) (fun _ _ => rfl) ((Steady.ask .fieldFlags fun _ => rfl).weaken
    fun _ _ _ _ h => ⟨trivial, trivial, h⟩)

theorem modifiers_settled : Settled b modifiers := by
  have hflags := (flags_retells hb).same
  refine (hflags.map _).andThen fun isLiteral => ?_
  cases isLiteral with
  | true => exact .pure _
  | false => exact (hflags.map _).andThen fun isStatic => (hflags.map _).andThen fun _ => .pure _

theorem place_settled : Settled b place := by
  refine ((flags_retells hb).same.map _).andThen fun isLiteral => ?_
  cases isLiteral with
  | true => exact .pure _
  | false => exact (offset_retells hb).same.map _

theorem declaration_settled : Settled b declaration :=
  (modifiers_settled hb).andThen fun _ =>
    (type_reaches hb).viaThen (TypeView.name_retells hb).same fun _ =>
      (name_retells hb).same.andThen fun _ => (place_settled hb).map _

end Field

/-! ## Methods -/

namespace Method

/-- The parameters are read one after the other. -/
theorem readParameters_matches {m m' : Method} (hm : m.handle = m'.handle) :
    ∀ (count position : Nat) {s r : Session}, b.Beside s r →
      Matches b (m.readParameters position count) (m'.readParameters position count) s r
        fun t u ps qs => List.Forall₂ (t.TwinParameters u) ps qs
  | 0, _, _, _, on => .pure on .nil
  | count + 1, position, _, _, on => by
      unfold readParameters
      rw [hm]
      refine (Matches.ask on rfl).bind fun t u name name' on hname => ?_
      refine (Matches.ask on.toBeside rfl).bind fun t u type type' on htype => ?_
      cases hname
      cases htype
      refine (Matches.view on.toBeside .type type).bind fun t u v w on htwins => ?_
      refine (readParameters_matches hm count (position + 1) on.toBeside).bind
        fun t' u' ps qs on' hrest => .pure on'.toBeside ?_
      exact .cons ⟨rfl, rfl, htwins.grows on'.grows on'.grows'⟩ hrest

include hb

theorem name_retells : Retells b .methodName name :=
  .remember hb (by decide) (fun _ _ => rfl) ((Steady.ask .methodName fun _ => rfl).weaken
    fun _ _ _ _ h => ⟨trivial, trivial, h⟩)

theorem class_retells : Retells b .methodClass class_ :=
  .remember hb (by decide) (fun _ _ => rfl) ((Steady.view .class_ .methodClass fun _ => rfl).weaken
    fun _ _ _ _ h => ⟨h.left, h.right, h.handle⟩)

theorem returnType_retells : Retells b .methodReturnType returnType :=
  .remember hb (by decide) (fun _ _ => rfl) ((Steady.view .type .methodReturnType fun _ => rfl).weaken
    fun _ _ _ _ h => ⟨h.left, h.right, h.handle⟩)

theorem returnType_reaches : Reaches b returnType :=
  (returnType_retells hb).weaken fun _ _ _ _ h => ⟨h.left, h.right, h.same⟩

theorem parameters_retells : Retells b .methodParameters parameters :=
  .remember hb (by decide) (fun _ _ => rfl) (Steady.bind (Steady.ask .methodParameterCount
    fun _ => rfl) fun t u m m' count _ on tw heq => heq ▸
      (readParameters_matches tw.handle count 0 on).weaken fun _ _ _ _ h =>
        have h := Session.forall₂_twinParameters.mp h
        ⟨h.1, h.2.1, h.2.2⟩)

theorem flags_retells : Retells b .methodFlags flags :=
  .remember hb (by decide) (fun _ _ => rfl) ((Steady.ask .methodFlags fun _ => rfl).weaken
    fun _ _ _ _ h => ⟨trivial, trivial, h⟩)

theorem isGeneric_retells : Retells b .methodIsGeneric isGeneric :=
  .remember hb (by decide) (fun _ _ => rfl) ((Steady.ask .methodIsGeneric fun _ => rfl).weaken
    fun _ _ _ _ h => ⟨trivial, trivial, h⟩)

theorem isInflated_retells : Retells b .methodIsInflated isInflated :=
  .remember hb (by decide) (fun _ _ => rfl) ((Steady.ask .methodIsInflated fun _ => rfl).weaken
    fun _ _ _ _ h => ⟨trivial, trivial, h⟩)

theorem typeParameterCount_retells : Retells b .methodTypeParameterCount typeParameterCount :=
  .remember hb (by decide) (fun _ _ => rfl) ((Steady.ask .methodTypeParameterCount fun _ => rfl).weaken
    fun _ _ _ _ h => ⟨trivial, trivial, h⟩)

theorem pointer_retells : Retells b .methodPointer fun m : Method =>
    Fact.getter m.handle m.page .methodPointer :=
  .remember hb (by decide) (fun _ _ => rfl) ((Steady.ask .methodPointer fun _ => rfl).weaken
    fun _ _ _ _ h => ⟨trivial, trivial, h⟩)

theorem virtualAddress_settled : Settled b virtualAddress :=
  (pointer_retells hb).same.map _

theorem relativeVirtualAddress_settled : Settled b relativeVirtualAddress :=
  (Steady.ask (fun _ => .moduleBase) fun _ => rfl).andThen fun _ =>
    (virtualAddress_settled hb).map _

theorem addressToken_settled : Settled b addressToken? := by
  refine (virtualAddress_settled hb).andThen fun address? => ?_
  cases address? with
  | none => exact .pure none
  | some address =>
      refine (Steady.ask (fun _ => .moduleBase) fun _ => rfl).andThen fun base => ?_
      cases relativeTo? base address with
      | some offset => exact .pure _
      | none => exact (Steady.ask (fun _ => .pointerSize) fun _ => rfl).map _

theorem dispatch_settled : Settled b dispatch := by
  have hflags := (flags_retells hb).same
  refine (hflags.map _).andThen fun isAbstract => ?_
  cases isAbstract with
  | true => exact .pure _
  | false => exact (hflags.map _).map _

theorem ownParameters_settled : Settled b ownParameters := by
  refine (isGeneric_retells hb).same.andThen fun isGeneric => ?_
  cases isGeneric with
  | true => exact (typeParameterCount_retells hb).same.map _
  | false => exact .pure _

theorem place_settled : Settled b place := by
  refine (addressToken_settled hb).andThen fun token? => ?_
  cases token? <;> exact .pure _

/-- The parameters as text, and what is made of it. -/
theorem parametersThen_steady {g : Method → List String → Query α}
    {R : Session → Session → α → α → Prop} (hg : ∀ texts, Steady b (fun m => g m texts) R) :
    Steady b (fun m : Method => parameters m >>= fun ps => ps.mapM Parameter.text >>= g m) R := by
  refine (parameters_retells hb).bind fun t u m m' ps qs on tw h => ?_
  have hps := Session.forall₂_twinParameters.mpr ⟨h.left, h.right, h.same⟩
  refine (Matches.mapM (R := fun _ _ a c => a = c)
    (fun _ _ _ _ _ _ on h => ⟨h.position, h.name, h.type.grows on.grows on.grows'⟩)
    (fun _ _ _ _ _ _ _ heq => heq) (fun t u p q on h => ?_) on hps).bind
    fun t' u' as cs on' heq => ?_
  · refine ((TypeView.name_retells hb).same t u _ _ on h.type).bind fun _ _ name _ on' heq => ?_
    cases show name = _ from heq
    exact .pure on'.toBeside (by rw [h.name])
  · rw [List.forall₂_eq_eq_eq] at heq
    exact heq ▸ hg as t' u' m m' on'.toBeside (tw.grows on'.grows on'.grows')

theorem declaration_settled : Settled b declaration :=
  ((flags_retells hb).same.map _).andThen fun _ => (dispatch_settled hb).andThen fun _ =>
    (returnType_reaches hb).viaThen (TypeView.name_retells hb).same fun _ =>
      (name_retells hb).same.andThen fun _ => (ownParameters_settled hb).andThen fun _ =>
        parametersThen_steady hb fun _ => (place_settled hb).map _

end Method

/-! ## Objects and arrays -/

/-- A handle is noted once it is known not to be null. -/
theorem Object.classNote_retells (hb : b.Fresh) : Retells b .objectClass fun o : Object =>
    Fact.getter o.handle o.page .objectClass :=
  .remember hb (by decide) (fun _ _ => rfl) ((Steady.ask .objectClass fun _ => rfl).bind
    fun _ _ _ _ h _ on _ heq => heq ▸ (Matches.require on h "object class").weaken
      fun _ _ _ _ h => ⟨h.2, h.1 ▸ h.2, h.1⟩)

theorem ArrayView.length_retells (hb : b.Fresh) : Retells b .arrayLength length :=
  .remember hb (by decide) (fun _ _ => rfl) ((Steady.ask .arrayLength fun _ => rfl).weaken
    fun _ _ _ _ h => ⟨trivial, trivial, h⟩)

/-! ## Classes -/

section

include hb

namespace Image

theorem name_retells : Retells b .imageName name :=
  .remember hb (by decide) (fun _ _ => rfl) ((Steady.ask .imageName fun _ => rfl).weaken
    fun _ _ _ _ h => ⟨trivial, trivial, h⟩)

end Image

namespace Class

theorem name_retells : Retells b .className name :=
  .remember hb (by decide) (fun _ _ => rfl) ((Steady.ask .className fun _ => rfl).weaken
    fun _ _ _ _ h => ⟨trivial, trivial, h⟩)

theorem namespace_retells : Retells b .classNamespace namespace_ :=
  .remember hb (by decide) (fun _ _ => rfl) ((Steady.ask .classNamespace fun _ => rfl).weaken
    fun _ _ _ _ h => ⟨trivial, trivial, h⟩)

theorem type_retells : Retells b .classType type :=
  .remember hb (by decide) (fun _ _ => rfl) ((Steady.view .type .classType fun _ => rfl).weaken
    fun _ _ _ _ h => ⟨h.left, h.right, h.handle⟩)

theorem type_reaches : Reaches b type :=
  (type_retells hb).weaken fun _ _ _ _ h => ⟨h.left, h.right, h.same⟩

theorem typeName_settled : Settled b typeName :=
  (type_reaches hb).via (TypeView.name_retells hb).same

theorem image_retells : Retells b .classImage image :=
  .remember hb (by decide) (fun _ _ => rfl) ((Steady.view .image .classImage fun _ => rfl).weaken
    fun _ _ _ _ h => ⟨h.left, h.right, h.handle⟩)

theorem image_reaches : Reaches b image :=
  (image_retells hb).weaken fun _ _ _ _ h => ⟨h.left, h.right, h.same⟩

theorem assemblyName_settled : Settled b assemblyName :=
  (image_reaches hb).viaThen (Image.name_retells hb).same fun _ => .pure _

theorem parent_retells : Retells b .classParent parent :=
  .remember hb (by decide) (fun _ _ => rfl) ((Steady.viewAny .class_ .classParent fun _ => rfl).weaken
    fun _ _ _ _ h => have h := Session.rel_twins.mp h; ⟨h.1, h.2.1, h.2.2⟩)

theorem parent_reaches : ReachesAny b parent :=
  (parent_retells hb).weaken fun _ _ _ _ h => Session.rel_twins.mpr ⟨h.left, h.right, h.same⟩

theorem declaringClass_retells : Retells b .classDeclaring declaringClass :=
  .remember hb (by decide) (fun _ _ => rfl) ((Steady.viewAny .class_ .classDeclaringType fun _ => rfl).weaken
    fun _ _ _ _ h => have h := Session.rel_twins.mp h; ⟨h.1, h.2.1, h.2.2⟩)

theorem interfaces_retells : Retells b .classInterfaces interfaces :=
  .remember hb (by decide) (fun _ _ => rfl) ((Steady.views .class_ .classInterfaces fun _ => rfl).weaken
    fun _ _ _ _ h => have h := Session.forall₂_twins.mp h; ⟨h.1, h.2.1, h.2.2⟩)

theorem interfaces_reach : ReachesAll b interfaces :=
  (interfaces_retells hb).weaken fun _ _ _ _ h =>
    Session.forall₂_twins.mpr ⟨h.left, h.right, h.same⟩

theorem fields_retells : Retells b .classFields fields :=
  .remember hb (by decide) (fun _ _ => rfl) ((Steady.views .field .classFields fun _ => rfl).weaken
    fun _ _ _ _ h => have h := Session.forall₂_twins.mp h; ⟨h.1, h.2.1, h.2.2⟩)

theorem fields_reach : ReachesAll b fields :=
  (fields_retells hb).weaken fun _ _ _ _ h =>
    Session.forall₂_twins.mpr ⟨h.left, h.right, h.same⟩

theorem methods_retells : Retells b .classMethods methods :=
  .remember hb (by decide) (fun _ _ => rfl) ((Steady.views .method .classMethods fun _ => rfl).weaken
    fun _ _ _ _ h => have h := Session.forall₂_twins.mp h; ⟨h.1, h.2.1, h.2.2⟩)

theorem methods_reach : ReachesAll b methods :=
  (methods_retells hb).weaken fun _ _ _ _ h =>
    Session.forall₂_twins.mpr ⟨h.left, h.right, h.same⟩

theorem flags_retells : Retells b .classFlags flags :=
  .remember hb (by decide) (fun _ _ => rfl) ((Steady.ask .classFlags fun _ => rfl).weaken
    fun _ _ _ _ h => ⟨trivial, trivial, h⟩)

theorem isGeneric_retells : Retells b .classIsGeneric isGeneric :=
  .remember hb (by decide) (fun _ _ => rfl) ((Steady.ask .classIsGeneric fun _ => rfl).weaken
    fun _ _ _ _ h => ⟨trivial, trivial, h⟩)

theorem isInflated_retells : Retells b .classIsInflated isInflated :=
  .remember hb (by decide) (fun _ _ => rfl) ((Steady.ask .classIsInflated fun _ => rfl).weaken
    fun _ _ _ _ h => ⟨trivial, trivial, h⟩)

theorem typeParameterCount_retells : Retells b .classParameterCount typeParameterCount :=
  .remember hb (by decide) (fun _ _ => rfl) ((Steady.ask .classParameterCount fun _ => rfl).weaken
    fun _ _ _ _ h => ⟨trivial, trivial, h⟩)

/-- The machine is asked until the kind is known. -/
theorem kind_retells : Retells b .classKind kind := by
  refine .remember hb (by decide) (fun _ _ => rfl) (.weaken (P := fun _ _ a c => a = c) ?_
    fun _ _ _ _ h => ⟨trivial, trivial, h⟩)
  refine (Steady.ask .classIsInterface fun _ => rfl).andThen fun isInterface => ?_
  cases isInterface with
  | true => exact .pure _
  | false =>
      refine (Steady.ask .classIsEnum fun _ => rfl).andThen fun isEnum => ?_
      cases isEnum with
      | true => exact .pure _
      | false =>
          refine (Steady.ask .classIsValueType fun _ => rfl).andThen fun isValueType => ?_
          cases isValueType <;> exact .pure _

theorem firstMethod_matches (name : String) (count : Option Nat) :
    ∀ {ms ns : List Method} {s r : Session}, b.Beside s r → List.Forall₂ (s.Twins r) ms ns →
      Matches b (firstMethod name count ms) (firstMethod name count ns) s r
        fun t u m? n? => Option.Rel (t.Twins u) m? n? := by
  intro ms
  induction ms with
  | nil =>
      intro ns s r on h
      cases List.forall₂_nil_left_iff.mp h
      exact .pure on .none
  | cons m ms ih =>
      intro ns s r on h
      obtain ⟨n, ns, tw, hrest, rfl⟩ := List.forall₂_cons_left_iff.mp h
      unfold firstMethod
      refine ((Method.name_retells hb).same s r m n on tw).bind fun t u found _ on heq => ?_
      cases show found = _ from heq
      have tw := tw.grows on.grows on.grows'
      have hrest := hrest.imp fun _ _ tw => tw.grows on.grows on.grows'
      split
      · exact ih on.toBeside hrest
      cases count with
      | none => exact .pure on.toBeside (.some tw)
      | some k =>
          refine (Method.parameters_retells hb t u m n on.toBeside tw).bind
            fun t' u' ps qs on hps => ?_
          have hlength : ps.length = qs.length := by
            simpa using congrArg List.length (show ps.map _ = qs.map _ from hps.same)
          simp only [hlength]
          split
          · exact .pure on.toBeside (.some (tw.grows on.grows on.grows'))
          · exact ih on.toBeside (hrest.imp fun _ _ tw => tw.grows on.grows on.grows')

theorem method?_reaches (name : String) (count : Option Nat) :
    ReachesAny b (method? · name count) :=
  (methods_reach hb).bind fun _ _ _ _ _ _ on _ h => firstMethod_matches hb name count on h

theorem firstField_matches (name : String) :
    ∀ {fs gs : List Field} {s r : Session}, b.Beside s r → List.Forall₂ (s.Twins r) fs gs →
      Matches b (firstField name fs) (firstField name gs) s r
        fun t u f? g? => Option.Rel (t.Twins u) f? g? := by
  intro fs
  induction fs with
  | nil =>
      intro gs s r on h
      cases List.forall₂_nil_left_iff.mp h
      exact .pure on .none
  | cons f fs ih =>
      intro gs s r on h
      obtain ⟨g, gs, tw, hrest, rfl⟩ := List.forall₂_cons_left_iff.mp h
      unfold firstField
      refine ((Field.name_retells hb).same s r f g on tw).bind fun t u found _ on heq => ?_
      cases show found = _ from heq
      split
      · exact .pure on.toBeside (.some (tw.grows on.grows on.grows'))
      · exact ih on.toBeside (hrest.imp fun _ _ tw => tw.grows on.grows on.grows')

theorem field?_reaches (name : String) : ReachesAny b (field? · name) :=
  (fields_reach hb).bind fun _ _ _ _ _ _ on _ h => firstField_matches hb name on h

theorem modifierText_settled (kind : ClassKind) : Settled b (modifierText · kind) := by
  have hflags := (flags_retells hb).same
  unfold modifierText
  split
  · exact (hflags.map _).andThen fun _ => (hflags.map _).map _
  · exact .pure _

theorem parentName_settled (kind : ClassKind) : Settled b (parentName · kind) := by
  refine (parent_reaches hb).bind fun t u _ _ p? q? on _ h => ?_
  cases h with
  | none => exact .pure on rfl
  | some tw =>
      simp only []
      split
      · exact (typeName_settled hb t u _ _ on tw).map _
      · exact .pure on rfl

theorem inherited_settled (kind : ClassKind) : Settled b (inherited · kind) :=
  (parentName_settled hb kind).andThen fun _ =>
    (interfaces_reach hb).eachThen (typeName_settled hb) fun _ => .pure _

theorem declaration_settled : Settled b declaration :=
  (kind_retells hb).same.andThen fun kind =>
    (image_reaches hb).viaThen (Image.name_retells hb).same fun _ =>
      (modifierText_settled hb kind).andThen fun _ => (typeName_settled hb).andThen fun _ =>
        (inherited_settled hb kind).andThen fun _ =>
          (fields_reach hb).eachThen (Field.declaration_settled hb) fun _ =>
            (methods_reach hb).eachThen (Method.declaration_settled hb) fun _ => .pure _

end Class

end

end VmMetadata
