import VmMetadata.Proofs.Session.ReadOnce

/-!
Views that a client holds on to. A run of a client begins with nothing in hand; each view that a step
yields is kept, and later steps are about views that were kept. Calls may be spoiled all along, and
null handles may come back wherever handles do. Main statements: no view that is held shows the null
handle, and none of the calls that were made carries it, but in place of the absent object of an
invocation.
-/

namespace VmMetadata

open Query (Gathers)
open Session (CallsOnly)

abbrev AnyView := (e : Entity) × View e

/-- The view, whatever it shows. -/
def View.any (v : View e) : AnyView :=
  ⟨e, v⟩

namespace Session

/-- The steps that yield views, with what is made of an answer. They are about views that are held
already. -/
inductive Grants (s : Session) (held : List AnyView) :
    {α : Type} → Query α → (α → List AnyView) → Prop
  | view (e : Entity) (h : Handle) : Grants s held (Query.view e h) (fun v => [v.any])
  | copy {v : View e} (has : v.any ∈ held) : Grants s held (Query.copy v) (fun w => [w.any])
  | domain : Grants s held Query.domain (fun d => [d.any])
  | corlib : Grants s held Query.corlib (fun i => [i.any])
  | rootClass : Grants s held Query.rootClass (fun c => [c.any])
  | reflectionClass : Grants s held Query.reflectionClass (fun c => [c.any])
  | assemblies {d : Domain} (has : d.any ∈ held) : Grants s held d.assemblies (List.map View.any)
  | assembly {d : Domain} (has : d.any ∈ held) (name : String) :
      Grants s held (d.assembly? name) (fun a? => a?.toList.map View.any)
  | findClass {d : Domain} (has : d.any ∈ held) (name : String) :
      Grants s held (d.findClass name) (fun c? => c?.toList.map View.any)
  | assemblyImage {a : Assembly} (has : a.any ∈ held) : Grants s held a.image (fun i => [i.any])
  | classes {i : Image} (has : i.any ∈ held) : Grants s held i.classes (List.map View.any)
  | classesByName {i : Image} (has : i.any ∈ held) :
      Grants s held i.classesByName (fun table => table.toList.map fun p => p.2.any)
  | classFromName {i : Image} (has : i.any ∈ held) (namespace_ name : String) :
      Grants s held (i.classFromName namespace_ name) (fun c? => c?.toList.map View.any)
  | classType {c : Class} (has : c.any ∈ held) : Grants s held c.type (fun t => [t.any])
  | classImage {c : Class} (has : c.any ∈ held) : Grants s held c.image (fun i => [i.any])
  | parent {c : Class} (has : c.any ∈ held) :
      Grants s held c.parent (fun c? => c?.toList.map View.any)
  | declaringClass {c : Class} (has : c.any ∈ held) :
      Grants s held c.declaringClass (fun c? => c?.toList.map View.any)
  | interfaces {c : Class} (has : c.any ∈ held) : Grants s held c.interfaces (List.map View.any)
  | fields {c : Class} (has : c.any ∈ held) : Grants s held c.fields (List.map View.any)
  | methods {c : Class} (has : c.any ∈ held) : Grants s held c.methods (List.map View.any)
  | method {c : Class} (has : c.any ∈ held) (name : String) (count : Option Nat) :
      Grants s held (c.method? name count) (fun m? => m?.toList.map View.any)
  | field {c : Class} (has : c.any ∈ held) (name : String) :
      Grants s held (c.field? name) (fun f? => f?.toList.map View.any)
  | typeClass {t : TypeView} (has : t.any ∈ held) :
      Grants s held t.class? (fun c? => c?.toList.map View.any)
  | typeObject {t : TypeView} (has : t.any ∈ held) : Grants s held t.object (fun o => [o.any])
  | fieldType {f : Field} (has : f.any ∈ held) : Grants s held f.type (fun t => [t.any])
  | methodClass {m : Method} (has : m.any ∈ held) : Grants s held m.class_ (fun c => [c.any])
  | returnType {m : Method} (has : m.any ∈ held) : Grants s held m.returnType (fun t => [t.any])
  | parameters {m : Method} (has : m.any ∈ held) :
      Grants s held m.parameters (List.map fun p => p.type.any)
  | invoke {m : Method} (has : m.any ∈ held) {object : Option Object} {arguments : List Object}
      (on : ∀ o ∈ object, o.any ∈ held) (given : ∀ o ∈ arguments, o.any ∈ held) :
      Grants s held (m.invoke object arguments) (fun o? => o?.toList.map View.any)
  | objectClass {o : Object} (has : o.any ∈ held) :
      Grants s held (Object.class_ o) (fun c => [c.any])
  | element {a : ArrayView} (has : a.any ∈ held) (index : Nat) :
      Grants s held (a.element? index) (fun o? => o?.toList.map View.any)
  | array {c : Class} (has : c.any ∈ held) {objects : List Object}
      (given : ∀ o ∈ objects, o.any ∈ held) :
      Grants s held (ArrayView.ofObjects c objects) (fun a => [a.any])
  | placeholders (count : Nat) : Grants s held (placeholderArguments count) (List.map View.any)
  | inflateClass {c : Class} (has : c.any ∈ held) {cs : List Class}
      (given : ∀ d ∈ cs, d.any ∈ held) : Grants s held (c.inflate cs) (fun d => [d.any])
  | representClass {c : Class} (has : c.any ∈ held) :
      Grants s held c.representative (fun d => [d.any])
  | inflateMethod {m : Method} (has : m.any ∈ held) {cs : List Class}
      (given : ∀ d ∈ cs, d.any ∈ held) : Grants s held (m.inflate cs) (fun d => [d.any])
  | representMethod {m : Method} (has : m.any ∈ held) (classWasGeneric : Bool) :
      Grants s held (m.representative classWasGeneric) (fun d => [d.any])
  | hostClass {h : Host} (hosts : s.Hosts h) :
      Grants s held h.class? (fun c? => c?.toList.map View.any)

/-- A run of a client from the session on, with the views that it holds in the end. It makes no call
of its own that carries a null handle. -/
inductive Run (s : Session) : Session → List AnyView → Prop
  | start : Run s s []
  | yields {t u : Session} {held : List AnyView} {α : Type} {x : Query α} {a : α}
      {views : α → List AnyView} (before : Run s t held) (step : t.Grants held x views)
      (run : x t = .ok a u) : Run s u (views a ++ held)
  | fails {t u : Session} {held : List AnyView} {α : Type} {x : Query α} {e : Error}
      {views : α → List AnyView} (before : Run s t held) (step : t.Grants held x views)
      (run : x t = .error e u) : Run s u held
  /-- Of what is asked besides nothing is kept. -/
  | asks {t : Session} {held : List AnyView} {x : AnyQuery} (before : Run s t held)
      (asked : t.Asks x) (plain : ¬HandsNull x) : Run s (x.2.leaves t) held
  | survey {t : Session} {held : List AnyView} (before : Run s t held) : Run s (survey.leaves t) held
  | pull {t : Session} {held : List AnyView} (before : Run s t held) (kind : DumpKind)
      (patience : Patience) : Run s (pullDump kind patience t).2 held
  | write {t : Session} {held : List AnyView} (before : Run s t held) (d : Destination)
      (kind : DumpKind) (now : String) (tree : FileTree) :
      Run s ((d.run kind now t : StateM FileTree _) tree).1.2 held
  | spoil {t : Session} {held : List AnyView} (before : Run s t held) (entry : String) (f : Fault) :
      Run s { t with probe := t.probe.setFault entry f } held
  | heal {t : Session} {held : List AnyView} (before : Run s t held) : Run s t.healed held

variable {s t : Session} {held : List AnyView}

/-- The step takes the session onward, its calls name objects, and the views in its answer show
objects. -/
structure Safe (s : Session) (x : Query α) (views : α → List AnyView) : Prop where
  onward : s.Onward (x.leaves s)
  calls : s.CallsOnly (x.leaves s) (fun c => c.2.NamesObjects)
  shows : ∀ a t, x s = .ok a t → ∀ v ∈ views a, t.Shows v.2

namespace Safe

variable (hs : s.Intact)
include hs

theorem of_gathers {n : Nat} {x : Query α} {views : α → List AnyView}
    (h : x.Gathers n s (fun a t => ∀ v ∈ views a, t.Shows v.2)) : Safe s x views where
  onward := h.onward hs
  calls := (h.leaves.calls hs).weaken fun _ hc => hc.1
  shows := fun _ _ run => (h.of_ok run).2

theorem one {n : Nat} {x : Query (View e)} (h : x.Gathers n s (fun v t => t.Shows v)) :
    Safe s x (fun v => [v.any]) := by
  refine of_gathers hs (h.weaken fun v t hv => ?_)
  intro w hw
  rw [List.mem_singleton.mp hw]
  exact hv

theorem each {n : Nat} {x : Query (List (View e))}
    (h : x.Gathers n s (fun vs t => ∀ v ∈ vs, t.Shows v)) : Safe s x (List.map View.any) := by
  refine of_gathers hs (h.weaken fun vs t hvs => ?_)
  intro w hw
  obtain ⟨v, hv, rfl⟩ := List.mem_map.mp hw
  exact hvs v hv

theorem any {n : Nat} {x : Query (Option (View e))}
    (h : x.Gathers n s (fun v? t => ∀ v ∈ v?, t.Shows v)) :
    Safe s x (fun v? => v?.toList.map View.any) := by
  refine of_gathers hs (h.weaken fun v? t hv => ?_)
  intro w hw
  obtain ⟨v, hmem, rfl⟩ := List.mem_map.mp hw
  exact hv v (Option.mem_toList.mp hmem)

/-- A copy shows what the view shows. -/
theorem copy {v : View e} (hv : s.Shows v) : Safe s (Query.copy v) (fun w => [w.any]) where
  onward := Query.copy_onward hs hv
  calls := .of_probe rfl
  shows := fun w t run u hu => by
    cases run
    rw [List.mem_singleton.mp hu]
    exact ⟨hv.1, (Notebook.shown?_copyPage hv.2 _).trans (if_pos rfl)⟩

end Safe

/-- A step is safe if the views that are held show objects. -/
theorem Grants.safe (hs : s.Intact) (hheld : ∀ v ∈ held, s.Shows v.2) {x : Query α}
    {views : α → List AnyView} (h : s.Grants held x views) : Safe s x views := by
  have hshown {e : Entity} {v : View e} (has : v.any ∈ held) : s.Shows v := hheld _ has
  have heach {e : Entity} {vs : List (View e)} (given : ∀ v ∈ vs, v.any ∈ held) :
      ∀ v ∈ vs, s.Shows v := fun v hv => hheld _ (given v hv)
  have hn : 0 < 7 := by decide
  cases h with
  | view e h => exact .one hs ((Gathers.view (n := 7) e h).weaken fun _ _ hv => hv.1)
  | copy has => exact .copy hs (hshown has)
  | domain => exact .one hs (Query.domain_gathers (n := 7) hs)
  | corlib => exact .one hs (Query.corlib_gathers (n := 7) hs)
  | rootClass => exact .one hs (Query.rootClass_lasts hs hn).gathers
  | reflectionClass => exact .one hs (Query.reflectionClass_lasts hs hn).gathers
  | assemblies has => exact .each hs (Domain.assemblies_notes hs (hshown has) hn).gathers
  | assembly has name =>
      exact .any hs (Domain.assembly?_memoizes (n := 7) hs (hshown has) (by decide) name).gathers
  | findClass has name =>
      exact .any hs (Domain.findClass_gathers (n := 7) hs (hshown has) (by decide) name)
  | assemblyImage has =>
      exact .one hs (Assembly.image_notes (n := 7) hs (hshown has) (by decide)).gathers
  | classes has => exact .each hs (Image.classes_notes (n := 7) hs (hshown has) (by decide)).gathers
  | classesByName has =>
      have htable := Image.classesByName_notes (n := 7) hs (hshown has) (by decide)
      refine .of_gathers hs (htable.gathers.weaken fun table t hshows => ?_)
      intro w hw
      obtain ⟨⟨name, c⟩, hmem, rfl⟩ := List.mem_map.mp hw
      exact hshows name c (Std.TreeMap.mem_toList_iff_getElem?_eq_some.mp hmem)
  | classFromName has namespace_ name =>
      exact .any hs (Image.classFromName_gathers (n := 7) hs (hshown has) namespace_ name)
  | classType has => exact .one hs (Class.type_notes hs (hshown has) hn).gathers
  | classImage has => exact .one hs (Class.image_notes hs (hshown has) hn).gathers
  | parent has => exact .any hs (Class.parent_notes hs (hshown has) hn).gathers
  | declaringClass has => exact .any hs (Class.declaringClass_notes hs (hshown has) hn).gathers
  | interfaces has => exact .each hs (Class.interfaces_notes hs (hshown has) hn).gathers
  | fields has => exact .each hs (Class.fields_notes hs (hshown has) hn).gathers
  | methods has => exact .each hs (Class.methods_notes hs (hshown has) hn).gathers
  | method has name count =>
      exact .any hs (Class.method?_memoizes hs (hshown has) hn name count).gathers
  | field has name => exact .any hs (Class.field?_memoizes hs (hshown has) hn name).gathers
  | typeClass has => exact .any hs (TypeView.class?_lasts hs (hshown has) hn).gathers
  | typeObject has => exact .one hs (TypeView.object_lasts hs (hshown has) hn).gathers
  | fieldType has => exact .one hs (Field.type_notes hs (hshown has) hn).gathers
  | methodClass has => exact .one hs (Method.class_notes hs (hshown has) hn).gathers
  | returnType has => exact .one hs (Method.returnType_notes hs (hshown has) hn).gathers
  | parameters has =>
      refine .of_gathers hs ((Method.parameters_notes hs (hshown has) hn).gathers.weaken ?_)
      intro ps t hps w hw
      obtain ⟨p, hp, rfl⟩ := List.mem_map.mp hw
      exact hps p hp
  | invoke has _ given =>
      exact .any hs (Method.invoke_wanders hs (hshown has) _ fun o ho => (heach given o ho).1)
  | objectClass has => exact .one hs (Object.class_lasts hs (hshown has) hn).gathers
  | element has index =>
      exact .any hs (Gathers.callView (n := 7) hs .object (.arrayGet _ index) ((hshown has).serves rfl rfl))
  | array has given =>
      exact .one hs (ArrayView.ofObjects_gathers (n := 7) hs (hshown has) fun o ho =>
        (heach given o ho).1)
  | placeholders count => exact .each hs (placeholderArguments_gathers hn hs count)
  | inflateClass has given =>
      exact .one hs (Class.inflate_gathers hn hs (hshown has) (heach given))
  | representClass has => exact .one hs (Class.representative_gathers hn hs (hshown has))
  | inflateMethod has given =>
      exact .one hs (Method.inflate_gathers hn hs (hshown has) (heach given))
  | representMethod has classWasGeneric =>
      exact .one hs (Method.representative_gathers hn hs (hshown has) classWasGeneric)
  | hostClass hosts => exact .any hs (Host.class?_notes (n := 7) hs hosts (by decide)).gathers

/-- What holds along a run: the views that are held show objects, and no call carries a null handle
where it means an object. -/
structure Secure (s t : Session) (held : List AnyView) : Prop where
  onward : s.Onward t
  shows : ∀ v ∈ held, t.Shows v.2
  calls : s.CallsOnly t (fun c => c.2.NamesObjects)

namespace Secure

variable {u : Session}

theorem intact (h : Secure s t held) : t.Intact :=
  h.onward.intact

/-- What goes on from there keeps the views that are held. -/
theorem go (h : Secure s t held) (onward : t.Onward u)
    (calls : t.CallsOnly u (fun c => c.2.NamesObjects)) : Secure s u held where
  onward := h.onward.trans onward
  shows := fun v hv => onward.grows.shows (h.shows v hv)
  calls := h.calls.trans calls

theorem trail {n : Nat} (h : Secure s t held) (trail : Trail n t u) : Secure s u held :=
  h.go (trail.onward h.intact) ((trail.calls h.intact).weaken fun _ hc => hc.1)

theorem probed (h : Secure s t held) {p : Probe} (hp : p.calls = t.probe.calls) :
    Secure s { t with probe := p } held :=
  h.go (h.intact.probed p) ⟨[], List.forall_mem_nil _, hp⟩

end Secure

/-- The calls of what is asked besides name objects. -/
theorem Asks.secure {s₀ : Session} (h : Secure s₀ s held) {x : AnyQuery} (asked : s.Asks x)
    (plain : ¬HandsNull x) : Secure s₀ (x.2.leaves s) held := by
  rcases asked.wanders_or h.intact with hx | ⟨e, v, shown, rfl⟩ | hnull
  · exact h.trail hx.leaves
  · exact h.go (Query.copy_onward h.intact shown) (.of_probe rfl)
  · exact absurd hnull plain

theorem Run.secure (hs : s.Intact) (run : s.Run t held) : Secure s t held := by
  induction run with
  | start => exact ⟨.refl hs, by simp, .refl s⟩
  | yields _ step run ih =>
      obtain ⟨onward, calls, shows⟩ := step.safe ih.intact ih.shows
      rw [Query.leaves_of_ok run] at onward calls
      have hgo := ih.go onward calls
      refine ⟨hgo.onward, fun v hv => ?_, hgo.calls⟩
      exact (List.mem_append.mp hv).elim (shows _ _ run v) (hgo.shows v)
  | fails _ step run ih =>
      obtain ⟨onward, calls, _⟩ := step.safe ih.intact ih.shows
      rw [Query.leaves_of_error run] at onward calls
      exact ih.go onward calls
  | asks _ asked plain ih => exact asked.secure ih plain
  | survey _ ih => exact ih.trail (survey_wanders ih.intact).leaves
  | pull _ kind patience ih => exact ih.trail (pullDump_roams ih.intact kind patience).trail
  | write _ d kind now tree ih => exact ih.trail (d.run_trail ih.intact kind now tree)
  | spoil _ entry f ih => exact ih.probed rfl
  | heal _ ih => exact ih.probed rfl

end Session

end VmMetadata
