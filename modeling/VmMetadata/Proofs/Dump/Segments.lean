import VmMetadata.Proofs.Dump.Events
import VmMetadata.Proofs.Session.Course

/-!
How the events of a dump are made up, whatever calls are spoiled. Every assembly has one segment, in
the order of the domain, and every class of a listed assembly has its items in it; what cannot be
read puts one error in its place and nothing else. Main statement: a dump that is pulled to its end
is such a sequence of segments, and whoever stops at an item has entered no assembly behind it.
-/

namespace VmMetadata

open Query (Gathers)
open Session (CallsOnly)

/-! ## Segments -/

/-- What an assembly has in a dump: its name, if that can be read, and its items. -/
structure Segment where
  name? : Option String
  items : List DumpItem

/-- The notice stands in front of the items. -/
def Segment.events (g : Segment) : List DumpEvent :=
  g.name?.toList.map .progress ++ g.items.map .item

/-- The lines of the methods, read one after the other. A method without a body has none. -/
inductive ReadsLines (classWasGeneric : Bool) :
    List Method → Session → List String → Session → Prop
  | nil (s : Session) : ReadsLines classWasGeneric [] s [] s
  | line {m : Method} {ms : List Method} {s t u : Session} {line : String} {lines : List String}
      (read : methodLine classWasGeneric m s = .ok (some line) t)
      (rest : ReadsLines classWasGeneric ms t lines u) :
      ReadsLines classWasGeneric (m :: ms) s (line :: lines) u
  | bodiless {m : Method} {ms : List Method} {s t u : Session} {lines : List String}
      (read : methodLine classWasGeneric m s = .ok none t)
      (rest : ReadsLines classWasGeneric ms t lines u) :
      ReadsLines classWasGeneric (m :: ms) s lines u

/-- What a class contributes: to a dump of classes its block or one error, to a dump of methods all
its lines or one error. -/
inductive Contributes (c : Class) : DumpKind → Session → List DumpItem → Session → Prop
  | block {s t : Session} {text : String} (read : c.declaration s = .ok text t) :
      Contributes c .classes s [.ok (text ++ "\n\n")] t
  | noBlock {s t : Session} {e : Error} (fails : c.declaration s = .error e t) :
      Contributes c .classes s [.error e] t
  | lines {s t u v w : Session} {isGeneric : Bool} {d : Class} {ms : List Method}
      {lines : List String} (generic : c.isGeneric s = .ok isGeneric t)
      (closed : c.representative t = .ok d u) (methods : d.methods u = .ok ms v)
      (read : ReadsLines isGeneric ms v lines w) : Contributes c .methods s (lines.map .ok) w
  | noLines {s t : Session} {e : Error} (fails : methodLines c s = .error e t) :
      Contributes c .methods s [.error e] t

/-- What the classes contribute, one after the other. -/
inductive ContributesEach (kind : DumpKind) :
    List Class → Session → List DumpItem → Session → Prop
  | nil (s : Session) : ContributesEach kind [] s [] s
  | cons {c : Class} {cs : List Class} {s t u : Session} {items rest : List DumpItem}
      (first : Contributes c kind s items t) (others : ContributesEach kind cs t rest u) :
      ContributesEach kind (c :: cs) s (items ++ rest) u

/-- An assembly has the segment in the dump. -/
inductive HasSegment (kind : DumpKind) (a : Assembly) (s : Session) : Segment → Session → Prop
  | unnamed {t : Session} {e : Error} (fails : a.name s = .error e t) :
      HasSegment kind a s ⟨none, [.error e]⟩ t
  | noImage {t u : Session} {name : String} {e : Error} (named : a.name s = .ok name t)
      (fails : a.image t = .error e u) : HasSegment kind a s ⟨some name, [.error e]⟩ u
  | unlisted {t u v : Session} {name : String} {i : Image} {e : Error}
      (named : a.name s = .ok name t) (image : a.image t = .ok i u)
      (fails : i.classes u = .error e v) : HasSegment kind a s ⟨some name, [.error e]⟩ v
  | listed {t u v w : Session} {name : String} {i : Image} {cs : List Class}
      {items : List DumpItem} (named : a.name s = .ok name t) (image : a.image t = .ok i u)
      (list : i.classes u = .ok cs v) (classes : ContributesEach kind cs v items w) :
      HasSegment kind a s ⟨some name, items⟩ w

/-- The assemblies have these segments, in this order. -/
inductive HasSegments (kind : DumpKind) : List Assembly → Session → List Segment → Session → Prop
  | nil (s : Session) : HasSegments kind [] s [] s
  | cons {a : Assembly} {as : List Assembly} {s t u : Session} {g : Segment} {gs : List Segment}
      (first : HasSegment kind a s g t) (others : HasSegments kind as t gs u) :
      HasSegments kind (a :: as) s (g :: gs) u

variable {s t u : Session}

/-! ## What can be read has its segment -/

theorem readsLines_of_mapM {classWasGeneric : Bool} : ∀ {ms : List Method} {s t : Session}
    {found : List (Option String)}, ms.mapM (methodLine classWasGeneric) s = .ok found t →
      ReadsLines classWasGeneric ms s (found.filterMap id) t
  | [], s, t, found, h => by
      rw [List.mapM_nil] at h
      cases h
      exact .nil s
  | m :: ms, s, t, found, h => by
      rw [List.mapM_cons] at h
      obtain ⟨line?, u, hline, h⟩ := Query.bind_eq_ok.mp h
      obtain ⟨rest, v, hrest, h⟩ := Query.bind_eq_ok.mp h
      cases h
      have ih := readsLines_of_mapM hrest
      cases line? with
      | none => exact .bodiless hline ih
      | some line => exact .line hline ih

theorem mapM_of_readsLines {classWasGeneric : Bool} {ms : List Method} {lines : List String}
    (h : ReadsLines classWasGeneric ms s lines t) :
    ∃ found, ms.mapM (methodLine classWasGeneric) s = .ok found t ∧
      lines = found.filterMap id := by
  induction h with
  | nil s => exact ⟨[], rfl, rfl⟩
  | line read _ ih =>
      obtain ⟨found, hfound, rfl⟩ := ih
      refine ⟨some _ :: found, ?_, rfl⟩
      rw [List.mapM_cons]
      exact Query.bind_eq_ok.mpr ⟨_, _, read, Query.bind_eq_ok.mpr ⟨_, _, hfound, rfl⟩⟩
  | bodiless read _ ih =>
      obtain ⟨found, hfound, rfl⟩ := ih
      refine ⟨none :: found, ?_, rfl⟩
      rw [List.mapM_cons]
      exact Query.bind_eq_ok.mpr ⟨_, _, read, Query.bind_eq_ok.mpr ⟨_, _, hfound, rfl⟩⟩

theorem Query.attempt_of_ok {x : Query α} {a : α} (h : x s = .ok a t) :
    x.attempt s = (.ok a, t) := by
  unfold attempt
  rw [h]

theorem Query.attempt_of_error {x : Query α} {e : Error} (h : x s = .error e t) :
    x.attempt s = (.error e, t) := by
  unfold attempt
  rw [h]

theorem methodLines_eq_ok {c : Class} {lines : List String} {w : Session} :
    methodLines c s = .ok lines w ↔ ∃ isGeneric t d u ms v, c.isGeneric s = .ok isGeneric t ∧
      c.representative t = .ok d u ∧ d.methods u = .ok ms v ∧
        ReadsLines isGeneric ms v lines w := by
  unfold methodLines
  constructor
  · intro h
    obtain ⟨isGeneric, t, generic, h⟩ := Query.bind_eq_ok.mp h
    obtain ⟨d, u, closed, h⟩ := Query.bind_eq_ok.mp h
    obtain ⟨ms, v, methods, h⟩ := Query.bind_eq_ok.mp h
    obtain ⟨found, w', read, h⟩ := Query.bind_eq_ok.mp h
    cases h
    exact ⟨isGeneric, t, d, u, ms, v, generic, closed, methods, readsLines_of_mapM read⟩
  · rintro ⟨isGeneric, t, d, u, ms, v, generic, closed, methods, read⟩
    obtain ⟨found, hfound, rfl⟩ := mapM_of_readsLines read
    refine Query.bind_eq_ok.mpr ⟨_, _, generic, Query.bind_eq_ok.mpr ⟨_, _, closed, ?_⟩⟩
    exact Query.bind_eq_ok.mpr ⟨_, _, methods, Query.bind_eq_ok.mpr ⟨_, _, hfound, rfl⟩⟩

theorem classItems_classes (c : Class) (s : Session) :
    classItems .classes c s = match c.declaration s with
      | .ok text t => ([.ok (text ++ "\n\n")], t)
      | .error e t => ([.error e], t) := by
  change ([((classBlock c).attempt s).1], ((classBlock c).attempt s).2) = _
  unfold Query.attempt classBlock
  rw [Query.bind_apply]
  cases c.declaration s <;> rfl

theorem classItems_methods (c : Class) (s : Session) :
    classItems .methods c s = match methodLines c s with
      | .ok lines t => (lines.map .ok, t)
      | .error e t => ([.error e], t) := by
  cases hlines : methodLines c s with
  | ok lines t =>
      have hattempt : (methodLines c).attempt s = (.ok lines, t) := by
        unfold Query.attempt
        rw [hlines]
      simp only [classItems, bind, StateT.bind, hattempt]
      rfl
  | error e t =>
      have hattempt : (methodLines c).attempt s = (.error e, t) := by
        unfold Query.attempt
        rw [hlines]
      simp only [classItems, bind, StateT.bind, hattempt]
      rfl

/-- The items of a class are its contribution, and it has no other. -/
theorem contributes_iff {c : Class} {kind : DumpKind} {items : List DumpItem} :
    Contributes c kind s items t ↔ classItems kind c s = (items, t) := by
  constructor
  · intro h
    cases h with
    | block read => rw [classItems_classes, read]
    | noBlock fails => rw [classItems_classes, fails]
    | lines generic closed methods read =>
        rw [classItems_methods,
          methodLines_eq_ok.mpr ⟨_, _, _, _, _, _, generic, closed, methods, read⟩]
    | noLines fails => rw [classItems_methods, fails]
  · intro h
    cases kind with
    | classes =>
        rw [classItems_classes] at h
        split at h
        · cases h
          exact .block ‹_›
        · cases h
          exact .noBlock ‹_›
    | methods =>
        rw [classItems_methods] at h
        split at h
        · rename_i read
          cases h
          obtain ⟨_, _, _, _, _, _, generic, closed, methods, read⟩ := methodLines_eq_ok.mp read
          exact .lines generic closed methods read
        · cases h
          exact .noLines ‹_›

theorem exists_contributesEach (kind : DumpKind) : ∀ (cs : List Class) (s : Session),
    ∃ items t, ContributesEach kind cs s items t
  | [], s => ⟨[], s, .nil s⟩
  | c :: cs, s => by
      obtain ⟨rest, u, others⟩ := exists_contributesEach kind cs (classItems kind c s).2
      exact ⟨_, u, .cons (contributes_iff.mpr rfl) others⟩

theorem exists_hasSegment (kind : DumpKind) (a : Assembly) (s : Session) :
    ∃ g t, HasSegment kind a s g t := by
  cases named : a.name s with
  | error e t => exact ⟨_, _, .unnamed named⟩
  | ok name t =>
      cases image : a.image t with
      | error e u => exact ⟨_, _, .noImage named image⟩
      | ok i u =>
          cases list : i.classes u with
          | error e v => exact ⟨_, _, .unlisted named image list⟩
          | ok cs v =>
              obtain ⟨items, w, classes⟩ := exists_contributesEach kind cs v
              exact ⟨_, _, .listed named image list classes⟩

theorem exists_hasSegments (kind : DumpKind) : ∀ (as : List Assembly) (s : Session),
    ∃ gs t, HasSegments kind as s gs t
  | [], s => ⟨[], s, .nil s⟩
  | a :: as, s => by
      obtain ⟨g, t, first⟩ := exists_hasSegment kind a s
      obtain ⟨gs, u, others⟩ := exists_hasSegments kind as t
      exact ⟨_, u, .cons first others⟩

/-! ## Pulling segments -/

theorem bind_of_eq {x : StateM Session α} {a : α} (hx : x s = (a, t))
    (f : α → StateM Session β) : (x >>= f) s = f a t := by
  change f (x s).1 (x s).2 = _
  rw [hx]

/-- What is pulled is the part of the events that the patience reaches. The session ends as said
unless the pulling has stopped before. -/
structure Cuts (x : StateM Session Pulled) (s : Session) (p : Patience) (es : List DumpEvent)
    (t : Session) : Prop where
  pulled : (x s).1 = .cut p es
  ends : ∀ left, (Pulled.cut p es).patience = some left → (x s).2 = t

namespace Cuts

variable {p : Patience} {es fs : List DumpEvent}

theorem after {x : StateM Session α} {f : α → StateM Session Pulled} {a : α} (hx : x s = (a, t))
    (hf : Cuts (f a) t p es u) : Cuts (x >>= f) s p es u := by
  have hrun := bind_of_eq hx f
  exact ⟨hrun ▸ hf.pulled, hrun ▸ hf.ends⟩

theorem ofItems (p : Patience) (items : List DumpItem) (s : Session) :
    Cuts (pure (.ofItems p items)) s p (items.map .item) s :=
  ⟨Pulled.ofItems_eq_cut p items, fun _ _ => rfl⟩

theorem notice {x : StateM Session Pulled} (hx : Cuts x s p es t) (name : String) :
    Cuts (do let pulled ← x; pure { pulled with events := .progress name :: pulled.events }) s p
      (.progress name :: es) t := by
  refine ⟨?_, hx.ends⟩
  change { (x s).1 with events := .progress name :: (x s).1.events } = _
  rw [hx.pulled, Pulled.cut]

theorem andThen {first : Pulled} {rest : Patience → StateM Session Pulled}
    (hfirst : first = .cut p es)
    (hrest : ∀ left, first.patience = some left → Cuts (rest left) s left fs t) :
    Cuts (first.andThen rest) s p (es ++ fs) t := by
  have hcut := Pulled.cut_append p es fs
  rw [← hfirst] at hcut
  unfold Pulled.andThen
  cases hleft : first.patience with
  | none =>
      rw [hleft] at hcut
      refine ⟨hcut.symm, fun left hl => ?_⟩
      rw [hcut, hleft] at hl
      cases hl
  | some left =>
      rw [hleft] at hcut
      obtain ⟨hpulled, hends⟩ := hrest left hleft
      refine ⟨?_, fun l hl => ?_⟩
      · change { (rest left s).1 with events := first.events ++ (rest left s).1.events } = _
        rw [hcut, hpulled]
      · rw [hcut] at hl
        exact hends l hl

end Cuts

variable {kind : DumpKind}

theorem pullClasses_cuts {cs : List Class} {items : List DumpItem}
    (h : ContributesEach kind cs s items t) :
    ∀ p, Cuts (pullClasses kind cs p) s p (items.map .item) t := by
  induction h with
  | nil s => exact fun p => ⟨rfl, fun _ _ => rfl⟩
  | cons first _ ih =>
      intro p
      rw [List.map_append]
      refine .after (contributes_iff.mp first) (.andThen (Pulled.ofItems_eq_cut p _) ?_)
      exact fun left _ => ih left

theorem pullAssembly_cuts {a : Assembly} {g : Segment} (h : HasSegment kind a s g t)
    (p : Patience) : Cuts (pullAssembly kind a p) s p g.events t := by
  cases h with
  | unnamed fails =>
      exact .after (Query.attempt_of_error fails) (.ofItems p _ t)
  | noImage named fails =>
      have hlist := Query.attempt_of_error (Query.bind_error (f := Image.classes) fails)
      exact .after (Query.attempt_of_ok named) (.after hlist (.notice (.ofItems p _ t) _))
  | unlisted named image fails =>
      have hlist := Query.attempt_of_error ((Query.bind_ok (f := Image.classes) image).trans fails)
      exact .after (Query.attempt_of_ok named) (.after hlist (.notice (.ofItems p _ t) _))
  | listed named image list classes =>
      have hlist := Query.attempt_of_ok ((Query.bind_ok (f := Image.classes) image).trans list)
      refine .after (Query.attempt_of_ok named) (.after hlist (.notice ?_ _))
      exact pullClasses_cuts classes p

theorem pullAssemblies_cuts {as : List Assembly} {gs : List Segment}
    (h : HasSegments kind as s gs t) :
    ∀ p, Cuts (pullAssemblies kind as p) s p (gs.flatMap Segment.events) t := by
  induction h with
  | nil s => exact fun p => ⟨rfl, fun _ _ => rfl⟩
  | @cons a as s t u g gs first _ ih =>
      intro p
      rw [List.flatMap_cons]
      obtain ⟨hpulled, hends⟩ := pullAssembly_cuts first p
      rcases hrun : pullAssembly kind a p s with ⟨pulled, v⟩
      simp only [hrun] at hpulled hends
      refine .after hrun (.andThen hpulled fun left hleft => ?_)
      rw [hpulled] at hleft
      rw [hends left hleft]
      exact ih left

/-! ## Which images are asked for -/

/-- No image of an assembly is asked for but of one of these. -/
def AsksImagesOf (as : List Assembly) (c : AnyCall) : Prop :=
  ∀ h, c = ⟨_, .assemblyImage h⟩ → h ∈ as.map View.handle

/-- Facts about images and classes are found out without the image of any assembly. -/
theorem asksImagesOf_of_rank {as : List Assembly} {c : AnyCall}
    (h : c.2.rank ≤ Fact.imageClassesByName.rank) : AsksImagesOf as c := by
  rintro k rfl
  have hrank : Fact.assemblyImage.rank ≤ Fact.imageClassesByName.rank := h
  exact absurd hrank (by decide)

theorem AsksImagesOf.mono {as bs : List Assembly} {c : AnyCall} (h : AsksImagesOf as c)
    (hsub : ∀ a ∈ as, a ∈ bs) : AsksImagesOf bs c := by
  intro k hc
  obtain ⟨a, ha, rfl⟩ := List.mem_map.mp (h k hc)
  exact List.mem_map_of_mem (hsub a ha)

namespace Query

variable {P : AnyCall → Prop} {x : Query α}

theorem bind_callsOnly {f : α → Query β} (hx : s.CallsOnly (x.leaves s) P)
    (hf : ∀ a t, x s = .ok a t → t.CallsOnly ((f a).leaves t) P) :
    s.CallsOnly ((x >>= f).leaves s) P := by
  rw [leaves_bind]
  cases hrun : x s with
  | ok a t =>
      rw [leaves_of_ok hrun] at hx
      exact hx.trans (hf a t hrun)
  | error e t =>
      rw [leaves_of_error hrun] at hx
      exact hx

theorem remember_callsOnly {page : Nat} {f : Fact} {find : Query f.Value}
    (hfind : s.CallsOnly (find.leaves s) P) :
    s.CallsOnly ((remember page f find).leaves s) P := by
  cases hfound : s.notebook.find? page f with
  | some v =>
      rw [leaves_of_ok (remember_hit hfound find)]
      exact .refl s
  | none =>
      have hmiss := remember_miss hfound find
      cases hrun : find s with
      | ok v t =>
          rw [hrun] at hmiss
          rw [leaves_of_ok hrun] at hfind
          rw [leaves_of_ok hmiss]
          exact hfind.trans (.of_probe rfl)
      | error e t =>
          rw [hrun] at hmiss
          rw [leaves_of_error hrun] at hfind
          rw [leaves_of_error hmiss]
          exact hfind

theorem Gathers.asksNoImage {as : List Assembly} {R : α → Session → Prop} (hs : s.Intact)
    (h : x.Gathers Fact.imageClassesByName.rank s R) :
    s.CallsOnly (x.leaves s) (AsksImagesOf as) :=
  (h.leaves.calls hs).weaken fun _ hc => asksImagesOf_of_rank hc.2

end Query

namespace Assembly

variable (hs : s.Intact) {a : Assembly} (ha : s.Shows a)
include hs

theorem image_calls : s.CallsOnly (a.image.leaves s) (AsksImagesOf [a]) := by
  refine Query.remember_callsOnly (Query.bind_callsOnly ?_ fun h t hrun => ?_)
  · refine Query.ask_callsOnly hs.vm fun h heq => ?_
    cases heq
    exact List.mem_singleton.mpr rfl
  · have ht := (Query.ask_grows hs (.assemblyImage a.handle)).2
    rw [Query.leaves_of_ok hrun] at ht
    exact (Gathers.view .image h).asksNoImage ht

include ha

theorem name_calls : s.CallsOnly (a.name.leaves s) (AsksImagesOf [a]) := by
  refine Query.remember_callsOnly (Query.bind_callsOnly (image_calls hs) fun i t hrun => ?_)
  obtain ⟨trail, hi⟩ := (image_notes (n := 4) hs ha (by decide)).gathers.of_ok hrun
  have ht := (trail.grows hs).2
  refine Query.bind_callsOnly ?_ fun _ u _ => .refl u
  exact (Image.name_notes ht hi (by decide)).gathers.asksNoImage ht

theorem classes_calls :
    s.CallsOnly (Query.leaves (do (← a.image).classes) s) (AsksImagesOf [a]) := by
  refine Query.bind_callsOnly (image_calls hs) fun i t hrun => ?_
  obtain ⟨trail, hi⟩ := (image_notes (n := 4) hs ha (by decide)).gathers.of_ok hrun
  have ht := (trail.grows hs).2
  exact (Image.classes_notes ht hi (by decide)).gathers.asksNoImage ht

end Assembly

/-- The computation takes the session onward with no call for other images than of these assemblies,
and what it yields is as said. -/
structure KeepsTo (as : List Assembly) (x : StateM Session α) (s : Session)
    (P : α → Session → Prop) : Prop where
  onward : s.Onward (x s).2
  calls : s.CallsOnly (x s).2 (AsksImagesOf as)
  post : P (x s).1 (x s).2

namespace KeepsTo

variable {as : List Assembly} {P : α → Session → Prop}

theorem bind {x : StateM Session α} {f : α → StateM Session β} {R : β → Session → Prop}
    (hx : KeepsTo as x s P)
    (hf : ∀ a t, s.Grows t → t.Intact → P a t → KeepsTo as (f a) t R) :
    KeepsTo as (x >>= f) s R := by
  have hrest := hf _ _ hx.onward.grows hx.onward.intact hx.post
  exact ⟨hx.onward.trans hrest.onward, hx.calls.trans hrest.calls, hrest.post⟩

theorem pure {a : α} (hs : s.Intact) (ha : P a s) : KeepsTo as (Pure.pure a) s P :=
  ⟨.refl hs, .refl s, ha⟩

theorem attempt {n : Nat} {x : Query α} (hs : s.Intact) (h : x.Gathers n s P)
    (hcalls : s.CallsOnly (x.leaves s) (AsksImagesOf as)) :
    KeepsTo as x.attempt s (fun r t => ∀ a, r = .ok a → P a t) := by
  have hroams := Roams.attempt h
  have hleaves : (x.attempt s).2 = x.leaves s := by
    unfold Query.attempt Query.leaves
    cases x s <;> rfl
  exact ⟨hroams.trail.onward hs, hleaves ▸ hcalls, hroams.post⟩

end KeepsTo

theorem Roams.keepsTo {as : List Assembly} {x : StateM Session α} {P : α → Session → Prop}
    (hs : s.Intact) (h : Roams Fact.imageClassesByName.rank x s P) : KeepsTo as x s P :=
  ⟨h.trail.onward hs, (h.trail.calls hs).weaken fun _ hc => asksImagesOf_of_rank hc.2, h.post⟩

theorem pullAssembly_keepsTo (hs : s.Intact) (kind : DumpKind) {a : Assembly} (ha : s.Shows a)
    (p : Patience) : KeepsTo [a] (pullAssembly kind a p) s (fun _ _ => True) := by
  have hname := (Assembly.name_notes (n := 5) hs ha (by decide)).gathers
  refine (KeepsTo.attempt hs hname (Assembly.name_calls hs ha)).bind fun name t grows ht _ => ?_
  have ha := grows.shows ha
  cases name with
  | error e => exact .pure ht trivial
  | ok name =>
      have hclasses : Gathers 4 (do (← a.image).classes) t (fun cs u => ∀ c ∈ cs, u.Shows c) :=
        (Assembly.image_notes ht ha (by decide)).gathers.bind ht fun i u _ hu hi =>
          (Image.classes_notes hu hi (by decide)).gathers
      refine (KeepsTo.attempt ht hclasses (Assembly.classes_calls ht ha)).bind
        fun classes u _ hu hcs => ?_
      cases classes with
      | error e => exact .pure hu trivial
      | ok classes =>
          have hpull : Roams Fact.imageClassesByName.rank (pullClasses kind classes p) u
              (fun _ _ => True) :=
            pullClasses_roams (by decide) kind classes p hu (hcs classes rfl)
          exact (hpull.keepsTo hu).bind fun _ _ _ hv _ => .pure hv trivial

/-! ## Stopping at an item -/

namespace Patience

/-- Patience for so many items, whatever they are. -/
def atMost (n : Nat) : Patience :=
  ⟨some n, false⟩

theorem after?_atMost_one (item : DumpItem) : (atMost 1).after? item = none := by
  cases item <;> rfl

theorem after?_atMost (n : Nat) (item : DumpItem) :
    (atMost (n + 2)).after? item = some (.atMost (n + 1)) := by
  cases item <;> rfl

end Patience

namespace Pulled

/-- Items are pulled until there are enough of them. -/
theorem cut_atMost_items : ∀ (items : List DumpItem) (n : Nat),
    cut (.atMost (n + 1)) (items.map .item) =
      if n < items.length then ⟨(items.take (n + 1)).map .item, none⟩
      else ⟨items.map .item, some (.atMost (n + 1 - items.length))⟩
  | [], n => rfl
  | item :: rest, 0 => by
      rw [List.map_cons, cut, Patience.after?_atMost_one]
      rfl
  | item :: rest, n + 1 => by
      rw [List.map_cons, cut, Patience.after?_atMost]
      simp only [cut_atMost_items rest n, List.length_cons, Nat.add_lt_add_iff_right,
        Nat.add_sub_add_right]
      split <;> rfl

theorem cut_atMost_events (g : Segment) (n : Nat) :
    cut (.atMost (n + 1)) g.events =
      if n < g.items.length then
        ⟨g.name?.toList.map .progress ++ (g.items.take (n + 1)).map .item, none⟩
      else ⟨g.events, some (.atMost (n + 1 - g.items.length))⟩ := by
  have hitems := cut_atMost_items g.items n
  unfold Segment.events
  cases g.name? with
  | none => exact hitems
  | some name =>
      change cut _ (.progress name :: g.items.map .item) = _
      rw [cut]
      simp only [hitems]
      split <;> rfl

theorem items_notices_append (name? : Option String) (items : List DumpItem)
    (es : List DumpEvent) (p : Option Patience) :
    (⟨(name?.toList.map .progress ++ items.map .item) ++ es, p⟩ : Pulled).items =
      items ++ (⟨es, p⟩ : Pulled).items := by
  unfold Pulled.items
  cases name? <;> simp [List.filterMap_append, List.filterMap_map]

theorem progress_notices_append (name? : Option String) (items : List DumpItem)
    (es : List DumpEvent) (p : Option Patience) :
    (⟨(name?.toList.map .progress ++ items.map .item) ++ es, p⟩ : Pulled).progress =
      name?.toList ++ (⟨es, p⟩ : Pulled).progress := by
  unfold Pulled.progress
  cases name? <;> simp [List.filterMap_append, List.filterMap_map]

/-- Whoever stops at an item has got the notices up to its segment, and no further ones. -/
theorem cut_atMost_segments : ∀ (gs : List Segment) (n k : Nat),
    ((gs.take k).flatMap Segment.items).length ≤ n →
      n < ((gs.take (k + 1)).flatMap Segment.items).length →
        (cut (.atMost (n + 1)) (gs.flatMap Segment.events)).items =
            (gs.flatMap Segment.items).take (n + 1) ∧
          (cut (.atMost (n + 1)) (gs.flatMap Segment.events)).progress =
            (gs.take (k + 1)).filterMap Segment.name?
  | [], _, _, _, hlast => by
      rw [List.take_nil] at hlast
      exact absurd hlast (Nat.not_lt_zero _)
  | g :: gs, n, 0, _, hlast => by
      have hlast : n < g.items.length := by simpa using hlast
      have hcut := cut_append (.atMost (n + 1)) g.events (gs.flatMap Segment.events)
      rw [cut_atMost_events, if_pos hlast] at hcut
      rw [List.flatMap_cons, List.flatMap_cons, hcut]
      have hitems := items_notices_append g.name? (g.items.take (n + 1)) [] none
      have hprogress := progress_notices_append g.name? (g.items.take (n + 1)) [] none
      rw [List.append_nil] at hitems hprogress
      rw [hitems, hprogress, List.take_append_of_le_length hlast]
      refine ⟨List.append_nil _, ?_⟩
      cases hname : g.name? <;> simp [hname, Pulled.progress]
  | g :: gs, n, k + 1, hbefore, hlast => by
      rw [List.take_succ_cons, List.flatMap_cons, List.length_append] at hbefore hlast
      obtain ⟨m, rfl⟩ := Nat.exists_eq_add_of_le (Nat.le_of_add_right_le hbefore)
      obtain ⟨hitems, hprogress⟩ := cut_atMost_segments gs m k (by omega) (by omega)
      have hcut := cut_append (.atMost (g.items.length + m + 1)) g.events
        (gs.flatMap Segment.events)
      have hleft : g.items.length + m + 1 - g.items.length = m + 1 := by omega
      rw [cut_atMost_events, if_neg (by omega), hleft] at hcut
      rw [List.flatMap_cons, List.flatMap_cons, hcut, List.take_succ_cons]
      constructor
      · rw [Segment.events, items_notices_append, List.take_append, hleft,
          List.take_of_length_le (by omega)]
        exact congrArg (g.items ++ ·) hitems
      · rw [Segment.events, progress_notices_append, List.filterMap_cons]
        have hrest := congrArg (g.name?.toList ++ ·) hprogress
        cases hname : g.name? <;> simpa [hname] using hrest

end Pulled

theorem pullAssemblies_calls {as : List Assembly} {gs : List Segment}
    (h : HasSegments kind as s gs t) : ∀ (n k : Nat), s.Intact → (∀ a ∈ as, s.Shows a) →
      ((gs.take k).flatMap Segment.items).length ≤ n →
        n < ((gs.take (k + 1)).flatMap Segment.items).length →
          s.CallsOnly (pullAssemblies kind as (.atMost (n + 1)) s).2
            (AsksImagesOf (as.take (k + 1))) := by
  induction h with
  | nil s =>
      intro n k _ _ _ hlast
      rw [List.take_nil] at hlast
      exact absurd hlast (Nat.not_lt_zero _)
  | @cons a as s t u g gs first others ih =>
      intro n k hs has hbefore hlast
      obtain ⟨ha, has⟩ := List.forall_mem_cons.mp has
      obtain ⟨⟨grows, ht⟩, hcalls, _⟩ := pullAssembly_keepsTo hs kind ha (.atMost (n + 1))
      obtain ⟨hpulled, hends⟩ := pullAssembly_cuts first (.atMost (n + 1))
      rcases hrun : pullAssembly kind a (.atMost (n + 1)) s with ⟨pulled, v⟩
      simp only [hrun] at grows ht hcalls hpulled hends
      have hrest : (pullAssemblies kind (a :: as) (.atMost (n + 1)) s).2 =
          (pulled.andThen (pullAssemblies kind as) v).2 := by
        change (((pullAssembly kind a (.atMost (n + 1)) s).1.andThen (pullAssemblies kind as))
          (pullAssembly kind a (.atMost (n + 1)) s).2).2 = _
        rw [hrun]
      rw [hrest]
      have hcalls : s.CallsOnly v (AsksImagesOf ((a :: as).take (k + 1))) := by
        refine hcalls.weaken fun c hc => hc.mono fun b hb => ?_
        rw [List.mem_singleton.mp hb, List.take_succ_cons]
        exact List.mem_cons_self
      rw [Pulled.cut_atMost_events] at hpulled hends
      unfold Pulled.andThen
      by_cases hstop : n < g.items.length
      · rw [if_pos hstop] at hpulled
        rw [hpulled]
        exact hcalls
      · rw [if_neg hstop] at hpulled hends
        rw [hpulled]
        cases hends _ rfl
        have hhead : (((g :: gs).take 1).flatMap Segment.items).length = g.items.length := by
          simp
        cases k with
        | zero => exact absurd (hhead ▸ hlast) hstop
        | succ k =>
            rw [List.take_succ_cons, List.flatMap_cons, List.length_append] at hbefore hlast
            obtain ⟨m, rfl⟩ := Nat.exists_eq_add_of_le (Nat.not_lt.mp hstop)
            have hleft : g.items.length + m + 1 - g.items.length = m + 1 := by omega
            rw [hleft]
            have hothers := ih m k ht (grows.showsEach has) (by omega) (by omega)
            refine hcalls.trans (hothers.weaken fun c hc => hc.mono fun b hb => ?_)
            exact List.mem_cons_of_mem a hb

/-! ## Dumps -/

theorem pullDump_of_error {e : Error}
    (h : (do (← Query.domain).assemblies : Query (List Assembly)) s = .error e t)
    (p : Patience) : pullDump kind p s =
      (if p.isOver then ⟨[], none⟩ else .ofItems p [.error e], t) := by
  refine (bind_of_eq (Query.attempt_of_error h) _).trans ?_
  cases p.isOver <;> rfl

theorem pullDump_of_ok {as : List Assembly}
    (h : (do (← Query.domain).assemblies : Query (List Assembly)) s = .ok as t)
    {p : Patience} (hp : p.isOver = false) : pullDump kind p s = pullAssemblies kind as p t := by
  refine (bind_of_eq (Query.attempt_of_ok h) _).trans ?_
  rw [hp]
  rfl

/-- In any session that comes about from a snapshot, however its calls are spoiled: a dump whose
assemblies cannot be listed is one error. Otherwise, pulled to its end, it gives the segments of the
assemblies in order, each made up as its kind calls for. Whoever has pulled just so many items that
the last one is of the segment at `k` has got these first items, the notices of the assemblies up to
that one whose names can be read, and no others, and has made no call for the image of an assembly
behind it. -/
theorem Session.Course.dump_in_segments {snapshot : Snapshot} {vm : Vm} {version : Version}
    {layout : ClassLayout} {s : Session} (hvm : Vm.ofSnapshot snapshot = .ok vm)
    (course : (Session.new vm version layout).Course s) (kind : DumpKind) :
    (∀ e t, (do (← Query.domain).assemblies : Query (List Assembly)) s = .error e t →
      pullDump kind .endless s = (⟨[.item (.error e)], some .endless⟩, t)) ∧
    ∀ as t, (do (← Query.domain).assemblies : Query (List Assembly)) s = .ok as t →
      ∃ gs u, HasSegments kind as t gs u ∧
        pullDump kind .endless s = (⟨gs.flatMap Segment.events, some .endless⟩, u) ∧
        ∀ n k, ((gs.take k).flatMap Segment.items).length ≤ n →
          n < ((gs.take (k + 1)).flatMap Segment.items).length →
            (pullDump kind (.atMost (n + 1)) s).1.items =
                (gs.flatMap Segment.items).take (n + 1) ∧
              (pullDump kind (.atMost (n + 1)) s).1.progress =
                (gs.take (k + 1)).filterMap Segment.name? ∧
              s.CallsOnly (pullDump kind (.atMost (n + 1)) s).2
                (AsksImagesOf (as.take (k + 1))) := by
  have hs : s.Intact :=
    (course.onward (Session.intact_new (Vm.wellFormed_ofSnapshot hvm) version layout)).intact
  refine ⟨fun e t hopen => pullDump_of_error hopen .endless, fun as t hopen => ?_⟩
  obtain ⟨gs, u, segments⟩ := exists_hasSegments kind as t
  refine ⟨gs, u, segments, ?_, fun n k hbefore hlast => ?_⟩
  · obtain ⟨hpulled, hends⟩ := pullAssemblies_cuts segments .endless
    rw [Pulled.cut_endless] at hpulled hends
    rw [pullDump_of_ok hopen rfl]
    exact Prod.ext hpulled (hends _ rfl)
  · obtain ⟨hpulled, _⟩ := pullAssemblies_cuts segments (.atMost (n + 1))
    obtain ⟨hitems, hprogress⟩ := Pulled.cut_atMost_segments gs n k hbefore hlast
    rw [pullDump_of_ok hopen rfl, hpulled]
    refine ⟨hitems, hprogress, ?_⟩
    have hgathers : Gathers Fact.imageClassesByName.rank (do (← Query.domain).assemblies) s
        (fun as t => ∀ a ∈ as, t.Shows a) :=
      (Query.domain_gathers hs).bind hs fun _ _ _ ht hd =>
        (Domain.assemblies_notes ht hd (by decide)).gathers
    have hcalls : s.CallsOnly _ (AsksImagesOf (as.take (k + 1))) := hgathers.asksNoImage hs
    obtain ⟨trail, has⟩ := hgathers.of_ok hopen
    rw [Query.leaves_of_ok hopen] at hcalls
    exact hcalls.trans (pullAssemblies_calls segments n k (trail.grows hs).2 has hbefore hlast)

/-- The name of the first assembly cannot be read, and who pulls one item gets this error alone. -/
theorem Session.Course.dump_in_segments_small :
    let s₀ := Session.new Snapshot.small.machine ⟨2020, 3, 1, some "f1"⟩ .current
    let s : Session :=
      { s₀ with probe := s₀.probe.setFault "image_name" ⟨0, some 1, .fails "lost"⟩ }
    Vm.ofSnapshot Snapshot.small = .ok Snapshot.small.machine ∧ s₀.Course s ∧
      ∃ a b t e g u,
        (do (← Query.domain).assemblies : Query (List Assembly)) s = .ok [a, b] t ∧
        HasSegments .classes [a, b] t [⟨none, [.error e]⟩, g] u ∧
        (pullDump .classes (.atMost 1) s).1.items = [.error e] ∧
        (pullDump .classes (.atMost 1) s).1.progress = [] ∧
        s.CallsOnly (pullDump .classes (.atMost 1) s).2 (AsksImagesOf [a]) := by
  intro s₀ s
  have hvm : Vm.ofSnapshot Snapshot.small = .ok Snapshot.small.machine :=
    Vm.ofSnapshot_machine (Or.inr rfl)
  have course : s₀.Course s := .spoil .start _ _
  have hlength : (match (do (← Query.domain).assemblies : Query (List Assembly)) s with
      | .ok as _ => as.length
      | .error _ _ => 0) = 2 := by
    decide +kernel
  have hfirst : Pulled.progress ⟨(pullDump .classes .endless s).1.events.take 1, none⟩ = [] := by
    decide +kernel
  refine ⟨hvm, course, ?_⟩
  cases hopen : (do (← Query.domain).assemblies : Query (List Assembly)) s with
  | error e t =>
      rw [hopen] at hlength
      cases hlength
  | ok as t =>
      rw [hopen] at hlength
      obtain ⟨a, b, rfl⟩ := List.length_eq_two.mp hlength
      obtain ⟨gs, u, segments, hend, hstop⟩ := (dump_in_segments hvm course .classes).2 _ t hopen
      rw [hend] at hfirst
      cases segments with
      | cons first others =>
          cases others with
          | cons second rest =>
              cases rest
              have hstop := hstop 0 0 (Nat.zero_le _)
              cases first with
              | unnamed fails =>
                  exact ⟨a, b, t, _, _, u, rfl, .cons (.unnamed fails) (.cons second (.nil u)),
                    hstop Nat.one_pos⟩
              | noImage | unlisted | listed => cases hfirst

end VmMetadata
