import VmMetadata.Proofs.Arena.WellFormed
import VmMetadata.Vm.Load

/-!
How a loader grows. A sound loader has a well-formed arena and tables whose handles name types and
classes. The steps of loading keep a loader sound, add to its arena and its tables, and change no
object but the class that is being linked.
-/

namespace VmMetadata

structure Loader.Sound (l : Loader) : Prop where
  arena : l.arena.WellFormed
  types : ∀ (name : String) (h : Handle), l.types[name]? = some h → l.arena.HasType h
  classes : ∀ (name : String) (h : Handle), l.classes[name]? = some h → l.arena.HasClass h

/-- The one loader has become the other, in which at most the objects at `hs` have changed. -/
structure Loader.GrowsBut (hs : List Handle) (l m : Loader) : Prop where
  arena : ∀ h n, h ∉ hs → l.arena.get? h = some n → m.arena.get? h = some n
  keeps : l.arena.Keeps m.arena
  types : ∀ (name : String) (h : Handle), l.types[name]? = some h → m.types[name]? = some h
  classes : ∀ (name : String) (h : Handle), l.classes[name]? = some h → m.classes[name]? = some h

/-- The one loader has become the other without a change to any object. -/
abbrev Loader.Grows (l m : Loader) : Prop :=
  Loader.GrowsBut [] l m

namespace Loader.GrowsBut

theorem refl (hs : List Handle) (l : Loader) : GrowsBut hs l l where
  arena := fun _ _ _ hn => hn
  keeps := .refl _
  types := fun _ _ h => h
  classes := fun _ _ h => h

theorem trans {hs ks : List Handle} {l m p : Loader} (hlm : GrowsBut hs l m)
    (hmp : GrowsBut ks m p) : GrowsBut (hs ++ ks) l p where
  arena := fun h n hh hn => by
    rw [List.mem_append, not_or] at hh
    exact hmp.arena h n hh.2 (hlm.arena h n hh.1 hn)
  keeps := hlm.keeps.trans hmp.keeps
  types := fun name h hn => hmp.types name h (hlm.types name h hn)
  classes := fun name h hn => hmp.classes name h (hlm.classes name h hn)

/-- Growth by new objects and new names. -/
theorem of_append {l m : Loader} {nodes : List Node} (arena : m.arena = l.arena.append nodes)
    (types : ∀ (name : String) (h : Handle), l.types[name]? = some h → m.types[name]? = some h)
    (classes : ∀ (name : String) (h : Handle),
      l.classes[name]? = some h → m.classes[name]? = some h) : Grows l m where
  arena := fun h n _ hn => by rw [arena]; exact Arena.get?_append_of_get? hn nodes
  keeps := by rw [arena]; exact Arena.keeps_append _ _
  types := types
  classes := classes

theorem push (l : Loader) (n : Node) : Grows l { l with arena := l.arena.push n } :=
  of_append (Arena.push_eq_append _ _) (fun _ _ h => h) (fun _ _ h => h)

/-- To set an object anew leaves all others as they are. -/
theorem set {l : Loader} {h : Handle} {n n' : Node} (hn : l.arena.get? h = some n)
    (hkeep : n.Keeps n') : GrowsBut [h] l { l with arena := l.arena.set h n' } where
  arena k m hk hm := by
    rw [List.mem_singleton] at hk
    rw [Arena.get?_set_of_ne hk, hm]
  keeps := Arena.keeps_set hn hkeep
  types _ _ h := h
  classes _ _ h := h

/-- A type stays as it is where only classes change. -/
theorem type {hs : List Handle} {l m : Loader} (hlm : GrowsBut hs l m)
    (hcls : ∀ k ∈ hs, l.arena.HasClass k) {t : Handle} {n : TypeNode}
    (ht : l.arena.type t = .ok n) : m.arena.type t = .ok n := by
  rw [Arena.type_eq_ok] at ht ⊢
  refine hlm.arena t _ (fun hk => ?_) ht
  obtain ⟨c, hc⟩ := hcls t hk
  rw [Arena.class_eq_ok, ht] at hc
  cases hc

end Loader.GrowsBut

namespace Loader.Grows

variable {l m : Loader} (hlm : l.Grows m)
include hlm

theorem get? {h : Handle} {n : Node} (hn : l.arena.get? h = some n) : m.arena.get? h = some n :=
  hlm.arena h n (List.not_mem_nil) hn

theorem trans {p : Loader} (hmp : m.Grows p) : l.Grows p :=
  Loader.GrowsBut.trans hlm hmp

end Loader.Grows

namespace Loader.Sound

variable {l : Loader} (hl : l.Sound)
include hl

/-- A well-formed arena that keeps the objects leaves the loader sound. -/
theorem of_keeps {a : Arena} (ha : a.WellFormed) (hkeeps : l.arena.Keeps a) :
    Sound { l with arena := a } where
  arena := ha
  types name h hn := hkeeps.hasType (hl.types name h hn)
  classes name h hn := hkeeps.hasClass (hl.classes name h hn)

theorem push {n : Node} (hn : n.WellLinked (l.arena.push n) l.arena.next) :
    Sound { l with arena := l.arena.push n } :=
  hl.of_keeps (hl.arena.push hn) (Loader.GrowsBut.push l n).keeps

theorem set {h : Handle} {n n' : Node} (hn : l.arena.get? h = some n) (hkeep : n.Keeps n')
    (hlinked : n'.WellLinked (l.arena.set h n') h) :
    Sound { l with arena := l.arena.set h n' } :=
  hl.of_keeps (hl.arena.set hn hkeep hlinked) (Arena.keeps_set hn hkeep)

end Loader.Sound

/-! ## Steps of loading -/

namespace Load

theorem bind_apply (x : Load α) (f : α → Load β) (l : Loader) :
    (x >>= f) l = f (x l).1 (x l).2 := rfl

theorem pure_apply (a : α) (l : Loader) : (pure a : Load α) l = (a, l) := rfl

theorem get_apply (l : Loader) : (get : Load Loader) l = (l, l) := rfl

theorem modify_apply (f : Loader → Loader) (l : Loader) :
    (modify f : Load Unit) l = ((), f l) := rfl

theorem mem_of_forall₂ {R : α → β → Prop} {as : List α} {bs : List β} (h : List.Forall₂ R as bs)
    {b : β} (hb : b ∈ bs) : ∃ a ∈ as, R a b := by
  induction h with
  | nil => cases hb
  | cons hab _ ih =>
      rcases List.mem_cons.mp hb with rfl | hb
      · exact ⟨_, List.mem_cons_self, hab⟩
      · obtain ⟨a, ha, hab⟩ := ih hb
        exact ⟨a, List.mem_cons_of_mem _ ha, hab⟩

/-- What one step does for every element, the steps for all elements do in turn: they keep the
loader as `G` asks for, and relate each element to what was made for it. -/
theorem mapM_grows {f : α → Load β} {G : Loader → Prop} {R : Loader → α → β → Prop}
    (step : ∀ l a, G l → G (f a l).2 ∧ l.Grows (f a l).2 ∧ R (f a l).2 a (f a l).1)
    (mono : ∀ {l m a b}, l.Grows m → R l a b → R m a b) :
    ∀ (as : List α) (l : Loader), G l →
      G (as.mapM f l).2 ∧ l.Grows (as.mapM f l).2 ∧
        List.Forall₂ (R (as.mapM f l).2) as (as.mapM f l).1
  | [], l, hl => ⟨hl, .refl [] l, .nil⟩
  | a :: as, l, hl => by
      obtain ⟨hgood, hgrow, ha⟩ := step l a hl
      obtain ⟨hgood', hgrow', has⟩ := mapM_grows step mono as (f a l).2 hgood
      rw [List.mapM_cons, bind_apply, bind_apply, pure_apply]
      exact ⟨hgood', hgrow.trans hgrow', .cons (mono hgrow' ha) has⟩

end Load

end VmMetadata
