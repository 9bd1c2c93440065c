import Mathlib.Data.List.Forall2
import VmMetadata.Proofs.Machine.Told

/-!
Looks at a machine: computations that leave it alone and find later what they have found before. A
look is made of calls whose answers never change, so it needs neither views nor notes; what a
session reads through these is compared with what a look finds.
-/

namespace VmMetadata

/-- Something that can be looked up in a machine, now and at any later time. -/
structure Look (α : Type) where
  access : Access α
  stable : access.Stable

namespace Look

theorem ext {x y : Look α} (h : x.access = y.access) : x = y := by
  cases x
  cases y
  cases h
  rfl

instance : Monad Look where
  pure a := ⟨pure a, .pure a⟩
  bind x f := ⟨x.access >>= fun a => (f a).access, x.stable.bind fun a => (f a).stable⟩

instance : LawfulMonad Look :=
  LawfulMonad.mk' Look (fun x => ext (bind_pure x.access))
    (fun a f => ext (pure_bind a fun b => (f b).access))
    (fun x f g => ext (bind_assoc x.access (fun a => (f a).access) fun b => (g b).access))

/-- The answer to a call. -/
def ask (c : Call r) (hc : c.isStable = true) : Look r.Value :=
  ⟨Vm.answer c, Vm.answer_stable hc⟩

/-- What is no matter of the machine. -/
def lift (r : Except Error α) : Look α :=
  ⟨Access.lift r, .lift_node fun _ h => h⟩

/-- The handle of an object, unless it is null. -/
def require (h : Handle) : Look Handle :=
  lift (h.require "object")

/-- The object that a call names. -/
def object (c : Call .handle) (hc : c.isStable = true) : Look Handle := do
  require (← ask c hc)

/-- The objects that a call names. -/
def objects (c : Call .handles) (hc : c.isStable = true) : Look (List Handle) := do
  (← ask c hc).mapM require

/-- The look finds this. -/
def Finds (x : Look α) (vm : Vm) (a : α) : Prop :=
  x.access vm = .ok a vm

variable {x : Look α} {v w : Vm} {a b : α}

theorem Finds.later (h : x.Finds v a) (hvw : v.Later w) : x.Finds w a :=
  x.stable.later hvw h

theorem Finds.unique (ha : x.Finds v a) (hb : x.Finds v b) : a = b := by
  unfold Finds at ha hb
  rw [ha] at hb
  cases hb
  rfl

@[simp] theorem finds_pure : (pure a : Look α).Finds v b ↔ b = a := by
  constructor
  · intro h
    cases h
    rfl
  · rintro rfl
    rfl

@[simp] theorem finds_bind {f : α → Look β} {c : β} :
    (x >>= f).Finds v c ↔ ∃ a, x.Finds v a ∧ (f a).Finds v c := by
  constructor
  · intro h
    obtain ⟨a, u, ha, hc⟩ := Access.bind_eq_ok.mp h
    obtain rfl := x.stable.reads.eq_of_ok ha
    exact ⟨a, ha, hc⟩
  · rintro ⟨a, ha, hc⟩
    exact Access.bind_eq_ok.mpr ⟨a, v, ha, hc⟩

theorem finds_lift {r : Except Error α} : (lift r).Finds v a ↔ r = .ok a := by
  constructor
  · exact fun h => (Access.lift_eq_ok.mp h).1
  · exact fun h => Access.lift_eq_ok.mpr ⟨h, rfl⟩

@[simp] theorem finds_require {h k : Handle} : (require h).Finds v k ↔ k = h ∧ h ≠ .null := by
  unfold require
  rw [finds_lift]
  unfold Handle.require
  by_cases hnull : h = .null
  · rw [if_pos (Handle.isNull_iff.mpr hnull)]
    exact ⟨fun he => (by cases he), fun hk => absurd hnull hk.2⟩
  · rw [if_neg fun hn => hnull (Handle.isNull_iff.mp hn)]
    exact ⟨fun he => ⟨(Except.ok.inj he).symm, hnull⟩, fun hk => by rw [hk.1]⟩

@[simp] theorem finds_object {c : Call .handle} {hc : c.isStable = true} {k : Handle} :
    (object c hc).Finds v k ↔ v.Tells c k ∧ k ≠ .null := by
  unfold object
  simp only [finds_bind, finds_require]
  constructor
  · rintro ⟨h, hh, rfl, hne⟩
    exact ⟨hh, hne⟩
  · rintro ⟨hk, hne⟩
    exact ⟨k, hk, rfl, hne⟩

/-- Looks one after the other find one thing each. -/
@[simp] theorem finds_mapM {f : α → Look β} : ∀ {as : List α} {bs : List β},
    (as.mapM f).Finds v bs ↔ List.Forall₂ (fun a b => (f a).Finds v b) as bs
  | [], bs => by
      rw [List.mapM_nil, finds_pure, List.forall₂_nil_left_iff]
  | a :: as, bs => by
      rw [List.mapM_cons]
      simp only [finds_bind, finds_pure, finds_mapM, List.forall₂_cons_left_iff]
      constructor
      · rintro ⟨b, hb, bs, hbs, rfl⟩
        exact ⟨b, bs, hb, hbs, rfl⟩
      · rintro ⟨b, bs, hb, hbs, rfl⟩
        exact ⟨b, hb, bs, hbs, rfl⟩

theorem forall₂_require : ∀ {hs ks : List Handle},
    List.Forall₂ (fun h k => (require h).Finds v k) hs ks ↔ ks = hs ∧ Handle.null ∉ hs
  | [], ks => by simp
  | h :: hs, ks => by
      rw [List.forall₂_cons_left_iff]
      constructor
      · rintro ⟨k, ks, hk, hks, rfl⟩
        obtain ⟨rfl, hne⟩ := finds_require.mp hk
        obtain ⟨rfl, hnull⟩ := forall₂_require.mp hks
        exact ⟨rfl, by simp [hnull, Ne.symm hne]⟩
      · rintro ⟨rfl, hnull⟩
        rw [List.mem_cons, not_or] at hnull
        exact ⟨h, hs, finds_require.mpr ⟨rfl, Ne.symm hnull.1⟩,
          forall₂_require.mpr ⟨rfl, hnull.2⟩, rfl⟩

@[simp] theorem finds_objects {c : Call .handles} {hc : c.isStable = true} {ks : List Handle} :
    (objects c hc).Finds v ks ↔ v.Tells c ks ∧ Handle.null ∉ ks := by
  unfold objects
  simp only [finds_bind, finds_mapM, forall₂_require]
  constructor
  · rintro ⟨hs, hh, rfl, hnull⟩
    exact ⟨hh, hnull⟩
  · rintro ⟨hk, hnull⟩
    exact ⟨ks, hk, rfl, hnull⟩

end Look

end VmMetadata
