import VmMetadata.Proofs.Dump.Declaration
import VmMetadata.Proofs.Dump.Line
import VmMetadata.Proofs.Session.Classes

/-!
Pulling a dump in two sessions. Where the classes of an image are looked up through scratch memory,
the arena must lie below it; but how large the arena gets is known only when the dump has been
pulled. So the rules here say of one session that it goes on soundly, and of the other that it
keeps up if the arena has stayed below. Main statement: two alike sessions that list the same
classes give the same dump.
-/

namespace VmMetadata

open Query (Agree Agrees Runs)

open Session (Together)

namespace Session

/-- The first session has become later and is sound. If its arena lies below scratch memory still,
the second one has kept up with it. -/
structure Pairs (s₁ s₂ t₁ t₂ : Session) : Prop where
  later : s₁.Later t₁
  sound : t₁.Sound
  together : t₁.vm.arena.BelowScratch → Together s₁ s₂ t₁ t₂

variable {s₁ s₂ t₁ t₂ u₁ u₂ : Session}

theorem Alike.pairs (h : s₁.Alike s₂) : Pairs s₁ s₂ s₁ s₂ :=
  ⟨.refl s₁, h.left, fun _ => h.together⟩

namespace Pairs

theorem trans (h : Pairs s₁ s₂ t₁ t₂) (k : Pairs t₁ t₂ u₁ u₂) : Pairs s₁ s₂ u₁ u₂ where
  later := h.later.trans k.later
  sound := k.sound
  together := fun hbelow =>
    (h.together (k.later.vm.arena.belowScratch hbelow)).trans (k.together hbelow)

theorem stay (h : Pairs s₁ s₂ t₁ t₂) : Pairs t₁ t₂ t₁ t₂ where
  later := .refl t₁
  sound := h.sound
  together := fun hbelow => (h.together hbelow).alike.together

end Pairs

/-- From these sessions on, both list the same classes for the image of every assembly. -/
def SameListing (b₁ b₂ : Session) : Prop :=
  ∀ t₁ t₂ (i : Image), Together b₁ b₂ t₁ t₂ → t₁.Shows i →
    (∃ a ∈ t₁.vm.assemblies, t₁.vm.Tells (.assemblyImage a) i.handle) →
    t₁.vm.arena.BelowScratch → i.classes.Same t₁ t₂

end Session

open Session (Pairs SameListing)

/-- The computation leaves the sessions a pair, and what it yields is as said. It yields the same in
the second session if the arena has stayed below scratch memory. -/
structure Pulls (x : StateM Session α) (s₁ s₂ : Session) (P : α → Session → Prop) : Prop where
  pairs : Pairs s₁ s₂ (x s₁).2 (x s₂).2
  same : (x s₁).2.vm.arena.BelowScratch → (x s₂).1 = (x s₁).1
  post : P (x s₁).1 (x s₁).2

namespace Pulls

variable {s₁ s₂ : Session} {P Q : α → Session → Prop}

theorem weaken {x : StateM Session α} (h : Pulls x s₁ s₂ P)
    (hPQ : ∀ a t, s₁.Later t → t.Sound → P a t → Q a t) : Pulls x s₁ s₂ Q :=
  ⟨h.pairs, h.same, hPQ _ _ h.pairs.later h.pairs.sound h.post⟩

theorem pure {a : α} (h : Pairs s₁ s₂ s₁ s₂) (ha : P a s₁) : Pulls (Pure.pure a) s₁ s₂ P :=
  ⟨h, fun _ => rfl, ha⟩

theorem bind {x : StateM Session α} {f : α → StateM Session β} {R : β → Session → Prop}
    (hx : Pulls x s₁ s₂ P)
    (hf : ∀ a t₁ t₂, Pairs s₁ s₂ t₁ t₂ → P a t₁ → Pulls (f a) t₁ t₂ R) :
    Pulls (x >>= f) s₁ s₂ R := by
  have hrest := hf _ _ _ hx.pairs hx.post
  have hsame : (f (x s₁).1 (x s₁).2).2.vm.arena.BelowScratch →
      f (x s₂).1 (x s₂).2 = f (x s₁).1 (x s₂).2 := fun hbelow => by
    rw [hx.same (hrest.pairs.later.vm.arena.belowScratch hbelow)]
  refine ⟨⟨hx.pairs.later.trans hrest.pairs.later, hrest.pairs.sound, fun hbelow => ?_⟩,
    fun hbelow => ?_, hrest.post⟩
  · change Together s₁ s₂ (f (x s₁).1 (x s₁).2).2 (f (x s₂).1 (x s₂).2).2
    rw [hsame hbelow]
    exact (hx.pairs.trans hrest.pairs).together hbelow
  · change (f (x s₂).1 (x s₂).2).1 = (f (x s₁).1 (x s₁).2).1
    rw [hsame hbelow]
    exact hrest.same hbelow

theorem attempt {x : Query α} {E F : Prop} (h : Pairs s₁ s₂ s₁ s₂) (hruns : Runs x s₁ P E)
    (hagree : s₁.vm.arena.BelowScratch → s₁.Alike s₂ → Agrees x s₁ s₂ Q F) :
    Pulls x.attempt s₁ s₂
      (fun r t => (∀ a, r = .ok a → P a t) ∧ ∀ e, r = .error e → E) := by
  have hboth : (x.attempt s₁).2.vm.arena.BelowScratch → s₁.Later (x.attempt s₁).2 →
      (x.attempt s₂).1 = (x.attempt s₁).1 ∧
        Together s₁ s₂ (x.attempt s₁).2 (x.attempt s₂).2 := fun hbelow hlater => by
    have hbelow' := hlater.vm.arena.belowScratch hbelow
    unfold Query.attempt
    cases hagree hbelow' (h.together hbelow').alike with
    | ok left right on _ | error left right on _ =>
        rw [left, right]
        exact ⟨rfl, on⟩
  have hone : s₁.Later (x.attempt s₁).2 ∧ (x.attempt s₁).2.Sound ∧
      (∀ a, (x.attempt s₁).1 = .ok a → P a (x.attempt s₁).2) ∧
      ∀ e, (x.attempt s₁).1 = .error e → E := by
    unfold Query.attempt
    cases hruns with
    | ok run later sound post =>
        rw [run]
        exact ⟨later, sound, fun _ ha => by cases ha; exact post, fun _ he => by cases he⟩
    | error run later sound reason =>
        rw [run]
        exact ⟨later, sound, (fun _ ha => by cases ha), fun _ _ => reason⟩
  obtain ⟨hlater, hsound, hpost⟩ := hone
  exact ⟨⟨hlater, hsound, fun hbelow => (hboth hbelow hlater).2⟩,
    fun hbelow => (hboth hbelow hlater).1, hpost⟩

/-- A query in which the build never shows. -/
theorem attemptBlind {x : Query α} {E : Prop} (h : Pairs s₁ s₂ s₁ s₂)
    (hx : ∀ t, s₁.Alike t → Agrees x s₁ t P E) :
    Pulls x.attempt s₁ s₂
      (fun r t => (∀ a, r = .ok a → P a t) ∧ ∀ e, r = .error e → E) :=
  attempt h (hx s₁ (.refl h.sound)).runs fun _ halike => hx s₂ halike

end Pulls

variable {s₁ s₂ : Session}

/-! ## Classes -/

theorem classBlock_same (h : s₁.Alike s₂) {c : Class} (hc : s₁.Shows c) :
    (classBlock c).Same s₁ s₂ :=
  (Class.declaration_finds h hc).same.bind fun _ _ _ on _ => .pure on.alike trivial

theorem classItems_pulls (kind : DumpKind) {c : Class} (h : Pairs s₁ s₂ s₁ s₂)
    (hc : s₁.Shows c) : Pulls (classItems kind c) s₁ s₂ (fun _ _ => True) := by
  cases kind with
  | classes =>
      exact (Pulls.attemptBlind h fun _ halike => classBlock_same halike hc).bind
        fun _ _ _ hpairs _ => .pure hpairs.stay trivial
  | methods =>
      refine (Pulls.attemptBlind h fun _ halike => methodLines_agrees halike hc).bind
        fun r _ _ hpairs _ => ?_
      cases r <;> exact .pure hpairs.stay trivial

theorem Pulled.andThen_pulls {first : Pulled} {rest : Patience → StateM Session Pulled}
    (h : Pairs s₁ s₂ s₁ s₂) (hrest : ∀ p, Pulls (rest p) s₁ s₂ (fun _ _ => True)) :
    Pulls (first.andThen rest) s₁ s₂ (fun _ _ => True) := by
  unfold Pulled.andThen
  cases first.patience with
  | none => exact .pure h trivial
  | some left => exact (hrest left).bind fun _ _ _ hpairs _ => .pure hpairs.stay trivial

theorem pullClasses_pulls (kind : DumpKind) : ∀ (cs : List Class) (p : Patience)
    {s₁ s₂ : Session}, Pairs s₁ s₂ s₁ s₂ → (∀ c ∈ cs, s₁.Shows c) →
      Pulls (pullClasses kind cs p) s₁ s₂ (fun _ _ => True)
  | [], _, _, _, h, _ => .pure h trivial
  | c :: rest, p, s₁, s₂, h, hcs => by
      refine (classItems_pulls kind h (hcs c List.mem_cons_self)).bind
        fun items t₁ t₂ hpairs _ => ?_
      exact Pulled.andThen_pulls hpairs.stay fun q => pullClasses_pulls kind rest q hpairs.stay
        fun d hd => (hcs d (List.mem_cons_of_mem c hd)).later hpairs.later

/-! ## Assemblies -/

/-- Viewing the object that a call names leaves the arena alone. -/
theorem Query.viewOf_runs {s : Session} (hs : s.Sound) (e : Entity) {c : Call .handle}
    (hc : c.isStable = true) :
    Runs (do Query.view e (← Query.ask c)) s
      (fun v t => t.ShowsAt c v ∧ t.vm.arena = s.vm.arena) True := by
  refine ((Runs.tell hs hc).weaken (fun _ _ _ hk => hk) fun _ => trivial).bind
    fun k t _ sound hk => ?_
  refine (Agree.viewAlone (.refl sound) e k).runs.weaken ?_ fun _ => trivial
  rintro i u later ⟨⟨hshows, rfl⟩, hvm⟩
  exact ⟨⟨hshows, hk.1.later hc later.vm⟩, (congrArg Vm.arena hvm).trans hk.2.arena⟩

namespace Assembly

variable {s : Session} {a : Assembly}

theorem image_runs (hs : s.Sound) (ha : s.Shows a) :
    Runs a.image s (fun i t => t.ShowsAt (.assemblyImage a.handle) i ∧ t.vm.arena = s.vm.arena)
      True :=
  .rememberAnd (f := .assemblyImage) hs ha.2 rfl (fun _ _ ht => ht)
    (Query.viewOf_runs hs .image rfl)

theorem classes_runs (hs : s.Sound) (ha : s.Shows a) :
    Runs (do (← a.image).classes) s (fun cs t => ∀ c ∈ cs, t.Shows c) True :=
  (image_runs hs ha).bind fun _ _ _ sound hi =>
    (Image.classes_runs sound hi.1.1).weaken (fun _ _ _ hcs => hcs.1.1) fun _ => trivial

theorem classes_same {b₁ b₂ : Session} (hlisting : SameListing b₁ b₂)
    (hb : Together b₁ b₂ s₁ s₂) (ha : s₁.Shows a) (hmem : a.handle ∈ s₁.vm.assemblies)
    (hbelow : s₁.vm.arena.BelowScratch) : Query.Same (do (← a.image).classes) s₁ s₂ := by
  refine ((image_agrees hb.alike ha).andRuns (image_runs hb.alike.left ha)).weaken
    (fun _ _ _ hi => hi.2) (fun _ => trivial) |>.bind fun i t₁ t₂ on hi => ?_
  refine hlisting t₁ t₂ i (hb.trans on) hi.1.1 ⟨a.handle, ?_, hi.1.2⟩ (hi.2 ▸ hbelow)
  rw [on.left.vm.catalog]
  exact hmem

end Assembly

variable {b₁ b₂ : Session} (hlisting : SameListing b₁ b₂)
include hlisting

theorem pullAssembly_pulls (kind : DumpKind) {a : Assembly} (p : Patience)
    (hb : Pairs b₁ b₂ s₁ s₂) (ha : s₁.Shows a) (hmem : a.handle ∈ s₁.vm.assemblies) :
    Pulls (pullAssembly kind a p) s₁ s₂ (fun _ _ => True) := by
  refine (Pulls.attemptBlind hb.stay fun _ halike => Assembly.name_agrees halike ha).bind
    fun name? t₁ t₂ hpairs _ => ?_
  cases name? with
  | error e => exact .pure hpairs.stay trivial
  | ok name =>
      have hb := hb.trans hpairs
      have ha := ha.later hpairs.later
      have hmem : a.handle ∈ t₁.vm.assemblies := by
        rw [hpairs.later.vm.catalog]
        exact hmem
      refine (Pulls.attempt hb.stay (Assembly.classes_runs hb.sound ha) fun hbelow _ =>
        Assembly.classes_same hlisting (hb.together hbelow) ha hmem hbelow).bind
        fun classes? u₁ u₂ hpairs' hclasses => ?_
      cases classes? with
      | error e => exact .pure hpairs'.stay trivial
      | ok classes =>
          exact (pullClasses_pulls kind classes p hpairs'.stay (hclasses.1 classes rfl)).bind
            fun _ _ _ hpairs'' _ => .pure hpairs''.stay trivial

theorem pullAssemblies_pulls (kind : DumpKind) : ∀ (as : List Assembly) (p : Patience)
    {s₁ s₂ : Session}, Pairs b₁ b₂ s₁ s₂ →
      (∀ a ∈ as, s₁.Shows a ∧ a.handle ∈ s₁.vm.assemblies) →
      Pulls (pullAssemblies kind as p) s₁ s₂ (fun _ _ => True)
  | [], _, _, _, hb, _ => .pure hb.stay trivial
  | a :: rest, p, s₁, s₂, hb, has => by
      obtain ⟨ha, hmem⟩ := has a List.mem_cons_self
      refine (pullAssembly_pulls hlisting kind p hb ha hmem).bind fun first t₁ t₂ hpairs _ => ?_
      refine Pulled.andThen_pulls hpairs.stay fun q =>
        pullAssemblies_pulls kind rest q (hb.trans hpairs) fun d hd => ?_
      obtain ⟨hd, hmem⟩ := has d (List.mem_cons_of_mem a hd)
      rw [hpairs.later.vm.catalog]
      exact ⟨hd.later hpairs.later, hmem⟩

/-- Two sessions that list the same classes for every assembly give the same dump. -/
theorem pullDump_pulls (kind : DumpKind) (p : Patience) (hb : Pairs b₁ b₂ s₁ s₂) :
    Pulls (pullDump kind p) s₁ s₂ (fun _ _ => True) := by
  refine (Pulls.attemptBlind hb.stay fun _ halike => Query.assemblies_agrees halike).bind
    fun as? t₁ t₂ hpairs has => ?_
  cases hover : p.isOver with
  | true => exact .pure hpairs.stay trivial
  | false =>
      cases as? with
      | error e => exact .pure hpairs.stay trivial
      | ok as =>
          obtain ⟨hshown, hhandles⟩ := has.1 as rfl
          exact pullAssemblies_pulls hlisting kind as p (hb.trans hpairs) fun a ha =>
            ⟨hshown a ha, hhandles ▸ List.mem_map_of_mem ha⟩

end VmMetadata
