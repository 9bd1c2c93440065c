import VmMetadata.Proofs.Session.Descriptor
import VmMetadata.Proofs.Session.Origin
import VmMetadata.Proofs.Session.Trail

/-!
Sessions in which calls fail but are never answered falsely, beside a session in which none fails.
Both began on one machine. A note is faithful if its getter finds the same at the very beginning,
and a session if all its notes are; what it may do besides is to have made its scratch descriptor.
Main statement: whatever never changes in a machine it tells alike in all faithful sessions.
-/

namespace VmMetadata

open Std (TreeMap)

/-! ## What pages do not change -/

/-- A parameter, but for the page of its type. -/
def Parameter.key (p : Parameter) : Nat × String × Handle :=
  (p.position, p.name, p.type.handle)

/-- The tables show the same objects under the same names. -/
def View.SameByName (table other : TreeMap String (View e)) : Prop :=
  ∀ name : String, (table[name]?).map View.handle = (other[name]?).map View.handle

/-- The values are the same but for the pages of the views in them. -/
def Fact.Same : (f : Fact) → f.Value → f.Value → Prop
  | .domainAssemblies, as, bs => as.map View.handle = bs.map View.handle
  | .domainAssembliesByName, table, other =>
      View.SameByName table other
  | .assemblyImage, i, j | .classImage, i, j => i.handle = j.handle
  | .imageClasses, cs, ds | .classInterfaces, cs, ds => cs.map View.handle = ds.map View.handle
  | .imageClassesByName, table, other =>
      View.SameByName table other
  | .classParent, c?, d? | .classDeclaring, c?, d? | .hostClass, c?, d? =>
      c?.map View.handle = d?.map View.handle
  | .classFields, fs, gs => fs.map View.handle = gs.map View.handle
  | .classMethods, ms, ns => ms.map View.handle = ns.map View.handle
  | .classType, t, u | .fieldType, t, u | .methodReturnType, t, u => t.handle = u.handle
  | .methodClass, c, d => c.handle = d.handle
  | .methodParameters, ps, qs => ps.map Parameter.key = qs.map Parameter.key
  | _, v, w => v = w

namespace Fact.Same

variable {f : Fact} {u v w : f.Value}

theorem symm (h : f.Same v w) : f.Same w v := by
  cases f with
  | domainAssembliesByName | imageClassesByName => exact fun name => (h name).symm
  | _ => exact Eq.symm h

theorem trans (h : f.Same u v) (h' : f.Same v w) : f.Same u w := by
  cases f with
  | domainAssembliesByName | imageClassesByName => exact fun name => (h name).trans (h' name)
  | _ => exact Eq.trans h h'

end Fact.Same

namespace Session

/-- The views are of the one session and of the other, and show the same object. -/
structure Twins (s r : Session) (v w : View e) : Prop where
  left : s.Shows v
  right : r.Shows w
  handle : v.handle = w.handle

end Session

/-- The values are of the one session and of the other, and they are the same. -/
structure Fact.Twins (s r : Session) (f : Fact) (v w : f.Value) : Prop where
  left : f.Shown s v
  right : f.Shown r w
  same : f.Same v w

theorem Fact.Twins.symm {s r : Session} {f : Fact} {v w : f.Value} (h : f.Twins s r v w) :
    f.Twins r s w v :=
  ⟨h.right, h.left, h.same.symm⟩

/-- Lists whose elements correspond, where it is a key that has to be the same. -/
theorem forall₂_iff_keys {R : α → β → Prop} {G : α → Prop} {H : β → Prop} {key : α → κ}
    {key' : β → κ} (hR : ∀ a c, R a c ↔ G a ∧ H c ∧ key a = key' c) : ∀ {as : List α} {cs : List β},
    List.Forall₂ R as cs ↔ (∀ a ∈ as, G a) ∧ (∀ c ∈ cs, H c) ∧ as.map key = cs.map key'
  | [], cs => by cases cs <;> simp
  | a :: as, [] => by simp
  | a :: as, c :: cs => by
      rw [List.forall₂_cons, forall₂_iff_keys hR, hR]
      simp only [List.forall_mem_cons, List.map_cons, List.cons.injEq]
      constructor
      · rintro ⟨⟨ha, hc, heq⟩, has, hcs, hrest⟩
        exact ⟨⟨ha, has⟩, ⟨hc, hcs⟩, heq, hrest⟩
      · rintro ⟨⟨ha, has⟩, ⟨hc, hcs⟩, heq, hrest⟩
        exact ⟨⟨ha, hc, heq⟩, has, hcs, hrest⟩

theorem Session.forall₂_twins {s r : Session} {vs ws : List (View e)} :
    List.Forall₂ (s.Twins r) vs ws ↔
      (∀ v ∈ vs, s.Shows v) ∧ (∀ w ∈ ws, r.Shows w) ∧ vs.map View.handle = ws.map View.handle :=
  forall₂_iff_keys fun _ _ => ⟨fun h => ⟨h.left, h.right, h.handle⟩, fun h => ⟨h.1, h.2.1, h.2.2⟩⟩

/-- The parameters have the same place and name, and types of the one session and of the other. -/
structure Session.TwinParameters (s r : Session) (p q : Parameter) : Prop where
  position : p.position = q.position
  name : p.name = q.name
  type : s.Twins r p.type q.type

theorem Session.forall₂_twinParameters {s r : Session} {ps qs : List Parameter} :
    List.Forall₂ (s.TwinParameters r) ps qs ↔ (∀ p ∈ ps, s.Shows p.type) ∧
      (∀ q ∈ qs, r.Shows q.type) ∧ ps.map Parameter.key = qs.map Parameter.key := by
  refine forall₂_iff_keys fun p q => ?_
  simp only [Parameter.key, Prod.mk.injEq]
  exact ⟨fun h => ⟨h.type.left, h.type.right, h.position, h.name, h.type.handle⟩,
    fun h => ⟨h.2.2.1, h.2.2.2.1, h.1, h.2.1, h.2.2.2.2⟩⟩

theorem Session.rel_twins {s r : Session} {v? w? : Option (View e)} :
    Option.Rel (s.Twins r) v? w? ↔
      (∀ v ∈ v?, s.Shows v) ∧ (∀ w ∈ w?, r.Shows w) ∧ v?.map View.handle = w?.map View.handle := by
  constructor
  · rintro (⟨hv, hw, heq⟩ | _)
    · simp [hv, hw, heq]
    · simp
  · rintro ⟨hv, hw, heq⟩
    match v?, w? with
    | none, none => exact .none
    | some v, some w => exact .some ⟨hv v rfl, hw w rfl, Option.some.inj heq⟩

/-! ## Faithful sessions -/

/-- A call sets no fault. -/
theorem Probe.Counts.clean {p q : Probe} {c : AnyCall} (h : p.Counts c q) (hp : p.faults = []) :
    q.faults = [] := by
  refine List.eq_nil_iff_forall_not_mem.mpr fun x hx => ?_
  obtain ⟨y, hy, _⟩ := h.effects x hx
  rw [hp] at hy
  cases hy

/-- Nothing lies in scratch memory but the descriptor of the size, if there is one. -/
def Scratch.HoldsOnly (m : Scratch) (size : Nat) : Option Handle → Prop
  | none => m = .empty
  | some d => d = ⟨Scratch.base⟩ ∧ size ≠ 0 ∧ ∃ bytes cursor,
      m = ⟨[⟨Scratch.base, bytes⟩], cursor⟩ ∧ bytes.length = size

namespace Session

/-- A session that has just begun, and in which no call is spoiled. -/
structure Fresh (b : Session) : Prop where
  notebook : b.notebook = .new
  faults : b.probe.faults = []
  scratch : b.vm.scratch = .empty
  pointerSize : b.vm.pointerSize = 4 ∨ b.vm.pointerSize = 8

theorem fresh_of_attach {snapshot : Snapshot} {vm : Vm} {config : Config} {b : Session}
    (hvm : Vm.ofSnapshot snapshot = .ok vm) (h : Session.attach vm config = .ok b) : b.Fresh := by
  obtain ⟨version, layout, _, rfl⟩ := attach_eq_ok.mp h
  obtain ⟨hsize, known, l, rfl, _⟩ := Vm.ofSnapshot_eq_ok hvm
  exact ⟨rfl, rfl, rfl, hsize⟩

/-- The getter of the fact found this of the object when the session had just begun. -/
def Told (b : Session) (h : Handle) (f : Fact) (v : f.Value) : Prop :=
  ∃ v₀ t₀, f.getter h b.notebook.next (b.paged h) = .ok v₀ t₀ ∧ f.Same v v₀

/-- The session began as `b`. Its machine has not changed, its calls are not answered falsely, and
what it has noted was to be found at the beginning. -/
structure Faithful (b s : Session) : Prop where
  vm : s.vm = { b.vm with scratch := s.vm.scratch }
  layout : s.layout = b.layout
  honest : s.Honest
  front : s.notebook.shown? Notebook.front = some .null
  scratch : s.vm.scratch.HoldsOnly b.roomFor (s.notebook.find? Notebook.front .descriptor)
  notes : ∀ page h f v, f ≠ .descriptor → s.notebook.shown? page = some h →
    s.notebook.find? page f = some v → f.Shown s v ∧ b.Told h f v

/-- Two sessions that began as `b`; in the second one no call is spoiled. -/
structure Beside (b s r : Session) : Prop where
  left : b.Faithful s
  right : b.Faithful r
  clean : r.probe.faults = []

/-- The two sessions have become two others. -/
structure Strides (b s r t u : Session) : Prop extends Beside b t u where
  grows : s.Grows t
  grows' : r.Grows u

variable {b s r t u : Session}

theorem shown?_paged (s : Session) (h : Handle) :
    (s.paged h).notebook.shown? s.notebook.next = some h := by
  simp [Session.paged, Notebook.shown?_addPage]

theorem Fresh.find? (hb : b.Fresh) (page : Nat) (f : Fact) : b.notebook.find? page f = none := by
  rw [hb.notebook]
  match page with
  | 0 => rfl
  | page + 1 => rfl

theorem Fresh.faithful (hb : b.Fresh) : b.Faithful b where
  vm := rfl
  layout := rfl
  honest := honest_of_faults_nil hb.faults
  front := by rw [hb.notebook]; rfl
  scratch := by
    rw [hb.find?]
    exact hb.scratch
  notes := fun page h f v _ _ hv => by
    rw [hb.find?] at hv
    cases hv

namespace Faithful

variable (hs : b.Faithful s)
include hs

theorem pointerSize : s.vm.pointerSize = b.vm.pointerSize := by
  rw [hs.vm]

theorem roomFor : s.roomFor = b.roomFor := by
  unfold Session.roomFor
  rw [hs.layout, hs.pointerSize]

theorem paged (h : Handle) : b.Faithful (s.paged h) where
  vm := hs.vm
  layout := hs.layout
  honest := hs.honest
  front := (s.grows_paged h).shown _ _ hs.front
  scratch := by
    simp only [Session.paged, Notebook.find?_addPage]
    exact hs.scratch
  notes := fun page k f v hf hk hv => by
    simp only [Session.paged, Notebook.find?_addPage] at hv
    have hold : s.notebook.shown? page = some k := by
      simp only [Session.paged, Notebook.shown?_addPage] at hk
      split at hk
      · rename_i hpage
        subst hpage
        unfold Notebook.find? Notebook.next at hv
        rw [Array.getElem?_eq_none (Nat.le_refl _)] at hv
        cases hv
      · exact hk
    obtain ⟨hshown, htold⟩ := hs.notes page k f v hf hold hv
    exact ⟨(s.grows_paged h).factShown hshown, htold⟩

/-- Calls may be made to fail, and the descriptor may be filled anew. -/
theorem renewed {p : Probe} (hp : Session.Honest { s with probe := p }) {m : Scratch}
    (hm : m.HoldsOnly b.roomFor (s.notebook.find? Notebook.front .descriptor)) :
    b.Faithful { s with probe := p, vm := { s.vm with scratch := m } } where
  vm := by rw [hs.vm]
  layout := hs.layout
  honest := hp
  front := hs.front
  scratch := hm
  notes := fun page h f v hf hk hv => by
    obtain ⟨hshown, htold⟩ := hs.notes page h f v hf hk hv
    exact ⟨hshown.mono fun _ _ hk => hk, htold⟩

/-- A note of what was to be found at the beginning. -/
theorem noted {page : Nat} {h : Handle} {f : Fact} {v : f.Value} (hf : f ≠ .descriptor)
    (hp : s.notebook.shown? page = some h) (hv : f.Shown s v) (htold : b.Told h f v) :
    b.Faithful (s.noted page f v) where
  vm := hs.vm
  layout := hs.layout
  honest := hs.honest
  front := (Notebook.shown?_add ..).trans hs.front
  scratch := by
    simp only [Session.noted]
    rw [Notebook.find?_add_of_fact_ne hf]
    exact hs.scratch
  notes := fun other k g w hg hk hw => by
    have hold : s.notebook.shown? other = some k := (Notebook.shown?_add ..).symm.trans hk
    suffices hsuffices : g.Shown s w ∧ b.Told k g w from
      ⟨hsuffices.1.mono fun _ _ hk => (Notebook.shown?_add ..).trans hk, hsuffices.2⟩
    rcases found_noted hp hw with hnote | ⟨rfl, rfl, rfl⟩
    · exact hs.notes other k g w hg hold hnote
    · rw [hp] at hold
      cases hold
      exact ⟨hv, htold⟩

end Faithful

theorem Twins.grows {v w : View e} (h : s.Twins r v w) (hst : s.Grows t) (hru : r.Grows u) :
    t.Twins u v w :=
  ⟨hst.shows h.left, hru.shows h.right, h.handle⟩

theorem rel_grows {v? w? : Option (View e)} (h : Option.Rel (s.Twins r) v? w?) (hst : s.Grows t)
    (hru : r.Grows u) : Option.Rel (t.Twins u) v? w? := by
  cases h with
  | some tw => exact .some (tw.grows hst hru)
  | none => exact .none

namespace Beside

theorem paged (on : b.Beside s r) (h k : Handle) : b.Strides s r (s.paged h) (r.paged k) :=
  ⟨⟨on.left.paged h, on.right.paged k, on.clean⟩, s.grows_paged h, r.grows_paged k⟩

theorem strides (on : b.Beside s r) : b.Strides s r s r :=
  ⟨on, .refl s, .refl r⟩

/-- Both sessions have made a call. -/
theorem called (on : b.Beside s r) {c : AnyCall} {p q : Probe} (hp : s.probe.Counts c p)
    (hq : r.probe.Counts c q) {m n : Scratch}
    (hm : m.HoldsOnly b.roomFor (s.notebook.find? Notebook.front .descriptor))
    (hn : n.HoldsOnly b.roomFor (r.notebook.find? Notebook.front .descriptor)) :
    b.Strides s r { s with probe := p, vm := { s.vm with scratch := m } }
      { r with probe := q, vm := { r.vm with scratch := n } } where
  left := on.left.renewed (on.left.honest.of_counts hp rfl) hm
  right := on.right.renewed (on.right.honest.of_counts hq rfl) hn
  clean := hq.clean on.clean
  grows := grows_of_notebook rfl rfl rfl
  grows' := grows_of_notebook rfl rfl rfl

end Beside

theorem Strides.trans {s' r' : Session} (h : b.Strides s r t u) (h' : b.Strides t u s' r') :
    b.Strides s r s' r' :=
  ⟨h'.toBeside, h.grows.trans h'.grows, h.grows'.trans h'.grows'⟩

end Session

/-! ## Calls -/

namespace Access

/-- The computation leaves the machine alone, and scratch memory does not show in its outcome. -/
def Scratchless (x : Access α) : Prop :=
  ∀ vm : Vm, ∃ q, ∀ m : Scratch, x { vm with scratch := m } = lift q { vm with scratch := m }

namespace Scratchless

theorem of_blind {x : Access α} (h : x.Blind) (hx : x.Reads) : x.Scratchless := by
  intro vm
  obtain ⟨q, hq⟩ := hx vm
  refine ⟨q, fun m => ?_⟩
  have hsame := h vm vm.vmVersion vm.isLegacy m
  rw [hq] at hsame
  cases q <;> exact hsame

theorem read {f : Vm → α} (hf : ∀ (vm : Vm) (m : Scratch), f { vm with scratch := m } = f vm) :
    (Access.read f).Scratchless :=
  fun vm => ⟨.ok (f vm), fun m => by simp only [Access.read, hf, lift]⟩

theorem bind {x : Access α} {f : α → Access β} (hx : x.Scratchless)
    (hf : ∀ a, (f a).Scratchless) : (x >>= f).Scratchless := by
  intro vm
  obtain ⟨q, hq⟩ := hx vm
  cases q with
  | ok a =>
      obtain ⟨q', hq'⟩ := hf a vm
      exact ⟨q', fun m => (bind_ok (hq m)).trans (hq' m)⟩
  | error e => exact ⟨.error e, fun m => bind_error (hq m)⟩

end Scratchless

end Access

open Access in
/-- Scratch memory does not show in what never changes. -/
theorem Vm.answer_scratchless {c : Call ρ} (hc : c.isStable = true) : (answer c).Scratchless := by
  have hreads := (answer_stable hc).reads
  by_cases hblind : c.isBlind = true
  · exact .of_blind (answer_blind hblind) hreads
  cases c with
  | vmVersion => exact .read fun _ _ => rfl
  | imageClassStart image =>
      exact (Scratchless.of_blind (.imageNode image) (.lift_node _)).bind
        fun _ => .read fun _ _ => rfl
  | imageGetClass image index =>
      refine Scratchless.bind (.read fun _ _ => rfl) fun isLegacy => ?_
      split
      · exact .of_blind (.throw _) (.throw _)
      · exact .of_blind ((Blind.imageNode image).bind fun _ => .pure _)
          ((Reads.lift_node _).bind fun _ => .pure _)
  | _ => first | exact absurd rfl hblind | cases hc

/-- The machine gives one answer in all sessions that began alike. -/
theorem Session.exists_answer (b : Session) {c : Call ρ} (hc : c.isStable = true) :
    ∃ q, ∀ s, b.Faithful s → Vm.answer c s.vm = Access.lift q s.vm := by
  obtain ⟨q, hq⟩ := Vm.answer_scratchless hc b.vm
  refine ⟨q, fun s hs => ?_⟩
  rw [hs.vm]
  exact hq s.vm.scratch

end VmMetadata
