import VmMetadata.Proofs.Session.Client
import VmMetadata.Proofs.Session.Memoized

/-!
The getters of images, of assemblies and of the domain, and the classes that a session knows by name.
The classes of an image are noted as a whole: under the legacy layout they are found by means of the
descriptor that all images share, and whatever fails on the way, no part of the list is noted.
-/

namespace VmMetadata

open Query (Gathers Memoizes Notes Lasts)
open Session (Trail)
open Std (TreeMap)

variable {n : Nat} {s : Session}

theorem Session.Grows.showsIn {t : Session} (hst : s.Grows t) {table : TreeMap String (View e)}
    (h : s.ShowsIn table) : t.ShowsIn table :=
  fun name v hv => hst.shows (h name v hv)

/-! ## The descriptor -/

namespace Query

theorem remember_congr {page : Nat} {f : Fact} {find find' : Query f.Value} (h : find s = find' s) :
    remember page f find s = remember page f find' s := by
  cases hfound : s.notebook.find? page f with
  | some v => rw [remember_hit hfound, remember_hit hfound]
  | none => rw [remember_miss hfound, remember_miss hfound, h]

/-- A session with room for a descriptor asks for one and notes it. That its size is known before
the note is looked up makes no difference. -/
theorem descriptor_cases (s : Session) :
    (s.roomFor = 0 ∧ ∃ e, descriptor s = .error e (s.called .pointerSize s.vm)) ∨
      s.roomFor ≠ 0 ∧ descriptor s =
        Fact.getter .null Notebook.front .descriptor (s.called .pointerSize s.vm) := by
  have happly : descriptor s = (do
      let size ← lift (s.layout.descriptorSize s.vm.pointerSize)
      if size = 0 then throw (.accessor .noDescriptor)
      remember Notebook.front .descriptor do
        lift ((← ask (.alloc size)).require "descriptor") : Query Handle)
      (s.called .pointerSize s.vm) := rfl
  unfold Session.roomFor
  cases hsize : s.layout.descriptorSize s.vm.pointerSize with
  | error e =>
      rw [hsize] at happly
      exact Or.inl ⟨rfl, e, happly⟩
  | ok size =>
      rw [hsize, lift_ok, pure_bind] at happly
      by_cases hzero : size = 0
      · rw [if_pos hzero] at happly
        exact Or.inl ⟨hzero, _, happly⟩
      · rw [if_neg hzero] at happly
        refine Or.inr ⟨hzero, happly.trans (remember_congr ?_)⟩
        change _ = (do
          let size ← lift (s.layout.descriptorSize s.vm.pointerSize)
          lift ((← ask (.alloc size)).require "descriptor") : Query Handle)
          (s.called .pointerSize s.vm)
        rw [hsize, lift_ok, pure_bind]

theorem descriptorNote_notes (hs : s.Intact) (hn : 0 < n) :
    Notes n Notebook.front .descriptor (Fact.getter .null Notebook.front .descriptor) s :=
  .remember hs hs.front hn rfl (.get (.get ((Gathers.lift _).bind hs fun size _ _ ht _ =>
    (Gathers.call (.alloc size) (.of_none rfl rfl)).bind ht fun d _ _ _ _ =>
      (Gathers.require d "descriptor").weaken fun _ _ hd => hd.1 ▸ hd.2)))

theorem descriptor_gathers (hs : s.Intact) (hn : 0 < n) :
    descriptor.Gathers n s (fun d _ => d ≠ .null) := by
  have hsize : Trail n s (s.called .pointerSize s.vm) :=
    .call .pointerSize (.of_none rfl) (Nat.zero_le n)
  rcases descriptor_cases s with ⟨_, e, hrun⟩ | ⟨_, hrun⟩
  · exact .error hrun hsize
  · obtain ⟨grows, hintact⟩ := hsize.grows hs
    cases (descriptorNote_notes hintact hn).gathers with
    | ok run trail post => exact .ok (hrun.trans run) (hsize.trans trail) post
    | error run trail => exact .error (hrun.trans run) (hsize.trans trail)

end Query

/-! ## Images -/

namespace Image

theorem mismatch_gathers (hs : s.Intact) {i : Image} (hi : s.Shows i) (hn : 0 < n)
    (layout : String) (index : Nat) {P : α → Session → Prop} :
    (i.mismatch layout index : Query α).Gathers n s P :=
  (name_notes hs hi hn).gathers.bind hs fun _ _ _ _ _ => .throw _

theorem classAt_gathers (hs : s.Intact) {i : Image} (hi : s.Shows i) (hn : 0 < n)
    (layout : String) (index : Nat) (h : Handle) :
    (i.classAt layout index h).Gathers n s (fun c t => t.Shows c) := by
  unfold classAt
  split
  · exact mismatch_gathers hs hi hn layout index
  · exact (Gathers.view .class_ h).weaken fun _ _ hc => hc.1

theorem classesFrom_gathers {i : Image} {find : Nat → Query Class}
    (hfind : ∀ index t, t.Intact → t.Shows i → (find index).Gathers n t (fun c u => u.Shows c)) :
    ∀ (count index : Nat) {s : Session}, s.Intact → s.Shows i →
      (classesFrom find index count).Gathers n s (fun cs t => ∀ c ∈ cs, t.Shows c)
  | 0, _, _, _, _ => .pure (by simp)
  | count + 1, index, s, hs, hi => by
      refine (hfind index s hs hi).bind hs fun c t grows ht hc => ?_
      refine (classesFrom_gathers hfind count (index + 1) ht (grows.shows hi)).bind ht
        fun cs u grows' _ hcs => .pure ?_
      exact List.forall_mem_cons.mpr ⟨grows'.shows hc, hcs⟩

theorem classFromName_gathers (hs : s.Intact) {i : Image} (hi : s.Shows i)
    (namespace_ name : String) :
    (i.classFromName namespace_ name).Gathers n s (fun c? t => ∀ c ∈ c?, t.Shows c) :=
  .callView hs .class_ _ (hi.serves rfl rfl)

variable (hs : s.Intact) {i : Image} (hi : s.Shows i) (hn : 0 < n)
include hs hi

section

include hn

theorem classCount_notes : Notes n i.page .imageClassCount i.classCount s :=
  .remember hs hi.2 hn rfl (.call _ (hi.serves rfl rfl))

theorem classStart_notes : Notes n i.page .imageClassStart i.classStart s :=
  .remember hs hi.2 hn rfl (.call _ (hi.serves rfl rfl))

theorem currentClasses_gathers :
    i.currentClasses.Gathers n s (fun cs t => ∀ c ∈ cs, t.Shows c) := by
  refine (classCount_notes hs hi hn).gathers.bind hs fun count t grows ht _ => ?_
  refine classesFrom_gathers (fun index u hu hi => ?_) count 0 ht (grows.shows hi)
  exact (Gathers.call (.imageGetClass i.handle index) (hi.serves rfl rfl)).bind hu fun h _ grows hv _ =>
    classAt_gathers hv (grows.shows hi) hn _ _ _

end

/-- The window is resolved position by position, each after the descriptor was filled for it. -/
theorem legacyClasses_gathers (hn : 0 < n) (offset : Nat) :
    (i.legacyClasses offset).Gathers n s (fun cs t => ∀ c ∈ cs, t.Shows c) := by
  refine (Gathers.call .pointerSize (.of_none rfl rfl)).bind hs fun size t grows ht _ => ?_
  have hi := grows.shows hi
  refine (classStart_notes ht hi hn).gathers.bind ht fun start u grows hu _ => ?_
  have hi := grows.shows hi
  refine (classCount_notes hu hi hn).gathers.bind hu fun count v grows hv _ => ?_
  have hi := grows.shows hi
  refine (Query.descriptor_gathers hv hn).bind hv fun d w grows hw hd => .get ?_
  have hi := grows.shows hi
  refine (Gathers.lift _).bind hw fun size x grows hw _ => ?_
  have hi := grows.shows hi
  split
  · refine classesFrom_gathers (fun index u hu hi => ?_) count start hw hi
    refine (Gathers.call (.writeBytes d _) (.of_one rfl hd rfl)).bind hu fun _ t grows ht _ => ?_
    have hi := grows.shows hi
    exact (Gathers.call (.classFromType d) (.of_one rfl hd rfl)).bind ht fun h _ grows hv _ =>
      classAt_gathers hv (grows.shows hi) hn _ _ _
  · exact mismatch_gathers hw hi hn _ _

theorem classes_notes (hn : 1 < n) :
    Notes n i.page .imageClasses i.classes s := by
  refine .remember hs hi.2 hn rfl (.get ?_)
  cases s.layout with
  | legacy offset => exact legacyClasses_gathers hs hi (by decide) offset
  | current => exact currentClasses_gathers hs hi (by decide)

end Image

/-- A table of views by what is read of each. -/
theorem Query.table_gathers (hs : s.Intact) {vs : List (View e)} (hvs : ∀ v ∈ vs, s.Shows v)
    {key : View e → Query String}
    (hkey : ∀ v t, t.Intact → t.Shows v → (key v).Gathers n t (fun _ _ => True)) :
    Gathers n (vs.foldlM (fun (table : TreeMap String (View e)) v => do
      pure (table.insert (← key v) v)) ∅) s (fun table t => t.ShowsIn table) :=
  .foldlM (G := fun v t => t.Shows v) (I := fun table t => t.ShowsIn table)
    (fun _ _ _ grows hv => grows.shows hv) hs hvs s.showsIn_empty
    fun _ v t ht hv htable => (hkey v t ht hv).bind ht fun _ _ grows _ _ =>
      .pure ((grows.showsIn htable).insert (grows.shows hv) _)

theorem Image.classesByName_notes (hs : s.Intact) {i : Image} (hi : s.Shows i) (hn : 2 < n) :
    Notes n i.page .imageClassesByName i.classesByName s :=
  .remember hs hi.2 hn rfl
    ((classes_notes hs hi (by decide)).gathers.bind hs fun _ _ _ ht hcs =>
      Query.table_gathers ht hcs fun _ _ hu hc =>
        (Class.typeName_memoizes hu hc (by decide)).gathers)

/-! ## Assemblies and the domain -/

namespace Assembly

variable (hs : s.Intact) {a : Assembly} (ha : s.Shows a)
include hs ha

theorem image_notes (hn : 3 < n) : Notes n a.page .assemblyImage a.image s :=
  .remember hs ha.2 hn rfl (.viewOf hs .image _ ⟨.of_one rfl ha.1, Nat.le_refl _⟩)

theorem name_notes (hn : 4 < n) : Notes n a.page .assemblyName a.name s :=
  .remember hs ha.2 hn rfl
    ((image_notes hs ha (by decide)).gathers.bind hs fun _ _ _ ht hi =>
      (Image.name_notes ht hi (by decide)).gathers.bind ht fun _ _ _ _ _ => .pure trivial)

end Assembly

namespace Domain

theorem firstClass_gathers (namespace_ name : String) (hn : 3 < n) :
    ∀ {as : List Assembly} {s : Session}, s.Intact → (∀ a ∈ as, s.Shows a) →
      (firstClass namespace_ name as).Gathers n s (fun c? t => ∀ c ∈ c?, t.Shows c)
  | [], _, _, _ => .pure (by simp)
  | a :: rest, _, hs, has => by
      obtain ⟨ha, hrest⟩ := List.forall_mem_cons.mp has
      unfold firstClass
      refine (Assembly.image_notes hs ha hn).gathers.bind hs fun i t grows ht hi => ?_
      have hrest := grows.showsEach hrest
      refine (Image.classFromName_gathers ht hi namespace_ name).bind ht fun c? u grows hu hc => ?_
      cases c? with
      | some c => exact .pure hc
      | none => exact firstClass_gathers namespace_ name hn hu (grows.showsEach hrest)

variable (hs : s.Intact) {d : Domain} (hd : s.Shows d)
include hs hd

theorem assemblies_notes (hn : 0 < n) :
    Notes n d.page .domainAssemblies d.assemblies s :=
  .remember hs hd.2 hn rfl (.viewsOf hs .assembly _ (hd.serves rfl rfl))

theorem table_notes (hn : 5 < n) :
    Notes n d.page .domainAssembliesByName (Fact.getter d.handle d.page .domainAssembliesByName)
      s :=
  .remember hs hd.2 hn rfl ((assemblies_notes hs hd (by decide)).gathers.bind hs
    fun _ _ _ ht has => Query.table_gathers ht has
      fun _ _ hu ha => (Assembly.name_notes hu ha (by decide)).gathers)

theorem assembly?_memoizes (hn : 5 < n) (name : String) :
    (d.assembly? name).Memoizes n s (fun a? t => ∀ a ∈ a?, t.Shows a) :=
  (table_notes hs hd hn).bind hs fun _ _ _ _ htable => .pure fun a ha => htable name a ha

theorem findClass_gathers (hn : 3 < n) (qualified : String) :
    (d.findClass qualified).Gathers n s (fun c? t => ∀ c ∈ c?, t.Shows c) :=
  (assemblies_notes hs hd (Nat.zero_lt_of_lt hn)).gathers.bind hs fun _ _ _ ht has =>
    firstClass_gathers _ _ hn ht has

end Domain

/-! ## The session itself -/

namespace Query

variable (hs : s.Intact)
include hs

theorem domain_gathers : domain.Gathers n s (fun d t => t.Shows d) :=
  .viewOf hs .domain _ (.of_none rfl rfl)

theorem corlib_gathers : corlib.Gathers n s (fun i t => t.Shows i) :=
  .viewOf hs .image _ (.of_none rfl rfl)

theorem corlibClass_gathers (namespace_ name : String) :
    (corlibClass namespace_ name).Gathers n s (fun h _ => h ≠ .null) := by
  refine (Gathers.call .corlib (.of_none rfl rfl)).bind hs fun h t _ ht _ => ?_
  refine (Gathers.require h "corlib image").bind ht fun image u _ hu himage => ?_
  obtain ⟨rfl, himage⟩ := himage
  refine (Gathers.call (.classFromName image namespace_ name) (.of_one rfl himage rfl)).bind hu
    fun c _ _ _ _ => ?_
  refine (Gathers.require c "corlib class").weaken ?_
  rintro k _ ⟨rfl, hne⟩
  exact hne

theorem rootNote_notes (hn : 0 < n) :
    Notes n Notebook.front .rootClass (Fact.getter .null Notebook.front .rootClass) s :=
  .remember hs hs.front hn rfl (corlibClass_gathers hs _ _)

theorem rootClass_lasts (hn : 0 < n) :
    rootClass.Lasts n View.handle s (fun c t => t.Shows c) :=
  (rootNote_notes hs hn).lasts_view hs .class_

theorem reflectionNote_notes (hn : 0 < n) :
    Notes n Notebook.front .reflectionClass (Fact.getter .null Notebook.front .reflectionClass)
      s :=
  .remember hs hs.front hn rfl (corlibClass_gathers hs _ _)

theorem reflectionClass_lasts (hn : 0 < n) :
    reflectionClass.Lasts n View.handle s (fun c t => t.Shows c) :=
  (reflectionNote_notes hs hn).lasts_view hs .class_

end Query

end VmMetadata
