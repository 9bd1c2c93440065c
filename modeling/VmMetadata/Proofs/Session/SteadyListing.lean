import VmMetadata.Proofs.Session.Steady

/-!
The getters of images, of assemblies and of the domain in two sessions, one of which has failures.
Under the legacy layout the classes of an image are found through the scratch descriptor. Whether a
session has made it already, and what a listing that failed on the way has left in it, makes no
difference, as it is filled anew for each position. Main statements: the getters are steady.
-/

namespace VmMetadata

open Query (Matches Steady Settled Retells Reaches ReachesAny ReachesAll)
open Std (TreeMap)

/-! ## The descriptor -/

namespace Session

/-- The session has made its descriptor. -/
def Describes (s : Session) : Prop :=
  s.notebook.find? Notebook.front .descriptor = some ⟨Scratch.base⟩

variable {b s r t u : Session}

theorem Describes.grows (h : s.Describes) (hst : s.Grows t) : t.Describes :=
  hst.found _ _ _ h

theorem Faithful.buffer (hs : b.Faithful s) (h : s.Describes) : ∃ bytes cursor,
    s.vm.scratch = ⟨[⟨Scratch.base, bytes⟩], cursor⟩ ∧ bytes.length = b.roomFor := by
  have hscratch := hs.scratch
  rw [h] at hscratch
  exact hscratch.2.2

/-- The descriptor is made and noted at once. -/
theorem Faithful.described (hs : b.Faithful s)
    (hmiss : s.notebook.find? Notebook.front .descriptor = none) (hroom : b.roomFor ≠ 0) :
    b.Faithful (Session.noted { s with vm := { s.vm with scratch := (s.vm.scratch.alloc b.roomFor).2 } }
      Notebook.front .descriptor ⟨Scratch.base⟩) where
  vm := by
    simp only [Session.noted]
    rw [hs.vm]
  layout := hs.layout
  honest := hs.honest
  front := (Notebook.shown?_add ..).trans hs.front
  scratch := by
    have hempty : s.vm.scratch = .empty := by
      have hscratch := hs.scratch
      rwa [hmiss] at hscratch
    simp only [Session.noted]
    rw [Notebook.find?_add_same _ _ _ (Notebook.lt_size_of_shown? hs.front), hempty]
    exact ⟨rfl, hroom, _, _, rfl, List.length_replicate⟩
  notes := fun page h f v hf hk hv => by
    simp only [Session.noted, Notebook.shown?_add] at hk
    simp only [Session.noted, Notebook.find?_add_of_fact_ne (Ne.symm hf)] at hv
    obtain ⟨hshown, htold⟩ := hs.notes page h f v hf hk hv
    exact ⟨hshown.mono fun _ _ hk => (Notebook.shown?_add ..).trans hk, htold⟩

end Session

namespace Query

variable {b s r : Session}

/-- The first piece of scratch memory lies at its beginning. -/
theorem access_alloc (hempty : s.vm.scratch = .empty) (size : Nat) :
    access (Vm.answer (.alloc size)) s = .ok ⟨Scratch.base⟩
      { s with vm := { s.vm with scratch := (s.vm.scratch.alloc size).2 } } := by
  change EStateM.Result.ok (⟨s.vm.scratch.cursor⟩ : Handle) _ = _
  rw [hempty]
  rfl

/-- What is written over the whole of the only piece is all that it holds. -/
theorem access_write {bytes old : List UInt8} {cursor : Nat}
    (hbuffer : s.vm.scratch = ⟨[⟨Scratch.base, old⟩], cursor⟩) (hlength : bytes.length = old.length) :
    access (Vm.answer (.writeBytes ⟨Scratch.base⟩ bytes)) s = .ok ()
      { s with vm := { s.vm with scratch := ⟨[⟨Scratch.base, bytes⟩], cursor⟩ } } := by
  have hwrite : s.vm.scratch.write ⟨Scratch.base⟩ bytes =
      .ok ⟨[⟨Scratch.base, bytes⟩], cursor⟩ := by
    rw [hbuffer]
    simp [Scratch.write, Scratch.read?, Scratch.overwrite, hlength]
  have hanswer : Vm.answer (.writeBytes ⟨Scratch.base⟩ bytes) s.vm =
      .ok () { s.vm with scratch := ⟨[⟨Scratch.base, bytes⟩], cursor⟩ } := by
    change (Access.lift (s.vm.scratch.write ⟨Scratch.base⟩ bytes) >>= _) s.vm = _
    rw [hwrite]
    rfl
  rw [access_apply, hanswer]

theorem access_classFromType (d : Handle) (s : Session) :
    access (Vm.answer (.classFromType d)) s = lift (s.vm.classOf d) s := by
  have hanswer : Vm.answer (.classFromType d) s.vm = Access.lift (s.vm.classOf d) s.vm := rfl
  rw [access_apply, hanswer]
  cases s.vm.classOf d <;> rfl

/-- A session makes its descriptor, or knows it, or fails; it does not fail if there is room and
no call is spoiled. -/
theorem descriptor_outcome (hs : b.Faithful s) :
    (∃ e t, descriptor s = .error e t ∧ b.Faithful t ∧ (b.roomFor = 0 ∨ s.probe.faults ≠ [])) ∨
      b.roomFor ≠ 0 ∧ ∃ t, descriptor s = .ok ⟨Scratch.base⟩ t ∧ b.Faithful t ∧ s.Grows t ∧
        t.Describes ∧ (s.probe.faults = [] → t.probe.faults = []) := by
  have hs₁ : b.Faithful (s.called .pointerSize s.vm) :=
    hs.renewed (p := s.probe.record .pointerSize) hs.honest hs.scratch
  have grows₁ : s.Grows (s.called .pointerSize s.vm) := Session.grows_of_notebook rfl rfl rfl
  have happly := descriptor_cases s
  rw [hs.roomFor] at happly
  rcases happly with ⟨hzero, e, happly⟩ | ⟨hzero, happly⟩
  · exact Or.inl ⟨e, _, happly, hs₁, Or.inl hzero⟩
  cases hfound : (s.called .pointerSize s.vm).notebook.find? Notebook.front .descriptor with
  | some d =>
      have hd := hs₁.scratch
      rw [hfound] at hd
      obtain ⟨rfl, _⟩ := hd
      exact Or.inr ⟨hzero, _, happly.trans (remember_hit hfound _), hs₁, grows₁, hfound, id⟩
  | none =>
      have hmiss := remember_miss hfound
        (do lift ((← ask (.alloc b.roomFor)).require "descriptor"))
      have hsearch : Fact.getter .null Notebook.front .descriptor (s.called .pointerSize s.vm) =
          remember Notebook.front .descriptor
            (do lift ((← ask (.alloc b.roomFor)).require "descriptor"))
            (s.called .pointerSize s.vm) := by
        refine remember_congr ?_
        change (lift (s.layout.descriptorSize s.vm.pointerSize) >>= _)
          (s.called .pointerSize s.vm) = _
        rw [Session.descriptorSize_eq (hs.roomFor ▸ hzero), hs.roomFor]
        rfl
      rw [hsearch] at happly
      obtain ⟨p, hp, ⟨hfaults, e, hask⟩ | hask⟩ := Matches.ask_outcome hs₁ (.alloc b.roomFor)
      · rw [bind_error hask] at hmiss
        exact Or.inl ⟨e, _, happly.trans hmiss, hs₁.renewed (hs₁.honest.of_counts hp rfl) hs₁.scratch,
          Or.inr hfaults⟩
      · have hempty : s.vm.scratch = .empty := by
          have hscratch := hs₁.scratch
          rwa [hfound] at hscratch
        have hs₂ := hs₁.renewed (hs₁.honest.of_counts hp rfl) hs₁.scratch
        have halloc := access_alloc (s := { s.called .pointerSize s.vm with probe := p }) hempty
          b.roomFor
        rw [bind_ok (hask.trans halloc), Handle.require_of_ne_null (by decide)] at hmiss
        have grows₂ : s.Grows { s with
            probe := p, vm := { s.vm with scratch := (s.vm.scratch.alloc b.roomFor).2 } } :=
          Session.grows_of_notebook rfl rfl rfl
        refine Or.inr ⟨hzero, _, happly.trans hmiss, hs₂.described hfound hzero,
          grows₂.noted hfound _, ?_, fun hclean => hp.clean hclean⟩
        exact Notebook.find?_add_same _ _ _ (Notebook.lt_size_of_shown? hs₁.front)

namespace Matches

variable {P : Session → Session → α → α → Prop} (on : b.Beside s r)
include on

/-- The size of pointers is asked for each time, and known each time. -/
theorem pointerSize : Matches b (Query.ask .pointerSize) (Query.ask .pointerSize) s r
    fun _ _ size size' => size = b.vm.pointerSize ∧ size' = b.vm.pointerSize :=
  .ok rfl rfl (on.called (p := s.probe.record .pointerSize) (q := r.probe.record .pointerSize)
    ⟨rfl, fun x hx => ⟨x, hx, rfl⟩⟩ ⟨rfl, fun x hx => ⟨x, hx, rfl⟩⟩ on.left.scratch
    on.right.scratch) ⟨on.left.pointerSize, on.right.pointerSize⟩

theorem descriptor : Matches b descriptor descriptor s r fun t u d d' =>
    d = ⟨Scratch.base⟩ ∧ d' = ⟨Scratch.base⟩ ∧ b.roomFor ≠ 0 ∧ t.Describes ∧ u.Describes := by
  rcases descriptor_outcome on.left with ⟨e, t, hleft, ht, _⟩ | ⟨hroom, t, hleft, ht, grows, hd, _⟩
  · exact .error hleft ht
  rcases descriptor_outcome on.right with
    ⟨_, _, _, _, hzero | hfaults⟩ | ⟨_, u, hright, hu, grows', hd', hclean⟩
  · exact absurd hzero hroom
  · exact absurd on.clean hfaults
  · exact .ok hleft hright ⟨⟨ht, hu, hclean on.clean⟩, grows, grows'⟩ ⟨rfl, rfl, hroom, hd, hd'⟩

/-- What is written over the whole descriptor is all that it holds. -/
theorem write (hs : s.Describes) (hr : r.Describes) {bytes : List UInt8}
    (hlength : bytes.length = b.roomFor) :
    Matches b (Query.ask (.writeBytes ⟨Scratch.base⟩ bytes))
      (Query.ask (.writeBytes ⟨Scratch.base⟩ bytes)) s r fun t u _ _ =>
        t.vm.scratch.read? Scratch.base = some bytes ∧
          u.vm.scratch.read? Scratch.base = some bytes := by
  obtain ⟨old, cursor, hbuffer, hold⟩ := on.left.buffer hs
  obtain ⟨old', cursor', hbuffer', hold'⟩ := on.right.buffer hr
  obtain ⟨p, hp, hleft⟩ := ask_outcome on.left (.writeBytes ⟨Scratch.base⟩ bytes)
  obtain ⟨q, hq, hright⟩ := ask_clean on (.writeBytes ⟨Scratch.base⟩ bytes)
  rcases hleft with ⟨_, e, hleft⟩ | hleft
  · exact .error hleft (on.left.renewed (on.left.honest.of_counts hp rfl) on.left.scratch)
  have holds {m : Option Handle} {old : List UInt8} {cursor : Nat}
      (h : Scratch.HoldsOnly ⟨[⟨Scratch.base, old⟩], cursor⟩ b.roomFor m) :
      Scratch.HoldsOnly ⟨[⟨Scratch.base, bytes⟩], cursor⟩ b.roomFor m := by
    cases m with
    | none => cases h
    | some d => exact ⟨h.1, h.2.1, bytes, cursor, rfl, hlength⟩
  have on' := on.called hp hq (holds (hbuffer ▸ on.left.scratch)) (holds (hbuffer' ▸ on.right.scratch))
  have hleft' := access_write (s := { s with probe := p }) hbuffer (hlength.trans hold.symm)
  have hright' := access_write (s := { r with probe := q }) hbuffer' (hlength.trans hold'.symm)
  exact .ok (hleft.trans hleft') (hright.trans hright') on' ⟨rfl, rfl⟩

/-- The class is found by what the descriptor holds. -/
theorem classFromType {d : Handle} {bytes : List UInt8}
    (hs : s.vm.scratch.read? d.address = some bytes)
    (hr : r.vm.scratch.read? d.address = some bytes) :
    Matches b (Query.ask (.classFromType d)) (Query.ask (.classFromType d)) s r
      fun _ _ h k => h = k := by
  obtain ⟨p, hp, hleft⟩ := ask_outcome on.left (.classFromType d)
  obtain ⟨q, hq, hright⟩ := ask_clean on (.classFromType d)
  have on' := on.called hp hq on.left.scratch on.right.scratch
  rcases hleft with ⟨_, e, hleft⟩ | hleft
  · exact .error hleft on'.left
  have hsame : r.vm.classOf d = s.vm.classOf d := by
    unfold Vm.classOf
    rw [hs, hr, on.left.vm, on.right.vm]
  rw [access_classFromType] at hleft hright
  change _ = lift (s.vm.classOf d) _ at hleft
  change _ = lift (r.vm.classOf d) _ at hright
  rw [hsame] at hright
  cases hclass : s.vm.classOf d with
  | ok h =>
      rw [hclass] at hleft hright
      exact .ok hleft hright on' rfl
  | error e =>
      rw [hclass] at hleft
      exact .error hleft on'.left

end Matches

end Query

/-! ## Images -/

variable {b s r : Session} (hb : b.Fresh)

namespace Image

include hb

theorem classCount_retells : Retells b .imageClassCount classCount :=
  .remember hb (by decide) (fun _ _ => rfl) ((Steady.ask .imageClassCount fun _ => rfl).weaken
    fun _ _ _ _ h => ⟨trivial, trivial, h⟩)

theorem classStart_retells : Retells b .imageClassStart classStart :=
  .remember hb (by decide) (fun _ _ => rfl) ((Steady.ask .imageClassStart fun _ => rfl).weaken
    fun _ _ _ _ h => ⟨trivial, trivial, h⟩)

theorem mismatch_matches {i j : Image} (on : b.Beside s r) (tw : s.Twins r i j) (layout : String)
    (index : Nat) {P : Session → Session → α → β → Prop} :
    Matches b (i.mismatch layout index : Query α) (j.mismatch layout index : Query β) s r P :=
  ((name_retells hb).same s r i j on tw).bind fun _ _ _ _ on' _ => .throw on'.toBeside _

theorem classAt_matches {i j : Image} (on : b.Beside s r) (tw : s.Twins r i j) (layout : String)
    (index : Nat) (h : Handle) :
    Matches b (i.classAt layout index h) (j.classAt layout index h) s r
      fun t u c d => t.Twins u c d := by
  unfold classAt
  split
  · exact mismatch_matches hb on tw layout index
  · exact .view on .class_ h

omit hb in
/-- One index after the other, whatever stays true of the sessions meanwhile. -/
theorem classesFrom_matches {find find' : Nat → Query Class} {I : Session → Session → Prop}
    (hI : ∀ s r t u, b.Strides s r t u → I s r → I t u)
    (hfind : ∀ index s r, b.Beside s r → I s r →
      Matches b (find index) (find' index) s r fun t u c d => t.Twins u c d) :
    ∀ (count index : Nat) {s r : Session}, b.Beside s r → I s r →
      Matches b (classesFrom find index count) (classesFrom find' index count) s r
        fun t u cs ds => List.Forall₂ (t.Twins u) cs ds
  | 0, _, _, _, on, _ => .pure on .nil
  | count + 1, index, s, r, on, hi => by
      unfold classesFrom
      refine (hfind index s r on hi).bind fun t u c d on hcd => ?_
      refine (classesFrom_matches hI hfind count (index + 1) on.toBeside (hI _ _ _ _ on hi)).bind
        fun t' u' cs ds on' hrest => .pure on'.toBeside ?_
      exact .cons (hcd.grows on'.grows on'.grows') hrest

theorem currentClasses_reach : ReachesAll b currentClasses :=
  (classCount_retells hb).bind fun t u i j count _ on tw h => by
    cases show count = _ from h.same
    refine classesFrom_matches (I := fun t u => t.Twins u i j)
      (fun _ _ _ _ on tw => tw.grows on.grows on.grows') (fun index t u on tw => ?_) count 0 on tw
    rw [tw.handle]
    refine (Matches.ask on rfl).bind fun t' u' h _ on' heq => ?_
    cases heq
    exact classAt_matches hb on'.toBeside (tw.grows on'.grows on'.grows') _ _ h

/-- A position is resolved by filling the descriptor, whatever it held before. -/
theorem windowClass_matches {i j : Image} (on : b.Beside s r) (tw : s.Twins r i j)
    (hs : s.Describes) (hr : r.Describes) {bytes : Nat → List UInt8} {index : Nat}
    (hlength : (bytes index).length = b.roomFor) :
    Matches b (i.windowClass ⟨Scratch.base⟩ bytes index) (j.windowClass ⟨Scratch.base⟩ bytes index)
      s r fun t u c d => t.Twins u c d := by
  refine (Matches.write on hs hr hlength).bind fun t u _ _ on hheld => ?_
  refine (Matches.classFromType on.toBeside hheld.1 hheld.2).bind fun t' u' h _ on' heq => ?_
  cases heq
  exact classAt_matches hb on'.toBeside ((tw.grows on.grows on.grows').grows on'.grows on'.grows')
    _ _ h

theorem legacyClasses_reach {offset : Nat} (hlayout : b.layout = .legacy offset) :
    ReachesAll b (legacyClasses · offset) := by
  intro s r i j on tw
  refine (Matches.pointerSize on).bind fun t u size _ on hsize => ?_
  obtain ⟨rfl, rfl⟩ := hsize
  have tw := tw.grows on.grows on.grows'
  refine ((classStart_retells hb).same t u i j on.toBeside tw).bind fun t u start _ on heq => ?_
  cases show start = _ from heq
  have tw := tw.grows on.grows on.grows'
  refine ((classCount_retells hb).same t u i j on.toBeside tw).bind fun t u count _ on heq => ?_
  cases show count = _ from heq
  have tw := tw.grows on.grows on.grows'
  refine (Matches.descriptor on.toBeside).bind fun t u d d' on hd => .get ?_
  obtain ⟨rfl, rfl, hroom, hs, hr⟩ := hd
  have tw := tw.grows on.grows on.grows'
  have hsize := Session.descriptorSize_eq hroom
  rw [hlayout] at hsize
  have hlength (index : Nat) : (descriptorBytes b.roomFor b.vm.pointerSize offset index).length =
      b.roomFor := by
    exact length_descriptorBytes (ClassLayout.le_descriptorSize hb.pointerSize hsize) offset index
  rw [on.left.layout, on.right.layout, hlayout, hsize, Query.lift_ok]
  simp only [pure_bind]
  split
  · exact classesFrom_matches (I := fun t u => t.Twins u i j ∧ t.Describes ∧ u.Describes)
      (fun _ _ _ _ on h => ⟨h.1.grows on.grows on.grows', h.2.1.grows on.grows,
        h.2.2.grows on.grows'⟩)
      (fun index t u on h => windowClass_matches hb on h.1 h.2.1 h.2.2 (hlength index)) count start
      on.toBeside ⟨tw, hs, hr⟩
  · exact mismatch_matches hb on.toBeside tw _ _

theorem classes_retells : Retells b .imageClasses classes := by
  refine .remember hb (by decide) (fun _ _ => rfl) (.weaken (P := fun t u cs ds =>
    List.Forall₂ (t.Twins u) cs ds) (fun s r i j on tw => .get ?_) fun _ _ _ _ h =>
      have h := Session.forall₂_twins.mp h
      ⟨h.1, h.2.1, h.2.2⟩)
  rw [on.left.layout, on.right.layout]
  cases hlayout : b.layout with
  | legacy offset => exact legacyClasses_reach hb hlayout s r i j on tw
  | current => exact currentClasses_reach hb s r i j on tw

theorem classes_reach : ReachesAll b classes :=
  (classes_retells hb).weaken fun _ _ _ _ h =>
    Session.forall₂_twins.mpr ⟨h.left, h.right, h.same⟩

omit hb in
theorem classFromName_reaches (namespace_ name : String) :
    ReachesAny b (classFromName · namespace_ name) :=
  .viewAny .class_ (.classFromName · namespace_ name) fun _ => rfl

end Image

/-! ## Tables -/

namespace Session

/-- The tables have views under the same names, and these correspond. -/
def TwinTables (s r : Session) (table other : TreeMap String (View e)) : Prop :=
  ∀ name : String, Option.Rel (s.Twins r) table[name]? other[name]?

theorem TwinTables.grows {table other : TreeMap String (View e)} {t u : Session}
    (h : s.TwinTables r table other) (hst : s.Grows t) (hru : r.Grows u) :
    t.TwinTables u table other :=
  fun name => rel_grows (h name) hst hru

theorem TwinTables.insert {table other : TreeMap String (View e)} (h : s.TwinTables r table other)
    {v w : View e} (tw : s.Twins r v w) (name : String) :
    s.TwinTables r (table.insert name v) (other.insert name w) := by
  intro key
  rw [TreeMap.getElem?_insert, TreeMap.getElem?_insert]
  split
  · exact .some tw
  · exact h key

theorem TwinTables.twins {table other : TreeMap String (View e)} (h : s.TwinTables r table other) :
    s.ShowsIn table ∧ r.ShowsIn other ∧ View.SameByName table other :=
  ⟨fun name v hv => (rel_twins.mp (h name)).1 v hv, fun name v hv => (rel_twins.mp (h name)).2.1 v hv,
    fun name => (rel_twins.mp (h name)).2.2⟩

end Session

theorem Query.Matches.table {key : View e → Query String} (hkey : Settled b key)
    (on : b.Beside s r) {vs ws : List (View e)} (h : List.Forall₂ (s.Twins r) vs ws) :
    Matches b
      (vs.foldlM (fun (table : TreeMap String (View e)) v => do
        Pure.pure (table.insert (← key v) v)) ∅)
      (ws.foldlM (fun (table : TreeMap String (View e)) v => do
        Pure.pure (table.insert (← key v) v)) ∅) s r fun t u table other => t.TwinTables u table other := by
  refine .foldlM (G := fun t u v w => t.Twins u v w) (I := fun t u table other =>
    t.TwinTables u table other) (fun _ _ _ _ _ _ on tw => tw.grows on.grows on.grows')
    (fun t u table other v w on tw htable => ?_) on h fun name => ?_
  · refine (hkey t u v w on tw).bind fun t' u' name _ on' heq => ?_
    cases heq
    exact .pure on'.toBeside ((htable.grows on'.grows on'.grows').insert
      (tw.grows on'.grows on'.grows') name)
  · simp only [TreeMap.getElem?_emptyc]
    exact .none

section

include hb

theorem Image.classesByName_retells : Retells b .imageClassesByName Image.classesByName :=
  .remember hb (by decide) (fun _ _ => rfl) (((Image.classes_reach hb).bind
    fun _ _ _ _ _ _ on _ h => Matches.table (Class.typeName_settled hb) on h).weaken
      fun _ _ _ _ h => have h := h.twins; ⟨h.1, h.2.1, h.2.2⟩)

/-! ## Assemblies and the domain -/

namespace Assembly

theorem image_retells : Retells b .assemblyImage image :=
  .remember hb (by decide) (fun _ _ => rfl) ((Steady.view .image .assemblyImage fun _ => rfl).weaken
    fun _ _ _ _ h => ⟨h.left, h.right, h.handle⟩)

theorem image_reaches : Reaches b image :=
  (image_retells hb).weaken fun _ _ _ _ h => ⟨h.left, h.right, h.same⟩

theorem name_retells : Retells b .assemblyName name :=
  .remember hb (by decide) (fun _ _ => rfl) (((image_reaches hb).viaThen
    (Image.name_retells hb).same fun _ => Steady.pure _).weaken fun _ _ _ _ h => ⟨trivial, trivial, h⟩)

end Assembly

namespace Domain

theorem assemblies_retells : Retells b .domainAssemblies assemblies :=
  .remember hb (by decide) (fun _ _ => rfl) ((Steady.views .assembly .domainAssemblies
    fun _ => rfl).weaken fun _ _ _ _ h => have h := Session.forall₂_twins.mp h; ⟨h.1, h.2.1, h.2.2⟩)

theorem assemblies_reach : ReachesAll b assemblies :=
  (assemblies_retells hb).weaken fun _ _ _ _ h =>
    Session.forall₂_twins.mpr ⟨h.left, h.right, h.same⟩

theorem table_retells : Retells b .domainAssembliesByName fun d : Domain =>
    Fact.getter d.handle d.page .domainAssembliesByName :=
  .remember hb (by decide) (fun _ _ => rfl) (((assemblies_reach hb).bind
    fun _ _ _ _ _ _ on _ h => Matches.table (Assembly.name_retells hb).same on h).weaken
      fun _ _ _ _ h => have h := h.twins; ⟨h.1, h.2.1, h.2.2⟩)

theorem assembly?_reaches (name : String) : ReachesAny b (assembly? · name) :=
  (table_retells hb).bind fun _ _ _ _ _ _ on _ h => .pure on
    (Session.rel_twins.mpr ⟨fun a ha => h.left name a ha, fun a ha => h.right name a ha, h.same name⟩)

theorem firstClass_matches (namespace_ name : String) : ∀ {as as' : List Assembly} {s r : Session},
    b.Beside s r → List.Forall₂ (s.Twins r) as as' →
      Matches b (firstClass namespace_ name as) (firstClass namespace_ name as') s r
        fun t u c? d? => Option.Rel (t.Twins u) c? d? := by
  intro as
  induction as with
  | nil =>
      intro as' s r on h
      cases List.forall₂_nil_left_iff.mp h
      exact .pure on .none
  | cons a as ih =>
      intro as' s r on h
      obtain ⟨a', as', tw, hrest, rfl⟩ := List.forall₂_cons_left_iff.mp h
      unfold firstClass
      refine (Assembly.image_reaches hb s r a a' on tw).bind fun t u i j on hi => ?_
      have hrest := hrest.imp fun _ _ tw => tw.grows on.grows on.grows'
      refine (Image.classFromName_reaches namespace_ name t u i j on.toBeside hi).bind
        fun t' u' c? d? on hc => ?_
      cases hc with
      | some tw => exact .pure on.toBeside (.some tw)
      | none => exact ih on.toBeside (hrest.imp fun _ _ tw => tw.grows on.grows on.grows')

theorem findClass_reaches (qualified : String) : ReachesAny b (findClass · qualified) :=
  (assemblies_reach hb).bind fun _ _ _ _ _ _ on _ h => firstClass_matches hb _ _ on h

end Domain

/-! ## The session itself -/

namespace Query.Matches

omit hb in
theorem corlibClass (on : b.Beside s r) (namespace_ name : String) :
    Matches b (Query.corlibClass namespace_ name) (Query.corlibClass namespace_ name) s r
      fun _ _ h k => h = k ∧ h ≠ .null := by
  refine (ask on rfl).bind fun t u image _ on heq => ?_
  cases heq
  refine (require on.toBeside image _).bind fun t u image _ on heq => ?_
  cases heq.1
  refine (ask on.toBeside rfl).bind fun t u cls _ on heq => ?_
  cases heq
  exact require on.toBeside cls _

/-- A new view each time, of the class whose handle is noted. -/
theorem rootClass (on : b.Beside s r) : Matches b Query.rootClass Query.rootClass s r
    fun t u c d => t.Twins u c d := by
  refine (remember hb (f := .rootClass)  (fun _ => rfl)
    (fun _ _ _ _ on _ _ => (corlibClass on _ _).weaken fun _ _ _ _ h => ⟨h.2, h.1 ▸ h.2, h.1⟩) on
    (by decide) on.left.front on.right.front).bind fun _ _ k _ on h => ?_
  cases show k = _ from h.same
  exact view on.toBeside .class_ k

theorem reflectionClass (on : b.Beside s r) :
    Matches b Query.reflectionClass Query.reflectionClass s r fun t u c d => t.Twins u c d := by
  refine (remember hb (f := .reflectionClass) 
    (fun _ => rfl) (fun _ _ _ _ on _ _ => (corlibClass on _ _).weaken
      fun _ _ _ _ h => ⟨h.2, h.1 ▸ h.2, h.1⟩) on
    (by decide) on.left.front on.right.front).bind fun _ _ k _ on h => ?_
  cases show k = _ from h.same
  exact view on.toBeside .class_ k

end Query.Matches

end

end VmMetadata
