import VmMetadata.Proofs.Dump.History
import VmMetadata.Proofs.Session.Misled
import VmMetadata.Proofs.Session.Still

/-!
Windows that the machine reports falsely. Whatever it says about where the classes of an image begin
and how many there are, the layout checks it against the table it has. Main statement: the image is
listed with just the classes of the reported window, or the first index without one is reported; and
a window that was refused is remembered by the view that was told of it, and by no other.
-/

namespace VmMetadata

open Query (Runs Fails Follows)
open Session (Misled Strays)

namespace Snapshot

/-- What listing an image comes to if the machine reports this window for it: the classes of the
window, or the error in their place. -/
def reported (s : Snapshot) (p : Site) (start count : Nat) :
    ClassLayout → Except Error (List Handle)
  | .legacy _ =>
      if start + count < 0x1_0000_0000 then
        if count = 0 ∨ start + count ≤ s.classCount then
          .ok (((s.sites.flatMap Site.classes).drop start).take count)
        else .error (.layoutMismatch "legacy" p.name (max start s.classCount))
      else .error (.layoutMismatch "legacy" p.name start)
  | .current =>
      if count ≤ p.classes.length then .ok (p.classes.take count)
      else .error (.layoutMismatch "current" p.name p.classes.length)

theorem Suits.current {s : Snapshot} {layout : ClassLayout} (h : s.Suits layout)
    (hlayout : layout = .current) : isLegacyBuild s.vmVersion = false := by
  subst hlayout
  exact h

/-- The layout that the build calls for lists every assembly with all of its classes. -/
theorem Suits.listing {s : Snapshot} {p : Site} {layout : ClassLayout} (h : s.Suits layout)
    (hsize : s.pointerSize = 4 ∨ s.pointerSize = 8) (hcount : s.classCount < 0x1_0000_0000)
    (hp : p ∈ s.sites) : s.listing p layout = .ok p.classes := by
  have hcovers := h.covers hcount hp
  exact listing_eq_ok_iff.mpr ⟨h.hasRoom hsize, hcovers,
    (found_eq_iff (mem_images.mpr (Or.inl hp)) hcovers).mpr (h.meets hcount hp)⟩

/-- What it comes to in any layout that a session may have. -/
def told (s : Snapshot) (p : Site) (start count : Nat) : ClassLayout → Except Error (List Handle)
  | .legacy offset => s.windowListing p.name offset start count
  | .current => s.reported p start count .current

/-- In the layout of a legacy build a reported window is a window of the whole table. -/
theorem Suits.told {s : Snapshot} {p : Site} {layout : ClassLayout} (h : s.Suits layout)
    (hsize : s.pointerSize = 4 ∨ s.pointerSize = 8) (start count : Nat) :
    s.told p start count layout = s.reported p start count layout := by
  cases layout with
  | current => rfl
  | legacy offset =>
      obtain ⟨size, hroom⟩ := h.exists_descriptorSize hsize
      have htable : s.table offset = s.sites.flatMap Site.classes := if_pos h.2
      have hresolvable : s.resolvable offset = s.classCount := if_pos h.2
      simp only [Snapshot.told, reported, windowListing, hroom, htable, hresolvable]

end Snapshot

/-! ## Indices of an image -/

namespace Session.On

variable {s : Session} {snapshot : Snapshot} (hs : s.On snapshot) {p : Site}
  (hp : p ∈ snapshot.images) {i : Image} (hi : s.Shows i) (himage : i.handle = p.image)
  (hcurrent : isLegacyBuild snapshot.vmVersion = false)
include hs hp himage hcurrent

/-- What a current build hands out at an index. -/
theorem tells_imageGetClass (index : Nat) :
    s.vm.Tells (.imageGetClass i.handle index) (p.classes[index]?.getD .null) := by
  have htells := Vm.tells_imageGetClass (himage ▸ hs.image hp) (hs.isLegacy.trans hcurrent) index
  rwa [Site.node, List.getElem?_toArray] at htells

theorem getClass_runs {index : Nat} {h : Handle} (hh : p.classes[index]? = some h) :
    Runs (do i.classAt "current" index (← Query.ask (.imageGetClass i.handle index))) s
      (fun c t => (t.Shows c ∧ c.handle = h) ∧ True) False := by
  have htells := hs.tells_imageGetClass hp himage hcurrent index
  have hne : h ≠ .null := by
    obtain ⟨c, n, hn⟩ := Load.mem_of_forall₂ (hs.presents hp) (List.mem_of_getElem? hh)
    obtain ⟨m, hm⟩ := hn
    exact Arena.ne_null_of_get? (Arena.class_eq_ok.mp hm.node)
  rw [hh] at htells
  refine (Runs.known hs.sound htells).bind fun k t _ sound hk => ?_
  obtain ⟨rfl, _⟩ := hk
  unfold Image.classAt
  rw [if_neg (by rw [Handle.isNull_iff]; exact hne)]
  exact (Query.Agree.viewAlone (.refl sound) .class_ _).runs.weaken
    (fun _ _ _ hv => ⟨hv.1, trivial⟩) hne

include hi

theorem getClass_fails {index : Nat} (hlong : p.classes.length ≤ index) :
    Fails (do i.classAt "current" index (← Query.ask (.imageGetClass i.handle index))) s
      (.layoutMismatch "current" p.name index) := by
  have htells := hs.tells_imageGetClass hp himage hcurrent index
  rw [List.getElem?_eq_none hlong] at htells
  refine .after (Runs.known hs.sound htells) fun k t later sound hk => ?_
  obtain ⟨rfl, _⟩ := hk
  exact Image.mismatch_fails sound (hi.later later)
    (later.vm.arena.image (himage ▸ hs.image hp)) _ _

variable {count : Nat}

omit hi in
/-- The first classes of the image are handed out, if it has so many. -/
theorem firstClasses_runs (hfits : count ≤ p.classes.length) :
    Runs (i.firstClasses count) s (fun cs _ => cs.map View.handle = p.classes.take count)
      False := by
  refine (Image.classesFrom_finds p.classes (I := fun _ => True) hs.sound trivial ?_ ?_).weaken
    (fun _ _ _ hcs => by simpa using hcs.1.2) id
  · intro index h t _ hh later sound _
    exact (hs.later later sound).getClass_runs hp himage hcurrent hh
  · right
    omega

/-- Otherwise the index behind the last one is reported. -/
theorem firstClasses_fails (hlong : ¬count ≤ p.classes.length) :
    Fails (i.firstClasses count) s (.layoutMismatch "current" p.name p.classes.length) := by
  have hmax := Nat.zero_max p.classes.length
  rw [← hmax]
  refine Image.classesFrom_misses p.classes (.layoutMismatch "current" p.name)
    (I := fun _ => True) hs.sound trivial ?_ ?_ (by omega)
  · intro index h t _ hh later sound _
    exact (hs.later later sound).getClass_runs hp himage hcurrent hh
  · intro index t _ hlong later sound _
    exact (hs.later later sound).getClass_fails hp (hi.later later) himage hcurrent hlong

end Session.On

/-! ## What a view is told -/

/-- Every call of the entry point is answered with the number. -/
def Probe.Answers (p : Probe) (entry : String) (number : Nat) : Prop :=
  p.faults.lookup entry = some ⟨0, none, .answers .number number⟩

theorem Probe.answers_setFault {p : Probe} (entry : String) (number : Nat) :
    (p.setFault entry ⟨0, none, .answers .number number⟩).Answers entry number := by
  simp [Answers, setFault]

theorem Probe.Answers.setFault {p : Probe} {entry : String} {number : Nat}
    (h : p.Answers entry number) {other : String} (hother : entry ≠ other) (f : Fault) :
    (p.setFault other f).Answers entry number := by
  unfold Answers Probe.setFault
  rw [List.lookup_cons, beq_false_of_ne hother]
  exact (lookup_filter_ne other entry p.faults).trans ((if_neg hother).trans h)

/-- A call that a fault answers leaves the fault as it is. -/
theorem Query.ask_of_answers {s : Session} {c : Call .number} (hc : c.isConstant = false)
    {number : Nat} (h : s.probe.Answers c.name number) :
    ask c s = .ok number
      { s with probe := (s.probe.record c).setFault c.name ⟨0, none, .answers .number number⟩ } := by
  have hlookup : (s.probe.record c).faults.lookup c.name =
      some ⟨0, none, .answers .number number⟩ := h
  unfold ask Probe.intercept
  rw [hc, hlookup]
  rfl

namespace Session

/-- Whoever reads the window of the page's image reads this one: each of its numbers is noted, or
asked for and answered so. No list of classes is noted. The session goes side by side with one that
is told the truth. -/
structure Reports (page start count : Nat) (s r : Session) : Prop where
  misled : Misled windowEntries page s r
  unlisted : s.notebook.find? page .imageClasses = none
  start : s.layout ≠ .current → s.notebook.find? page .imageClassStart = some start ∨
    s.notebook.find? page .imageClassStart = none ∧ s.probe.Answers "image_class_start" start
  count : s.notebook.find? page .imageClassCount = some count ∨
    s.notebook.find? page .imageClassCount = none ∧ s.probe.Answers "image_class_count" count

/-- The page knows both numbers of the window, as far as the layout reads them, and no list. -/
structure Recalls (page start count : Nat) (s : Session) : Prop where
  unlisted : s.notebook.find? page .imageClasses = none
  start : s.layout ≠ .current → s.notebook.find? page .imageClassStart = some start
  count : s.notebook.find? page .imageClassCount = some count

section

variable {page start count : Nat} {entries : List String} {s r t u : Session}

theorem Recalls.healed (h : Recalls page start count s) : Recalls page start count s.healed :=
  ⟨h.unlisted, h.start, h.count⟩

/-- What is done elsewhere does not change what the page says. -/
theorem Recalls.strays (h : Recalls page start count s) (hlayout : t.layout = s.layout)
    (on : Strays entries page s t u) : Recalls page start count t where
  unlisted := (on.kept .imageClasses rfl).trans h.unlisted
  start := fun hlegacy => (on.kept .imageClassStart rfl).trans (h.start (hlayout ▸ hlegacy))
  count := (on.kept .imageClassCount rfl).trans h.count

/-- A page that knows the window needs no fault to be believed. -/
theorem Recalls.reports (h : Recalls page start count s) (hs : Misled [] page s r) :
    Reports page start count s r where
  misled := hs.weaken (List.nil_subset _)
  unlisted := h.unlisted
  start := fun hlegacy => Or.inl (h.start hlegacy)
  count := Or.inl h.count

end

namespace Reports

variable {page start count : Nat} {s r : Session} (h : Reports page start count s r)
include h

/-- A probe that answers as before. -/
theorem probed {p : Probe} (hspoiled : ∀ x ∈ p.faults, x.1 ∈ windowEntries)
    (hanswers : ∀ entry number, s.probe.Answers entry number → p.Answers entry number) :
    Reports page start count { s with probe := p } r where
  misled := ⟨h.misled.vm, h.misled.layout, h.misled.next, h.misled.begun, h.misled.found, hspoiled,
    h.misled.clean⟩
  unlisted := h.unlisted
  start := fun hlegacy => (h.start hlegacy).imp_right fun hasks =>
    ⟨hasks.1, hanswers _ _ hasks.2⟩
  count := h.count.imp_right fun hasks => ⟨hasks.1, hanswers _ _ hasks.2⟩

/-- A call for a number of the window that is answered by its fault. -/
theorem asked {c : Call .number} (hc : c.name ∈ windowEntries) {number : Nat}
    (hanswers : s.probe.Answers c.name number) :
    ∃ t, Query.ask c s = .ok number t ∧ t.notebook = s.notebook ∧
      Reports page start count t r := by
  have hconstant : c.isConstant = false := by
    cases c <;> first | rfl | exact absurd hc (by decide)
  refine ⟨_, Query.ask_of_answers hconstant hanswers, rfl, h.probed ?_ ?_⟩
  · intro x hx
    rcases List.mem_cons.mp hx with rfl | hx
    · exact hc
    · exact h.misled.spoiled x (List.mem_filter.mp hx).1
  · intro entry m hentry
    by_cases hsame : entry = c.name
    · subst hsame
      have hnumber : number = m := by
        have hfault := Option.some.inj (hanswers.symm.trans hentry)
        simpa using hfault
      exact hnumber ▸ Probe.answers_setFault ..
    · exact Probe.Answers.setFault (p := s.probe.record c) hentry hsame _

end Reports

end Session

open Session (Reports Recalls)

namespace Image

variable {i : Image} {start count : Nat} {s r : Session}

theorem classStart_reports (h : Reports i.page start count s r) (hlegacy : s.layout ≠ .current) :
    ∃ t, i.classStart s = .ok start t ∧ Reports i.page start count t r ∧
      t.notebook.find? i.page .imageClassStart = some start := by
  rcases h.start hlegacy with hnote | ⟨hblank, hanswers⟩
  · exact ⟨s, Query.remember_hit hnote _, h, hnote⟩
  · obtain ⟨t, hask, hsame, ht⟩ := h.asked (c := .imageClassStart i.handle)
      (by simp [Call.name, windowEntries]) hanswers
    have hnoted : (t.noted i.page .imageClassStart start).notebook.find? i.page .imageClassStart =
        some start :=
      Notebook.find?_add_same _ _ _ ht.misled.begun
    refine ⟨t.noted i.page .imageClassStart start, ?_, ?_, hnoted⟩
    · exact (Query.remember_miss hblank _).trans (by rw [hask])
    · have hother {g : Fact} (hne : Fact.imageClassStart ≠ g) :
          (t.noted i.page .imageClassStart start).notebook.find? i.page g =
            t.notebook.find? i.page g :=
        Notebook.find?_add_of_fact_ne hne start i.page
      exact
        { misled := Misled.told (f := .imageClassStart) ht.misled rfl start
          unlisted := (hother (by decide)).trans ht.unlisted
          start := fun _ => Or.inl hnoted
          count := (hother (g := .imageClassCount) (by decide)).symm ▸ ht.count }

theorem classCount_reports (h : Reports i.page start count s r) :
    ∃ t, i.classCount s = .ok count t ∧ Reports i.page start count t r ∧
      t.notebook.find? i.page .imageClassStart = s.notebook.find? i.page .imageClassStart ∧
      t.notebook.find? i.page .imageClassCount = some count := by
  rcases h.count with hnote | ⟨hblank, hanswers⟩
  · exact ⟨s, Query.remember_hit hnote _, h, rfl, hnote⟩
  · obtain ⟨t, hask, hsame, ht⟩ := h.asked (c := .imageClassCount i.handle)
      (by simp [Call.name, windowEntries]) hanswers
    have hnoted : (t.noted i.page .imageClassCount count).notebook.find? i.page .imageClassCount =
        some count :=
      Notebook.find?_add_same _ _ _ ht.misled.begun
    have hother {g : Fact} (hne : Fact.imageClassCount ≠ g) :
        (t.noted i.page .imageClassCount count).notebook.find? i.page g =
          t.notebook.find? i.page g :=
      Notebook.find?_add_of_fact_ne hne count i.page
    refine ⟨t.noted i.page .imageClassCount count, ?_, ?_, ?_, hnoted⟩
    · exact (Query.remember_miss hblank _).trans (by rw [hask])
    · exact
        { misled := Misled.told (f := .imageClassCount) ht.misled rfl count
          unlisted := (hother (by decide)).trans ht.unlisted
          start := fun hlegacy =>
            (hother (g := .imageClassStart) (by decide)).symm ▸ ht.start hlegacy
          count := Or.inl hnoted }
    · rw [hother (by decide), hsame]

/-- The classes of a reported window, in the way of the layout. -/
def resolve (i : Image) (pointerSize start count : Nat) : ClassLayout → Query (List Class)
  | .legacy offset => i.window offset pointerSize start count
  | .current => i.firstClasses count

/-- A view that is told of a window resolves it, and knows it from then on. The classes that are
found are noted, an error is not. -/
theorem classes_reports (h : Reports i.page start count s r) :
    ∃ t, Reports i.page start count t r ∧ Recalls i.page start count t ∧
      (∀ cs u, i.resolve r.vm.pointerSize start count r.layout t = .ok cs u →
        i.classes s = .ok cs (u.noted i.page .imageClasses cs)) ∧
      ∀ e u, i.resolve r.vm.pointerSize start count r.layout t = .error e u →
        i.classes s = .error e u := by
  -- both layouts come to resolving the window in a session that knows it
  suffices hfind : ∃ t, Reports i.page start count t r ∧ Recalls i.page start count t ∧
      (match s.layout with
        | .legacy offset => i.legacyClasses offset
        | .current => i.currentClasses) s =
        i.resolve r.vm.pointerSize start count r.layout t by
    obtain ⟨t, ht, hknown, hfind⟩ := hfind
    refine ⟨t, ht, hknown, fun cs u run => ?_, fun e u run => ?_⟩
    · exact Query.remember_of_ok h.unlisted
        ((Query.bind_ok (Query.get_apply s)).trans (hfind.trans run))
    · exact Query.remember_of_error h.unlisted
        ((Query.bind_ok (Query.get_apply s)).trans (hfind.trans run))
  have hlayout {t : Session} (ht : Reports i.page start count t r) : t.layout = r.layout :=
    ht.misled.layout.symm
  rw [hlayout h]
  cases hr : r.layout with
  | legacy offset =>
      have hlegacy {t : Session} (ht : Reports i.page start count t r) : t.layout ≠ .current := by
        rw [hlayout ht, hr]
        nofun
      have hpointer : Query.ask .pointerSize s =
          .ok r.vm.pointerSize (s.called .pointerSize s.vm) := by
        rw [h.misled.vm]
        exact Query.ask_unspoiled fun x hx hname => by
          have := h.misled.spoiled x hx
          rw [hname] at this
          exact absurd this (by decide)
      have h₁ : Reports i.page start count (s.called .pointerSize s.vm) r :=
        h.probed h.misled.spoiled fun _ _ hanswers => hanswers
      obtain ⟨t₂, hstart, h₂, hknown⟩ := classStart_reports h₁ (hlegacy h₁)
      obtain ⟨t₃, hcount, h₃, hkept, hknown'⟩ := classCount_reports h₂
      refine ⟨t₃, h₃, ⟨h₃.unlisted, fun _ => hkept.trans hknown, hknown'⟩, ?_⟩
      dsimp only
      rw [legacyClasses_eq, Query.bind_ok hpointer, Query.bind_ok hstart, Query.bind_ok hcount]
      rfl
  | current =>
      obtain ⟨t, hcount, ht, _, hknown⟩ := classCount_reports h
      refine ⟨t, ht, ⟨ht.unlisted, fun hlegacy => absurd ((hlayout ht).trans hr) hlegacy, hknown⟩, ?_⟩
      dsimp only
      rw [currentClasses_eq, Query.bind_ok hcount]
      rfl

theorem resolve_follows (h : Misled windowEntries i.page s r) (hi : i.page < s.notebook.next)
    (pointerSize start count : Nat) (layout : ClassLayout) :
    Follows windowEntries i.page (i.resolve pointerSize start count layout) s r := by
  cases layout with
  | legacy offset => exact window_follows (fun _ hx => hx) h hi offset pointerSize start count
  | current => exact firstClasses_follows (fun _ hx => hx) h hi count

end Image

namespace Session.On

variable {s : Session} {snapshot : Snapshot} (hs : s.On snapshot) {p : Site}

section

variable (hcurrent : s.layout = .current → isLegacyBuild snapshot.vmVersion = false)
  (hp : p ∈ snapshot.images) {i : Image} (hi : s.Shows i) (himage : i.handle = p.image)
  (hbelow : s.vm.arena.BelowScratch) {start count : Nat}
include hs hcurrent hp himage hbelow

theorem resolve_runs {ks : List Handle} (htold : snapshot.told p start count s.layout = .ok ks) :
    Runs (i.resolve s.vm.pointerSize start count s.layout) s
      (fun cs _ => cs.map View.handle = ks) False := by
  cases hlayout : s.layout with
  | legacy offset =>
      rw [hlayout] at htold
      exact (hs.window_runs hlayout hbelow htold).weaken (fun _ _ _ hcs => hcs.1.2) id
  | current =>
      rw [hlayout, Snapshot.told, Snapshot.reported] at htold
      split at htold
      · cases htold
        exact hs.firstClasses_runs hp himage (hcurrent hlayout) ‹_›
      · cases htold

include hi

theorem resolve_fails {e : Error} (htold : snapshot.told p start count s.layout = .error e) :
    Fails (i.resolve s.vm.pointerSize start count s.layout) s e := by
  cases hlayout : s.layout with
  | legacy offset =>
      rw [hlayout] at htold
      exact hs.window_fails hp hi himage hlayout hbelow htold
  | current =>
      rw [hlayout, Snapshot.told, Snapshot.reported] at htold
      split at htold
      · cases htold
      · cases htold
        exact hs.firstClasses_fails hp hi himage (hcurrent hlayout) ‹_›

omit hi in
/-- A view that is told of a window of the table lists it. -/
theorem classes_told_ok {t : Session} (ht : Reports i.page start count t s) {ks : List Handle}
    (htold : snapshot.told p start count s.layout = .ok ks) :
    ∃ cs u, i.classes t = .ok cs u ∧ cs.map View.handle = ks := by
  obtain ⟨t', ht', _, hok, _⟩ := Image.classes_reports ht
  have hfollows := Image.resolve_follows ht'.misled ht'.misled.begun s.vm.pointerSize start count
    s.layout
  cases hs.resolve_runs hcurrent hp himage hbelow htold with
  | error _ _ _ impossible => exact impossible.elim
  | ok run _ _ hcs =>
      cases hfollows with
      | error _ right _ =>
          rw [run] at right
          cases right
      | ok left right _ =>
          rw [run] at right
          cases right
          exact ⟨_, _, hok _ _ left, hcs⟩

/-- One that is told of another window refuses it, and goes on to know it. -/
theorem classes_told_error {t : Session} (ht : Reports i.page start count t s) {e : Error}
    (htold : snapshot.told p start count s.layout = .error e) :
    ∃ u v, i.classes t = .error e u ∧ Misled windowEntries i.page u v ∧
      Recalls i.page start count u ∧ s.Later v ∧ v.Sound ∧ v.vm.arena = s.vm.arena := by
  obtain ⟨t', ht', hknown, _, herror⟩ := Image.classes_reports ht
  have hfollows := Image.resolve_follows ht'.misled ht'.misled.begun s.vm.pointerSize start count
    s.layout
  obtain ⟨v, run, later, sound⟩ := hs.resolve_fails hcurrent hp hi himage hbelow htold
  cases hfollows with
  | ok _ right _ =>
      rw [run] at right
      cases right
  | @error _ u _ left right on =>
      rw [run] at right
      cases right
      have hclasses := herror _ _ left
      have hlayout : u.layout = t'.layout :=
        on.misled.layout.symm.trans (later.layout.trans ht'.misled.layout)
      have harena := Image.classes_still i t
      rw [Query.leaves_of_error hclasses, ← on.misled.vm, ← ht.misled.vm] at harena
      exact ⟨u, v, hclasses, on.misled, hknown.strays hlayout on, later, sound, harena⟩

end

include hs in
/-- A view that is made where nothing is spoiled lists the image of the assembly, whatever another
view of it was told. -/
theorem classes_anew (hsuits : snapshot.Suits s.layout)
    (hsize : snapshot.pointerSize = 4 ∨ snapshot.pointerSize = 8)
    (hcount : snapshot.classCount < 0x1_0000_0000) (hbelow : s.vm.arena.BelowScratch)
    (hp : p ∈ snapshot.sites) {page : Nat} {t : Session} (ht : Misled [] page t s) :
    ∃ cs u v, (do Image.classes (← Query.view .image p.image)) t = .ok cs u ∧
      cs.map View.handle = p.classes ∧ Strays [] page t u v ∧ s.Later v ∧ v.Sound ∧
      v.vm.arena = s.vm.arena := by
  have hmem := Snapshot.mem_images.mpr (Or.inl hp)
  have hne : p.image ≠ .null := Arena.ne_null_of_get? (Arena.image_eq_ok.mp (hs.image hmem))
  have hpaged := ht.paged p.image
  have later := Session.later_paged s p.image
  have hon := hs.later later (hs.sound.paged p.image)
  let j : Image := ⟨p.image, t.notebook.next⟩
  have hj : (s.paged p.image).Shows j := by
    refine ⟨hne, ?_⟩
    simp [j, Session.paged, Notebook.shown?_addPage, ht.next]
  -- the page of the new view is not the one that misleads
  have hfollows := Image.classes_follow (i := j) hpaged.misled
    (by simp [j, Session.paged]) (Nat.ne_of_gt ht.begun)
  have hlisting := hsuits.listing hsize hcount hp
  cases hon.classes_runs hmem hj rfl hlisting hbelow with
  | error _ _ _ impossible => exact impossible.elim
  | ok run later' sound hcs =>
      cases hfollows with
      | error _ right _ =>
          rw [run] at right
          cases right
      | ok left right on =>
          rw [run] at right
          cases right
          exact ⟨_, _, _, (Query.bind_ok (Query.view_of_ne_null hne .image t)).trans left,
            hcs.1.2, hpaged.trans on, later.trans later', sound, hcs.2⟩

end Session.On

/-! ## The listing of an image -/

/-- The calls for a window are answered with this one. -/
def Probe.reporting (p : Probe) (start count : Nat) : Probe :=
  (p.setFault "image_class_start" ⟨0, none, .answers .number start⟩).setFault
    "image_class_count" ⟨0, none, .answers .number count⟩

/-- The machine reports this window for every image. -/
def Session.reporting (s : Session) (start count : Nat) : Session :=
  { s with probe := s.probe.reporting start count }

/-- A view that has asked for no window yet is told the one that is reported. -/
theorem Session.reports_reporting {s : Session} (hs : s.Sound) {i : Image} (hi : s.Shows i)
    (hunread : ∀ f : Fact, f.isWindow = true → s.notebook.find? i.page f = none)
    (start count : Nat) : Reports i.page start count (s.reporting start count) s where
  misled :=
    { vm := rfl
      layout := rfl
      next := rfl
      begun := Notebook.lt_size_of_shown? hi.2
      found := fun _ _ _ => rfl
      spoiled := fun x hx => by
        have hfaults : (s.reporting start count).probe.faults =
            [("image_class_count", ⟨0, none, .answers .number count⟩),
              ("image_class_start", ⟨0, none, .answers .number start⟩)] := by
          simp [reporting, Probe.reporting, Probe.setFault, hs.faults]
        rw [hfaults] at hx
        rcases List.mem_cons.mp hx with rfl | hx
        · exact List.mem_cons_of_mem _ List.mem_cons_self
        · rw [List.mem_singleton.mp hx]
          exact List.mem_cons_self
      clean := hs.faults }
  unlisted := hunread .imageClasses rfl
  start := fun _ => Or.inr ⟨hunread .imageClassStart rfl,
    Probe.Answers.setFault (Probe.answers_setFault "image_class_start" start) (by decide) _⟩
  count := Or.inr ⟨hunread .imageClassCount rfl,
    Probe.answers_setFault "image_class_count" count⟩

/-- Whatever window the machine reports for the image of an assembly, its listing comes to what the
table has there. A window that is refused is not taken for the list: once the machine tells the
truth again, another view of the image lists all of its classes, while the one that was told of
the window goes on to refuse it. -/
theorem Image.classes_of_reported {snapshot : Snapshot} {vm : Vm} {b s : Session}
    (hvm : Vm.ofSnapshot snapshot = .ok vm) (hattach : Session.attach vm = .ok b)
    (history : b.History s) (hbelow : s.vm.arena.BelowScratch) {p : Site}
    (hp : p ∈ snapshot.sites) {i : Image} (hi : s.Shows i) (himage : i.handle = p.image)
    (hunread : ∀ f : Fact, f.isWindow = true → s.notebook.find? i.page f = none)
    (start count : Nat) :
    (∀ ks, snapshot.reported p start count s.layout = .ok ks →
      ∃ cs t, i.classes (s.reporting start count) = .ok cs t ∧ cs.map View.handle = ks) ∧
    ∀ e, snapshot.reported p start count s.layout = .error e →
      ∃ t u, i.classes (s.reporting start count) = .error e t ∧
        i.classes t.healed = .error e u ∧
        (snapshot.classCount < 0x1_0000_0000 →
          ∃ cs v w, (do Image.classes (← Query.view .image p.image)) t.healed = .ok cs v ∧
            cs.map View.handle = p.classes ∧ i.classes v = .error e w) := by
  have hattached := Session.On.of_attach hvm hattach
  obtain ⟨later, sound⟩ := history.sound hattached
  have hon := hattached.later later sound
  have hsize := (Vm.ofSnapshot_eq_ok hvm).1
  have hsuits : snapshot.Suits s.layout := later.layout ▸ Snapshot.suits_of_attach hvm hattach
  have hcurrent := hsuits.current
  have hmem := Snapshot.mem_images.mpr (Or.inl hp)
  have hreports := Session.reports_reporting sound hi hunread start count
  rw [← hsuits.told hsize]
  have hrefuses {x r : Session} (hx : Reports i.page start count x r) (hlater : s.Later r)
      (hr : r.Sound) (harena : r.vm.arena = s.vm.arena) {e : Error}
      (htold : snapshot.told p start count s.layout = .error e) :=
    (hon.later hlater hr).classes_told_error (hlater.layout ▸ hcurrent) hmem (hi.later hlater)
      himage (harena ▸ hbelow) hx (hlater.layout ▸ htold)
  refine ⟨fun ks htold => hon.classes_told_ok hcurrent hmem himage hbelow hreports htold,
    fun e htold => ?_⟩
  obtain ⟨t, r, hfirst, hmisled, hknown, later₁, sound₁, harena₁⟩ :=
    hrefuses hreports (.refl s) sound rfl htold
  -- the truthful session goes on beside the healed one
  have hmisled := hmisled.healed
  have hknown := hknown.healed
  obtain ⟨u, _, hsecond, _⟩ :=
    hrefuses (hknown.reports hmisled) later₁ sound₁ harena₁ htold
  refine ⟨t, u, hfirst, hsecond, fun hcount => ?_⟩
  obtain ⟨cs, v, r', hanew, hcs, on, later₂, sound₂, harena₂⟩ :=
    (hon.later later₁ sound₁).classes_anew (later₁.layout ▸ hsuits) hsize hcount
      (harena₁ ▸ hbelow) hp hmisled
  have hlayout : v.layout = t.healed.layout :=
    on.misled.layout.symm.trans (later₂.layout.trans hmisled.layout)
  obtain ⟨w, _, hthird, _⟩ :=
    hrefuses ((hknown.strays hlayout on).reports on.misled) (later₁.trans later₂) sound₂
      (harena₂.trans harena₁) htold
  exact ⟨cs, v, w, hanew, hcs, hthird⟩

/-- The small snapshot in a legacy build. -/
def Snapshot.aged : Snapshot :=
  { Snapshot.small with vmVersion := "2017.4.1f1" }

/-- A window that begins in the table of three classes and ends behind it is refused at the first
index behind the table. -/
theorem Image.classes_of_reported_aged :
    let s := Session.new Snapshot.aged.machine ⟨2017, 4, 1, some "f1"⟩ (.legacy 10)
    let t := (Query.view .image (Snapshot.aged.sites[0].image)).leaves s
    let i : Image := ⟨Snapshot.aged.sites[0].image, s.notebook.next⟩
    let e := Error.layoutMismatch "legacy" "Game.dll" 3
    Session.attach Snapshot.aged.machine = .ok s ∧ s.History t ∧
      ∃ u v, i.classes (t.reporting 1 4) = .error e u ∧ i.classes u.healed = .error e v ∧
        ∃ cs w, (do Image.classes (← Query.view .image i.handle)) u.healed = .ok cs w ∧
          cs.length = 1 := by
  intro s t i e
  have hattach : Session.attach Snapshot.aged.machine = .ok s :=
    Session.attach_eq_ok.mpr ⟨_, _, by decide +kernel, rfl⟩
  have history : s.History t :=
    .view .start .image Snapshot.aged.sites[0].image
  have hclasses := Image.classes_of_reported (i := i) (p := Snapshot.aged.sites[0])
    (Vm.ofSnapshot_machine (s := Snapshot.aged) (Or.inr rfl)) hattach history
    (Arena.belowScratch_of_size (by decide +kernel)) (List.getElem_mem _)
    ⟨by decide +kernel, by decide +kernel⟩ rfl
    (fun f _ => by cases f <;> rfl) 1 4
  obtain ⟨u, v, hfirst, hsecond, hanew⟩ := hclasses.2 e (by decide +kernel)
  obtain ⟨cs, w, _, hrun, hcs, _⟩ := hanew (by decide +kernel)
  refine ⟨hattach, history, u, v, hfirst, hsecond, cs, w, hrun, ?_⟩
  rw [← List.length_map View.handle, hcs]
  decide +kernel

end VmMetadata
