import VmMetadata.Proofs.Session.Probed
import VmMetadata.Proofs.Session.Window

/-!
Sessions in which a page says something false about the window of its image, and calls that ask for
a window may be spoiled. Such a session goes side by side with one that is told the truth, as long as
nobody asks for a window or looks it up on that page. Main statement: resolving the positions of a
window is such a query, wherever the window is said to lie; and so is listing the image through any
other view, once nothing is spoiled any more.
-/

namespace VmMetadata

/-- The facts that say which classes an image has. -/
def Fact.isWindow : Fact → Bool
  | imageClassStart | imageClassCount | imageClasses => true
  | _ => false

/-- The entry points that say where the window of an image lies. -/
def windowEntries : List String :=
  ["image_class_start", "image_class_count"]

namespace Session

/-- The two sessions are one and the same, but that in the first one calls of these entry points may
be spoiled, and the page may say anything about the window of its image. -/
structure Misled (entries : List String) (page : Nat) (s r : Session) : Prop where
  vm : r.vm = s.vm
  layout : r.layout = s.layout
  next : r.notebook.next = s.notebook.next
  begun : page < s.notebook.next
  found : ∀ q f, ¬(q = page ∧ f.isWindow = true) → r.notebook.find? q f = s.notebook.find? q f
  spoiled : ∀ x ∈ s.probe.faults, x.1 ∈ entries
  clean : r.probe.faults = []

/-- A misled session has become another one, and what the page says about the window is what it
said. -/
structure Strays (entries : List String) (page : Nat) (s t u : Session) : Prop where
  misled : Misled entries page t u
  kept : ∀ f, f.isWindow = true → t.notebook.find? page f = s.notebook.find? page f
  grown : s.notebook.next ≤ t.notebook.next

variable {entries : List String} {page : Nat} {s r t u v w : Session}

theorem Misled.strays (h : Misled entries page s r) : Strays entries page s s r :=
  ⟨h, fun _ _ => rfl, le_refl _⟩

theorem Strays.trans (h : Strays entries page s t u) (k : Strays entries page t v w) :
    Strays entries page s v w :=
  ⟨k.misled, fun f hf => (k.kept f hf).trans (h.kept f hf), h.grown.trans k.grown⟩

/-- Whatever the page is told about the window, the other session does not know. -/
theorem Misled.told (h : Misled entries page s r) {f : Fact} (hf : f.isWindow = true)
    (v : f.Value) : Misled entries page (s.noted page f v) r where
  vm := h.vm
  layout := h.layout
  next := h.next.trans (Notebook.next_add ..).symm
  begun := (Notebook.next_add ..).symm ▸ h.begun
  found := fun q g hq => by
    have hne : ¬(q = page ∧ f = g) := by
      rintro ⟨hpage, rfl⟩
      exact hq ⟨hpage, hf⟩
    exact (h.found q g hq).trans (Notebook.find?_add_of_ne hne v).symm
  spoiled := h.spoiled
  clean := h.clean

/-- What is noted elsewhere is noted in both. -/
theorem Misled.noted (h : Misled entries page s r) {q : Nat} (hq : q < s.notebook.next) {f : Fact}
    (hf : ¬(q = page ∧ f.isWindow = true)) (v : f.Value) :
    Strays entries page s (s.noted q f v) (r.noted q f v) where
  misled :=
    { vm := h.vm
      layout := h.layout
      next := by simp [Session.noted, h.next]
      begun := by simpa [Session.noted] using h.begun
      found := fun other g hg => by
        simp only [Session.noted]
        by_cases hplace : other = q ∧ f = g
        · obtain ⟨rfl, rfl⟩ := hplace
          have hnext : other < r.notebook.next := h.next ▸ hq
          rw [Notebook.find?_add_same _ _ _ hq, Notebook.find?_add_same _ _ _ hnext]
        · rw [Notebook.find?_add_of_ne hplace, Notebook.find?_add_of_ne hplace,
            h.found other g hg]
      spoiled := h.spoiled
      clean := h.clean }
  kept := fun g hg => by
    have hne : ¬(page = q ∧ f = g) := by
      rintro ⟨hpage, rfl⟩
      exact hf ⟨hpage.symm, hg⟩
    exact Notebook.find?_add_of_ne hne v
  grown := by simp [Session.noted]

theorem Misled.paged (h : Misled entries page s r) (k : Handle) :
    Strays entries page s (s.paged k) (r.paged k) where
  misled :=
    { vm := h.vm
      layout := h.layout
      next := by simp [Session.paged, h.next]
      begun := by
        simp only [Session.paged, Notebook.next_addPage]
        exact Nat.lt_succ_of_lt h.begun
      found := fun q f hq => by
        simp only [Session.paged, Notebook.find?_addPage]
        exact h.found q f hq
      spoiled := h.spoiled
      clean := h.clean }
  kept := fun f _ => Notebook.find?_addPage ..
  grown := by simp [Session.paged]

theorem Misled.called (h : Misled entries page s r) (c : Call a) (w : Vm) :
    Strays entries page s (s.called c w) (r.called c w) where
  misled := ⟨rfl, h.layout, h.next, h.begun, h.found, h.spoiled, h.clean⟩
  kept := fun _ _ => rfl
  grown := le_refl _

theorem Misled.weaken {fewer : List String} (h : Misled fewer page s r) (hsub : fewer ⊆ entries) :
    Misled entries page s r :=
  ⟨h.vm, h.layout, h.next, h.begun, h.found, fun x hx => hsub (h.spoiled x hx), h.clean⟩

/-- Once nothing is spoiled any more, only the page misleads. -/
theorem Misled.healed (h : Misled entries page s r) : Misled [] page s.healed r :=
  ⟨h.vm, h.layout, h.next, h.begun, h.found, fun _ hx => absurd hx List.not_mem_nil, h.clean⟩

end Session

open Session (Misled Strays)

namespace Query

/-- The query does in the misled session what it does in the other one. -/
inductive Follows (entries : List String) (page : Nat) (x : Query α) (s r : Session) : Prop
  | ok {a : α} {t u : Session} (left : x s = .ok a t) (right : x r = .ok a u)
      (on : Strays entries page s t u)
  | error {e : Error} {t u : Session} (left : x s = .error e t) (right : x r = .error e u)
      (on : Strays entries page s t u)

namespace Follows

variable {entries : List String} {page : Nat} {s r : Session} (h : Misled entries page s r)
include h

theorem pure (a : α) : Follows entries page (Pure.pure a) s r :=
  .ok rfl rfl h.strays

theorem throw (e : Error) : Follows entries page (MonadExcept.throw e : Query α) s r :=
  .error rfl rfl h.strays

omit h in
theorem bind {x : Query α} {f : α → Query β} (hx : Follows entries page x s r)
    (hf : ∀ a t u, Strays entries page s t u → Follows entries page (f a) t u) :
    Follows entries page (x >>= f) s r := by
  cases hx with
  | @ok a t u left right on =>
      cases hf a t u on with
      | ok left' right' on' =>
          exact .ok ((bind_ok left).trans left') ((bind_ok right).trans right') (on.trans on')
      | error left' right' on' =>
          exact .error ((bind_ok left).trans left') ((bind_ok right).trans right') (on.trans on')
  | error left right on => exact .error (bind_error left) (bind_error right) on

omit h in
/-- What is done may depend on what the sessions have in common. -/
theorem get {f : Session → Query α} (hsame : f r = f s) (hf : Follows entries page (f s) s r) :
    Follows entries page (MonadState.get >>= f) s r := by
  cases hf with
  | ok left right on => exact .ok left ((congrFun hsame r).trans right) on
  | error left right on => exact .error left ((congrFun hsame r).trans right) on

/-- A call that is not spoiled. -/
theorem ask {c : Call a} (hc : c.name ∉ entries) : Follows entries page (Query.ask c) s r := by
  have hleft := ask_unspoiled (c := c) fun x hx hname => hc (hname ▸ h.spoiled x hx)
  have hright := ask_unspoiled (s := r) (c := c) fun x hx => by
    rw [h.clean] at hx
    cases hx
  rw [h.vm] at hright
  cases hanswer : Vm.answer c s.vm with
  | ok v w =>
      rw [hanswer] at hleft hright
      exact .ok hleft hright (h.called c w)
  | error e w =>
      rw [hanswer] at hleft hright
      exact .error hleft hright (h.called c w)

/-- What is noted of anything but the window. -/
theorem remember {q : Nat} (hq : q < s.notebook.next) {f : Fact}
    (hf : ¬(q = page ∧ f.isWindow = true)) {find : Query f.Value}
    (hfind : Follows entries page find s r) :
    Follows entries page (Query.remember q f find) s r := by
  have hfound := h.found q f hf
  cases hnote : s.notebook.find? q f with
  | some v =>
      rw [hnote] at hfound
      exact .ok (remember_hit hnote find) (remember_hit hfound find) h.strays
  | none =>
      rw [hnote] at hfound
      have hleft := remember_miss hnote find
      have hright := remember_miss hfound find
      cases hfind with
      | @ok v t u left right on =>
          rw [left] at hleft
          rw [right] at hright
          exact .ok hleft hright (on.trans (on.misled.noted (hq.trans_le on.grown) hf v))
      | error left right on =>
          rw [left] at hleft
          rw [right] at hright
          exact .error hleft hright on

theorem view (e : Entity) (k : Handle) : Follows entries page (Query.view e k) s r := by
  by_cases hk : k = .null
  · subst hk
    exact .error (view_null e s) (view_null e r) h.strays
  · have hright := view_of_ne_null hk e r
    rw [h.next] at hright
    exact .ok (view_of_ne_null hk e s) hright (h.paged k)

theorem lift (x : Except Error α) : Follows entries page (Query.lift x) s r := by
  cases x with
  | ok a => exact .ok rfl rfl h.strays
  | error e => exact .error rfl rfl h.strays

end Follows

end Query

/-! ## Listing the classes of an image -/

section

open Query (Follows)

variable {entries : List String} (hentries : entries ⊆ windowEntries) {page : Nat}
include hentries

/-- A call that asks for no window. -/
theorem Query.ask_follows {s r : Session} (h : Misled entries page s r) {c : Call a}
    (hc : c.name ∉ windowEntries) : Follows entries page (Query.ask c) s r :=
  .ask h fun hname => hc (hentries hname)

theorem Query.descriptor_follows {s r : Session} (h : Misled entries page s r) :
    Follows entries page Query.descriptor s r := by
  refine .get ?_ (.bind (ask_follows hentries h (by decide)) fun pointerSize t u on =>
    .bind (.lift on.misled _) fun size t u on => ?_)
  · simp only [h.layout]
  · have hnote {t u : Session} (on : Misled entries page t u) (size : Nat) :
        Follows entries page (remember Notebook.front .descriptor do
          Query.lift ((← ask (.alloc size)).require "descriptor")) t u := by
      refine .remember on (Nat.zero_lt_of_lt on.begun) (by simp [Fact.isWindow]) ?_
      refine .bind (ask_follows hentries on (by simp [Call.name, windowEntries])) ?_
      exact fun d _ _ on => .lift on.misled _
    dsimp only
    split
    · exact .bind (.throw on.misled _) fun _ _ _ on => hnote on.misled _
    · exact hnote on.misled _

namespace Image

variable {i : Image}

theorem name_follows {s r : Session} (h : Misled entries page s r)
    (hi : i.page < s.notebook.next) : Follows entries page i.name s r :=
  .remember h hi (by simp [Fact.isWindow])
    (Query.ask_follows hentries h (by simp [Call.name, windowEntries]))

theorem mismatch_follows {s r : Session} (h : Misled entries page s r)
    (hi : i.page < s.notebook.next) (layout : String) (index : Nat) :
    Follows entries page (i.mismatch layout index : Query α) s r :=
  .bind (name_follows hentries h hi) fun _ _ _ on => .throw on.misled _

theorem classAt_follows {s r : Session} (h : Misled entries page s r)
    (hi : i.page < s.notebook.next) (layout : String) (index : Nat) (k : Handle) :
    Follows entries page (i.classAt layout index k) s r := by
  unfold classAt
  split
  · exact mismatch_follows hentries h hi layout index
  · exact .view h .class_ k

omit hentries in
theorem classesFrom_follows {find : Nat → Query Class} (count : Nat) :
    ∀ (index : Nat) {s r : Session}, Misled entries page s r →
      (∀ index t u, Strays entries page s t u → Follows entries page (find index) t u) →
      Follows entries page (classesFrom find index count) s r := by
  induction count with
  | zero => exact fun _ _ _ h _ => .pure h []
  | succ count ih =>
      intro index s r h hfind
      refine .bind (hfind index s r h.strays) fun c t u on => ?_
      refine .bind (ih (index + 1) on.misled fun index v w on' => hfind index v w (on.trans on'))
        fun rest v w on' => ?_
      exact .pure on'.misled (c :: rest)

theorem windowClass_follows {s r : Session} (h : Misled entries page s r)
    (hi : i.page < s.notebook.next) (d : Handle) (bytes : Nat → List UInt8) (index : Nat) :
    Follows entries page (i.windowClass d bytes index) s r := by
  refine .bind (Query.ask_follows hentries h (by simp [Call.name, windowEntries]))
    fun _ t u on => ?_
  refine .bind (Query.ask_follows hentries on.misled (by simp [Call.name, windowEntries]))
    fun k v w on' => ?_
  exact classAt_follows hentries on'.misled (hi.trans_le (on.trans on').grown) _ index k

/-- The positions of a window are resolved, wherever it is said to lie. -/
theorem window_follows {s r : Session} (h : Misled entries page s r)
    (hi : i.page < s.notebook.next) (offset pointerSize start count : Nat) :
    Follows entries page (i.window offset pointerSize start count) s r := by
  refine .bind (Query.descriptor_follows hentries h) fun d t u on => ?_
  refine .get (by simp only [on.misled.layout]) (.bind (.lift on.misled _) fun size v w on' => ?_)
  have on := on.trans on'
  have hi := hi.trans_le on.grown
  split
  · exact classesFrom_follows count start on.misled fun index v w on' =>
      windowClass_follows hentries on'.misled (hi.trans_le on'.grown) d _ index
  · exact mismatch_follows hentries on.misled hi _ start

/-- The classes of an image by their index, so many of them. -/
def firstClasses (i : Image) (count : Nat) : Query (List Class) :=
  classesFrom
    (fun index => do i.classAt "current" index (← Query.ask (.imageGetClass i.handle index)))
    0 count

omit hentries in
theorem currentClasses_eq (i : Image) :
    i.currentClasses = (do i.firstClasses (← i.classCount)) :=
  rfl

theorem firstClasses_follows {s r : Session} (h : Misled entries page s r)
    (hi : i.page < s.notebook.next) (count : Nat) :
    Follows entries page (i.firstClasses count) s r :=
  classesFrom_follows count 0 h fun index t u on =>
    .bind (Query.ask_follows hentries on.misled (by simp [Call.name, windowEntries]))
      fun k _ _ on' => classAt_follows hentries on'.misled
        ((hi.trans_le on.grown).trans_le on'.grown) _ index k

end Image

end

namespace Image

open Query (Follows)

variable {page : Nat} {i : Image} {s r : Session}

/-- Where nothing is spoiled, only the misled view itself may list other classes. -/
theorem classes_follow (h : Misled [] page s r) (hi : i.page < s.notebook.next)
    (hpage : i.page ≠ page) : Follows [] page i.classes s r := by
  have hnone : ([] : List String) ⊆ windowEntries := List.nil_subset _
  have hother {q : Nat} {f : Fact} (hq : q = i.page) : ¬(q = page ∧ f.isWindow = true) :=
    fun hwindow => hpage (hq ▸ hwindow.1)
  have hcount {t u : Session} (on : Strays [] page s t u) : Follows [] page i.classCount t u :=
    .remember on.misled (hi.trans_le on.grown) (hother rfl) (.ask on.misled List.not_mem_nil)
  have hstart {t u : Session} (on : Strays [] page s t u) : Follows [] page i.classStart t u :=
    .remember on.misled (hi.trans_le on.grown) (hother rfl) (.ask on.misled List.not_mem_nil)
  refine .remember h hi (hother rfl) (.get (by simp only [h.layout]) ?_)
  split
  · rw [legacyClasses_eq]
    refine .bind (.ask h List.not_mem_nil) fun pointerSize _ _ on => ?_
    refine .bind (hstart on) fun start _ _ on' => .bind (hcount (on.trans on'))
      fun count _ _ on'' => ?_
    have on := (on.trans on').trans on''
    exact window_follows hnone on.misled (hi.trans_le on.grown) _ pointerSize start count
  · rw [currentClasses_eq]
    exact .bind (hcount h.strays) fun count _ _ on =>
      firstClasses_follows hnone on.misled (hi.trans_le on.grown) count

end Image

end VmMetadata
