import VmMetadata.Proofs.Session.Descriptor

/-!
The classes of an image. Main statements: the classes are listed just where the layout of the
session finds one at every index; and where both layouts find the same classes, a session of the
one and a session of the other list the same and stay alike.
-/

namespace VmMetadata

open Query (Agree Agrees Runs)

/-! ## Look-ups -/

/-- The look-up finds the handle of which `F` holds, or null, in a way that no other session could
see. Where it fails there is none. -/
def Query.LooksUp (look : Query Handle) (s : Session) (F : Handle → Prop) : Prop :=
  Runs look s (fun h t => (s.vm.arena.BelowScratch → (h ≠ .null → F h) ∧ ∀ k, F k → k = h) ∧
    s.Similar t) (∀ k, ¬F k)

/-- A class is never null. -/
theorem Session.FindsClass.ne_null {s : Session} (hs : s.Sound) {image : Handle} {n : ImageNode}
    (hn : s.vm.arena.image image = .ok n) {index : Nat} {h : Handle}
    (hf : s.FindsClass n index h) : h ≠ .null := by
  cases hlayout : s.layout with
  | current =>
      simp only [FindsClass, hlayout] at hf
      obtain ⟨c, hc, _⟩ := hs.vm.arena.image hn h (Array.mem_of_getElem? hf.2)
      exact Arena.ne_null_of_get? (Arena.class_eq_ok.mp hc)
  | legacy offset =>
      simp only [FindsClass, hlayout] at hf
      obtain ⟨c, hc⟩ := hs.vm.globalClasses h (Array.mem_of_getElem? hf.2)
      exact Arena.ne_null_of_get? (Arena.class_eq_ok.mp hc)

namespace Image

variable {s : Session} {i : Image}

theorem current_looksUp (hs : s.Sound) (hlayout : s.layout = .current) {n : ImageNode}
    (hn : s.vm.arena.image i.handle = .ok n) (index : Nat) :
    (Query.ask (.imageGetClass i.handle index)).LooksUp s (s.FindsClass n index) := by
  cases hlegacy : s.vm.isLegacy with
  | true =>
      refine (Runs.tell hs (c := .imageGetClass i.handle index) rfl).weaken
        (fun k t hlater hk => ?_) fun _ k hk => ?_
      · have hlegacy' : t.vm.isLegacy = true := (congrArg Catalog.isLegacy hlater.vm.catalog).trans
          hlegacy
        exact absurd hk.1 (Vm.not_tells_imageGetClass hlegacy' index k)
      · simp only [Session.FindsClass, hlayout, hlegacy] at hk
        cases hk.1
  | false =>
      refine (Runs.known hs (Vm.tells_imageGetClass hn hlegacy index)).weaken ?_ False.elim
      rintro h t _ ⟨rfl, hsimilar⟩
      simp only [Session.FindsClass, hlayout, hlegacy]
      refine ⟨fun _ => ⟨fun hne => ⟨trivial, ?_⟩, fun k hk => ?_⟩, hsimilar⟩
      · cases hfound : n.classes[index]? with
        | none => exact absurd (by rw [hfound]; rfl) hne
        | some k => rfl
      · rw [hk.2]
        rfl

theorem legacy_looksUp (hs : s.Sound) {offset : Nat} (hlayout : s.layout = .legacy offset)
    {size : Nat} (hsize : s.layout.descriptorSize s.vm.pointerSize = .ok size) {d : Handle}
    (hd : s.HasDescriptor d) {n : ImageNode} {index : Nat}
    (hindex : s.vm.startOf n + index < 0x1_0000_0000) :
    Query.LooksUp (do
        Query.ask (.writeBytes d (descriptorBytes size s.vm.pointerSize offset
          (s.vm.startOf n + index)))
        Query.ask (.classFromType d)) s (s.FindsClass n index) := by
  refine (Query.resolve_runs hs hlayout hsize hd hindex).weaken ?_ False.elim
  rintro h t _ ⟨hsimilar, hclass⟩
  refine ⟨fun hbelow => ?_, hsimilar⟩
  rw [hclass hbelow]
  simp only [Session.FindsClass, hlayout, Vm.classAt]
  refine ⟨fun hne => ?_, fun k hk => ?_⟩
  · split at hne
    · rename_i hoffset
      cases hfound : s.vm.globalClasses[s.vm.startOf n + index]? with
      | none => exact absurd (by rw [hfound]; rfl) hne
      | some k => exact ⟨hoffset, by rw [if_pos hoffset]; rfl⟩
    · exact absurd rfl hne
  · rw [if_pos hk.1, hk.2]
    rfl

theorem mismatch_runs {P : α → Session → Prop} {E : Prop} (hs : s.Sound) (hi : s.Shows i)
    (layout : String) (index : Nat) (he : E) : Runs (i.mismatch layout index) s P E :=
  ((name_agrees (.refl hs) hi).runs.weaken (fun _ _ _ hv => hv) fun _ => he).bind
    fun _ _ _ sound _ => .throw sound _ he

variable {look : Query Handle} {F : Handle → Prop}

/-- What was looked up is viewed; where nothing was found there is nothing. -/
theorem found_runs (hi : s.Shows i) (hlook : look.LooksUp s F)
    (hF : ∀ k, F k → k ≠ .null) (layout : String) (index : Nat) :
    Runs (look >>= i.classAt layout index) s
      (fun c t => (t.Shows c ∧ (s.vm.arena.BelowScratch → F c.handle)) ∧
        t.vm.arena = s.vm.arena)
      (s.vm.arena.BelowScratch → ∀ k, ¬F k) := by
  refine (Runs.weaken hlook (fun _ _ _ hv => hv) fun hno _ => hno).bind fun h t later sound hh => ?_
  obtain ⟨hfound, hsimilar⟩ := hh
  unfold classAt
  by_cases hnull : h = .null
  · rw [if_pos (Handle.isNull_iff.mpr hnull)]
    exact mismatch_runs sound (hi.later later) layout index fun hbelow k hk =>
      hF k hk (((hfound hbelow).2 k hk).trans hnull)
  · rw [if_neg (by rw [Handle.isNull_iff]; exact hnull)]
    refine (Agree.viewAlone (.refl sound) .class_ h).runs.weaken ?_ fun hn => absurd hn hnull
    rintro c u _ ⟨⟨hshows, rfl⟩, hvm⟩
    exact ⟨⟨hshows, fun hbelow => (hfound hbelow).1 hnull⟩,
      (congrArg Vm.arena hvm).trans hsimilar.arena⟩

/-- A class that is found is viewed as if its handle had been known. -/
theorem found_agrees {s₁ s₂ : Session} (h : s₁.Alike s₂) (hbelow : s₁.vm.arena.BelowScratch)
    (hlook : look.LooksUp s₁ F) {k : Handle} (hk : F k) (hne : k ≠ .null) (layout : String)
    (index : Nat) :
    Agree (look >>= i.classAt layout index) (Query.view .class_ k) s₁ s₂
      (fun c t => (t.Shows c ∧ c.handle = k) ∧ t.vm.arena = s₁.vm.arena) False := by
  refine .bindLeft h (Runs.weaken hlook (fun _ _ _ hv => hv) fun hno => hno k hk)
    fun k' t later halike hfound => ?_
  cases (hfound hbelow).2 k hk
  unfold classAt
  rw [if_neg (by rw [Handle.isNull_iff]; exact hne)]
  refine (Agree.viewAlone halike .class_ k).weaken (fun c u _ hc => ⟨hc.1, ?_⟩) hne
  exact (congrArg Vm.arena hc.2).trans (halike.similar.arena.symm.trans h.similar.arena)

/-! ## Loops over indices -/

theorem classesFrom_runs {find : Nat → Query Class} {I : Session → Prop} :
    ∀ (count index : Nat) {s : Session} {F : Nat → Handle → Prop} {E : Prop}, s.Sound → I s →
      (∀ k < count, ∀ t, s.Later t → t.Sound → I t →
        Runs (find (index + k)) t (fun c u => (u.Shows c ∧ F k c.handle) ∧ I u) E) →
      Runs (classesFrom find index count) s
        (fun cs t => ((∀ c ∈ cs, t.Shows c) ∧ cs.length = count ∧
          ∀ k c, cs[k]? = some c → F k c.handle) ∧ I t) E
  | 0, _, _, _, _, hs, hi, _ =>
      .pure hs ⟨⟨by simp, rfl, by simp⟩, hi⟩
  | count + 1, index, s, F, E, hs, hi, hfind => by
      refine (hfind 0 (by omega) s (.refl s) hs hi).bind fun c t later sound hc => ?_
      refine (classesFrom_runs count (index + 1) (F := fun k => F (k + 1)) sound hc.2
        fun k hk u later' sound' hu => ?_).bind fun cs u later' sound' hcs => ?_
      · rw [Nat.add_right_comm, Nat.add_assoc]
        exact hfind (k + 1) (by omega) u (later.trans later') sound' hu
      · obtain ⟨⟨hshows, hlength, hall⟩, hi⟩ := hcs
        refine .pure sound' ⟨⟨fun d hd => ?_, by rw [List.length_cons, hlength], fun k d hd => ?_⟩,
          hi⟩
        · rcases List.mem_cons.mp hd with rfl | hd
          · exact hc.1.1.later later'
          · exact hshows d hd
        · cases k with
          | zero =>
              cases hd
              exact hc.1.2
          | succ k => exact hall k d hd

theorem classesFrom_agrees {find : Nat → Query Class} {I : Session → Prop} :
    ∀ (hs : List Handle) (index : Nat) {s₁ s₂ : Session}, s₁.Alike s₂ → I s₁ →
      (∀ k h, hs[k]? = some h → ∀ t₁ t₂, t₁.Alike t₂ → s₁.Later t₁ → I t₁ →
        Agree (find (index + k)) (Query.view .class_ h) t₁ t₂
          (fun c u => (u.Shows c ∧ c.handle = h) ∧ I u) False) →
      Agree (classesFrom find index hs.length) (hs.mapM (Query.view .class_)) s₁ s₂
        (fun cs t => ((∀ c ∈ cs, t.Shows c) ∧ cs.map View.handle = hs) ∧ I t) False
  | [], _, _, _, h, hi, _ => by
      rw [List.mapM_nil]
      exact .pure h ⟨⟨by simp, rfl⟩, hi⟩
  | k :: hs, index, s₁, s₂, h, hi, hfind => by
      rw [List.mapM_cons]
      refine (hfind 0 k rfl s₁ s₂ h (.refl s₁) hi).bind fun c t₁ t₂ on hc => ?_
      refine (classesFrom_agrees hs (index + 1) on.alike hc.2
        fun j l hl u₁ u₂ halike later hu => ?_).bind fun cs u₁ u₂ on' hcs => ?_
      · rw [Nat.add_right_comm, Nat.add_assoc]
        exact hfind (j + 1) l hl u₁ u₂ halike (on.left.trans later) hu
      · obtain ⟨⟨hshows, hhandles⟩, hi⟩ := hcs
        refine .pure on'.alike ⟨⟨fun d hd => ?_, ?_⟩, hi⟩
        · rcases List.mem_cons.mp hd with rfl | hd
          · exact hc.1.1.later on'.left
          · exact hshows d hd
        · rw [List.map_cons, hc.1.2, hhandles]

/-! ## Listing the classes -/

theorem classCount_runs (hs : s.Sound) (hi : s.Shows i) :
    Runs i.classCount s
      (fun count t => t.vm.Tells (.imageClassCount i.handle) count ∧ t.vm.arena = s.vm.arena)
      (∀ count, ¬s.vm.Tells (.imageClassCount i.handle) count) :=
  .rememberAnd hs hi.2 rfl (fun _ _ ht => ht)
    ((Runs.tell hs rfl).weaken (fun _ _ _ ht => ⟨ht.1, ht.2.arena⟩) id)

theorem classStart_runs (hs : s.Sound) (hi : s.Shows i) :
    Runs i.classStart s
      (fun start t => t.vm.Tells (.imageClassStart i.handle) start ∧ s.Similar t)
      (∀ start, ¬s.vm.Tells (.imageClassStart i.handle) start) :=
  .rememberAnd hs hi.2 (.refl s) (fun t v ht => ht.trans (Session.similar_noted t _ v rfl))
    (Runs.tell hs rfl)

end Image

namespace Session

/-- No list of classes can be found for the image. -/
def Refuses (s : Session) (image : Handle) : Prop :=
  s.vm.arena.BelowScratch → ∀ hs n, ¬s.Lists image hs n

variable {s t : Session}

theorem Refuses.earlier {image : Handle} (h : t.Refuses image) (hst : s.Later t)
    (harena : t.vm.arena = s.vm.arena) : s.Refuses image := by
  intro hbelow hs n hlists
  exact h (harena ▸ hbelow) hs n (hlists.later hst)

end Session

namespace Image

variable {s : Session} {i : Image}

/-- Where every index is looked up, either all are found or there is no list. -/
theorem listing_runs (hs : s.Sound) {n : ImageNode} (hn : s.vm.arena.image i.handle = .ok n)
    (hroom : s.HasRoom) (hfits : s.WindowFits n) {find : Nat → Query Class} {index : Nat}
    (hfind : ∀ k < word32 n.classes.size, ∀ t, s.Later t → t.Sound → t.vm.arena = s.vm.arena →
      Runs (find (index + k)) t
        (fun c u => (u.Shows c ∧ (t.vm.arena.BelowScratch → t.FindsClass n k c.handle)) ∧
          u.vm.arena = t.vm.arena)
        (t.vm.arena.BelowScratch → ∀ h, ¬t.FindsClass n k h)) :
    Runs (classesFrom find index (word32 n.classes.size)) s
      (fun cs t => Fact.Holds t i.handle .imageClasses cs ∧ t.vm.arena = s.vm.arena)
      (s.Refuses i.handle) := by
  refine (classesFrom_runs (word32 n.classes.size) index
    (F := fun k h => s.vm.arena.BelowScratch → s.FindsClass n k h)
    (I := fun t => t.vm.arena = s.vm.arena) hs rfl
    fun k hk t later sound harena => (hfind k hk t later sound harena).weaken ?_ ?_).weaken ?_ id
  · rintro c u _ ⟨⟨hshows, hfound⟩, hu⟩
    exact ⟨⟨hshows, fun hbelow => later.findsClass_iff.mp (hfound (harena ▸ hbelow))⟩,
      hu.trans harena⟩
  · intro hno hbelow hs m hlists
    cases hlists.image.symm.trans hn
    have hk' : k < hs.length := hlists.length ▸ hk
    exact hno (harena ▸ hbelow) hs[k] (later.findsClass_iff.mpr (hlists.found k hk'))
  · rintro cs t later ⟨⟨hshows, hlength, hfound⟩, harena⟩
    refine ⟨⟨hshows, fun hbelow => ⟨n, ?_⟩⟩, harena⟩
    rw [harena] at hbelow
    refine Session.Lists.later ⟨hroom, hn, by rw [List.length_map, hlength], hfits, fun k hk => ?_⟩
      later
    rw [List.length_map] at hk
    rw [List.getElem_map]
    exact hfound k cs[k] (List.getElem?_eq_getElem hk) hbelow

theorem currentClasses_runs (hs : s.Sound) (hi : s.Shows i) (hlayout : s.layout = .current) :
    Runs i.currentClasses s
      (fun cs t => Fact.Holds t i.handle .imageClasses cs ∧ t.vm.arena = s.vm.arena)
      (s.Refuses i.handle) := by
  refine ((classCount_runs hs hi).weaken (fun _ _ _ hv => hv) fun hnone _ hs n hlists =>
    hnone _ (Vm.tells_imageClassCount.mpr ⟨n, hlists.image, rfl⟩)).bind
    fun count t later sound hcount => ?_
  obtain ⟨n, hn, rfl⟩ := Vm.tells_imageClassCount.mp hcount.1
  have hlayout' : t.layout = .current := later.layout.trans hlayout
  have hroom : t.HasRoom := fun offset h => by
    rw [hlayout'] at h
    cases h
  refine (listing_runs sound hn hroom (by simp [Session.WindowFits, hlayout'])
    fun k _ u later' sound' _ => ?_).weaken (fun _ _ _ hv => ⟨hv.1, hv.2.trans hcount.2⟩)
    fun h => h.earlier later hcount.2
  have hn' := later'.vm.arena.image hn
  rw [Nat.zero_add]
  exact found_runs (hi.later (later.trans later')) (current_looksUp sound'
    (later'.layout.trans hlayout') hn' k) (fun h hf => hf.ne_null sound' hn') _ _

theorem windowClass_eq (i : Image) (d : Handle) (bytes : Nat → List UInt8) (index : Nat) :
    i.windowClass d bytes index = (do
      Query.ask (.writeBytes d (bytes index))
      Query.ask (.classFromType d)) >>= i.classAt "legacy" index :=
  (bind_assoc _ _ _).symm

/-- Every index of the window is looked up through the descriptor. -/
theorem window_looksUp {t : Session} (later : s.Later t) (ht : t.Sound) {offset : Nat}
    (hlayout : s.layout = .legacy offset) {size : Nat}
    (hsize : s.layout.descriptorSize s.vm.pointerSize = .ok size) {d : Handle}
    (hd : s.HasDescriptor d) {n : ImageNode} {k : Nat}
    (hk : s.vm.startOf n + k < 0x1_0000_0000) :
    Query.LooksUp (do
        Query.ask (.writeBytes d (descriptorBytes size s.vm.pointerSize offset
          (s.vm.startOf n + k)))
        Query.ask (.classFromType d)) t (t.FindsClass n k) := by
  have hstart : t.vm.startOf n = s.vm.startOf n := by
    unfold Vm.startOf
    rw [later.vm.catalog]
  have hlook := legacy_looksUp ht (later.layout.trans hlayout)
    (by rw [later.layout, later.pointerSize]; exact hsize)
    (hd.later later) (hstart ▸ hk)
  rw [hstart, later.pointerSize] at hlook
  exact hlook

theorem legacyClasses_runs (hs : s.Sound) (hi : s.Shows i) {offset : Nat}
    (hlayout : s.layout = .legacy offset) :
    Runs (i.legacyClasses offset) s
      (fun cs t => Fact.Holds t i.handle .imageClasses cs ∧ t.vm.arena = s.vm.arena)
      (s.Refuses i.handle) := by
  have hpointer : s.vm.Tells .pointerSize s.vm.pointerSize := rfl
  refine ((Runs.known hs hpointer).weaken (fun _ _ _ hv => hv) False.elim).bind
    fun pointerSize t₁ later₁ sound₁ ht₁ => ?_
  obtain ⟨rfl, hsimilar₁⟩ := ht₁
  refine ((classStart_runs sound₁ (hi.later later₁)).weaken (fun _ _ _ hv => hv)
    fun hnone _ hs n hlists => hnone _ (Vm.tells_imageClassStart.mpr
      ⟨n, later₁.vm.arena.image hlists.image, rfl⟩)).bind fun start t₂ later₂ sound₂ ht₂ => ?_
  have later := later₁.trans later₂
  refine ((classCount_runs sound₂ (hi.later later)).weaken (fun _ _ _ hv => hv)
    fun hnone _ hs n hlists => hnone _ (Vm.tells_imageClassCount.mpr
      ⟨n, later.vm.arena.image hlists.image, rfl⟩)).bind fun count t₃ later₃ sound₃ ht₃ => ?_
  have later := later.trans later₃
  refine ((Query.descriptor_runs sound₃ (later.layout.trans hlayout)).weaken (fun _ _ _ hv => hv)
    fun hno _ hs n hlists => hno (hlists.room.later later)).bind fun d t₄ later₄ sound₄ hd => ?_
  obtain ⟨hd, hsimilar₄⟩ := hd
  have later := later.trans later₄
  have ⟨_, bytes, _, hsize⟩ := hd
  obtain ⟨n, hn, rfl⟩ := Vm.tells_imageClassCount.mp ht₃.1
  obtain ⟨m, hm, rfl⟩ := Vm.tells_imageClassStart.mp ht₂.1
  cases (later₃.vm.arena.image hm).symm.trans hn
  have hstart : t₂.vm.startOf n = t₄.vm.startOf n := by
    unfold Vm.startOf
    rw [(later₃.trans later₄).vm.catalog]
  have harena : t₄.vm.arena = s.vm.arena :=
    hsimilar₄.arena.trans (ht₃.2.trans (ht₂.2.arena.trans hsimilar₁.arena))
  refine .get ?_
  rw [hstart, ← later.pointerSize, hsize, Query.lift_ok, pure_bind]
  -- a window that leaves the numbers of 32 bits is refused, and no list of classes fits it
  by_cases hfits : t₄.vm.startOf n + word32 n.classes.size < 0x1_0000_0000
  · rw [if_pos hfits]
    have hlayout' := later.layout.trans hlayout
    refine (listing_runs sound₄ (later₄.vm.arena.image hn) (fun _ _ => ⟨_, hsize⟩)
      (by simpa only [Session.WindowFits, hlayout'] using hfits)
      fun k hk u later' sound' _ => ?_).weaken (fun _ _ _ hv => ⟨hv.1, hv.2.trans harena⟩)
      fun h => h.earlier later harena
    rw [windowClass_eq]
    exact found_runs (hi.later (later.trans later')) (window_looksUp later' sound' hlayout' hsize hd
      (by omega)) (fun h hf => hf.ne_null sound' (later'.vm.arena.image
        (later₄.vm.arena.image hn))) _ _
  · rw [if_neg hfits]
    refine mismatch_runs sound₄ (hi.later later) _ _ fun _ hs m hlists => hfits ?_
    cases (later.vm.arena.image hlists.image).symm.trans (later₄.vm.arena.image hn)
    have hlists := hlists.fits
    simp only [Session.WindowFits, hlayout] at hlists
    unfold Vm.startOf at hlists ⊢
    rw [later.vm.catalog]
    exact hlists

/-- What is listed was found at every index; where nothing is listed nothing can be found. -/
theorem classes_runs (hs : s.Sound) (hi : s.Shows i) :
    Runs i.classes s
      (fun cs t => Fact.Holds t i.handle .imageClasses cs ∧ t.vm.arena = s.vm.arena)
      (s.Refuses i.handle) := by
  refine .rememberAnd hs hi.2 rfl (fun _ _ ht => ht) (.get ?_)
  cases hlayout : s.layout with
  | current => exact currentClasses_runs hs hi hlayout
  | legacy offset => exact legacyClasses_runs hs hi hlayout

/-! ## Listing the same in two sessions -/

/-- The classes with the handles, viewed as if the machine had listed them. -/
def listed (i : Image) (hs : List Handle) : Query (List Class) :=
  Query.remember i.page .imageClasses do
    let _ ← i.classCount
    hs.mapM (Query.view .class_)

variable {s₁ s₂ : Session}

theorem classCount_agrees_listed (h : s₁.Alike s₂) (hi : s₁.Shows i) {hs : List Handle}
    {n : ImageNode} (hlists : s₁.Lists i.handle hs n) :
    Agrees i.classCount s₁ s₂ (fun count t => count = hs.length ∧ t.vm.arena = s₁.vm.arena)
      False := by
  have hcount := Vm.tells_imageClassCount.mpr ⟨n, hlists.image, rfl⟩
  refine ((classCount_agrees h hi).andRuns (classCount_runs h.left hi)).weaken ?_ fun hno =>
    hno.1 _ hcount
  rintro count t later ⟨htells, _, harena⟩
  exact ⟨(htells.unique (hcount.later rfl later.vm)).trans hlists.length.symm, harena⟩

/-- Where every index is looked up and all are found, they are viewed. -/
theorem listing_agrees (h : s₁.Alike s₂) (hbelow : s₁.vm.arena.BelowScratch) {hs : List Handle}
    {n : ImageNode} (hlists : s₁.Lists i.handle hs n) {look : Nat → Query Handle}
    {find : Nat → Query Class} {layout : String} {index : Nat}
    (hfind : ∀ k, find k = look k >>= i.classAt layout k)
    (hlook : ∀ k < hs.length, ∀ t, s₁.Later t → t.Sound →
      (look (index + k)).LooksUp t (t.FindsClass n k)) :
    Agree (classesFrom find index hs.length) (hs.mapM (Query.view .class_)) s₁ s₂
      (fun cs t => (∀ c ∈ cs, t.Shows c) ∧ cs.map View.handle = hs) False := by
  refine (classesFrom_agrees (I := fun t => t.vm.arena = s₁.vm.arena) hs index h rfl
    fun k c hc t₁ t₂ halike later harena => ?_).weaken (fun _ _ _ hcs => hcs.1) id
  have hk : k < hs.length := (List.getElem?_eq_some_iff.mp hc).1
  have hfound : t₁.FindsClass n k c := by
    rw [← (List.getElem?_eq_some_iff.mp hc).2]
    exact later.findsClass_iff.mpr (hlists.found k hk)
  rw [hfind]
  exact (found_agrees halike (harena ▸ hbelow) (hlook k hk t₁ later halike.left) hfound
    (hfound.ne_null halike.left (later.vm.arena.image hlists.image)) layout (index + k)).weaken
    (fun c u _ hc => ⟨hc.1, hc.2.trans harena⟩) id

theorem currentClasses_agrees (h : s₁.Alike s₂) (hi : s₁.Shows i)
    (hbelow : s₁.vm.arena.BelowScratch) (hlayout : s₁.layout = .current) {hs : List Handle}
    {n : ImageNode} (hlists : s₁.Lists i.handle hs n) :
    Agree i.currentClasses (do
        let _ ← i.classCount
        hs.mapM (Query.view .class_)) s₁ s₂
      (fun cs t => (∀ c ∈ cs, t.Shows c) ∧ cs.map View.handle = hs) False := by
  refine (classCount_agrees_listed h hi hlists).bind fun count t₁ t₂ on hcount => ?_
  obtain ⟨rfl, harena⟩ := hcount
  refine listing_agrees on.alike (harena ▸ hbelow) (hlists.later on.left) (fun _ => rfl)
    fun k _ u later sound => ?_
  rw [Nat.zero_add]
  exact current_looksUp sound (later.layout.trans (on.left.layout.trans hlayout))
    (later.vm.arena.image (on.left.vm.arena.image hlists.image)) k

theorem legacyClasses_agrees (h : s₁.Alike s₂) (hi : s₁.Shows i)
    (hbelow : s₁.vm.arena.BelowScratch) {offset : Nat} (hlayout : s₁.layout = .legacy offset)
    {hs : List Handle} {n : ImageNode} (hlists : s₁.Lists i.handle hs n) :
    Agree (i.legacyClasses offset) (do
        let _ ← i.classCount
        hs.mapM (Query.view .class_)) s₁ s₂
      (fun cs t => (∀ c ∈ cs, t.Shows c) ∧ cs.map View.handle = hs) False := by
  have hpointer : s₁.vm.Tells .pointerSize s₁.vm.pointerSize := rfl
  refine .bindLeft h (Runs.known h.left hpointer) fun pointerSize t₁ later₁ alike₁ ht₁ => ?_
  subst ht₁
  have hstart := Vm.tells_imageClassStart.mpr ⟨n, later₁.vm.arena.image hlists.image, rfl⟩
  refine .bindLeft alike₁ ((classStart_runs alike₁.left (hi.later later₁)).weaken
    (fun _ _ _ hv => hv) fun hnone => hnone _ hstart) fun start t₂ later₂ alike₂ ht₂ => ?_
  cases ht₂.unique (hstart.later rfl later₂.vm)
  have later := later₁.trans later₂
  refine (classCount_agrees_listed alike₂ (hi.later later) (hlists.later later)).bind
    fun count t₃ u₃ on₃ ht₃ => ?_
  obtain ⟨rfl, harena₃⟩ := ht₃
  have later := later.trans on₃.left
  refine .bindLeft (R := fun d t => t.HasDescriptor d) on₃.alike
    ((Query.descriptor_runs on₃.alike.left (later.layout.trans hlayout)).weaken
      (fun _ _ _ hv => hv) fun hno => hno (hlists.room.later later))
    fun d t₄ later₄ alike₄ hd => ?_
  have later := later.trans later₄
  have ⟨_, bytes, _, hsize⟩ := hd
  have hstart : t₁.vm.startOf n = t₄.vm.startOf n := by
    unfold Vm.startOf
    rw [((later₂.trans on₃.left).trans later₄).vm.catalog]
  have hlayout₄ := later.layout.trans hlayout
  have hlists := hlists.later later
  have hfits := hlists.fits
  simp only [Session.WindowFits, hlayout₄, ← hlists.length] at hfits
  -- only the first session looked for the window, and this left its arena alone
  have harena : t₄.vm.arena = s₁.vm.arena := by
    rw [← alike₄.similar.arena, on₃.alike.similar.arena, harena₃, ← alike₂.similar.arena,
      h.similar.arena]
  refine .getLeft ?_
  rw [hstart, ← later.pointerSize, hsize, Query.lift_ok, pure_bind, if_pos hfits]
  exact listing_agrees alike₄ (harena ▸ hbelow) hlists (windowClass_eq i d _)
    fun k hk u later' sound => window_looksUp later' sound hlayout₄ hsize hd (by omega)

/-- A session that finds the classes lists them as if their handles had been known. -/
theorem classes_agrees_listed (h : s₁.Alike s₂) (hi : s₁.Shows i)
    (hbelow : s₁.vm.arena.BelowScratch) {hs : List Handle} {n m : ImageNode}
    (hlists : s₁.Lists i.handle hs n) (hlists' : s₂.Lists i.handle hs m) :
    Agree i.classes (i.listed hs) s₁ s₂
      (fun cs t => (∀ c ∈ cs, t.Shows c) ∧ cs.map View.handle = hs) False := by
  unfold classes listed
  refine (Agree.rememberBoth (f := .imageClasses) (Q := fun cs => cs.map View.handle = hs) h
    hi.2 rfl (fun cs hcs => ?_) (fun cs t₁ t₂ on hcs hhandles => ⟨fun c hc => ?_, fun _ => ⟨m, ?_⟩⟩)
    (.getLeft ?_)).weaken (fun cs t _ hcs => ⟨hcs.1.1, hcs.2⟩) id
  · obtain ⟨k, hk⟩ := hcs.2 hbelow
    exact hk.unique hlists
  · exact on.alike.similar.shows (hcs.1 c hc)
  · rw [hhandles]
    exact hlists'.later on.right
  -- whichever way the classes are listed, the note about them is true
  · have hholds : ∀ (cs : List Class) (t : Session), s₁.Later t →
        ((∀ c ∈ cs, t.Shows c) ∧ cs.map View.handle = hs) →
        Fact.Holds t i.handle .imageClasses cs ∧ cs.map View.handle = hs :=
      fun cs t later hcs => ⟨⟨hcs.1, fun _ => ⟨n, hcs.2 ▸ hlists.later later⟩⟩, hcs.2⟩
    cases hlayout : s₁.layout with
    | current =>
        exact (currentClasses_agrees h hi hbelow hlayout hlists).weaken hholds id
    | legacy offset =>
        exact (legacyClasses_agrees h hi hbelow hlayout hlists).weaken hholds id

/-- Two sessions that find the same classes, by one layout or by two, list the same. -/
theorem classes_agrees (h : s₁.Alike s₂) (hi : s₁.Shows i) (hbelow : s₁.vm.arena.BelowScratch)
    {hs : List Handle} {n m : ImageNode} (hlists : s₁.Lists i.handle hs n)
    (hlists' : s₂.Lists i.handle hs m) :
    Agrees i.classes s₁ s₂ (fun cs t => (∀ c ∈ cs, t.Shows c) ∧ cs.map View.handle = hs) False :=
  (classes_agrees_listed h hi hbelow hlists hlists').trans
    (classes_agrees_listed (.refl h.right) (h.similar.shows hi) (h.similar.arena ▸ hbelow)
      hlists' hlists').symm

end Image

end VmMetadata
