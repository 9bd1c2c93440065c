import VmMetadata.Proofs.Session.Refusal

/-!
What listing the classes of an image comes to, by the description and the layout alone. Main
statements: a session yields just the classes that the layout finds, or fails with just the error
that the description calls for, whatever was done in it before.
-/

namespace VmMetadata

open Query (Agree Runs Fails)

namespace Snapshot

/-- How many positions of the table of all classes are resolved, if the tag byte of a descriptor
goes to the offset. -/
def resolvable (s : Snapshot) (offset : Nat) : Nat :=
  if offset = typeKindOffset s.pointerSize then s.classCount else 0

/-- The classes that are listed for an image, or the error in their place. -/
def listing (s : Snapshot) (p : Site) : ClassLayout → Except Error (List Handle)
  | .current =>
      if isLegacyBuild s.vmVersion = true ∧ word32 p.described.length ≠ 0 then
        .error (.missingExport "il2cpp_image_get_class")
      else .ok (s.found p .current)
  | .legacy offset =>
      let start := s.windowStart p
      let count := word32 p.described.length
      match (ClassLayout.legacy offset).descriptorSize s.pointerSize with
      | .error e => .error e
      | .ok _ =>
          if start + count < 0x1_0000_0000 then
            if count = 0 ∨ start + count ≤ s.resolvable offset then .ok (s.found p (.legacy offset))
            else .error (.layoutMismatch "legacy" p.name (max start (s.resolvable offset)))
          else .error (.layoutMismatch "legacy" p.name start)

/-- The table of all classes as far as its positions are resolved. -/
def table (s : Snapshot) (offset : Nat) : List Handle :=
  if offset = typeKindOffset s.pointerSize then s.sites.flatMap Site.classes else []

/-- What a window of the table comes to for an image of the name, wherever the window begins and
however long it is: the classes in it, or the error in their place. -/
def windowListing (s : Snapshot) (name : String) (offset start count : Nat) :
    Except Error (List Handle) :=
  match (ClassLayout.legacy offset).descriptorSize s.pointerSize with
  | .error e => .error e
  | .ok _ =>
      if start + count < 0x1_0000_0000 then
        if count = 0 ∨ start + count ≤ s.resolvable offset then
          .ok (((s.table offset).drop start).take count)
        else .error (.layoutMismatch "legacy" name (max start (s.resolvable offset)))
      else .error (.layoutMismatch "legacy" name start)

/-- The layout has room for a descriptor, if it needs one. -/
def HasRoom (s : Snapshot) : ClassLayout → Prop
  | .current => True
  | .legacy offset => ∃ size, (ClassLayout.legacy offset).descriptorSize s.pointerSize = .ok size

variable {s : Snapshot} {p : Site} {layout : ClassLayout}

/-- The layout that the build calls for has room. -/
theorem Suits.hasRoom (h : s.Suits layout) (hsize : s.pointerSize = 4 ∨ s.pointerSize = 8) :
    s.HasRoom layout := by
  cases layout with
  | current => trivial
  | legacy offset => exact h.exists_descriptorSize hsize

theorem length_table (s : Snapshot) (offset : Nat) :
    (s.table offset).length = s.resolvable offset := by
  unfold table resolvable
  split
  · exact s.length_allClasses
  · rfl

theorem covers_legacy_iff {offset : Nat} :
    s.Covers p (.legacy offset) ↔
      s.windowStart p + word32 p.described.length < 0x1_0000_0000 ∧
        (word32 p.described.length = 0 ∨
          s.windowStart p + word32 p.described.length ≤ s.resolvable offset) := by
  rw [Covers, resolvable]
  by_cases hoffset : offset = typeKindOffset s.pointerSize
  · rw [if_pos hoffset]
    simp [hoffset]
  · rw [if_neg hoffset]
    constructor
    · rintro ⟨hfits, hzero | ⟨heq, _⟩⟩
      · exact ⟨hfits, Or.inl hzero⟩
      · exact absurd heq hoffset
    · rintro ⟨hfits, hzero | hle⟩
      · exact ⟨hfits, Or.inl hzero⟩
      · exact ⟨hfits, Or.inl (by omega)⟩

/-- The listing of an image fails just as its window does. -/
theorem windowListing_of_listing {offset : Nat} {e : Error}
    (h : s.listing p (.legacy offset) = .error e) :
    s.windowListing p.name offset (s.windowStart p) (word32 p.described.length) = .error e := by
  unfold listing at h
  unfold windowListing
  cases hsize : (ClassLayout.legacy offset).descriptorSize s.pointerSize with
  | error e' => simpa only [hsize] using h
  | ok size =>
      simp only [hsize] at h ⊢
      split at h
      · rw [if_pos ‹_›]
        split at h
        · cases h
        · rwa [if_neg ‹_›]
      · rwa [if_neg ‹_›]

/-- An image is listed just where the layout covers it and has room for a descriptor. -/
theorem listing_eq_ok_iff {ks : List Handle} :
    s.listing p layout = .ok ks ↔ s.HasRoom layout ∧ s.Covers p layout ∧ s.found p layout = ks := by
  cases layout with
  | current =>
      rw [listing, HasRoom, Covers]
      by_cases h : isLegacyBuild s.vmVersion = true ∧ word32 p.described.length ≠ 0
      · rw [if_pos h]
        refine ⟨fun hok => (by cases hok), fun hlists => ?_⟩
        rcases hlists.2.1 with hcurrent | hzero
        · rw [h.1] at hcurrent
          cases hcurrent
        · exact absurd hzero h.2
      · rw [if_neg h]
        refine ⟨fun hok => ⟨trivial, ?_, Except.ok.inj hok⟩, fun hlists => congrArg _ hlists.2.2⟩
        by_cases hzero : word32 p.described.length = 0
        · exact Or.inr hzero
        · exact Or.inl (by simpa [hzero] using h)
  | legacy offset =>
      rw [covers_legacy_iff, listing, HasRoom]
      cases hsize : (ClassLayout.legacy offset).descriptorSize s.pointerSize with
      | error e =>
          constructor
          · intro hok
            cases hok
          · rintro ⟨⟨size, htold⟩, -⟩
            cases htold
      | ok size =>
          dsimp only
          by_cases hfits : s.windowStart p + word32 p.described.length < 0x1_0000_0000
          · rw [if_pos hfits]
            by_cases hfound : word32 p.described.length = 0 ∨
                s.windowStart p + word32 p.described.length ≤ s.resolvable offset
            · rw [if_pos hfound]
              exact ⟨fun hok => ⟨⟨size, rfl⟩, ⟨hfits, hfound⟩, Except.ok.inj hok⟩,
                fun h => congrArg _ h.2.2⟩
            · rw [if_neg hfound]
              exact ⟨fun hok => (by cases hok), fun h => absurd h.2.1.2 hfound⟩
          · rw [if_neg hfits]
            exact ⟨fun hok => (by cases hok), fun h => absurd h.2.1.1 hfits⟩

end Snapshot

/-! ## Failing look-ups -/

namespace Query

variable {s : Session}

/-- Where the size of a descriptor cannot be told, there is none. -/
theorem descriptor_fails (hs : s.Sound) {e : Error}
    (hsize : s.layout.descriptorSize s.vm.pointerSize = .error e) : Fails descriptor s e := by
  have hpointer : s.vm.Tells .pointerSize s.vm.pointerSize := rfl
  refine .get (.after (Runs.known hs hpointer) fun size t _ sound ht => ?_)
  obtain ⟨rfl, _⟩ := ht
  rw [hsize, lift_error]
  exact .bind (.throw sound e) _

end Query

namespace Image

variable {s : Session} {i : Image} {n : ImageNode}

theorem mismatch_fails (hs : s.Sound) (hi : s.Shows i)
    (hn : s.vm.arena.image i.handle = .ok n) (layout : String) (index : Nat) :
    Fails (i.mismatch layout index : Query α) s (.layoutMismatch layout n.name index) := by
  have hname := Vm.tells_imageName.mpr ⟨n, hn, rfl⟩
  refine .after (Query.Agree.known rfl hname (name_agrees (.refl hs) hi)).runs
    fun name t later sound heq => ?_
  rw [heq]
  exact .throw sound _

/-- The first index that is not found decides. -/
theorem classesFrom_fails {find : Nat → Query Class} {I : Session → Prop} {e : Error} :
    ∀ (k : Nat) {count index : Nat} {s : Session}, k < count → s.Sound → I s →
      (∀ j < k, ∀ t, s.Later t → t.Sound → I t →
        Runs (find (index + j)) t (fun _ u => I u) False) →
      (∀ t, s.Later t → t.Sound → I t → Fails (find (index + k)) t e) →
      Fails (classesFrom find index count) s e
  | 0, count + 1, index, s, _, hs, hi, _, hfails => (hfails s (.refl s) hs hi).bind _
  | k + 1, count + 1, index, s, hk, hs, hi, hruns, hfails => by
      refine .after (hruns 0 (by omega) s (.refl s) hs hi) fun c t later sound ht => .bind ?_ _
      refine classesFrom_fails k (by omega) sound ht (fun j hj u later' sound' hu => ?_)
        fun u later' sound' hu => ?_
      · rw [Nat.add_right_comm, Nat.add_assoc]
        exact hruns (j + 1) (by omega) u (later.trans later') sound' hu
      · rw [Nat.add_right_comm, Nat.add_assoc]
        exact hfails u (later.trans later') sound' hu

/-- Positions that are looked up in a table: all of them are found in it, or the first one behind
its end decides. -/
theorem classesFrom_finds {find : Nat → Query Class} (table : List Handle) {I : Session → Prop}
    {start count : Nat} (hs : s.Sound) (hi : I s)
    (hfind : ∀ index h t, index < start + count → table[index]? = some h → s.Later t → t.Sound →
      I t → Runs (find index) t (fun c u => (u.Shows c ∧ c.handle = h) ∧ I u) False)
    (hfits : count = 0 ∨ start + count ≤ table.length) :
    Runs (classesFrom find start count) s (fun cs t => ((∀ c ∈ cs, t.Shows c) ∧
      cs.map View.handle = (table.drop start).take count) ∧ I t) False := by
  refine (classesFrom_runs count start (F := fun k h => table[start + k]? = some h) hs hi
    fun k hk t later sound ht => ?_).weaken (fun cs t _ hcs => ?_) id
  · have hlt : start + k < table.length := by omega
    refine (hfind (start + k) _ t (by omega) (List.getElem?_eq_getElem hlt) later sound ht).weaken
      (fun c u _ hc => ?_) id
    refine ⟨⟨hc.1.1, ?_⟩, hc.2⟩
    rw [hc.1.2]
    exact List.getElem?_eq_getElem hlt
  · obtain ⟨⟨hshows, hlength, hfound⟩, ht⟩ := hcs
    refine ⟨⟨hshows, ?_⟩, ht⟩
    apply List.ext_getElem?
    intro k
    rw [List.getElem?_map, List.getElem?_take, List.getElem?_drop]
    by_cases hk : k < count
    · rw [if_pos hk]
      have hget := List.getElem?_eq_getElem (hlength ▸ hk)
      rw [hget, hfound k _ hget]
      rfl
    · rw [if_neg hk, List.getElem?_eq_none (by omega)]
      rfl

theorem classesFrom_misses {find : Nat → Query Class} (table : List Handle) {I : Session → Prop}
    (error : Nat → Error) {start count : Nat} (hs : s.Sound) (hi : I s)
    (hfind : ∀ index h t, index < start + count → table[index]? = some h → s.Later t → t.Sound →
      I t → Runs (find index) t (fun c u => (u.Shows c ∧ c.handle = h) ∧ I u) False)
    (hmiss : ∀ index t, index < start + count → table.length ≤ index → s.Later t → t.Sound →
      I t → Fails (find index) t (error index))
    (hlong : ¬(count = 0 ∨ start + count ≤ table.length)) :
    Fails (classesFrom find start count) s (error (max start table.length)) := by
  have hmax : max start table.length = start + (max start table.length - start) := by omega
  refine classesFrom_fails (max start table.length - start) (by omega) hs hi
    (fun j hj t later sound ht => ?_) fun t later sound ht => ?_
  · have hlt : start + j < table.length := by omega
    exact (hfind (start + j) _ t (by omega) (List.getElem?_eq_getElem hlt) later sound ht).weaken
      (fun _ _ _ hc => hc.2) id
  · rw [← hmax]
    exact hmiss _ t (by omega) (by omega) later sound ht

/-- The classes of a window, wherever it begins and however long it is. -/
def window (i : Image) (offset pointerSize start count : Nat) : Query (List Class) := do
  let descriptor ← Query.descriptor
  let size ← Query.lift ((← get).layout.descriptorSize pointerSize)
  if start + count < 0x1_0000_0000 then
    classesFrom (i.windowClass descriptor (descriptorBytes size pointerSize offset)) start count
  else i.mismatch "legacy" start

theorem legacyClasses_eq (i : Image) (offset : Nat) :
    i.legacyClasses offset = (do
      let pointerSize ← Query.ask .pointerSize
      let start ← i.classStart
      let count ← i.classCount
      i.window offset pointerSize start count) :=
  rfl

/-! ## A position in the table of all classes -/

section

variable (hs : s.Sound) (hi : s.Shows i) {offset : Nat} (hlayout : s.layout = .legacy offset)
  {size : Nat} (hsize : s.layout.descriptorSize s.vm.pointerSize = .ok size) {d : Handle}
  (hd : s.HasDescriptor d) {index : Nat} (hindex : index < 0x1_0000_0000)
  (hbelow : s.vm.arena.BelowScratch)
include hs hi hlayout hsize hd hindex hbelow

omit hi in
theorem windowClass_runs (hne : s.vm.classAt offset index ≠ .null) :
    Runs (i.windowClass d (descriptorBytes size s.vm.pointerSize offset) index) s
      (fun c t => (t.Shows c ∧ c.handle = s.vm.classAt offset index) ∧
        t.vm.arena = s.vm.arena) False := by
  rw [windowClass_eq]
  refine (Query.resolve_runs hs hlayout hsize hd hindex).bind fun h t later sound hh => ?_
  obtain ⟨hsimilar, hh⟩ := hh
  cases hh hbelow
  unfold classAt
  rw [if_neg (by rw [Handle.isNull_iff]; exact hne)]
  refine (Agree.viewAlone (.refl sound) .class_ _).runs.weaken ?_ hne
  exact fun _ _ _ hv => ⟨hv.1, (congrArg Vm.arena hv.2).trans hsimilar.arena⟩

theorem windowClass_fails (hn : s.vm.arena.image i.handle = .ok n)
    (hnull : s.vm.classAt offset index = .null) :
    Fails (i.windowClass d (descriptorBytes size s.vm.pointerSize offset) index) s
      (.layoutMismatch "legacy" n.name index) := by
  rw [windowClass_eq]
  refine .after (Query.resolve_runs hs hlayout hsize hd hindex) fun h t later sound hh => ?_
  rw [hh.2 hbelow, hnull]
  exact mismatch_fails sound (hi.later later) (later.vm.arena.image hn) "legacy" index

end

end Image

/-! ## The listing of an image -/

namespace Session.On

variable {s : Session} {snapshot : Snapshot} (hs : s.On snapshot) {p : Site}
  (hp : p ∈ snapshot.images) {i : Image} (hi : s.Shows i) (himage : i.handle = p.image)
include hs

theorem hasRoom_iff : s.HasRoom ↔ snapshot.HasRoom s.layout := by
  unfold HasRoom Snapshot.HasRoom
  cases hlayout : s.layout with
  | current => exact ⟨fun _ => trivial, fun _ _ h => by cases h⟩
  | legacy offset =>
      rw [hs.pointerSize]
      exact ⟨fun h => h offset rfl, fun h _ heq => ClassLayout.legacy.inj heq ▸ h⟩

/-- The positions that are resolved come first. -/
theorem classAt_eq_null_iff {offset index : Nat} :
    s.vm.classAt offset index = .null ↔ snapshot.resolvable offset ≤ index := by
  unfold Vm.classAt Snapshot.resolvable
  rw [hs.pointerSize]
  split
  · rw [← Snapshot.length_allClasses, hs.globalClasses, List.getElem?_toArray]
    cases hfound : (snapshot.sites.flatMap Site.classes)[index]? with
    | none => exact iff_of_true rfl (List.getElem?_eq_none_iff.mp hfound)
    | some h =>
        refine iff_of_false ?_ (Nat.not_le.mpr (List.getElem?_eq_some_iff.mp hfound).1)
        obtain ⟨c, hc⟩ := hs.sound.vm.globalClasses h (by
          rw [hs.globalClasses, List.mem_toArray]
          exact List.mem_of_getElem? hfound)
        exact Arena.ne_null_of_get? (Arena.class_eq_ok.mp hc)
  · exact iff_of_true rfl (Nat.zero_le _)

theorem classAt_eq {offset index : Nat} :
    s.vm.classAt offset index = (snapshot.table offset)[index]?.getD .null := by
  unfold Vm.classAt Snapshot.table
  rw [hs.pointerSize, hs.globalClasses, List.getElem?_toArray]
  split <;> rfl

theorem ne_null_of_table {offset index : Nat} {h : Handle}
    (hh : (snapshot.table offset)[index]? = some h) : h ≠ .null := by
  have hlt := (List.getElem?_eq_some_iff.mp hh).1
  rw [Snapshot.length_table, ← Nat.not_le, ← hs.classAt_eq_null_iff, hs.classAt_eq, hh] at hlt
  exact hlt

section

variable {offset : Nat} (hlayout : s.layout = .legacy offset) {d : Handle} (hd : s.HasDescriptor d)
  {size : Nat} (hsize : s.layout.descriptorSize s.vm.pointerSize = .ok size)
  (hbelow : s.vm.arena.BelowScratch)
include hlayout hd hsize hbelow

/-- A position of the table is resolved through the descriptor, in this session or later. -/
theorem windowClass_finds {index : Nat} (hindex : index < 0x1_0000_0000) {h : Handle}
    (hh : (snapshot.table offset)[index]? = some h) {t : Session} (later : s.Later t)
    (sound : t.Sound) (harena : t.vm.arena = s.vm.arena) :
    Runs (i.windowClass d (descriptorBytes size s.vm.pointerSize offset) index) t
      (fun c u => (u.Shows c ∧ c.handle = h) ∧ u.vm.arena = s.vm.arena) False := by
  have hon := hs.later later sound
  have hclass : t.vm.classAt offset index = (snapshot.table offset)[index]?.getD .null :=
    hon.classAt_eq
  rw [hh] at hclass
  have hruns := Image.windowClass_runs (i := i) sound (later.layout.trans hlayout)
    (by rw [later.layout, later.pointerSize]; exact hsize) (hd.later later) hindex
    (harena ▸ hbelow) (by rw [hclass]; exact hs.ne_null_of_table hh)
  rw [later.pointerSize, hclass] at hruns
  exact hruns.weaken (fun _ _ _ hv => ⟨hv.1, hv.2.trans harena⟩) id

include hp hi himage

/-- Behind the table there is no class. -/
theorem windowClass_misses {index : Nat} (hindex : index < 0x1_0000_0000)
    (hlong : (snapshot.table offset).length ≤ index) {t : Session} (later : s.Later t)
    (sound : t.Sound) (harena : t.vm.arena = s.vm.arena) :
    Fails (i.windowClass d (descriptorBytes size s.vm.pointerSize offset) index) t
      (.layoutMismatch "legacy" p.name index) := by
  have hon := hs.later later sound
  have hfails := Image.windowClass_fails (i := i) sound (hi.later later)
    (later.layout.trans hlayout) (by rw [later.layout, later.pointerSize]; exact hsize)
    (hd.later later) hindex (harena ▸ hbelow) (later.vm.arena.image (himage ▸ hs.image hp))
    (by rw [hon.classAt_eq, List.getElem?_eq_none hlong]; rfl)
  rw [later.pointerSize] at hfails
  exact hfails

end

section

variable {offset start count : Nat} (hlayout : s.layout = .legacy offset)
  (hbelow : s.vm.arena.BelowScratch)
include hlayout hbelow

/-- The classes of a window are resolved one after the other. -/
theorem window_runs {ks : List Handle}
    (hlisting : snapshot.windowListing p.name offset start count = .ok ks) :
    Runs (i.window offset s.vm.pointerSize start count) s (fun cs t =>
      ((∀ c ∈ cs, t.Shows c) ∧ cs.map View.handle = ks) ∧ t.vm.arena = s.vm.arena) False := by
  unfold Snapshot.windowListing at hlisting
  rw [← hs.pointerSize, ← hlayout] at hlisting
  split at hlisting
  · cases hlisting
  rename_i size hsize
  split at hlisting
  · rename_i hfits
    split at hlisting
    · rename_i hfound
      cases hlisting
      refine ((Query.descriptor_runs hs.sound hlayout).weaken (fun _ _ _ hd => hd)
        fun hno => hno fun _ _ => ⟨size, hsize⟩).bind fun d t later sound hd => .get ?_
      obtain ⟨hd, hsimilar⟩ := hd
      have hon := hs.later later sound
      have hsize' : t.layout.descriptorSize t.vm.pointerSize = .ok size := by
        rw [later.layout, later.pointerSize]
        exact hsize
      rw [later.layout, hsize, Query.lift_ok, pure_bind, if_pos hfits, ← later.pointerSize]
      refine (Image.classesFrom_finds (snapshot.table offset)
        (I := fun u => u.vm.arena = t.vm.arena) sound rfl ?_ ?_).weaken ?_ id
      · intro index h u hindex hh later' sound' hu
        exact hon.windowClass_finds (later.layout.trans hlayout) hd
          hsize' (hsimilar.arena ▸ hbelow) (by omega) hh later' sound' hu
      · rw [Snapshot.length_table]
        exact hfound
      · exact fun _ _ _ hv => ⟨hv.1, hv.2.trans hsimilar.arena⟩
    · cases hlisting
  · cases hlisting

include hp hi himage

/-- Where a window leaves the table, the first position behind it is reported; where its end is no
number of 32 bits, its beginning. -/
theorem window_fails {e : Error}
    (hlisting : snapshot.windowListing p.name offset start count = .error e) :
    Fails (i.window offset s.vm.pointerSize start count) s e := by
  unfold Snapshot.windowListing at hlisting
  rw [← hs.pointerSize, ← hlayout] at hlisting
  split at hlisting
  · rename_i hsize
    cases hlisting
    exact .bind (Query.descriptor_fails hs.sound hsize) _
  rename_i size hsize
  refine .after ((Query.descriptor_runs hs.sound hlayout).weaken (fun _ _ _ hd => hd)
    fun hno => hno fun _ _ => ⟨size, hsize⟩) fun d t later sound hd => .get ?_
  obtain ⟨hd, hsimilar⟩ := hd
  have hon := hs.later later sound
  have hsize' : t.layout.descriptorSize t.vm.pointerSize = .ok size := by
    rw [later.layout, later.pointerSize]
    exact hsize
  rw [later.layout, hsize, Query.lift_ok, pure_bind, ← later.pointerSize]
  split at hlisting
  · rename_i hfits
    split at hlisting
    · cases hlisting
    · rename_i hlong
      cases hlisting
      rw [if_pos hfits, ← Snapshot.length_table]
      rw [← Snapshot.length_table] at hlong
      refine Image.classesFrom_misses (snapshot.table offset) (.layoutMismatch "legacy" p.name)
        (I := fun u => u.vm.arena = t.vm.arena) sound rfl ?_ ?_ hlong
      · intro index h u hindex hh later' sound' hu
        exact hon.windowClass_finds (later.layout.trans hlayout) hd
          hsize' (hsimilar.arena ▸ hbelow) (by omega) hh later' sound' hu
      · intro index u hindex hmiss later' sound' hu
        exact hon.windowClass_misses hp (hi.later later) himage (later.layout.trans hlayout) hd
          hsize' (hsimilar.arena ▸ hbelow) (by omega) hmiss later' sound' hu
  · rename_i hfits
    cases hlisting
    rw [if_neg hfits]
    exact Image.mismatch_fails sound (hi.later later)
      (later.vm.arena.image (himage ▸ hs.image hp)) _ _

end

include hp hi himage

/-- Where the description calls for a list of classes, this list is yielded. -/
theorem classes_runs {ks : List Handle} (hlisting : snapshot.listing p s.layout = .ok ks)
    (hbelow : s.vm.arena.BelowScratch) :
    Runs i.classes s (fun cs t => ((∀ c ∈ cs, t.Shows c) ∧ cs.map View.handle = ks) ∧
      t.vm.arena = s.vm.arena) False := by
  obtain ⟨hroom, hcovers, rfl⟩ := Snapshot.listing_eq_ok_iff.mp hlisting
  have hroom := hs.hasRoom_iff.mpr hroom
  have hlists := hs.lists hroom hp hcovers
  rw [← himage] at hlists
  refine (Image.classes_runs hs.sound hi).weaken (fun cs t later hcs => ?_) fun hno =>
    hno hbelow _ _ hlists
  obtain ⟨n, hn⟩ := hcs.1.2 (hcs.2 ▸ hbelow)
  exact ⟨⟨hcs.1.1, hn.unique (hlists.later later)⟩, hcs.2⟩

theorem currentClasses_fails (hlayout : s.layout = .current) {e : Error}
    (hlisting : snapshot.listing p s.layout = .error e) : Fails i.currentClasses s e := by
  rw [hlayout, Snapshot.listing] at hlisting
  split at hlisting
  · rename_i hlegacy
    cases hlisting
    have hn := himage ▸ hs.image hp
    have hcount := Vm.tells_imageClassCount.mpr ⟨_, hn, rfl⟩
    refine .after ((Image.classCount_runs hs.sound hi).weaken (fun _ _ _ hv => hv)
      fun hnone => hnone _ hcount) fun count t later sound ht => ?_
    rw [ht.1.unique (hcount.later rfl later.vm), Site.size_classes_node]
    -- the first index is refused already
    refine Image.classesFrom_fails (I := fun _ => True) 0 (Nat.pos_of_ne_zero hlegacy.2) sound
      trivial (fun j hj => absurd hj (Nat.not_lt_zero j)) fun u later' sound' _ => .bind ?_ _
    refine .ask sound' ?_
    have hsame : u.vm.isLegacy = true :=
      (congrArg Catalog.isLegacy (later.trans later').vm.catalog).trans
        (hs.isLegacy.trans hlegacy.1)
    change (if u.vm.isLegacy then throw (.missingExport "il2cpp_image_get_class")
      else (do pure ((← Access.imageNode _).classes[_]?.getD .null)) : Access Handle) u.vm = _
    rw [hsame]
    rfl
  · cases hlisting

theorem legacyClasses_fails {offset : Nat} (hlayout : s.layout = .legacy offset) {e : Error}
    (hlisting : snapshot.listing p s.layout = .error e) (hbelow : s.vm.arena.BelowScratch) :
    Fails (i.legacyClasses offset) s e := by
  have hn := himage ▸ hs.image hp
  have hpointer : s.vm.Tells .pointerSize s.vm.pointerSize := rfl
  have hstart := Vm.tells_imageClassStart.mpr ⟨_, hn, rfl⟩
  have hcount := Vm.tells_imageClassCount.mpr ⟨_, hn, rfl⟩
  rw [hs.startOf] at hstart
  rw [Site.size_classes_node] at hcount
  rw [Image.legacyClasses_eq]
  refine .after (Runs.known hs.sound hpointer) fun size t₁ later₁ sound₁ ht₁ => ?_
  obtain ⟨rfl, hsimilar₁⟩ := ht₁
  refine .after ((Image.classStart_runs sound₁ (hi.later later₁)).weaken (fun _ _ _ hv => hv)
    fun hnone => hnone _ (hstart.later rfl later₁.vm)) fun start t₂ later₂ sound₂ ht₂ => ?_
  have later := later₁.trans later₂
  cases ht₂.1.unique (hstart.later rfl later.vm)
  refine .after ((Image.classCount_runs sound₂ (hi.later later)).weaken (fun _ _ _ hv => hv)
    fun hnone => hnone _ (hcount.later rfl later.vm)) fun count t₃ later₃ sound₃ ht₃ => ?_
  have later := later.trans later₃
  cases ht₃.1.unique (hcount.later rfl later.vm)
  have harena : t₃.vm.arena = s.vm.arena :=
    ht₃.2.trans (ht₂.2.arena.trans hsimilar₁.arena)
  rw [← later.pointerSize]
  refine (hs.later later sound₃).window_fails hp (hi.later later) himage
    (later.layout.trans hlayout) (harena ▸ hbelow) ?_
  rw [hlayout] at hlisting
  exact Snapshot.windowListing_of_listing hlisting

omit hi in
/-- Where it calls for an error, no classes are those of the image. -/
theorem not_showsClasses {e : Error} (hlisting : snapshot.listing p s.layout = .error e)
    (hbelow : s.vm.arena.BelowScratch) (cs : List Class) : ¬s.ShowsClasses i.handle cs := by
  rintro ⟨-, hlists⟩
  obtain ⟨n, hn⟩ := hlists hbelow
  rw [himage] at hn
  have hok := Snapshot.listing_eq_ok_iff.mpr ⟨hs.hasRoom_iff.mp hn.room, hs.covers hp hn, rfl⟩
  rw [hlisting] at hok
  cases hok

/-- Where it calls for an error, the listing fails with this error. -/
theorem classes_fails {e : Error} (hlisting : snapshot.listing p s.layout = .error e)
    (hbelow : s.vm.arena.BelowScratch) : Fails i.classes s e := by
  refine .remember (f := .imageClasses) hs.sound hi.2
    (hs.not_showsClasses hp himage hlisting hbelow) (.get ?_)
  cases hlayout : s.layout with
  | current => exact hs.currentClasses_fails hp hi himage hlayout hlisting
  | legacy offset => exact hs.legacyClasses_fails hp hi himage hlayout hlisting hbelow

end Session.On

end VmMetadata
