import VmMetadata.Proofs.Session.Reported

/-!
Room in the descriptor of a legacy layout. Its size is computed in words of 64 bits from an offset
that a configuration may choose freely. Main statement: the descriptor has room for a position and
for the tag byte, and then no window makes a session write outside of it, just where the offset and
a pointer behind it are counted by such a word. With the offsets above, the program is stopped
before it makes a descriptor.
-/

namespace VmMetadata

namespace ClassLayout

/-- The size of the descriptor is exact, and there is room for a position and for the tag byte. -/
structure Room (offset pointerSize size : Nat) : Prop where
  told : (legacy offset).descriptorSize pointerSize = .ok size
  exact : size = exactSize offset pointerSize
  aligned : pointerSize ∣ size
  position : pointerSize ≤ size
  tag : offset < size

/-- A descriptor with room has a size. -/
def Roomy (offset pointerSize : Nat) : Prop :=
  ∃ size, Room offset pointerSize size

variable {offset pointerSize size : Nat} (hsize : pointerSize = 4 ∨ pointerSize = 8)
include hsize

/-- What has a size has room. -/
theorem Room.of_told (h : (legacy offset).descriptorSize pointerSize = .ok size) :
    Room offset pointerSize size where
  told := h
  exact := eq_exactSize hsize h
  aligned := eq_exactSize hsize h ▸ Nat.dvd_mul_left _ _
  position := le_descriptorSize hsize h
  tag := lt_descriptorSize hsize h

theorem roomy_iff :
    Roomy offset pointerSize ↔ offset + pointerSize < 0x1_0000_0000_0000_0000 := by
  constructor
  · rintro ⟨size, room⟩
    by_contra hlong
    have htold := room.told
    rw [descriptorSize_legacy hsize, if_neg hlong] at htold
    cases htold
  · intro hfits
    obtain ⟨size, htold⟩ := exists_descriptorSize hsize hfits
    exact ⟨size, .of_told hsize htold⟩

/-- Without room there is no size. -/
theorem descriptorSize_of_not_roomy (hnone : ¬Roomy offset pointerSize) :
    (legacy offset).descriptorSize pointerSize = .error (.stopped (sizeFault offset)) := by
  rw [descriptorSize_legacy hsize, if_neg (mt (roomy_iff hsize).mpr hnone)]

end ClassLayout

open ClassLayout (Room Roomy sizeFault)

/-! ## Writing positions -/

/-- The session makes a descriptor, and every position is written into it: the tag byte lies within
the bytes of the position, and these fill the descriptor. -/
def Session.WritesPositions (s : Session) (offset : Nat) : Prop :=
  ∃ size d t, s.layout.descriptorSize s.vm.pointerSize = .ok size ∧
    Query.descriptor s = .ok d t ∧ ∀ index : Nat,
      let bytes := descriptorBytes size s.vm.pointerSize offset index
      bytes.length = size ∧ bytes[offset]? = some TypeKind.classType.tag ∧
        ∃ u, Query.ask (.writeBytes d bytes) t = .ok () u

theorem Session.Sound.writesPositions {s : Session} (hs : s.Sound) {offset : Nat}
    (hlayout : s.layout = .legacy offset) (hroomy : Roomy offset s.vm.pointerSize) :
    s.WritesPositions offset := by
  obtain ⟨size, room⟩ := hroomy
  have hsize : s.layout.descriptorSize s.vm.pointerSize = .ok size := by rw [hlayout, room.told]
  have hlength (index : Nat) := length_descriptorBytes room.position offset index
  have hroom : s.HasRoom := fun _ _ => ⟨size, hsize⟩
  cases Query.descriptor_runs hs hlayout with
  | error _ _ _ hnone => exact absurd hroom hnone
  | @ok d t run later sound hd =>
      refine ⟨size, d, t, hsize, run, fun index => ⟨hlength index, ?_, ?_⟩⟩
      · unfold descriptorBytes
        rw [List.getElem?_set_self]
        rw [← List.length_set, ← descriptorBytes, hlength]
        exact room.tag
      · have hsize' : t.layout.descriptorSize t.vm.pointerSize = .ok size := by
          rw [later.layout, later.pointerSize, hsize]
        cases Query.writeBytes_runs sound hd.1 hsize' (hlength index).le with
        | error _ _ _ impossible => exact impossible.elim
        | ok run _ _ _ => exact ⟨_, run⟩

theorem Snapshot.windowListing_of_told {s : Snapshot} {offset size : Nat}
    (htold : (ClassLayout.legacy offset).descriptorSize s.pointerSize = .ok size) (name : String)
    (start count : Nat) :
    (∃ ks, s.windowListing name offset start count = .ok ks) ∨
      ∃ index, s.windowListing name offset start count =
        .error (.layoutMismatch "legacy" name index) := by
  unfold windowListing
  rw [htold]
  dsimp only
  split
  · split
    · exact Or.inl ⟨_, rfl⟩
    · exact Or.inr ⟨_, rfl⟩
  · exact Or.inr ⟨_, rfl⟩

section

variable {s : Session} {snapshot : Snapshot} (hs : s.On snapshot) {offset : Nat}
  (hlayout : s.layout = .legacy offset) (hbelow : s.vm.arena.BelowScratch) {p : Site}
  (hp : p ∈ snapshot.images) {i : Image} (himage : i.handle = p.image) (hi : s.Shows i)
  (hunread : ∀ f : Fact, f.isWindow = true → s.notebook.find? i.page f = none)
include hs hlayout hbelow hp himage hi hunread

/-- An error that is called for by the window fails its listing. -/
theorem Session.On.classes_of_windowListing_error {start count : Nat} {e : Error}
    (htold : snapshot.windowListing p.name offset start count = .error e) :
    ∃ t, i.classes (s.reporting start count) = .error e t := by
  have hreports := Session.reports_reporting hs.sound hi hunread start count
  have hcurrent : s.layout = .current → isLegacyBuild snapshot.vmVersion = false := fun h => by
    rw [hlayout] at h
    cases h
  obtain ⟨t, _, hrun, _⟩ :=
    hs.classes_told_error hcurrent hp hi himage hbelow hreports (by rw [hlayout]; exact htold)
  exact ⟨t, hrun⟩

/-- A descriptor with room takes every window, also one that is reported falsely: the classes in it
are listed, or the layout is found not to fit. -/
theorem Session.On.classes_of_roomy (hroomy : Roomy offset snapshot.pointerSize)
    (start count : Nat) :
    (∃ cs t, i.classes (s.reporting start count) = .ok cs t) ∨
      ∃ index t, i.classes (s.reporting start count) =
        .error (.layoutMismatch "legacy" p.name index) t := by
  obtain ⟨size, room⟩ := hroomy
  rcases Snapshot.windowListing_of_told room.told p.name start count with
    ⟨ks, hks⟩ | ⟨index, hindex⟩
  · have hreports := Session.reports_reporting hs.sound hi hunread start count
    have hcurrent : s.layout = .current → isLegacyBuild snapshot.vmVersion = false := fun h => by
      rw [hlayout] at h
      cases h
    obtain ⟨cs, t, hrun, _⟩ :=
      hs.classes_told_ok hcurrent hp himage hbelow hreports (by rw [hlayout]; exact hks)
    exact Or.inl ⟨cs, t, hrun⟩
  · obtain ⟨t, hrun⟩ :=
      hs.classes_of_windowListing_error hlayout hbelow hp himage hi hunread hindex
    exact Or.inr ⟨index, t, hrun⟩

/-- Without room no window is listed, not even an empty one. -/
theorem Session.On.classes_of_not_roomy
    (hsize : snapshot.pointerSize = 4 ∨ snapshot.pointerSize = 8)
    (hnone : ¬Roomy offset snapshot.pointerSize) (start count : Nat) :
    ∃ t, i.classes (s.reporting start count) = .error (.stopped (sizeFault offset)) t :=
  hs.classes_of_windowListing_error hlayout hbelow hp himage hi hunread (by
    unfold Snapshot.windowListing
    rw [ClassLayout.descriptorSize_of_not_roomy hsize hnone])

end

/-! ## Sessions in a legacy layout -/

/-- In a session whose layout puts the tag byte at an offset, the descriptor has room just where the
offset and a pointer behind it are counted by a word of 64 bits. Then every position is written into
it, and every window of an image that is reported is listed or found not to fit; a descriptor of any
size is taken to find its memory. Where there is no room, the sum or the product that overflows
stops the program: the size is not told, no descriptor is made, and no window is listed. -/
theorem Image.classes_of_room {snapshot : Snapshot} {vm : Vm}
    (hvm : Vm.ofSnapshot snapshot = .ok vm) (version : Version) (offset : Nat) :
    (Roomy offset snapshot.pointerSize ↔
      offset + snapshot.pointerSize < 0x1_0000_0000_0000_0000) ∧
    (Roomy offset snapshot.pointerSize →
      ∀ s, (Session.new vm version (.legacy offset)).History s →
        s.WritesPositions offset ∧
        (s.vm.arena.BelowScratch → ∀ p ∈ snapshot.images, ∀ i : Image, i.handle = p.image →
          s.Shows i → (∀ f : Fact, f.isWindow = true → s.notebook.find? i.page f = none) →
          ∀ start count : Nat,
            (∃ cs t, i.classes (s.reporting start count) = .ok cs t) ∨
            ∃ index t, i.classes (s.reporting start count) =
              .error (.layoutMismatch "legacy" p.name index) t)) ∧
    (¬Roomy offset snapshot.pointerSize →
      (ClassLayout.legacy offset).descriptorSize snapshot.pointerSize =
        .error (.stopped (sizeFault offset)) ∧
      ∀ s, (Session.new vm version (.legacy offset)).History s →
        (∃ t, Query.descriptor s = .error (.stopped (sizeFault offset)) t) ∧
        (s.vm.arena.BelowScratch → ∀ p ∈ snapshot.images, ∀ i : Image, i.handle = p.image →
          s.Shows i → (∀ f : Fact, f.isWindow = true → s.notebook.find? i.page f = none) →
          ∀ start count : Nat,
            ∃ t, i.classes (s.reporting start count) = .error (.stopped (sizeFault offset)) t)) := by
  have hsize := (Vm.ofSnapshot_eq_ok hvm).1
  have hnew := Session.On.of_new hvm version (.legacy offset)
  refine ⟨ClassLayout.roomy_iff hsize, fun hroomy s history => ?_, fun hnone => ?_⟩
  · obtain ⟨later, sound⟩ := history.sound hnew
    have hon := hnew.later later sound
    refine ⟨sound.writesPositions later.layout (hon.pointerSize ▸ hroomy), ?_⟩
    intro hbelow p hp i himage hi hunread start count
    exact hon.classes_of_roomy later.layout hbelow hp himage hi hunread hroomy start count
  · have hstopped := ClassLayout.descriptorSize_of_not_roomy hsize hnone
    refine ⟨hstopped, fun s history => ?_⟩
    obtain ⟨later, sound⟩ := history.sound hnew
    have hon := hnew.later later sound
    constructor
    · obtain ⟨t, run, _⟩ := Query.descriptor_fails sound (by
        rw [later.layout, hon.pointerSize]
        exact hstopped)
      exact ⟨t, run⟩
    · intro hbelow p hp i himage hi hunread start count
      exact hon.classes_of_not_roomy later.layout hbelow hp himage hi hunread hsize hnone start
        count

/-- In a legacy build the tag byte at offset twelve has room; with the last offset the sum with one
stops the program. -/
theorem Image.classes_of_room_aged :
    Roomy 12 Snapshot.aged.pointerSize ∧
      (Session.new Snapshot.aged.machine ⟨2017, 4, 1, some "f1"⟩ (.legacy 12)).WritesPositions 12 ∧
      ¬Roomy 0xFFFF_FFFF_FFFF_FFFF Snapshot.aged.pointerSize ∧
      (ClassLayout.legacy 0xFFFF_FFFF_FFFF_FFFF).descriptorSize Snapshot.aged.pointerSize =
        .error (.stopped .addition) := by
  have hvm : Vm.ofSnapshot Snapshot.aged = .ok Snapshot.aged.machine :=
    Vm.ofSnapshot_machine (Or.inr rfl)
  have hroom := Image.classes_of_room hvm ⟨2017, 4, 1, some "f1"⟩ 12
  have hlast := Image.classes_of_room hvm ⟨2017, 4, 1, some "f1"⟩ 0xFFFF_FFFF_FFFF_FFFF
  have hroomy := hroom.1.mpr (by decide)
  have hnone := mt hlast.1.mp (by decide)
  exact ⟨hroomy, (hroom.2.1 hroomy _ .start).1, hnone, (hlast.2.2 hnone).1⟩

end VmMetadata
