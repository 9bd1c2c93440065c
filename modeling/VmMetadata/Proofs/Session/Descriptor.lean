import Mathlib.Algebra.Group.Nat.Defs
import VmMetadata.Inspect.Image
import VmMetadata.Proofs.Session.Getters

/-!
The scratch descriptor of a session. A position that is written into it is read back, if the tag
byte goes where the machine looks for it; anywhere else the machine finds no class. To write into
the descriptor changes nothing that another session could see.
-/

namespace VmMetadata

open Query (Agree Agrees Runs)

/-! ## Bytes -/

theorem length_littleEndian (width n : Nat) : (littleEndian width n).length = width := by
  induction width generalizing n with
  | zero => rfl
  | succ width ih => rw [littleEndian, List.length_cons, ih]

/-- A number is read back as far as it fits. -/
theorem ofLittleEndian_littleEndian (width n : Nat) :
    ofLittleEndian (littleEndian width n) = n % 256 ^ width := by
  induction width generalizing n with
  | zero => rw [Nat.pow_zero, Nat.mod_one]; rfl
  | succ width ih =>
      have hstep : ofLittleEndian (littleEndian (width + 1) n) =
          (UInt8.ofNat (n % 256)).toNat + 256 * ofLittleEndian (littleEndian width (n / 256)) := rfl
      have hbyte : (UInt8.ofNat (n % 256)).toNat = n % 256 := by simp
      rw [hstep, ih, hbyte, Nat.pow_succ', Nat.mod_mul]

section

variable {size pointerSize offset : Nat}

theorem length_descriptorBytes (hsize : pointerSize ≤ size) (offset index : Nat) :
    (descriptorBytes size pointerSize offset index).length = size := by
  rw [descriptorBytes, List.length_set, Scratch.length_overwrite, List.length_replicate]
  rw [length_littleEndian, List.length_replicate]
  exact hsize

/-- Behind the position, all bytes but the tag byte are zero. -/
theorem getElem?_descriptorBytes (index : Nat) {i : Nat} (hi : pointerSize ≤ i)
    (hne : i ≠ offset) {b : UInt8}
    (hb : (descriptorBytes size pointerSize offset index)[i]? = some b) : b = 0 := by
  rw [descriptorBytes, List.getElem?_set_ne (Ne.symm hne), Scratch.overwrite,
    List.getElem?_append_right (by rw [length_littleEndian]; exact hi)] at hb
  have hmem := List.mem_of_getElem? hb
  exact List.eq_of_mem_replicate (List.mem_of_mem_drop hmem)

/-- The machine reads back the position that was written. -/
theorem describedIndex?_descriptorBytes (hsize : pointerSize = 4 ∨ pointerSize = 8)
    (hroom : pointerSize + 2 < size) {index : Nat} (hindex : index < 0x1_0000_0000) :
    Vm.describedIndex? pointerSize
      (descriptorBytes size pointerSize (typeKindOffset pointerSize) index) = some index := by
  have hoffset : typeKindOffset pointerSize = pointerSize + 2 := rfl
  have hlength := length_descriptorBytes (show pointerSize ≤ size by omega)
    (typeKindOffset pointerSize) index
  have htag : (descriptorBytes size pointerSize (typeKindOffset pointerSize) index)[
      typeKindOffset pointerSize]? = some TypeKind.classType.tag := by
    rw [descriptorBytes, List.getElem?_set_self]
    rw [← List.length_set, ← descriptorBytes, hlength]
    omega
  have htake : (descriptorBytes size pointerSize (typeKindOffset pointerSize) index).take
      pointerSize = littleEndian pointerSize index := by
    rw [descriptorBytes, List.take_set_of_le (by omega), Scratch.overwrite]
    exact List.take_left' (length_littleEndian _ _)
  have hpower : 0x1_0000_0000 ≤ 256 ^ pointerSize := by
    rcases hsize with rfl | rfl <;> decide
  unfold Vm.describedIndex?
  rw [htag]
  refine (if_pos ⟨by omega, Or.inl rfl⟩).trans ?_
  rw [htake, ofLittleEndian_littleEndian, Nat.mod_eq_of_lt (by omega)]

/-- The machine finds no tag of a class where none was written. -/
theorem describedIndex?_eq_none (hne : offset ≠ typeKindOffset pointerSize) (index : Nat) :
    Vm.describedIndex? pointerSize (descriptorBytes size pointerSize offset index) = none := by
  have hoffset : typeKindOffset pointerSize = pointerSize + 2 := rfl
  unfold Vm.describedIndex?
  cases hb : (descriptorBytes size pointerSize offset index)[typeKindOffset pointerSize]? with
  | none => rfl
  | some b =>
      rw [getElem?_descriptorBytes index (by omega) (Ne.symm hne) hb]
      exact if_neg fun h => by rcases h.2 with h | h <;> cases h

end

/-! ## The size of a descriptor -/

namespace ClassLayout

/-- The size of a descriptor in numbers without a bound: so many pointers as cover a pointer and all
bytes up to the tag byte. -/
def exactSize (offset pointerSize : Nat) : Nat :=
  (max (offset + 1) pointerSize + pointerSize - 1) / pointerSize * pointerSize

/-- What a size without room is stopped by: there is no byte behind the last word, and behind the
words close to it no pointer. -/
def sizeFault (offset : Nat) : ArithmeticFault :=
  if offset + 1 < 0x1_0000_0000_0000_0000 then .multiplication else .addition

variable {offset pointerSize size : Nat} (hsize : pointerSize = 4 ∨ pointerSize = 8)
include hsize

/-- There is room where the offset and a pointer behind it are counted by a word of 64 bits. -/
theorem descriptorSize_legacy : (legacy offset).descriptorSize pointerSize =
    if offset + pointerSize < 0x1_0000_0000_0000_0000 then .ok (exactSize offset pointerSize)
    else .error (.stopped (sizeFault offset)) := by
  have hpos : pointerSize ≠ 0 := by rcases hsize with rfl | rfl <;> decide
  have hwords : (max (offset + 1) pointerSize / pointerSize +
      if max (offset + 1) pointerSize % pointerSize = 0 then 0 else 1) * pointerSize =
        exactSize offset pointerSize := by
    unfold exactSize
    rcases hsize with rfl | rfl <;> split <;> omega
  have hfits : exactSize offset pointerSize < 0x1_0000_0000_0000_0000 ↔
      offset + pointerSize < 0x1_0000_0000_0000_0000 := by
    unfold exactSize
    rcases hsize with rfl | rfl <;> omega
  simp only [descriptorSize, sizeFault, checked64]
  by_cases hbyte : offset + 1 < 0x1_0000_0000_0000_0000
  · rw [if_pos hbyte, if_pos hbyte]
    change (if pointerSize = 0 then _ else if _ * pointerSize < _ then _ else _) = _
    rw [if_neg hpos, hwords]
    simp only [hfits]
  · rw [if_neg hbyte, if_neg hbyte, if_neg (by omega)]
    rfl

theorem exists_descriptorSize (hfits : offset + pointerSize < 0x1_0000_0000_0000_0000) :
    ∃ size, (legacy offset).descriptorSize pointerSize = .ok size :=
  ⟨_, (descriptorSize_legacy hsize).trans (if_pos hfits)⟩

theorem eq_exactSize (h : (legacy offset).descriptorSize pointerSize = .ok size) :
    size = exactSize offset pointerSize := by
  rw [descriptorSize_legacy hsize] at h
  split at h
  · exact (Except.ok.inj h).symm
  · cases h

/-- A descriptor has room for a position. -/
theorem le_descriptorSize (h : (legacy offset).descriptorSize pointerSize = .ok size) :
    pointerSize ≤ size := by
  rw [eq_exactSize hsize h, exactSize]
  rcases hsize with rfl | rfl <;> omega

/-- A descriptor has room for the tag byte. -/
theorem lt_descriptorSize (h : (legacy offset).descriptorSize pointerSize = .ok size) :
    offset < size := by
  rw [eq_exactSize hsize h, exactSize]
  rcases hsize with rfl | rfl <;> omega

end ClassLayout

variable {s : Session}

/-- The size of the descriptor that the layout needs; zero if it needs none or can have none. -/
def Session.roomFor (s : Session) : Nat :=
  match s.layout.descriptorSize s.vm.pointerSize with
  | .ok size => size
  | .error _ => 0

theorem Session.descriptorSize_eq (h : s.roomFor ≠ 0) :
    s.layout.descriptorSize s.vm.pointerSize = .ok s.roomFor := by
  unfold roomFor at h ⊢
  cases hsize : s.layout.descriptorSize s.vm.pointerSize with
  | ok size => rfl
  | error e =>
      rw [hsize] at h
      exact absurd rfl h

/-! ## Steps that no other session could see -/

theorem Session.Similar.arena {t : Session} (h : s.Similar t) : t.vm.arena = s.vm.arena :=
  h.vm.arena

/-- The descriptor of the session, made now or before. -/
theorem Query.descriptor_runs (hs : s.Sound) {offset : Nat} (hlayout : s.layout = .legacy offset) :
    Runs Query.descriptor s (fun d t => t.HasDescriptor d ∧ s.Similar t) ¬s.HasRoom := by
  have hpointer : s.vm.Tells .pointerSize s.vm.pointerSize := rfl
  refine .get (((Runs.known hs hpointer).weaken (fun _ _ _ hv => hv) False.elim).bind
    fun pointerSize t later sound ht => ?_)
  obtain ⟨rfl, hsimilar⟩ := ht
  refine (Runs.lift (P := fun size u => u = t ∧ s.layout.descriptorSize s.vm.pointerSize = .ok size)
    sound (fun _ hsize => ⟨rfl, hsize⟩) fun e herror hroom => ?_).bind fun size u _ _ hu => ?_
  · obtain ⟨size, hsize⟩ := hroom offset hlayout
    cases herror.symm.trans hsize
  obtain ⟨rfl, hsize⟩ := hu
  have hpos : size ≠ 0 := by
    have hle := ClassLayout.le_descriptorSize hs.pointerSize (hlayout ▸ hsize)
    have hpointer := hs.pointerSize
    omega
  rw [if_neg hpos]
  refine Runs.rememberAnd sound sound.front hsimilar (fun u v hu => hu.trans
    (Session.similar_noted u _ v rfl)) ?_
  refine ((Runs.ask sound (c := .alloc size) (Access.alloc_steps u.vm _)).weaken
    (fun _ _ _ ha => ha) False.elim).bind fun d v later' sound' hd => ?_
  obtain ⟨⟨rfl, hvm'⟩, hv⟩ := hd
  -- scratch memory does not begin at null
  have hne : (⟨u.vm.scratch.cursor⟩ : Handle) ≠ .null := fun hnull => by
    have hzero : u.vm.scratch.cursor = 0 := congrArg Handle.address hnull
    have hbase := sound.vm.scratch.cursor
    rw [hzero] at hbase
    exact absurd hbase (by decide)
  have hsimilar' : u.Similar v := by
    rw [hv, hvm']
    exact Session.similar_called _ rfl
  rw [Handle.require_of_ne_null hne]
  refine .pure sound' ⟨⟨hne, List.replicate size 0, ?_, ?_⟩, hsimilar.trans hsimilar'⟩
  · rw [hvm']
    exact Scratch.read?_alloc _
  · rw [List.length_replicate, (later.trans later').layout, (later.trans later').pointerSize]
    exact hsize

/-- What is not longer than the descriptor is written into it. -/
theorem Query.writeBytes_runs (hs : s.Sound) {d : Handle} (hd : s.HasDescriptor d)
    {size : Nat} (hsize : s.layout.descriptorSize s.vm.pointerSize = .ok size) {bytes : List UInt8}
    (hfits : bytes.length ≤ size) :
    Runs (Query.ask (.writeBytes d bytes)) s
      (fun _ t => s.Similar t ∧ ∃ m, s.vm.scratch.write d bytes = .ok m ∧ t.vm.scratch = m)
      False := by
  obtain ⟨-, old, hold, hlength⟩ := hd
  cases hsize.symm.trans hlength
  have hwrite : ∃ m, s.vm.scratch.write d bytes = .ok m := by
    unfold Scratch.write
    rw [hold]
    exact ⟨_, if_pos hfits⟩
  refine (Runs.ask hs (c := .writeBytes d bytes)
    (Access.writeBytes_steps s.vm d bytes)).weaken ?_ fun hno => hwrite.elim hno
  rintro _ t _ ⟨⟨m, hm, hvm⟩, ht⟩
  refine ⟨?_, m, hm, by rw [hvm]⟩
  rw [ht, hvm]
  exact Session.similar_called _ rfl

theorem Scratch.WellFormed.base_le {m : Scratch} (wf : m.WellFormed) {address : Nat}
    {bytes : List UInt8} (h : m.read? address = some bytes) : base ≤ address := by
  obtain ⟨b, hb, _⟩ := Option.map_eq_some_iff.mp h
  have haddress : b.address = address := by simpa using List.find?_some hb
  exact haddress ▸ (wf.buffers b (List.mem_of_find?_eq_some hb)).1

/-- What the machine makes of a descriptor, if no type of the arena has its address. -/
theorem Vm.tells_classFromType {vm : Vm} (wf : vm.WellFormed) {d : Handle} {bytes : List UInt8}
    (hread : vm.scratch.read? d.address = some bytes) :
    ∃ h, vm.Tells (.classFromType d) h ∧ (vm.arena.BelowScratch →
      h = ((describedIndex? vm.pointerSize bytes).bind (vm.globalClasses[·]?)).getD .null) := by
  cases htype : vm.arena.type d with
  | ok node =>
      have hclass : vm.classOf d = .ok node.class := by simp only [Vm.classOf, htype]
      refine ⟨node.class, congrArg (Access.lift · vm) hclass, fun hbelow => ?_⟩
      have hlt := hbelow d _ (Arena.type_eq_ok.mp htype)
      have hle := wf.scratch.base_le hread
      omega
  | error e =>
      have hclass : vm.classOf d = .ok
          (((describedIndex? vm.pointerSize bytes).bind (vm.globalClasses[·]?)).getD .null) := by
        simp only [Vm.classOf, htype, hread]
      exact ⟨_, congrArg (Access.lift · vm) hclass, fun _ => rfl⟩

/-- The class at a position of the table of all classes, null where a tag byte is misplaced. -/
def Vm.classAt (vm : Vm) (offset index : Nat) : Handle :=
  if offset = typeKindOffset vm.pointerSize then vm.globalClasses[index]?.getD .null else .null

/-- The descriptor of a position is resolved to the class at the position. -/
theorem Vm.resolve_descriptorBytes {vm : Vm} (hpointer : vm.pointerSize = 4 ∨ vm.pointerSize = 8)
    {offset size : Nat} (hroom : offset < size) {index : Nat} (hindex : index < 0x1_0000_0000) :
    ((describedIndex? vm.pointerSize (descriptorBytes size vm.pointerSize offset index)).bind
      (vm.globalClasses[·]?)).getD .null = vm.classAt offset index := by
  unfold classAt
  by_cases hoffset : offset = typeKindOffset vm.pointerSize
  · rw [hoffset] at hroom
    rw [if_pos hoffset, hoffset, describedIndex?_descriptorBytes hpointer hroom hindex]
    rfl
  · rw [if_neg hoffset, describedIndex?_eq_none hoffset]
    rfl

/-- The position is written into the descriptor and resolved. -/
theorem Query.resolve_runs (hs : s.Sound) {offset : Nat} (hlayout : s.layout = .legacy offset)
    {size : Nat} (hsize : s.layout.descriptorSize s.vm.pointerSize = .ok size) {d : Handle}
    (hd : s.HasDescriptor d) {index : Nat} (hindex : index < 0x1_0000_0000) :
    Runs (do
        ask (.writeBytes d (descriptorBytes size s.vm.pointerSize offset index))
        ask (.classFromType d)) s
      (fun h t => s.Similar t ∧ (s.vm.arena.BelowScratch → h = s.vm.classAt offset index))
      False := by
  have ⟨_, old, hold, hlength⟩ := hd
  cases hsize.symm.trans hlength
  rw [hlayout] at hsize
  let bytes := descriptorBytes old.length s.vm.pointerSize offset index
  have hbytes : bytes.length = old.length :=
    length_descriptorBytes (ClassLayout.le_descriptorSize hs.pointerSize hsize) offset index
  refine (Query.writeBytes_runs hs hd hlength hbytes.le).bind fun _ t later sound ht => ?_
  obtain ⟨hsimilar, m, hm, hscratch⟩ := ht
  obtain ⟨old', hold', hle, hnew, -⟩ := Scratch.read?_of_write hm
  -- the bytes fill the descriptor, so nothing is left of what it held before
  have hread : t.vm.scratch.read? d.address = some bytes := by
    rw [hold] at hold'
    cases hold'
    rw [hscratch]
    refine hnew.trans ?_
    rw [Scratch.overwrite, List.drop_eq_nil_of_le hbytes.ge, List.append_nil]
  obtain ⟨h, htells, hclass⟩ := Vm.tells_classFromType sound.vm hread
  refine (Runs.known sound htells).weaken ?_ id
  rintro k u _ ⟨rfl, hsimilar'⟩
  refine ⟨hsimilar.trans hsimilar', fun hbelow => ?_⟩
  rw [hclass (by rwa [hsimilar.arena]), later.pointerSize, hsimilar.vm.globalClasses]
  exact Vm.resolve_descriptorBytes hs.pointerSize
    (ClassLayout.lt_descriptorSize hs.pointerSize hsize) hindex

end VmMetadata
