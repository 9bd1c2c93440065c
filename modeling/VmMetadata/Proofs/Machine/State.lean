import VmMetadata.Proofs.Load.Machine
import VmMetadata.Proofs.Machine.Later

/-!
Well-formed machines, and what a machine keeps while it answers calls. Beside the arena these are
the handles that the snapshot fixed, the instantiations on record, and scratch memory. Main
statement: a machine is well-formed when it is made.
-/

namespace VmMetadata

namespace Scratch

/-- All pieces lie between the base and the cursor. -/
structure WellFormed (m : Scratch) : Prop where
  cursor : base ≤ m.cursor
  buffers : ∀ b ∈ m.buffers, base ≤ b.address ∧ b.address < m.cursor

/-- Every piece has kept its place and its size. -/
def Later (m n : Scratch) : Prop :=
  ∀ address bytes, m.read? address = some bytes →
    ∃ bytes', n.read? address = some bytes' ∧ bytes'.length = bytes.length

theorem Later.refl (m : Scratch) : m.Later m :=
  fun _ bytes h => ⟨bytes, h, rfl⟩

theorem Later.trans {m n p : Scratch} (hmn : m.Later n) (hnp : n.Later p) : m.Later p := by
  intro address bytes h
  obtain ⟨bytes', h', hlen⟩ := hmn address bytes h
  obtain ⟨bytes'', h'', hlen'⟩ := hnp address bytes' h'
  exact ⟨bytes'', h'', hlen'.trans hlen⟩

theorem wellFormed_empty : empty.WellFormed :=
  ⟨Nat.le_refl _, by simp [empty]⟩

/-- What happens to scratch memory: a piece is handed out, or written to. -/
inductive Step (m : Scratch) : Scratch → Prop
  | alloc (size : Nat) : Step m (m.alloc size).2
  | write {at_ : Handle} {bytes : List UInt8} {n : Scratch} (done : m.write at_ bytes = .ok n) :
      Step m n

theorem read?_alloc {m : Scratch} (size : Nat) :
    (m.alloc size).2.read? m.cursor = some (List.replicate size 0) := by
  simp [alloc, read?]

/-- A change to the buffers that keeps their addresses. -/
theorem find?_map_buffers (m : Scratch) {f : Buffer → Buffer}
    (hf : ∀ b, (f b).address = b.address) (address : Nat) :
    (m.buffers.map f).find? (·.address == address) =
      (m.buffers.find? (·.address == address)).map f := by
  rw [List.find?_map]
  congr 2
  funext b
  simp [hf]

/-- What a write makes of a buffer. -/
def overwriteAt (at_ : Handle) (bytes : List UInt8) (b : Buffer) : Buffer :=
  if b.address = at_.address then { b with bytes := overwrite bytes b.bytes } else b

theorem address_overwriteAt (at_ : Handle) (bytes : List UInt8) (b : Buffer) :
    (overwriteAt at_ bytes b).address = b.address := by
  unfold overwriteAt
  split <;> rfl

theorem read?_of_write {m n : Scratch} {at_ : Handle} {bytes : List UInt8}
    (h : m.write at_ bytes = .ok n) :
    ∃ old, m.read? at_.address = some old ∧ bytes.length ≤ old.length ∧
      n.read? at_.address = some (overwrite bytes old) ∧
      (∀ address, address ≠ at_.address → n.read? address = m.read? address) ∧
      n.cursor = m.cursor ∧ n.buffers.map Buffer.address = m.buffers.map Buffer.address := by
  unfold write at h
  split at h
  · cases h
  · rename_i old hold
    split at h
    · rename_i hle
      obtain rfl := Except.ok.inj h
      have hread := m.find?_map_buffers (address_overwriteAt at_ bytes)
      refine ⟨old, hold, hle, ?_, fun address hne => ?_, rfl, ?_⟩
      · change ((m.buffers.map (overwriteAt at_ bytes)).find? _).map _ = _
        rw [hread]
        obtain ⟨b, hb, rfl⟩ := Option.map_eq_some_iff.mp hold
        have hat : b.address = at_.address := by simpa using List.find?_some hb
        rw [hb]
        exact congrArg (fun b : Buffer => some b.bytes) (if_pos hat)
      · change ((m.buffers.map (overwriteAt at_ bytes)).find? _).map _ = (m.buffers.find? _).map _
        rw [hread]
        cases hb : m.buffers.find? (·.address == address) with
        | none => rfl
        | some b =>
            have hat : b.address = address := by simpa using List.find?_some hb
            exact congrArg (fun b : Buffer => some b.bytes) (if_neg (hat ▸ hne))
      · change (m.buffers.map (overwriteAt at_ bytes)).map _ = _
        rw [List.map_map]
        exact List.map_congr_left fun b _ => address_overwriteAt at_ bytes b
    · cases h

theorem length_overwrite {bytes old : List UInt8} (h : bytes.length ≤ old.length) :
    (overwrite bytes old).length = old.length := by
  simp only [overwrite, List.length_append, List.length_drop]
  omega

theorem le_reserved (size : Nat) : 1 ≤ reserved size := by
  unfold reserved alignment
  omega

theorem Step.wellFormed {m n : Scratch} (wf : m.WellFormed) (h : m.Step n) : n.WellFormed := by
  cases h with
  | alloc size =>
      have := le_reserved size
      have hcursor := wf.cursor
      refine ⟨by simp only [Scratch.alloc]; omega, fun b hb => ?_⟩
      simp only [Scratch.alloc, List.mem_cons] at hb ⊢
      rcases hb with rfl | hb
      · exact ⟨hcursor, by simp only; omega⟩
      · obtain ⟨hbase, hlt⟩ := wf.buffers b hb
        exact ⟨hbase, by omega⟩
  | write done =>
      obtain ⟨_, _, _, _, _, hcursor, haddresses⟩ := read?_of_write done
      refine ⟨hcursor ▸ wf.cursor, fun b hb => ?_⟩
      have hmem : b.address ∈ m.buffers.map Buffer.address := by
        rw [← haddresses]
        exact List.mem_map_of_mem hb
      obtain ⟨b', hb', haddress⟩ := List.mem_map.mp hmem
      rw [← haddress, hcursor]
      exact wf.buffers b' hb'

theorem Step.later {m n : Scratch} (wf : m.WellFormed) (h : m.Step n) : m.Later n := by
  intro address bytes hread
  cases h with
  | alloc size =>
      refine ⟨bytes, ?_, rfl⟩
      unfold read? at hread ⊢
      cases hb : m.buffers.find? (·.address == address) with
      | none => simp [hb] at hread
      | some b =>
          have hlt := (wf.buffers b (List.mem_of_find?_eq_some hb)).2
          have hat : b.address = address := by simpa using List.find?_some hb
          have hne : ¬m.cursor = address := by omega
          simpa [Scratch.alloc, hne, hb] using hread
  | @write at_ data n done =>
      obtain ⟨old, hold, hle, hnew, hother, -, -⟩ := read?_of_write done
      by_cases hat : address = at_.address
      · subst hat
        rw [hold] at hread
        cases hread
        exact ⟨_, hnew, length_overwrite hle⟩
      · exact ⟨bytes, (hother address hat).trans hread, rfl⟩

end Scratch

namespace Vm

structure WellFormed (vm : Vm) : Prop where
  arena : vm.arena.WellFormed
  domain : vm.arena.get? vm.domain = some .domain
  assemblies : ∀ h ∈ vm.assemblies, ∃ i, vm.arena.assembly h = .ok i
  corlib : vm.arena.HasImage vm.corlib
  globalClasses : ∀ h ∈ vm.globalClasses, vm.arena.HasClass h
  wellKnown : vm.wellKnown.Valid vm.arena
  /-- A class on record is a closed copy of its definition. -/
  classInstances : ∀ i ∈ vm.classInstances,
    ∃ d c, vm.arena.ClosedOver i.definition i.arguments d i.result c
  /-- A method on record is a compiled instantiation. -/
  methodInstances : ∀ i ∈ vm.methodInstances,
    ∃ m, vm.arena.Compiled i.definition i.arguments m i.result
  scratch : vm.scratch.WellFormed

/-- The one machine has become the other by answering calls. -/
structure Later (v w : Vm) : Prop where
  catalog : w.toCatalog = v.toCatalog
  arena : v.arena.Later w.arena
  classInstances : v.classInstances <:+ w.classInstances
  methodInstances : v.methodInstances <:+ w.methodInstances
  scratch : v.scratch.Later w.scratch

theorem Later.refl (v : Vm) : v.Later v :=
  ⟨rfl, .refl _, List.suffix_refl _, List.suffix_refl _, .refl _⟩

theorem Later.trans {v w x : Vm} (hvw : v.Later w) (hwx : w.Later x) : v.Later x where
  catalog := hwx.catalog.trans hvw.catalog
  arena := hvw.arena.trans hwx.arena
  classInstances := hvw.classInstances.trans hwx.classInstances
  methodInstances := hvw.methodInstances.trans hwx.methodInstances
  scratch := hvw.scratch.trans hwx.scratch

/-- Growth of the arena alone. -/
theorem Later.of_arena {v : Vm} {a : Arena} (h : v.arena.Later a) : v.Later { v with arena := a } :=
  ⟨rfl, h, List.suffix_refl _, List.suffix_refl _, .refl _⟩

/-- A machine whose arena has grown is well-formed if the arena is. -/
theorem WellFormed.of_arena {v : Vm} {a : Arena} (wf : v.WellFormed) (h : v.arena.Later a)
    (ha : a.WellFormed) : ({ v with arena := a } : Vm).WellFormed where
  arena := ha
  domain := h.domain wf.domain
  assemblies := fun k hk => by
    obtain ⟨i, hi⟩ := wf.assemblies k hk
    exact ⟨i, h.assembly hi⟩
  corlib := h.keeps.hasImage wf.corlib
  globalClasses := fun k hk => h.keeps.hasClass (wf.globalClasses k hk)
  wellKnown := wf.wellKnown.mono h.keeps
  classInstances := fun i hi => by
    obtain ⟨d, c, hclosed⟩ := wf.classInstances i hi
    exact ⟨d, c, hclosed.later h wf.arena⟩
  methodInstances := fun i hi => by
    obtain ⟨m, hcompiled⟩ := wf.methodInstances i hi
    exact ⟨m, hcompiled.later h wf.arena⟩
  scratch := wf.scratch

end Vm

theorem Snapshot.LaidOut.wellFormed {s : Snapshot} {known : WellKnown} {l : Loader}
    (h : s.LaidOut known l) : (Vm.fresh (s.catalog known) l.arena).WellFormed where
  arena := h.sound.arena
  domain := h.domain
  assemblies := fun k hk => by
    obtain ⟨p, hp, rfl⟩ := List.mem_map.mp hk
    exact ⟨p.image, Arena.assembly_eq_ok.mpr (h.assemblies p hp)⟩
  corlib := ⟨_, h.images _ s.corlibSite_mem⟩
  globalClasses := fun k hk => by
    obtain ⟨p, hp, hk⟩ := List.mem_flatMap.mp (List.mem_toArray.mp hk)
    obtain ⟨_, _, _, _, _, hc, _⟩ :=
      Load.mem_of_forall₂ (h.classes p (Snapshot.mem_images.mpr (Or.inl hp))) hk
    exact ⟨_, hc⟩
  wellKnown := h.wellKnown
  classInstances := fun i hi => by simp [Vm.fresh] at hi
  methodInstances := fun i hi => by simp [Vm.fresh] at hi
  scratch := Scratch.wellFormed_empty

/-- A machine is well-formed when it is made. -/
theorem Vm.wellFormed_ofSnapshot {s : Snapshot} {vm : Vm} (h : Vm.ofSnapshot s = .ok vm) :
    vm.WellFormed := by
  obtain ⟨_, known, l, rfl, hlaid⟩ := Vm.ofSnapshot_eq_ok h
  exact hlaid.wellFormed

end VmMetadata
