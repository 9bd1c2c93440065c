import VmMetadata.Proofs.Machine.Run
import VmMetadata.Proofs.Machine.Blind

/-!
Scratch memory as its client sees it. A client keeps a ledger: the pieces that were handed out to
it, and flat memory with all that it has written. Main statement: in every run the machine agrees
with the ledger. The pieces are apart from each other and from the arena, a write goes to the
beginning of one of them and nowhere else, and what is read is what was written last, or zero.
-/

namespace VmMetadata

namespace Scratch

/-- A piece of scratch memory that was handed out. -/
structure Piece where
  start : Nat
  size : Nat
  deriving DecidableEq, Repr

/-- The address lies in the piece. -/
def Piece.Covers (p : Piece) (address : Nat) : Prop :=
  p.start ≤ address ∧ address < p.start + p.size

/-- Bytes laid over flat memory from an address on. -/
def laid (memory : Nat → UInt8) (start : Nat) (bytes : List UInt8) (address : Nat) : UInt8 :=
  if start ≤ address then (bytes[address - start]?).getD (memory address) else memory address

/-- What flat memory holds in the place of a piece. -/
def Piece.contents (p : Piece) (memory : Nat → UInt8) : List UInt8 :=
  (List.range p.size).map fun i => memory (p.start + i)

/-- What a client keeps of its calls: the pieces, newest first, and flat memory. -/
structure Ledger where
  pieces : List Piece
  memory : Nat → UInt8

namespace Ledger

def blank : Ledger := ⟨[], fun _ => 0⟩

/-- What a client notes when a call is answered. -/
def noted (l : Ledger) : (c : Call r) → r.Value → Ledger
  | .alloc size, handle => { l with pieces := ⟨handle.address, size⟩ :: l.pieces }
  | .writeBytes at_ bytes, _ => { l with memory := laid l.memory at_.address bytes }
  | _, _ => l

/-- The ledger after a call; of a call that fails nothing is noted. -/
def afterCall (l : Ledger) (vm : Vm) (c : AnyCall) : Ledger :=
  match Vm.answer c.2 vm with
  | .ok a _ => l.noted c.2 a
  | .error _ _ => l

/-- The ledger after several calls, of which the first one is made to the machine as it is. -/
def after (l : Ledger) (vm : Vm) : List AnyCall → Ledger
  | [] => l
  | c :: calls => (l.afterCall vm c).after (vm.afterCall c) calls

/-- Scratch memory is as the ledger says. The pieces follow each other with room between them, and
nothing was written where no piece is yet. -/
structure Tells (l : Ledger) (m : Scratch) : Prop where
  cursor : base ≤ m.cursor ∧ alignment ∣ m.cursor
  placed : ∀ p ∈ l.pieces, base ≤ p.start ∧ alignment ∣ p.start ∧
    p.start + reserved p.size ≤ m.cursor
  ordered : l.pieces.Pairwise fun p q => q.start + reserved q.size ≤ p.start
  buffers : m.buffers = l.pieces.map fun p => ⟨p.start, p.contents l.memory⟩
  untouched : ∀ address, m.cursor ≤ address → l.memory address = 0

end Ledger

/-! ## Sizes and contents -/

theorem size_le_reserved (size : Nat) : size ≤ reserved size := by
  unfold reserved alignment
  omega

theorem alignment_dvd_reserved (size : Nat) : alignment ∣ reserved size :=
  Nat.dvd_mul_left _ _

theorem Piece.length_contents (p : Piece) (memory : Nat → UInt8) :
    (p.contents memory).length = p.size := by
  simp [contents]

theorem Piece.contents_congr {p : Piece} {memory memory' : Nat → UInt8}
    (h : ∀ address, p.Covers address → memory' address = memory address) :
    p.contents memory' = p.contents memory := by
  unfold contents
  apply List.map_congr_left
  intro i hi
  exact h _ ⟨by omega, by have := List.mem_range.mp hi; omega⟩

theorem Piece.contents_zero {p : Piece} {memory : Nat → UInt8}
    (h : ∀ address, p.start ≤ address → memory address = 0) :
    p.contents memory = List.replicate p.size 0 := by
  apply List.ext_getElem
  · simp [contents]
  · intro i _ _
    simp [contents, h (p.start + i) (by omega)]

theorem laid_outside {memory : Nat → UInt8} {start : Nat} {bytes : List UInt8} {address : Nat}
    (h : address < start ∨ start + bytes.length ≤ address) :
    laid memory start bytes address = memory address := by
  unfold laid
  split
  · rw [List.getElem?_eq_none (by omega), Option.getD_none]
  · rfl

/-- Bytes laid over the beginning of a piece. -/
theorem Piece.contents_laid {p : Piece} {memory : Nat → UInt8} {bytes : List UInt8}
    (h : bytes.length ≤ p.size) :
    p.contents (laid memory p.start bytes) = overwrite bytes (p.contents memory) := by
  apply List.ext_getElem
  · rw [length_overwrite (by rw [length_contents]; exact h), length_contents, length_contents]
  · intro i hi _
    rw [length_contents] at hi
    have hinside : p.start ≤ p.start + i := Nat.le_add_right _ _
    simp only [contents, overwrite, laid, List.getElem_map, List.getElem_range, if_pos hinside,
      Nat.add_sub_cancel_left]
    rcases Nat.lt_or_ge i bytes.length with hlt | hge
    · rw [List.getElem_append_left hlt, List.getElem?_eq_getElem hlt, Option.getD_some]
    · rw [List.getElem_append_right hge, List.getElem?_eq_none hge, Option.getD_none]
      simp only [List.getElem_drop, List.getElem_map, List.getElem_range]
      rw [Nat.add_sub_cancel' hge]

namespace Ledger

variable {l : Ledger} {m : Scratch}

/-! ## What the ledger tells -/

namespace Tells

theorem blank : Ledger.blank.Tells empty where
  cursor := by decide
  placed := by simp [Ledger.blank]
  ordered := .nil
  buffers := rfl
  untouched := fun _ _ => rfl

variable (h : l.Tells m)
include h

/-- The pieces begin at different addresses, and no two of them cover one address. -/
theorem apart : l.pieces.Pairwise fun p q =>
    p.start ≠ q.start ∧ ∀ address, ¬(p.Covers address ∧ q.Covers address) := by
  refine h.ordered.imp fun {p q} hle => ?_
  have hpos := le_reserved q.size
  have hsize := size_le_reserved q.size
  refine ⟨by omega, ?_⟩
  rintro address ⟨⟨hp, _⟩, ⟨_, hq⟩⟩
  omega

theorem ordered_or : ∀ p ∈ l.pieces, ∀ q ∈ l.pieces, p = q ∨
    q.start + reserved q.size ≤ p.start ∨ p.start + reserved p.size ≤ q.start := by
  have : Std.Symm fun p q : Piece => p = q ∨
      q.start + reserved q.size ≤ p.start ∨ p.start + reserved p.size ≤ q.start :=
    ⟨fun _ _ hpq => hpq.imp Eq.symm Or.symm⟩
  exact List.Pairwise.forall_of_forall (fun _ _ => Or.inl rfl)
    (h.ordered.imp fun hle => Or.inr (Or.inl hle))

theorem eq_of_start {p q : Piece} (hp : p ∈ l.pieces) (hq : q ∈ l.pieces)
    (hstart : p.start = q.start) : p = q := by
  have := le_reserved p.size
  have := le_reserved q.size
  rcases h.ordered_or p hp q hq with heq | hle | hle
  · exact heq
  · omega
  · omega

/-- What is read at an address is what flat memory holds in the piece that begins there. -/
theorem read?_eq_some {address : Nat} {bytes : List UInt8} : m.read? address = some bytes ↔
    ∃ p ∈ l.pieces, p.start = address ∧ bytes = p.contents l.memory := by
  unfold read?
  rw [h.buffers, List.find?_map, Option.map_map, Option.map_eq_some_iff]
  constructor
  · rintro ⟨p, hfind, rfl⟩
    have hstart : p.start = address := by simpa using List.find?_some hfind
    exact ⟨p, List.mem_of_find?_eq_some hfind, hstart, rfl⟩
  · rintro ⟨p, hp, rfl, rfl⟩
    refine ⟨p, ?_, rfl⟩
    -- the search finds some piece that begins there, and there is only this one
    cases hfind : l.pieces.find? ((·.address == p.start) ∘
        fun p => (⟨p.start, p.contents l.memory⟩ : Buffer)) with
    | none => exact absurd (List.find?_eq_none.mp hfind p hp) (by simp)
    | some q =>
        have hstart : q.start = p.start := by simpa using List.find?_some hfind
        rw [h.eq_of_start (List.mem_of_find?_eq_some hfind) hp hstart]

theorem read? {p : Piece} (hp : p ∈ l.pieces) : m.read? p.start = some (p.contents l.memory) :=
  h.read?_eq_some.mpr ⟨p, hp, rfl, rfl⟩

/-- A write succeeds just if it goes to the beginning of a piece and fits in there. -/
theorem write_iff (at_ : Handle) (bytes : List UInt8) : (∃ n, m.write at_ bytes = .ok n) ↔
    ∃ p ∈ l.pieces, p.start = at_.address ∧ bytes.length ≤ p.size := by
  constructor
  · rintro ⟨n, hn⟩
    obtain ⟨old, hold, hle, _⟩ := read?_of_write hn
    obtain ⟨p, hp, hstart, rfl⟩ := h.read?_eq_some.mp hold
    exact ⟨p, hp, hstart, by rwa [p.length_contents] at hle⟩
  · rintro ⟨p, hp, hstart, hle⟩
    unfold write
    rw [← hstart, h.read? hp]
    exact ⟨_, if_pos (by rwa [p.length_contents])⟩

/-! ## What a call does to it -/

theorem alloc (size : Nat) :
    Tells { l with pieces := ⟨m.cursor, size⟩ :: l.pieces } (m.alloc size).2 where
  cursor := ⟨Nat.le_trans h.cursor.1 (Nat.le_add_right _ _),
    Nat.dvd_add h.cursor.2 (alignment_dvd_reserved size)⟩
  placed := by
    intro p hp
    rcases List.mem_cons.mp hp with rfl | hp
    · exact ⟨h.cursor.1, h.cursor.2, Nat.le_refl _⟩
    · obtain ⟨hbase, haligned, hle⟩ := h.placed p hp
      exact ⟨hbase, haligned, Nat.le_trans hle (Nat.le_add_right _ _)⟩
  ordered := .cons (fun q hq => (h.placed q hq).2.2) h.ordered
  buffers := by
    have hzero := Piece.contents_zero (p := ⟨m.cursor, size⟩) h.untouched
    simp only [Scratch.alloc, List.map_cons, hzero, h.buffers]
  untouched := fun address hle => h.untouched address (Nat.le_trans (Nat.le_add_right _ _) hle)

/-- What lies in another piece is not written to. -/
theorem contents_laid_of_ne {p q : Piece} (hp : p ∈ l.pieces) (hq : q ∈ l.pieces) (hne : q ≠ p)
    {bytes : List UInt8} (hle : bytes.length ≤ p.size) :
    q.contents (laid l.memory p.start bytes) = q.contents l.memory := by
  apply Piece.contents_congr
  rintro address ⟨hstart, hend⟩
  have hpsize := size_le_reserved p.size
  have hqsize := size_le_reserved q.size
  apply laid_outside
  -- one of the pieces ends, with all that was reserved for it, before the other begins
  rcases h.ordered_or q hq p hp with heq | hafter | hbefore
  · exact absurd heq hne
  · exact Or.inr (by omega)
  · exact Or.inl (by omega)

theorem write {at_ : Handle} {bytes : List UInt8} {n : Scratch} (hn : m.write at_ bytes = .ok n) :
    Tells { l with memory := laid l.memory at_.address bytes } n := by
  obtain ⟨p, hp, hstart, hle⟩ := (h.write_iff at_ bytes).mp ⟨n, hn⟩
  obtain ⟨_, _, _, _, _, hcursor, _⟩ := read?_of_write hn
  exact {
    cursor := hcursor ▸ h.cursor
    placed := hcursor ▸ h.placed
    ordered := h.ordered
    buffers := by
      unfold Scratch.write at hn
      rw [← hstart, h.read? hp] at hn
      obtain rfl := Except.ok.inj ((if_pos (by rwa [p.length_contents])).symm.trans hn)
      simp only [h.buffers, List.map_map]
      apply List.map_congr_left
      intro q hq
      by_cases heq : q = p
      · subst heq
        simp [← hstart, Piece.contents_laid hle]
      · have hne : q.start ≠ p.start := fun hsame => heq (h.eq_of_start hq hp hsame)
        simp [← hstart, hne, h.contents_laid_of_ne hp hq heq hle]
    untouched := by
      intro address haddress
      rw [hcursor] at haddress
      -- the bytes end in the piece, and the piece ends before the cursor
      have hsize := size_le_reserved p.size
      have hend := (h.placed p hp).2.2
      exact (laid_outside (Or.inr (by omega))).trans (h.untouched address haddress) }

end Tells

end Ledger

end Scratch

/-! ## Runs -/

open Scratch (Piece Ledger)

/-- The call hands out or fills scratch memory. -/
def Call.usesScratch : Call r → Bool
  | .alloc _ | .writeBytes _ _ => true
  | _ => false

namespace Vm

theorem scratch_afterCall {c : Call r} (hc : c.usesScratch = false) (vm : Vm) :
    (vm.afterCall ⟨r, c⟩).scratch = vm.scratch := by
  by_cases hread : c.isReading = true
  · obtain ⟨result, hrun⟩ := answer_reads hread vm
    unfold afterCall
    rw [hrun]
    cases result <;> rfl
  · -- such a call is blind, and so it does the same when its scratch memory is put in its place
    have hblind : c.isBlind = true := by
      cases c <;> first | rfl | exact absurd rfl hread | cases hc
    have hsame := answer_blind hblind vm vm.vmVersion vm.isLegacy vm.scratch
    rw [show vm.disguised vm.vmVersion vm.isLegacy vm.scratch = vm from rfl] at hsame
    unfold afterCall
    cases hrun : answer c vm with
    | ok a w =>
        rw [hrun] at hsame
        injection hsame with _ hw
        have hscratch := congrArg Vm.scratch hw
        exact hscratch
    | error e w =>
        rw [hrun] at hsame
        injection hsame with _ hw
        have hscratch := congrArg Vm.scratch hw
        exact hscratch

theorem answer_writeBytes (vm : Vm) (at_ : Handle) (bytes : List UInt8) :
    answer (.writeBytes at_ bytes) vm = match vm.scratch.write at_ bytes with
      | .ok scratch => .ok () { vm with scratch }
      | .error e => .error e vm := by
  change Access.writeBytes at_ bytes vm = _
  unfold Access.writeBytes
  change (Access.lift (vm.scratch.write at_ bytes) >>= fun scratch =>
    modify fun vm => { vm with scratch }) vm = _
  cases hn : vm.scratch.write at_ bytes with
  | ok n => rfl
  | error e => rfl

end Vm

namespace Scratch.Ledger

variable {l : Ledger} {vm : Vm}

theorem afterCall_of_unused {c : Call r} (hc : c.usesScratch = false) (l : Ledger) (vm : Vm) :
    l.afterCall vm ⟨r, c⟩ = l := by
  unfold afterCall
  cases Vm.answer c vm with
  | ok a w => cases c <;> first | rfl | cases hc
  | error e w => rfl

/-- A call keeps the ledger and scratch memory together. -/
theorem Tells.afterCall (h : l.Tells vm.scratch) (c : AnyCall) :
    (l.afterCall vm c).Tells (vm.afterCall c).scratch := by
  obtain ⟨r, c⟩ := c
  by_cases hc : c.usesScratch = false
  · rw [afterCall_of_unused hc, Vm.scratch_afterCall hc]
    exact h
  cases c with
  | alloc size => exact h.alloc size
  | writeBytes at_ bytes =>
      have hrun := vm.answer_writeBytes at_ bytes
      unfold Ledger.afterCall Vm.afterCall
      cases hn : vm.scratch.write at_ bytes with
      | ok n =>
          rw [hn] at hrun
          simp only [hrun]
          exact h.write hn
      | error e =>
          rw [hn] at hrun
          simp only [hrun]
          exact h
  | _ => exact absurd rfl hc

/-- So does every run. -/
theorem Tells.after (h : l.Tells vm.scratch) (calls : List AnyCall) :
    (l.after vm calls).Tells (vm.after calls).scratch := by
  induction calls generalizing l vm with
  | nil => exact h
  | cons c calls ih => exact ih (h.afterCall c)

end Scratch.Ledger

namespace Vm

/-- Scratch memory serves the client that keeps the ledger, and nobody else. -/
structure Isolates (vm : Vm) (l : Ledger) : Prop where
  aligned : ∀ p ∈ l.pieces, Scratch.alignment ∣ p.start
  apart : l.pieces.Pairwise fun p q =>
    p.start ≠ q.start ∧ ∀ address, ¬(p.Covers address ∧ q.Covers address)
  /-- A new piece begins where none has begun before. -/
  fresh : ∀ size, ∃ h w, answer (.alloc size) vm = .ok h w ∧ Scratch.alignment ∣ h.address ∧
    ∀ p ∈ l.pieces, p.start ≠ h.address
  /-- An arena that ends below scratch memory ends before the first piece. -/
  arena : ∀ h node, vm.arena.get? h = some node → h.address < Scratch.base →
    ∀ p ∈ l.pieces, h.address < p.start
  words : vm.scratch.cursor < 0x1_0000_0000_0000_0000 →
    ∀ p ∈ l.pieces, p.start + p.size < 0x1_0000_0000_0000_0000
  writes : ∀ at_ bytes, (∃ w, answer (.writeBytes at_ bytes) vm = .ok () w) ↔
    ∃ p ∈ l.pieces, p.start = at_.address ∧ bytes.length ≤ p.size
  /-- A write changes the first bytes of one piece, and one that fails changes nothing. -/
  written : ∀ p ∈ l.pieces, ∀ bytes, bytes.length ≤ p.size → ∃ scratch,
    answer (.writeBytes ⟨p.start⟩ bytes) vm = .ok () { vm with scratch } ∧
      scratch.cursor = vm.scratch.cursor ∧
      scratch.read? p.start = some (bytes ++ (p.contents l.memory).drop bytes.length) ∧
      ∀ address, address ≠ p.start → scratch.read? address = vm.scratch.read? address
  refused : ∀ at_ bytes e w, answer (.writeBytes at_ bytes) vm = .error e w → w = vm
  /-- What is read is what flat memory holds. -/
  reads : ∀ address bytes, vm.scratch.read? address = some bytes ↔
    ∃ p ∈ l.pieces, p.start = address ∧ bytes = p.contents l.memory

theorem isolates_of_tells {vm : Vm} {l : Ledger} (h : l.Tells vm.scratch) : vm.Isolates l where
  aligned := fun p hp => (h.placed p hp).2.1
  apart := h.apart
  fresh := by
    intro size
    refine ⟨⟨vm.scratch.cursor⟩, _, rfl, h.cursor.2, fun p hp => ?_⟩
    have hend := (h.placed p hp).2.2
    have hpos := Scratch.le_reserved p.size
    exact Nat.ne_of_lt (show p.start < vm.scratch.cursor by omega)
  arena := fun k node _ hbelow p hp => Nat.lt_of_lt_of_le hbelow (h.placed p hp).1
  words := by
    intro hcursor p hp
    have hend := (h.placed p hp).2.2
    have hsize := Scratch.size_le_reserved p.size
    omega
  writes := by
    intro at_ bytes
    rw [← h.write_iff at_ bytes, answer_writeBytes]
    cases vm.scratch.write at_ bytes with
    | ok n => exact ⟨fun _ => ⟨n, rfl⟩, fun _ => ⟨_, rfl⟩⟩
    | error e =>
        constructor
        · rintro ⟨_, hw⟩
          cases hw
        · rintro ⟨_, hn⟩
          cases hn
  written := by
    intro p hp bytes hle
    obtain ⟨n, hn⟩ := (h.write_iff ⟨p.start⟩ bytes).mpr ⟨p, hp, rfl, hle⟩
    obtain ⟨old, hold, -, hnew, hother, hcursor, -⟩ := Scratch.read?_of_write hn
    obtain rfl := Option.some.inj (hold.symm.trans (h.read? hp))
    exact ⟨n, by rw [answer_writeBytes, hn], hcursor, hnew, hother⟩
  refused := by
    intro at_ bytes e w hrun
    rw [answer_writeBytes] at hrun
    cases hn : vm.scratch.write at_ bytes with
    | ok n =>
        rw [hn] at hrun
        cases hrun
    | error e' =>
        rw [hn] at hrun
        cases hrun
        rfl
  reads := fun _ _ => h.read?_eq_some

/-- Whatever is called, scratch memory is as its client's ledger says. This is said of pieces of all
sizes, also of those for which a host would have no memory. -/
theorem isolates_of_snapshot {s : Snapshot} {vm : Vm} (h : ofSnapshot s = .ok vm)
    (calls : List AnyCall) : (vm.after calls).Isolates (Ledger.blank.after vm calls) := by
  obtain ⟨_, known, loader, rfl, _⟩ := ofSnapshot_eq_ok h
  exact isolates_of_tells (Ledger.Tells.blank.after calls)

/-- Three pieces, the first of no bytes. A write between other calls reaches the second one, and one
that is too long for the third reaches none. -/
theorem isolates_of_snapshot_small :
    let calls : List AnyCall := [⟨_, .alloc 0⟩, ⟨_, .alloc 20⟩,
      ⟨_, .typeObject (Arena.handleAt 7)⟩, ⟨_, .writeBytes ⟨Scratch.base + 16⟩ [1, 2, 3]⟩,
      ⟨_, .alloc 1⟩, ⟨_, .writeBytes ⟨Scratch.base + 48⟩ [4, 5]⟩]
    let v := Snapshot.small.machine.after calls
    let l := Ledger.blank.after Snapshot.small.machine calls
    v.Isolates l ∧
      l.pieces = [⟨Scratch.base + 48, 1⟩, ⟨Scratch.base + 16, 20⟩, ⟨Scratch.base, 0⟩] ∧
      v.scratch.read? (Scratch.base + 16) = some ([1, 2, 3] ++ List.replicate 17 0) ∧
      v.scratch.read? (Scratch.base + 48) = some [0] := by
  intro calls v l
  exact ⟨isolates_of_snapshot (ofSnapshot_machine (s := Snapshot.small) (Or.inr rfl)) calls,
    by decide +kernel, by decide +kernel, by decide +kernel⟩

end Vm

end VmMetadata
