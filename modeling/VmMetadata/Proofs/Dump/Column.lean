import VmMetadata.Inspect.Member
import VmMetadata.Proofs.Load.Machine
import VmMetadata.Proofs.Session.Probed
import VmMetadata.Proofs.Text.Hex

/-!
The address column. An entry tells on which side of the module base the body lies, and its digits
give the address back, so that two methods of a machine have the same entry just if their bodies
begin at the same address. Main statement: `Method.addressToken_reads_back`.
-/

namespace VmMetadata

open Text (Hex.Writes Hex.value? Hex.digits Hex.padded)

/-! ## The text of an entry -/

/-- The address that an entry of the column stands for. -/
def addressOfToken? (base : Nat) (token : String) : Option Nat :=
  match token.toList with
  | '0' :: 'x' :: ds => (Hex.value? ds).map (base + ·)
  | 'a' :: 'b' :: 's' :: ':' :: '0' :: 'x' :: ds => Hex.value? ds
  | _ => none

/-- How the column shows an address: by its distance from the base if it does not lie below it, and
in full otherwise. -/
structure ShowsAddress (base pointerSize address : Nat) (token : String) : Prop where
  relative_iff : (∃ ds, token = "0x" ++ String.ofList ds) ↔ base ≤ address
  absolute_iff : (∃ ds, token = "abs:0x" ++ String.ofList ds) ↔ address < base
  relative : ∀ ds, token = "0x" ++ String.ofList ds → Hex.Writes 8 ds (address - base)
  absolute : ∀ ds, token = "abs:0x" ++ String.ofList ds → Hex.Writes (2 * pointerSize) ds address
  read : addressOfToken? base token = some address

theorem relativeToken_eq (offset : Nat) :
    relativeToken offset = "0x" ++ String.ofList (Hex.padded 8 (Hex.digits offset)) := by
  apply String.toList_inj.mp
  simp [relativeToken, Text.Hex.prefixedWide]

theorem absoluteToken_eq (pointerSize address : Nat) : absoluteToken pointerSize address =
    "abs:0x" ++ String.ofList (Hex.padded (2 * pointerSize) (Hex.digits address)) := by
  apply String.toList_inj.mp
  simp [absoluteToken, Text.Hex.prefixedWide]

theorem append_ofList_inj {front : String} {ds es : List Char}
    (h : front ++ String.ofList ds = front ++ String.ofList es) : ds = es := by
  simpa using congrArg String.toList h

theorem relative_ne_absolute (ds es : List Char) :
    "0x" ++ String.ofList ds ≠ "abs:0x" ++ String.ofList es := by
  intro h
  simpa using congrArg String.toList h

theorem addressOfToken?_relative (base : Nat) (ds : List Char) :
    addressOfToken? base ("0x" ++ String.ofList ds) = (Hex.value? ds).map (base + ·) := by
  simp [addressOfToken?]

theorem addressOfToken?_absolute (base : Nat) (ds : List Char) :
    addressOfToken? base ("abs:0x" ++ String.ofList ds) = Hex.value? ds := by
  simp [addressOfToken?]

theorem showsAddress_addressToken (base pointerSize : Nat) {address : Nat} (h : address ≠ 0) :
    ShowsAddress base pointerSize address (addressToken base pointerSize address) := by
  unfold addressToken relativeTo?
  by_cases hle : base ≤ address
  · have hwrites : Hex.Writes 8 (Hex.padded 8 (Hex.digits (address - base))) (address - base) :=
      .padded (Or.inl (by decide))
    simp only [if_pos hle, relativeToken_eq]
    exact {
      relative_iff := ⟨fun _ => hle, fun _ => ⟨_, rfl⟩⟩
      absolute_iff := ⟨fun ⟨_, hds⟩ => absurd hds (relative_ne_absolute _ _), fun _ => by omega⟩
      relative := fun ds hds => append_ofList_inj hds ▸ hwrites
      absolute := fun ds hds => absurd hds (relative_ne_absolute _ _)
      read := by
        rw [addressOfToken?_relative, hwrites.value]
        exact congrArg some (Nat.add_sub_cancel' hle) }
  · have hwrites : Hex.Writes (2 * pointerSize)
        (Hex.padded (2 * pointerSize) (Hex.digits address)) address := .padded (Or.inr h)
    simp only [if_neg hle, absoluteToken_eq]
    exact {
      relative_iff :=
        ⟨fun ⟨_, hds⟩ => absurd hds.symm (relative_ne_absolute _ _), fun hge => absurd hge hle⟩
      absolute_iff := ⟨fun _ => by omega, fun _ => ⟨_, rfl⟩⟩
      relative := fun ds hds => absurd hds.symm (relative_ne_absolute _ _)
      absolute := fun ds hds => append_ofList_inj hds ▸ hwrites
      read := by rw [addressOfToken?_absolute, hwrites.value] }

/-- No two addresses have the same entry. -/
theorem addressToken_inj (base pointerSize : Nat) {a b : Nat} (ha : a ≠ 0) (hb : b ≠ 0) :
    addressToken base pointerSize a = addressToken base pointerSize b ↔ a = b := by
  constructor
  · intro hsame
    have hread := (showsAddress_addressToken base pointerSize ha).read
    rw [hsame, (showsAddress_addressToken base pointerSize hb).read] at hread
    exact (Option.some.inj hread).symm
  · rintro rfl
    rfl

/-! ## What is asked for an entry -/

namespace Probe

/-- Whether a call is spoiled does not hang on the calls that were written down. -/
theorem intercept_fst_of_faults {p q : Probe} (h : q.faults = p.faults) (c : Call r) :
    (q.intercept c).1 = (p.intercept c).1 := by
  unfold intercept
  rw [h]
  split
  · rfl
  · split <;> rfl

end Probe

namespace Query

/-- Where the machine and the faults are the same, a call has the same outcome. -/
theorem ask_ok_of_same {s t u : Session} (hvm : t.vm = s.vm)
    (hfaults : t.probe.faults = s.probe.faults) {c : Call r} {a : r.Value}
    (h : ask c s = .ok a u) : ∃ u', ask c t = .ok a u' := by
  have hspoiled : ((t.probe.record c).intercept c).1 = ((s.probe.record c).intercept c).1 :=
    Probe.intercept_fst_of_faults
      (show (t.probe.record c).faults = (s.probe.record c).faults from hfaults) c
  unfold ask at h ⊢
  simp only [hspoiled] at h ⊢
  cases hresult : ((s.probe.record c).intercept c).1 with
  | some result =>
      rw [hresult] at h
      cases result with
      | ok b =>
          cases h
          exact ⟨_, rfl⟩
      | error e => cases h
  | none =>
      rw [hresult] at h
      simp only [access_apply, hvm] at h ⊢
      cases hanswer : Vm.answer c s.vm with
      | ok b w =>
          rw [hanswer] at h
          cases h
          exact ⟨_, rfl⟩
      | error e w =>
          rw [hanswer] at h
          cases h

/-- A call that only reads leaves the machine as it is. -/
theorem vm_ask_of_reading {s u : Session} {c : Call r} (hc : c.isReading = true) {a : r.Value}
    (h : ask c s = .ok a u) : u.vm = s.vm := by
  obtain ⟨p, _, ⟨result, _, hask, _⟩ | hask⟩ := ask_cases c s
  · rw [hask] at h
    cases result with
    | ok b =>
        cases h
        rfl
    | error e => cases h
  · rw [hask, access_apply] at h
    cases hanswer : Vm.answer c s.vm with
    | ok b w =>
        simp only [hanswer] at h
        cases h
        exact (Vm.answer_reads hc).eq_of_ok hanswer
    | error e w =>
        simp only [hanswer] at h
        cases h

end Query

namespace Method

variable {s u : Session} {m : Method} {address : Option Nat}

theorem virtualAddress_eq_ok : m.virtualAddress s = .ok address u ↔
    ∃ p, Query.remember m.page .methodPointer (Query.ask (.methodPointer m.handle)) s = .ok p u ∧
      address = if p = 0 then none else some p := by
  unfold virtualAddress
  rw [Query.bind_apply]
  cases Query.remember m.page .methodPointer (Query.ask (.methodPointer m.handle)) s with
  | ok p t =>
      constructor
      · intro h
        cases h
        exact ⟨p, rfl, rfl⟩
      · rintro ⟨q, hq, rfl⟩
        cases hq
        rfl
  | error e t =>
      constructor
      · intro h
        cases h
      · rintro ⟨q, hq, _⟩
        cases hq

theorem ne_zero_of_virtualAddress {a : Nat} (h : m.virtualAddress s = .ok (some a) u) : a ≠ 0 := by
  obtain ⟨p, _, hp⟩ := virtualAddress_eq_ok.mp h
  split at hp
  · cases hp
  · cases hp
    assumption

theorem vm_of_virtualAddress (h : m.virtualAddress s = .ok address u) : u.vm = s.vm := by
  obtain ⟨p, hp, _⟩ := virtualAddress_eq_ok.mp h
  rcases Query.remember_eq_ok hp with ⟨-, rfl⟩ | ⟨-, t, hask, rfl⟩
  · rfl
  · exact Query.vm_ask_of_reading (u := t) rfl hask

/-- That the module base was asked for makes no difference to the address. -/
theorem virtualAddress_called (h : m.virtualAddress s = .ok address u) :
    ∃ t, m.virtualAddress (s.called .moduleBase s.vm) = .ok address t := by
  obtain ⟨p, hp, haddress⟩ := virtualAddress_eq_ok.mp h
  -- this session differs from the other in the record of its calls only
  let s' := s.called .moduleBase s.vm
  rcases Query.remember_eq_ok hp with ⟨hnote, -⟩ | ⟨hnote, t, hask, -⟩
  · have hnote' : s'.notebook.find? m.page .methodPointer = some p := hnote
    exact ⟨s', virtualAddress_eq_ok.mpr ⟨p, Query.remember_hit hnote' _, haddress⟩⟩
  · have hnote' : s'.notebook.find? m.page .methodPointer = none := hnote
    obtain ⟨t', ht'⟩ := Query.ask_ok_of_same (s := s) (t := s') rfl rfl hask
    exact ⟨_, virtualAddress_eq_ok.mpr ⟨p, Query.remember_of_ok hnote' ht', haddress⟩⟩

theorem relativeVirtualAddress_of_virtualAddress (h : m.virtualAddress s = .ok address u) :
    ∃ t, m.relativeVirtualAddress s = .ok (address.bind (relativeTo? s.vm.moduleBase)) t := by
  obtain ⟨t, ht⟩ := virtualAddress_called h
  refine ⟨t, ?_⟩
  unfold relativeVirtualAddress
  have hbase : Query.ask .moduleBase s = .ok s.vm.moduleBase (s.called .moduleBase s.vm) := rfl
  rw [Query.bind_ok hbase, Query.bind_ok ht]
  rfl

theorem addressToken_of_virtualAddress (h : m.virtualAddress s = .ok address u) :
    ∃ t, m.addressToken? s =
      .ok (address.map (addressToken s.vm.moduleBase s.vm.pointerSize)) t := by
  have hvm := vm_of_virtualAddress h
  unfold addressToken?
  rw [Query.bind_ok h]
  cases address with
  | none => exact ⟨u, rfl⟩
  | some a =>
      have hbase : Query.ask .moduleBase u = .ok u.vm.moduleBase (u.called .moduleBase u.vm) := rfl
      simp only [Query.bind_ok hbase, hvm, Option.map_some, addressToken]
      cases relativeTo? s.vm.moduleBase a with
      | some offset => exact ⟨_, rfl⟩
      | none => exact ⟨_, by rw [← hvm]; rfl⟩

/-- Of a method with a body the column shows where the body begins, the place in the module is known
just if the body does not lie below it, and no method of the machine has the same entry unless its
body begins at the same address. -/
theorem addressToken_reads_back {a : Nat} (h : m.virtualAddress s = .ok (some a) u) :
    ∃ token, (∃ t, m.addressToken? s = .ok (some token) t) ∧
      ShowsAddress s.vm.moduleBase s.vm.pointerSize a token ∧
      (∃ t, m.relativeVirtualAddress s =
        .ok (if s.vm.moduleBase ≤ a then some (a - s.vm.moduleBase) else none) t) ∧
      ∀ (m' : Method) (s' u' : Session) (a' : Nat), s'.vm.toCatalog = s.vm.toCatalog →
        m'.virtualAddress s' = .ok (some a') u' →
        ((∃ t, m'.addressToken? s' = .ok (some token) t) ↔ a' = a) := by
  have hne := ne_zero_of_virtualAddress h
  refine ⟨addressToken s.vm.moduleBase s.vm.pointerSize a, addressToken_of_virtualAddress h,
    showsAddress_addressToken _ _ hne, relativeVirtualAddress_of_virtualAddress h, ?_⟩
  intro m' s' u' a' hcatalog h'
  -- the base and the size of a pointer are in the catalog, so both columns are written alike
  obtain ⟨t, ht⟩ := addressToken_of_virtualAddress h'
  rw [hcatalog, Option.map_some] at ht
  rw [← addressToken_inj s.vm.moduleBase s.vm.pointerSize (ne_zero_of_virtualAddress h') hne]
  constructor
  · rintro ⟨t', ht'⟩
    rw [ht] at ht'
    injection ht' with hsame
    exact Option.some.inj hsame
  · intro hsame
    exact ⟨t, hsame ▸ ht⟩

end Method

/-- A class with a method in the module and one below it. -/
def Snapshot.straddling : Snapshot :=
  { Snapshot.small with
    assemblies :=
      { image := "Game.dll"
        classes := [
          { name := "Pool"
            methods := [
              { name := "Get", address := some 0x1040 },
              { name := "Drop", address := some 0x500 }] }] } :: Snapshot.small.assemblies.drop 1 }

theorem Method.addressToken_reads_back_straddling :
    let s := Session.new Snapshot.straddling.machine ⟨2020, 3, 1, some "f1"⟩ .current
    let inside : Method := ⟨Arena.handleAt 12, 1⟩
    let below : Method := ⟨Arena.handleAt 13, 2⟩
    (∃ u, inside.virtualAddress s = .ok (some 0x1040) u) ∧
      (∃ u, below.virtualAddress s = .ok (some 0x500) u) ∧
      ∃ token, (∃ t, below.addressToken? s = .ok (some token) t) ∧
        ShowsAddress 0x1000 8 0x500 token ∧
        (∃ t, below.relativeVirtualAddress s = .ok none t) ∧
        ¬∃ t, inside.addressToken? s = .ok (some token) t := by
  intro s inside below
  have found (m : Method) (a : Nat) (h : (match m.virtualAddress s with
      | .ok address _ => address
      | .error _ _ => none) = some a) : ∃ u, m.virtualAddress s = .ok (some a) u := by
    cases hrun : m.virtualAddress s with
    | ok address u =>
        rw [hrun] at h
        exact ⟨u, h ▸ rfl⟩
    | error e u =>
        rw [hrun] at h
        cases h
  obtain ⟨u, hinside⟩ := found inside 0x1040 (by decide +kernel)
  obtain ⟨u', hbelow⟩ := found below 0x500 (by decide +kernel)
  have hbase : s.vm.moduleBase = 0x1000 := by decide +kernel
  have hsize : s.vm.pointerSize = 8 := by decide +kernel
  obtain ⟨token, hshown, hcolumn, hrelative, hunique⟩ := addressToken_reads_back hbelow
  rw [hbase, hsize] at hcolumn
  rw [hbase, if_neg (by decide)] at hrelative
  refine ⟨⟨u, hinside⟩, ⟨u', hbelow⟩, token, hshown, hcolumn, hrelative, ?_⟩
  rw [hunique inside s u 0x1040 rfl hinside]
  decide

end VmMetadata
