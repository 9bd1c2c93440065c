import Mathlib.Data.List.Forall2
import Mathlib.Data.List.Nodup
import VmMetadata.Record

/-!
What a reader of records gets to see of a document: of an object the value under each name, of an
array the values in their order. Main statement: the values that are written under the names of a
record are the values it is read from, whether the absent ones are left out or not.
-/

namespace VmMetadata.Record

open Document List

/-! ## Members by name -/

/-- The members that write the values under the names; a value that is absent is left out. -/
def written (names : List String) (values : List (Option Json)) : List (String × Json) :=
  (names.zip values).filterMap fun entry => entry.2.map (entry.1, ·)

theorem written_cons_some (name : String) (names : List String) (v : Json)
    (values : List (Option Json)) :
    written (name :: names) (some v :: values) = (name, v) :: written names values :=
  rfl

theorem written_cons_none (name : String) (names : List String) (values : List (Option Json)) :
    written (name :: names) (none :: values) = written names values :=
  rfl

theorem written_sublist (names : List String) (values : List (Option Json)) :
    (written names values).map Prod.fst <+ names := by
  induction names generalizing values with
  | nil => exact List.Sublist.slnil
  | cons name names ih =>
      rcases values with _ | ⟨_ | v, values⟩
      · exact List.nil_sublist _
      · rw [written_cons_none]
        exact (ih values).cons name
      · rw [written_cons_some, List.map_cons]
        exact (ih values).cons_cons name

theorem lookup_eq_none_of_not_mem {members : List (String × Json)} {name : String}
    (h : name ∉ members.map Prod.fst) : members.lookup name = none := by
  rw [List.lookup_eq_none_iff]
  intro m hm
  rw [bne_iff_ne]
  rintro rfl
  exact h (List.mem_map_of_mem hm)

/-- A name that does not stand before a member finds the member. -/
theorem lookup_middle {before after : List (String × Json)} {name : String} (v : Json)
    (h : name ∉ before.map Prod.fst) :
    (before ++ (name, v) :: after).lookup name = some v := by
  rw [List.lookup_append, lookup_eq_none_of_not_mem h, List.lookup_cons_self, Option.none_or]

theorem lookup_written {names : List String} {values : List (Option Json)} (hnodup : names.Nodup)
    (hlength : names.length = values.length) :
    names.map (fun name => (written names values).lookup name) = values := by
  induction names generalizing values with
  | nil => exact (List.eq_nil_of_length_eq_zero hlength.symm).symm
  | cons name names ih =>
      obtain ⟨hname, hnodup⟩ := List.nodup_cons.mp hnodup
      rcases values with _ | ⟨value, values⟩
      · cases hlength
      · have htail := ih hnodup (Nat.succ.inj hlength)
        have hfresh : (written names values).lookup name = none :=
          lookup_eq_none_of_not_mem fun h => hname ((written_sublist names values).mem h)
        cases value with
        | none => rw [written_cons_none, List.map_cons, hfresh, htail]
        | some v =>
            rw [written_cons_some, List.map_cons, List.lookup_cons_self]
            congr 1
            refine Eq.trans (List.map_congr_left fun other hother => ?_) htail
            have hne : other ≠ name := by
              rintro rfl
              exact hname hother
            rw [List.lookup_cons, beq_eq_false_iff_ne.mpr hne]

/-- The members of an object that is read as a closed record bear its names, each at most once,
and each name is given the value of its member. -/
theorem fields?_obj_eq_some_iff {names : List String} {members : List (String × Json)}
    {values : List (Option Json)} :
    fields? names (.obj members) = some values ↔ (∀ m ∈ members, m.1 ∈ names) ∧
      (members.map Prod.fst).Nodup ∧ values = names.map fun name => members.lookup name := by
  have hnames : fields? names (.obj members) = byName? false names members := rfl
  have hclosed : (members.filter fun m => names.contains m.1).length = members.length ↔
      ∀ m ∈ members, m.1 ∈ names := by
    rw [List.length_filter_eq_length_iff]
    simp
  have hknown : (∀ m ∈ members, m.1 ∈ names) →
      (members.filter fun m => names.contains m.1) = members := by
    intro hmem
    rw [List.filter_eq_self]
    exact fun m hm => List.contains_iff_mem.mpr (hmem m hm)
  rw [hnames]
  unfold byName?
  dsimp only
  constructor
  · intro h
    split at h
    · rename_i hgood
      simp only [Bool.false_or, Bool.and_eq_true, beq_iff_eq, decide_eq_true_eq, hclosed] at hgood
      obtain ⟨hmem, hnodup⟩ := hgood
      rw [hknown hmem] at hnodup h
      cases h
      exact ⟨hmem, hnodup, rfl⟩
    · cases h
  · rintro ⟨hmem, hnodup, rfl⟩
    rw [hknown hmem, if_pos]
    simp [hnodup]

/-- What is written is what is read. -/
theorem fields?_of_written {names : List String} {values : List (Option Json)} {d : Json}
    (hd : d = .obj (written names values)) (hnodup : names.Nodup)
    (hlength : names.length = values.length) : fields? names d = some values := by
  rw [hd, fields?_obj_eq_some_iff]
  refine ⟨fun m hm => ?_, ?_, (lookup_written hnodup hlength).symm⟩
  · exact (written_sublist names values).mem (List.mem_map_of_mem hm)
  · exact (written_sublist names values).nodup hnodup

/-! ## Values in order -/

theorem fields?_arr_eq_some {names : List String} {items : List Json}
    {values : List (Option Json)} (h : fields? names (.arr items) = some values) :
    ∃ absent, values = items.map some ++ absent := by
  have hinOrder : inOrder? names items = some values := h
  unfold inOrder? at hinOrder
  split at hinOrder
  · cases hinOrder
    exact ⟨_, rfl⟩
  · cases hinOrder

/-! ## Single fields -/

section Field

variable {α : Type}

@[simp] theorem text?_str (s : String) : text? (Json.str s) = some s :=
  rfl

@[simp] theorem bool?_bool (b : Bool) : bool? (Json.bool b) = some b :=
  rfl

@[simp] theorem required_some (read : Json → Option α) (d : Json) :
    required read (some d) = read d :=
  rfl

@[simp] theorem withDefault_some (a : α) (read : Json → Option α) (d : Json) :
    withDefault a read (some d) = read d :=
  rfl

/-- A value that is read only if it is in range. -/
theorem guarded_eq_some_iff {o : Option α} {p : α → Prop} [DecidablePred p] {a : α} :
    (do let b ← o; if p b then some b else none) = some a ↔ o = some a ∧ p a := by
  rw [Option.bind_eq_bind, Option.bind_eq_some_iff]
  constructor
  · rintro ⟨b, hb, h⟩
    split at h
    · cases h
      exact ⟨hb, ‹_›⟩
    · cases h
  · rintro ⟨ha, hrange⟩
    exact ⟨a, ha, if_pos hrange⟩

theorem unsigned?_eq_some_iff {bits n : Nat} {d : Json} :
    unsigned? bits d = some n ↔ nat? d = some n ∧ n < 1 <<< bits :=
  guarded_eq_some_iff

theorem unsigned?_nat {bits n : Nat} (h : n < 1 <<< bits) :
    unsigned? bits (Json.nat n) = some n :=
  unsigned?_eq_some_iff.mpr ⟨by simp [Json.nat, nat?], h⟩

theorem int32?_eq_some_iff {n : Int} {d : Json} :
    int32? d = some n ↔ int? d = some n ∧ -0x8000_0000 ≤ n ∧ n < 0x8000_0000 :=
  guarded_eq_some_iff

theorem int32?_int {n : Int} (h : -0x8000_0000 ≤ n ∧ n < 0x8000_0000) :
    int32? (Json.int n) = some n :=
  int32?_eq_some_iff.mpr ⟨rfl, h⟩

theorem list?_eq_some_iff {read : Json → Option α} {d : Json} {as : List α} :
    list? read d = some as ↔ ∃ items, d = .arr items ∧ items.mapM read = some as := by
  cases d <;> simp [list?, items?]

theorem mapM_eq_some_iff {read : Json → Option α} {items : List Json} {as : List α} :
    items.mapM read = some as ↔ Forall₂ (fun d a => read d = some a) items as := by
  induction items generalizing as with
  | nil => cases as <;> simp
  | cons d items ih =>
      cases as with
      | nil =>
          simp only [List.mapM_cons, Option.bind_eq_bind, Option.bind_eq_some_iff]
          constructor
          · rintro ⟨a, -, as, -, h⟩
            cases h
          · intro h
            cases h
      | cons a as => simp [List.mapM_cons, Option.bind_eq_some_iff, ih]

/-- A list of values that are restored one by one is restored. -/
theorem list?_ofList {read : Json → Option α} {write : α → Json} {as : List α}
    (h : ∀ a ∈ as, read (write a) = some a) : list? read (Json.ofList write as) = some as := by
  refine list?_eq_some_iff.mpr ⟨_, rfl, mapM_eq_some_iff.mpr ?_⟩
  rw [List.forall₂_map_left_iff, List.forall₂_same]
  exact h

@[simp] theorem list?_text (as : List String) :
    list? text? (Json.ofList Json.str as) = some as :=
  list?_ofList fun _ _ => rfl

/-- What holds of all values that are read holds of the values in a list that is read. -/
theorem of_list? {read : Json → Option α} (p : α → Prop) (h : ∀ d a, read d = some a → p a)
    {d : Json} {as : List α} (hread : list? read d = some as) : ∀ a ∈ as, p a := by
  obtain ⟨items, -, hitems⟩ := list?_eq_some_iff.mp hread
  clear hread
  rw [mapM_eq_some_iff] at hitems
  induction hitems with
  | nil => simp
  | cons hd _ ih => exact List.forall_mem_cons.mpr ⟨h _ _ hd, ih⟩

theorem of_withDefault {read : Json → Option α} (p : α → Prop) {default a : α}
    (hdefault : p default) (h : ∀ d a, read d = some a → p a) {value : Option Json}
    (hread : withDefault default read value = some a) : p a := by
  cases value with
  | none =>
      cases hread
      exact hdefault
  | some d => exact h d a hread

theorem of_required {read : Json → Option α} (p : α → Prop) (h : ∀ d a, read d = some a → p a)
    {value : Option Json} {a : α} (hread : required read value = some a) : p a := by
  cases value with
  | none => cases hread
  | some d => exact h d a hread

theorem of_optional {read : Json → Option α} (p : α → Prop) (h : ∀ d a, read d = some a → p a)
    {value : Option Json} {o : Option α} (hread : optional read value = some o) : ∀ a ∈ o, p a := by
  intro a ha
  cases value with
  | none =>
      cases hread
      cases ha
  | some d =>
      simp only [optional] at hread
      split at hread
      · cases hread
        cases ha
      · obtain ⟨b, hb, heq⟩ := Option.map_eq_some_iff.mp hread
        cases heq
        cases ha
        exact h d _ hb
      · cases hread

/-- An optional value is restored whether its absence is left out or written as null. -/
theorem optional_map {read : Json → Option α} {write : α → Json} {o : Option α}
    (h : ∀ a ∈ o, read (write a) = some a ∧ isNull? (write a) = some false) :
    optional read (o.map write) = some o := by
  cases o with
  | none => rfl
  | some a =>
      obtain ⟨hread, hnull⟩ := h a rfl
      simp [optional, hread, hnull]

theorem optional_ofOption {read : Json → Option α} {write : α → Json} {o : Option α}
    (h : ∀ a ∈ o, read (write a) = some a ∧ isNull? (write a) = some false) :
    optional read (some (Json.ofOption write o)) = some o := by
  cases o with
  | none => rfl
  | some a => exact optional_map h

end Field

end VmMetadata.Record
