import Mathlib.Data.List.Forall2
import VmMetadata.Vm.Arena

/-!
What a look-up in an arena finds. Handles and positions determine each other; a new object is found
under the next handle and disturbs no other; an object put in the place of another is found there
and nowhere else.
-/

namespace VmMetadata

namespace Arena

theorem index?_eq_some_iff {h : Handle} {i : Nat} : index? h = some i ↔ h = handleAt i := by
  constructor
  · intro hi
    obtain ⟨address⟩ := h
    rw [index?, Option.ite_none_right_eq_some] at hi
    obtain ⟨hb, hi⟩ := hi
    have hi := Option.some.inj hi
    simp only [handleAt, base, stride, Handle.mk.injEq] at hb hi ⊢
    omega
  · rintro rfl
    exact index?_handleAt i

theorem handleAt_injective {i j : Nat} (h : handleAt i = handleAt j) : i = j := by
  have hi := index?_handleAt i
  rw [h, index?_handleAt] at hi
  exact (Option.some.inj hi).symm

theorem handleAt_ne_null (i : Nat) : handleAt i ≠ .null := by
  intro h
  have := congrArg Handle.address h
  simp [handleAt, base, Handle.null] at this

theorem get?_eq_some_iff {a : Arena} {h : Handle} {n : Node} :
    a.get? h = some n ↔ ∃ i, h = handleAt i ∧ a.nodes[i]? = some n := by
  constructor
  · intro hn
    simp only [get?, Option.bind_eq_bind, Option.bind_eq_some_iff] at hn
    obtain ⟨i, hi, hn⟩ := hn
    exact ⟨i, index?_eq_some_iff.mp hi, hn⟩
  · rintro ⟨i, rfl, hn⟩
    rw [get?_handleAt, hn]

theorem ne_null_of_get? {a : Arena} {h : Handle} {n : Node} (hn : a.get? h = some n) :
    h ≠ .null := by
  obtain ⟨i, rfl, _⟩ := get?_eq_some_iff.mp hn
  exact handleAt_ne_null i

theorem lt_size_of_get? {a : Arena} {i : Nat} {n : Node} (hn : a.get? (handleAt i) = some n) :
    i < a.nodes.size := by
  rw [get?_handleAt] at hn
  exact (Array.getElem?_eq_some_iff.mp hn).1

theorem get?_next (a : Arena) : a.get? a.next = none := by
  simp [next, get?_handleAt]

theorem ne_next_of_get? {a : Arena} {h : Handle} {n : Node} (hn : a.get? h = some n) :
    h ≠ a.next := by
  rintro rfl
  rw [get?_next] at hn
  cases hn

/-! ## Typed look-ups -/

@[simp] theorem assembly_eq_ok {a : Arena} {h i : Handle} :
    a.assembly h = .ok i ↔ a.get? h = some (.assembly i) := by
  unfold assembly
  split <;> simp_all

@[simp] theorem image_eq_ok {a : Arena} {h : Handle} {n : ImageNode} :
    a.image h = .ok n ↔ a.get? h = some (.image n) := by
  unfold image
  split <;> simp_all

@[simp] theorem class_eq_ok {a : Arena} {h : Handle} {n : ClassNode} :
    a.class_ h = .ok n ↔ a.get? h = some (.class_ n) := by
  unfold class_
  split <;> simp_all

@[simp] theorem type_eq_ok {a : Arena} {h : Handle} {n : TypeNode} :
    a.type h = .ok n ↔ a.get? h = some (.type n) := by
  unfold type
  split <;> simp_all

@[simp] theorem field_eq_ok {a : Arena} {h : Handle} {n : FieldNode} :
    a.field h = .ok n ↔ a.get? h = some (.field n) := by
  unfold field
  split <;> simp_all

@[simp] theorem method_eq_ok {a : Arena} {h : Handle} {n : MethodNode} :
    a.method h = .ok n ↔ a.get? h = some (.method n) := by
  unfold method
  split <;> simp_all

@[simp] theorem object_eq_ok {a : Arena} {h : Handle} {n : ObjectNode} :
    a.object h = .ok n ↔ a.get? h = some (.object n) := by
  unfold object
  split <;> simp_all

/-! ## New objects -/

/-- An arena with further objects behind its own. -/
def append (a : Arena) (nodes : List Node) : Arena :=
  ⟨a.nodes ++ nodes.toArray⟩

@[simp] theorem append_nil (a : Arena) : a.append [] = a := by
  simp [append]

theorem append_append (a : Arena) (l m : List Node) :
    (a.append l).append m = a.append (l ++ m) := by
  simp [append]

theorem push_eq_append (a : Arena) (n : Node) : a.push n = a.append [n] := by
  simp only [push, append, Array.push_eq_append]

@[simp] theorem size_append (a : Arena) (l : List Node) :
    (a.append l).nodes.size = a.nodes.size + l.length := by
  simp [append]

theorem next_append (a : Arena) (l : List Node) :
    (a.append l).next = handleAt (a.nodes.size + l.length) := by
  simp [next]

theorem get?_append_iff {a : Arena} {l : List Node} {h : Handle} {n : Node} :
    (a.append l).get? h = some n ↔
      a.get? h = some n ∨ ∃ i, h = handleAt (a.nodes.size + i) ∧ l[i]? = some n := by
  rw [get?_eq_some_iff, get?_eq_some_iff]
  constructor
  · rintro ⟨i, rfl, hn⟩
    by_cases hi : i < a.nodes.size
    · rw [append, Array.getElem?_append_left hi] at hn
      exact Or.inl ⟨i, rfl, hn⟩
    · rw [append, Array.getElem?_append_right (Nat.not_lt.mp hi)] at hn
      exact Or.inr ⟨i - a.nodes.size, by rw [Nat.add_sub_cancel' (Nat.not_lt.mp hi)],
        by simpa using hn⟩
  · rintro (⟨i, rfl, hn⟩ | ⟨i, rfl, hn⟩)
    · have hi := (Array.getElem?_eq_some_iff.mp hn).1
      exact ⟨i, rfl, by rw [append, Array.getElem?_append_left hi]; exact hn⟩
    · exact ⟨_, rfl, by
        rw [append, Array.getElem?_append_right (Nat.le_add_right _ _)]
        simpa using hn⟩

theorem get?_append_of_get? {a : Arena} {h : Handle} {n : Node} (hn : a.get? h = some n)
    (l : List Node) : (a.append l).get? h = some n :=
  get?_append_iff.mpr (Or.inl hn)

theorem get?_append_new (a : Arena) {l : List Node} {i : Nat} {n : Node} (hn : l[i]? = some n) :
    (a.append l).get? (handleAt (a.nodes.size + i)) = some n :=
  get?_append_iff.mpr (Or.inr ⟨i, rfl, hn⟩)

theorem get?_push_next (a : Arena) (n : Node) : (a.push n).get? a.next = some n := by
  rw [push_eq_append]
  exact get?_append_new a (i := 0) rfl

theorem get?_push_of_get? {a : Arena} {h : Handle} {n : Node} (hn : a.get? h = some n)
    (m : Node) : (a.push m).get? h = some n := by
  rw [push_eq_append]
  exact get?_append_of_get? hn [m]

theorem get?_push_iff {a : Arena} {h : Handle} {m n : Node} :
    (a.push m).get? h = some n ↔ a.get? h = some n ∨ (h = a.next ∧ n = m) := by
  rw [push_eq_append, get?_append_iff]
  constructor
  · rintro (hn | ⟨i, rfl, hn⟩)
    · exact Or.inl hn
    · cases i with
      | zero => exact Or.inr ⟨rfl, (Option.some.inj hn).symm⟩
      | succ i => simp at hn
  · rintro (hn | ⟨rfl, rfl⟩)
    · exact Or.inl hn
    · exact Or.inr ⟨0, rfl, rfl⟩

/-! ## Objects that take the place of others -/

@[simp] theorem size_set (a : Arena) (h : Handle) (n : Node) :
    (a.set h n).nodes.size = a.nodes.size := by
  unfold set
  split <;> simp

theorem get?_set_same {a : Arena} {h : Handle} {m : Node} (hm : a.get? h = some m) (n : Node) :
    (a.set h n).get? h = some n := by
  obtain ⟨i, rfl, hi⟩ := get?_eq_some_iff.mp hm
  have hi := (Array.getElem?_eq_some_iff.mp hi).1
  rw [get?_handleAt]
  simp [set, index?_handleAt, hi]

theorem get?_set_of_ne {a : Arena} {h k : Handle} (hk : k ≠ h) (n : Node) :
    (a.set h n).get? k = a.get? k := by
  unfold set
  split
  · rename_i i hi
    obtain rfl := index?_eq_some_iff.mp hi
    unfold get?
    cases hj : index? k with
    | none => rfl
    | some j =>
        obtain rfl := index?_eq_some_iff.mp hj
        have hij : i ≠ j := fun e => hk (congrArg handleAt e.symm)
        simp [Array.getElem?_setIfInBounds_ne hij]
  · rfl

/-- The first of several new objects replaced. -/
theorem set_append_cons (a : Arena) (x y : Node) (l : List Node) :
    (a.append (x :: l)).set a.next y = a.append (y :: l) := by
  simp only [append, next, set, index?_handleAt, Arena.mk.injEq]
  apply Array.toList_inj.mp
  simp

theorem get?_set_iff {a : Arena} {h k : Handle} {m n p : Node} (hm : a.get? h = some m) :
    (a.set h n).get? k = some p ↔ (k = h ∧ p = n) ∨ (k ≠ h ∧ a.get? k = some p) := by
  by_cases hk : k = h
  · subst hk
    rw [get?_set_same hm]
    simp [eq_comm]
  · rw [get?_set_of_ne hk]
    simp [hk]

/-- All that an arena holds is still there, replaced at most by what is related to it. -/
theorem exists_get?_set {R : Node → Node → Prop} (hrefl : ∀ p, R p p) {a : Arena} {h : Handle}
    {m n : Node} (hm : a.get? h = some m) (hmn : R m n) (k : Handle) (p : Node)
    (hp : a.get? k = some p) : ∃ q, (a.set h n).get? k = some q ∧ R p q := by
  by_cases hk : k = h
  · subst hk
    rw [hm] at hp
    cases hp
    exact ⟨n, get?_set_same hm n, hmn⟩
  · exact ⟨p, (get?_set_of_ne hk n).trans hp, hrefl p⟩

end Arena

end VmMetadata
