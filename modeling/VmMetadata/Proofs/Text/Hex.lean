import VmMetadata.Text.Hex

/-!
Hexadecimal text read back. The digits of a number are in lower case, they write that number, and
zeros in front do not change it, so that a number written with a least width can be told from its
text. Main statement: `Writes.padded`.
-/

namespace VmMetadata.Text.Hex

/-- A digit that dumps use. -/
def IsLower (c : Char) : Prop :=
  c.isDigit = true ∨ ('a' ≤ c ∧ c ≤ 'f')

instance (c : Char) : Decidable (IsLower c) :=
  inferInstanceAs (Decidable (_ ∨ _))

/-- The characters write the number in lower case: in at least `width` digits, and with a zero in
front only where it takes that to reach the width. -/
structure Writes (width : Nat) (ds : List Char) (n : Nat) : Prop where
  lower : ∀ c ∈ ds, IsLower c
  value : value? ds = some n
  wide : width ≤ ds.length
  tight : ds.head? = some '0' → ds.length = width

/-! ## One digit -/

theorem isLower_digitChar {d : Nat} (h : d < 16) : IsLower d.digitChar := by
  revert d
  decide

theorem digitValue?_digitChar {d : Nat} (h : d < 16) : digitValue? d.digitChar = some d := by
  revert d
  decide

/-! ## The digits of a number -/

theorem value?_concat (ds : List Char) (c : Char) :
    value? (ds ++ [c]) = (value? ds).bind fun n => (digitValue? c).map (16 * n + ·) := by
  unfold value?
  rw [List.foldlM_append]
  cases List.foldlM (fun n c => (digitValue? c).map (16 * n + ·)) 0 ds with
  | none => rfl
  | some n => simp

theorem digits_of_lt {n : Nat} (h : n < 16) : digits n = [n.digitChar] :=
  Nat.toDigits_of_lt_base h

theorem digits_of_le {n : Nat} (h : 16 ≤ n) : digits n = digits (n / 16) ++ [(n % 16).digitChar] :=
  Nat.toDigits_of_base_le (by decide) h

/-- Induction along the digits, the last one first. -/
theorem digits_induction {P : Nat → Prop} (one : ∀ n, n < 16 → P n)
    (more : ∀ n, 16 ≤ n → P (n / 16) → P n) (n : Nat) : P n := by
  induction n using Nat.strongRecOn with
  | ind n ih =>
      rcases Nat.lt_or_ge n 16 with hlt | hge
      · exact one n hlt
      · exact more n hge (ih (n / 16) (by omega))

theorem isLower_of_mem_digits (n : Nat) : ∀ c ∈ digits n, IsLower c := by
  induction n using digits_induction with
  | one n hlt =>
      rw [digits_of_lt hlt]
      intro c hc
      obtain rfl := List.mem_singleton.mp hc
      exact isLower_digitChar hlt
  | more n hge ih =>
      rw [digits_of_le hge]
      intro c hc
      rcases List.mem_append.mp hc with hfront | hlast
      · exact ih c hfront
      · obtain rfl := List.mem_singleton.mp hlast
        exact isLower_digitChar (Nat.mod_lt n (by decide))

theorem value?_digits (n : Nat) : value? (digits n) = some n := by
  induction n using digits_induction with
  | one n hlt =>
      rw [digits_of_lt hlt, show [n.digitChar] = [] ++ [n.digitChar] from rfl, value?_concat,
        digitValue?_digitChar hlt]
      simp [value?]
  | more n hge ih =>
      rw [digits_of_le hge, value?_concat, ih, digitValue?_digitChar (Nat.mod_lt n (by decide))]
      simp only [Option.bind_some, Option.map_some]
      exact congrArg some (Nat.div_add_mod n 16)

/-- Only zero is written with a zero in front. -/
theorem head?_digits {n : Nat} (h : n ≠ 0) : (digits n).head? ≠ some '0' := by
  induction n using digits_induction with
  | one n hlt =>
      rw [digits_of_lt hlt]
      intro hhead
      exact h (Nat.digitChar_eq_zero.mp (Option.some.inj hhead))
  | more n hge ih =>
      -- the digits in front are those of the quotient, which is not zero either
      rw [digits_of_le hge, List.head?_append]
      cases hfront : (digits (n / 16)).head? with
      | none => exact absurd (List.head?_eq_none_iff.mp hfront) Nat.toDigits_ne_nil
      | some c =>
          rw [Option.some_or, ← hfront]
          exact ih (by omega)

theorem length_digits_zero : (digits 0).length = 1 := rfl

/-! ## Zeros in front -/

theorem value?_cons_zero (ds : List Char) : value? ('0' :: ds) = value? ds := rfl

theorem value?_padded (width : Nat) (ds : List Char) : value? (padded width ds) = value? ds := by
  unfold padded
  induction width - ds.length with
  | zero => rfl
  | succ k ih => rw [List.replicate_succ, List.cons_append, value?_cons_zero, ih]

theorem length_padded (width : Nat) (ds : List Char) :
    (padded width ds).length = max width ds.length := by
  unfold padded
  rw [List.length_append, List.length_replicate]
  omega

theorem isLower_of_mem_padded {width : Nat} {ds : List Char} (h : ∀ c ∈ ds, IsLower c) :
    ∀ c ∈ padded width ds, IsLower c := by
  intro c hc
  rcases List.mem_append.mp hc with hzero | hdigit
  · obtain rfl := List.eq_of_mem_replicate hzero
    decide
  · exact h c hdigit

/-- The digits with zeros in front write the number; zero itself takes room for one digit. -/
theorem Writes.padded {width n : Nat} (h : 0 < width ∨ n ≠ 0) :
    Writes width (padded width (digits n)) n where
  lower := isLower_of_mem_padded (isLower_of_mem_digits n)
  value := (value?_padded width _).trans (value?_digits n)
  wide := by
    rw [length_padded]
    omega
  tight := by
    intro hhead
    rw [length_padded]
    -- a zero in front is one that was put there, or the only digit of zero
    rcases Nat.lt_or_ge width (digits n).length with hlt | hge
    · have hsame : Hex.padded width (digits n) = digits n := by
        unfold Hex.padded
        rw [Nat.sub_eq_zero_of_le (Nat.le_of_lt hlt), List.replicate_zero, List.nil_append]
      rw [hsame] at hhead
      by_cases hzero : n = 0
      · subst hzero
        rw [length_digits_zero] at hlt
        omega
      · exact absurd hhead (head?_digits hzero)
    · omega

end VmMetadata.Text.Hex
