import Mathlib.Data.List.DropRight
import VmMetadata.Version

/-!
How build identifiers are written. Two or three numbers stand between dots; the first two may have
a plus sign, and behind the digits of the third one follows the suffix, which may hold anything.
Main statement: a text is read as a build just if it is written so between blanks, and a build is
read back from its own text just if its suffix can be told from the number before it and from the
blanks behind it.
-/

namespace VmMetadata

/-! ## Blanks -/

namespace Text

/-- There is no blank at either end. -/
structure IsTrimmed (cs : List Char) : Prop where
  head : ∀ c ∈ cs.head?, isBlank c = false
  last : ∀ c ∈ cs.getLast?, isBlank c = false

theorem trimmed_eq (cs : List Char) : trimmed cs = (cs.dropWhile isBlank).rdropWhile isBlank :=
  rfl

theorem dropWhile_isBlank {cs : List Char} (h : ∀ c ∈ cs.head?, isBlank c = false) :
    cs.dropWhile isBlank = cs := by
  cases cs with
  | nil => rfl
  | cons c cs => rw [List.dropWhile_cons_of_neg (by simp [h c rfl])]

theorem rdropWhile_isBlank {cs : List Char} (h : ∀ c ∈ cs.getLast?, isBlank c = false) :
    cs.rdropWhile isBlank = cs := by
  rw [List.rdropWhile_eq_self_iff]
  intro hne hblank
  rw [h _ (List.getLast?_eq_some_getLast hne)] at hblank
  cases hblank

theorem isTrimmed_trimmed (cs : List Char) : IsTrimmed (trimmed cs) := by
  rw [trimmed_eq]
  constructor
  · intro c hc
    -- what is dropped at the end leaves the beginning alone
    obtain ⟨dropped, hfront⟩ := List.rdropWhile_prefix isBlank (l := cs.dropWhile isBlank)
    have hhead : (cs.dropWhile isBlank).head? = some c := by
      rw [← hfront, List.head?_append, Option.mem_def.mp hc, Option.some_or]
    have := List.head?_dropWhile_not isBlank cs
    rw [hhead] at this
    simpa using this
  · intro c hc
    obtain ⟨hne, rfl⟩ := List.mem_getLast?_eq_getLast hc
    simpa using List.rdropWhile_last_not isBlank _ hne

/-- The text is its core between blanks, and the core has none at its ends. -/
def IsCore (cs core : List Char) : Prop :=
  IsTrimmed core ∧ ∃ front back, cs = front ++ (core ++ back) ∧
    (∀ c ∈ front, isBlank c = true) ∧ ∀ c ∈ back, isBlank c = true

theorem IsTrimmed.isCore {cs : List Char} (h : IsTrimmed cs) : IsCore cs cs :=
  ⟨h, [], [], by simp⟩

theorem isCore_trimmed (cs : List Char) : IsCore cs (trimmed cs) := by
  refine ⟨isTrimmed_trimmed cs, cs.takeWhile isBlank, (cs.dropWhile isBlank).rtakeWhile isBlank,
    ?_, ?_, ?_⟩
  · rw [trimmed_eq, List.rdropWhile_append_rtakeWhile, List.takeWhile_append_dropWhile]
  · intro c hc
    exact List.mem_takeWhile_imp hc
  · intro c hc
    exact List.mem_rtakeWhile_imp hc

theorem trimmed_of_isCore {cs core : List Char} (h : IsCore cs core) : trimmed cs = core := by
  obtain ⟨⟨hhead, hlast⟩, front, back, rfl, hfront, hback⟩ := h
  rw [trimmed_eq, List.dropWhile_append_of_pos hfront]
  cases core with
  | nil =>
      -- all of the text is blank
      rw [List.nil_append, List.dropWhile_eq_nil_iff.mpr hback, List.rdropWhile_nil]
  | cons c core =>
      have hstays : (c :: core ++ back).dropWhile isBlank = c :: core ++ back :=
        dropWhile_isBlank hhead
      rw [hstays]
      clear hstays
      induction back using List.reverseRecOn with
      | nil => rw [List.append_nil, rdropWhile_isBlank hlast]
      | append_singleton back b ih =>
          rw [← List.append_assoc, List.rdropWhile_concat_pos _ _ _ (hback b (by simp))]
          exact ih fun x hx => hback x (List.mem_append_left _ hx)

theorem isCore_iff {cs core : List Char} : IsCore cs core ↔ trimmed cs = core := by
  constructor
  · exact trimmed_of_isCore
  · rintro rfl
    exact isCore_trimmed cs

end Text

namespace Version

open Text

/-! ## The grammar -/

/-- A run of ASCII digits, leading zeros allowed, and the number of 32 bits that is its value. -/
structure IsNumeral (cs : List Char) (n : UInt32) : Prop where
  ne_nil : cs ≠ []
  digits : ∀ c ∈ cs, c.isDigit = true
  value : Nat.ofDigitChars 10 cs 0 = n.toNat

/-- The same, optionally behind a plus sign. -/
def IsSignedNumeral (cs : List Char) (n : UInt32) : Prop :=
  ∃ ds, IsNumeral ds n ∧ (cs = ds ∨ cs = '+' :: ds)

/-- The characters behind a number: none of its digits is among them. -/
def IsRest (cs : List Char) : Prop :=
  ∀ c ∈ cs.head?, c.isDigit = false

/-- The suffix that the characters behind the third number make. -/
def suffixOf (rest : List Char) : Option String :=
  if rest = [] then none else some (String.ofList rest)

/-- The characters write the build, without blanks around them. -/
inductive Writes : List Char → Version → Prop
  | short {first second : List Char} {major minor : UInt32} (hfirst : IsSignedNumeral first major)
      (hsecond : IsSignedNumeral second minor) :
      Writes (first ++ '.' :: second) ⟨major, minor, 0, none⟩
  | long {first second digits rest : List Char} {major minor patch : UInt32}
      (hfirst : IsSignedNumeral first major) (hsecond : IsSignedNumeral second minor)
      (hdigits : IsNumeral digits patch) (hrest : IsRest rest) :
      Writes (first ++ '.' :: (second ++ '.' :: (digits ++ rest)))
        ⟨major, minor, patch, suffixOf rest⟩

/-- The suffix can be told from the number before it and from blanks behind it. -/
def HasPlainSuffix (v : Version) : Prop :=
  ∀ s ∈ v.suffix, s ≠ "" ∧ IsRest s.toList ∧ ∀ c ∈ s.toList.getLast?, isBlank c = false

/-! ## Reading numbers -/

theorem value?_eq_some_iff {cs : List Char} {n : UInt32} :
    (Decimal.value? UInt32.size cs).map UInt32.ofNat = some n ↔ IsNumeral cs n := by
  rw [Option.map_eq_some_iff]
  constructor
  · rintro ⟨k, hk, rfl⟩
    unfold Decimal.value? at hk
    split at hk
    · rename_i h
      obtain ⟨hne, hdigits, hlt⟩ := h
      cases hk
      refine ⟨hne, by simpa using hdigits, ?_⟩
      rw [UInt32.toNat_ofNat', Nat.mod_eq_of_lt hlt]
    · cases hk
  · rintro ⟨hne, hdigits, hvalue⟩
    refine ⟨n.toNat, ?_, UInt32.ofNat_toNat⟩
    unfold Decimal.value?
    rw [if_pos ⟨hne, by simpa using hdigits, hvalue ▸ n.toNat_lt_size⟩, hvalue]

theorem number?_eq_some_iff {cs : List Char} {n : UInt32} :
    number? cs = some n ↔ IsSignedNumeral cs n := by
  unfold number?
  constructor
  · intro h
    unfold Decimal.signedValue? at h
    split at h
    · exact ⟨_, value?_eq_some_iff.mp h, Or.inr rfl⟩
    · exact ⟨_, value?_eq_some_iff.mp h, Or.inl rfl⟩
  · rintro ⟨ds, hds, rfl | rfl⟩
    · rw [← value?_eq_some_iff.mpr hds]
      -- a digit is no plus sign
      unfold Decimal.signedValue?
      split
      · have := hds.digits '+' List.mem_cons_self
        cases this
      · rfl
    · exact value?_eq_some_iff.mpr hds

theorem takeWhile_isDigit {digits rest : List Char} (hdigits : ∀ c ∈ digits, c.isDigit = true)
    (hrest : IsRest rest) : (digits ++ rest).takeWhile Char.isDigit = digits := by
  rw [List.takeWhile_append_of_pos hdigits]
  cases rest with
  | nil => simp
  | cons c rest => simp [hrest c rfl]

theorem dropWhile_isDigit {digits rest : List Char} (hdigits : ∀ c ∈ digits, c.isDigit = true)
    (hrest : IsRest rest) : (digits ++ rest).dropWhile Char.isDigit = rest := by
  rw [List.dropWhile_append_of_pos hdigits]
  cases rest with
  | nil => rfl
  | cons c rest => simp [hrest c rfl]

theorem patch?_eq_some_iff {cs : List Char} {n : UInt32} {suffix : Option String} :
    patch? cs = some (n, suffix) ↔ ∃ digits rest, cs = digits ++ rest ∧ IsNumeral digits n ∧
      IsRest rest ∧ suffix = suffixOf rest := by
  have hpatch : patch? cs = ((Decimal.value? UInt32.size (cs.takeWhile Char.isDigit)).map
      UInt32.ofNat).map fun k => (k, suffixOf (cs.dropWhile Char.isDigit)) := by
    rw [Option.map_map]
    rfl
  rw [hpatch, Option.map_eq_some_iff]
  constructor
  · rintro ⟨k, hk, heq⟩
    obtain ⟨rfl, rfl⟩ := Prod.mk.inj heq
    refine ⟨_, _, List.takeWhile_append_dropWhile.symm, value?_eq_some_iff.mp hk, ?_, rfl⟩
    intro c hc
    have := List.head?_dropWhile_not Char.isDigit cs
    rw [Option.mem_def.mp hc] at this
    simpa using this
  · rintro ⟨digits, rest, rfl, hdigits, hrest, rfl⟩
    rw [takeWhile_isDigit hdigits.digits hrest, dropWhile_isDigit hdigits.digits hrest]
    exact ⟨n, value?_eq_some_iff.mpr hdigits, rfl⟩

/-! ## Reading builds -/

theorem not_mem_of_isSignedNumeral {cs : List Char} {n : UInt32} (h : IsSignedNumeral cs n) :
    '.' ∉ cs := by
  obtain ⟨ds, hds, rfl | rfl⟩ := h
  · intro hmem
    cases hds.digits '.' hmem
  · intro hmem
    rcases List.mem_cons.mp hmem with heq | hmem
    · cases heq
    · cases hds.digits '.' hmem

theorem cutAtDot_of_not_mem {cs : List Char} (h : '.' ∉ cs) : cutAtDot cs = (cs, none) := by
  induction cs with
  | nil => rfl
  | cons c cs ih =>
      obtain ⟨hc, hcs⟩ := not_or.mp (mt List.mem_cons.mpr h)
      rw [cutAtDot, if_neg (Ne.symm hc), ih hcs]

theorem cutAtDot_append {before after : List Char} (h : '.' ∉ before) :
    cutAtDot (before ++ '.' :: after) = (before, some after) := by
  induction before with
  | nil => rfl
  | cons c cs ih =>
      obtain ⟨hc, hcs⟩ := not_or.mp (mt List.mem_cons.mpr h)
      rw [List.cons_append, cutAtDot, if_neg (Ne.symm hc), ih hcs]

/-- What is cut makes the text again. -/
theorem cutAtDot_join (cs : List Char) :
    (cutAtDot cs).1 ++ (cutAtDot cs).2.elim [] ('.' :: ·) = cs := by
  induction cs with
  | nil => rfl
  | cons c cs ih =>
      rw [cutAtDot]
      split
      · rename_i hc
        rw [hc]
        rfl
      · rw [List.cons_append, ih]

theorem ofChars?_eq_some_iff {cs : List Char} {v : Version} :
    ofChars? cs = some v ↔ Writes cs v := by
  constructor
  · intro h
    unfold ofChars? at h
    obtain ⟨major, hmajor, h⟩ := Option.bind_eq_some_iff.mp h
    obtain ⟨behind, hbehind, h⟩ := Option.bind_eq_some_iff.mp h
    obtain ⟨minor, hminor, h⟩ := Option.bind_eq_some_iff.mp h
    have hfirst := number?_eq_some_iff.mp hmajor
    have hsecond := number?_eq_some_iff.mp hminor
    rw [← cutAtDot_join cs, hbehind, Option.elim_some, ← cutAtDot_join behind]
    cases hthird : (cutAtDot behind).2 with
    | none =>
        rw [hthird] at h
        cases h
        rw [Option.elim_none, List.append_nil]
        exact .short hfirst hsecond
    | some third =>
        rw [hthird] at h
        obtain ⟨⟨patch, suffix⟩, hpatch, h⟩ := Option.bind_eq_some_iff.mp h
        cases h
        obtain ⟨digits, rest, rfl, hdigits, hrest, rfl⟩ := patch?_eq_some_iff.mp hpatch
        exact .long hfirst hsecond hdigits hrest
  · intro h
    cases h with
    | short hfirst hsecond =>
        simp [ofChars?, cutAtDot_append (not_mem_of_isSignedNumeral hfirst),
          cutAtDot_of_not_mem (not_mem_of_isSignedNumeral hsecond),
          number?_eq_some_iff.mpr hfirst, number?_eq_some_iff.mpr hsecond]
    | long hfirst hsecond hdigits hrest =>
        simp [ofChars?, cutAtDot_append (not_mem_of_isSignedNumeral hfirst),
          cutAtDot_append (not_mem_of_isSignedNumeral hsecond),
          number?_eq_some_iff.mpr hfirst, number?_eq_some_iff.mpr hsecond,
          patch?_eq_some_iff.mpr ⟨_, _, rfl, hdigits, hrest, rfl⟩]

theorem parse_eq_ok_iff {raw : String} {v : Version} :
    parse raw = .ok v ↔ ∃ core, IsCore raw.toList core ∧ Writes core v := by
  simp only [isCore_iff, exists_eq_left', ← ofChars?_eq_some_iff]
  unfold parse
  cases ofChars? (trimmed raw.toList) <;> simp

theorem parse_eq_error {raw : String} {e : Error} (h : parse raw = .error e) :
    e = .invalidVersion raw := by
  unfold parse at h
  split at h
  · cases h
  · cases h
    rfl

/-! ## Writing builds -/

theorem isNumeral_toDigits (n : UInt32) : IsNumeral (Nat.toDigits 10 n.toNat) n where
  ne_nil := Nat.toDigits_ne_nil
  digits := fun _ hc => Nat.isDigit_of_mem_toDigits (by decide) (by decide) hc
  value := Nat.ofDigitChars_ten_toDigits

theorem isSignedNumeral_toDigits (n : UInt32) : IsSignedNumeral (Nat.toDigits 10 n.toNat) n :=
  ⟨_, isNumeral_toDigits n, Or.inl rfl⟩

theorem toList_text (v : Version) :
    v.text.toList = Nat.toDigits 10 v.major.toNat ++ '.' :: (Nat.toDigits 10 v.minor.toNat ++
      '.' :: (Nat.toDigits 10 v.patch.toNat ++ (v.suffix.getD "").toList)) := by
  have hdot : (toString ".").toList = ['.'] := rfl
  simp [text, String.toList_append, hdot]

theorem suffixOf_eq_some_iff {rest : List Char} {s : String} :
    suffixOf rest = some s ↔ rest ≠ [] ∧ s = String.ofList rest := by
  unfold suffixOf
  split
  · rename_i h
    simp [h]
  · rename_i h
    simp [h, eq_comm]

theorem writes_text {v : Version} (h : v.HasPlainSuffix) : Writes v.text.toList v := by
  have hrest : IsRest (v.suffix.getD "").toList ∧
      suffixOf (v.suffix.getD "").toList = v.suffix := by
    cases hsuffix : v.suffix with
    | none =>
        constructor
        · intro c hc
          cases Option.mem_def.mp hc
        · rfl
    | some s =>
        obtain ⟨hne, hrest, -⟩ := h s hsuffix
        constructor
        · exact hrest
        · rw [Option.getD_some, suffixOf_eq_some_iff]
          exact ⟨mt String.toList_eq_nil_iff.mp hne, String.ofList_toList.symm⟩
  have hwrites := Writes.long (isSignedNumeral_toDigits v.major) (isSignedNumeral_toDigits v.minor)
    (isNumeral_toDigits v.patch) hrest.1
  rw [← toList_text, hrest.2] at hwrites
  exact hwrites

theorem isBlank_of_isDigit {c : Char} (h : c.isDigit = true) : isBlank c = false := by
  simp only [Char.isDigit, Bool.and_eq_true, decide_eq_true_eq] at h
  have h₁ : 48 ≤ c.toNat := h.1
  have h₂ : c.toNat ≤ 57 := h.2
  simp [isBlank]
  omega

theorem getLast?_long (first second : List Char) {third : List Char} (h : third ≠ []) :
    (first ++ '.' :: (second ++ '.' :: third)).getLast? = third.getLast? := by
  have := List.getLast?_append_of_ne_nil (first ++ '.' :: (second ++ ['.'])) h
  simpa using this

/-- A build's text begins with a digit, and it ends with one or with the suffix. -/
theorem isTrimmed_text {v : Version} (h : v.HasPlainSuffix) : IsTrimmed v.text.toList := by
  have hdigit : ∀ (n : UInt32), ∀ c ∈ Nat.toDigits 10 n.toNat, isBlank c = false :=
    fun n c hc => isBlank_of_isDigit ((isNumeral_toDigits n).digits c hc)
  rw [toList_text]
  constructor
  · intro c hc
    rw [List.head?_append_of_ne_nil _ Nat.toDigits_ne_nil] at hc
    exact hdigit v.major c (List.mem_of_mem_head? hc)
  · intro c hc
    rw [getLast?_long _ _ (List.append_ne_nil_of_left_ne_nil Nat.toDigits_ne_nil _),
      List.getLast?_append, Option.mem_def, Option.or_eq_some_iff] at hc
    rcases hc with hc | ⟨-, hc⟩
    · cases hsuffix : v.suffix with
      | none =>
          rw [hsuffix] at hc
          cases hc
      | some s =>
          rw [hsuffix] at hc
          exact (h s hsuffix).2.2 c hc
    · exact hdigit v.patch c (List.mem_of_mem_getLast? hc)

/-- A suffix that was read is what stands between the digits and the blanks. -/
theorem hasPlainSuffix_of_writes {cs : List Char} {v : Version} (hcs : IsTrimmed cs)
    (h : Writes cs v) : v.HasPlainSuffix := by
  intro s hs
  cases h with
  | short => cases hs
  | @long first second digits rest _ _ _ _ _ hdigits hrest =>
      obtain ⟨hne, rfl⟩ := suffixOf_eq_some_iff.mp hs
      rw [String.toList_ofList]
      refine ⟨by simpa using hne, hrest, ?_⟩
      intro c hc
      apply hcs.last c
      rw [getLast?_long _ _ (List.append_ne_nil_of_right_ne_nil _ hne),
        List.getLast?_append_of_ne_nil _ hne]
      exact hc

/-- A text is a build just if it is written as one between blanks, and the build it is is the
written one. Printing a build that was read and reading it again changes nothing; among all builds
those come back whose suffix is told from the number before it and from blanks. -/
theorem reads_what_is_written :
    (∀ raw v, parse raw = .ok v ↔ ∃ core, IsCore raw.toList core ∧ Writes core v) ∧
    (∀ raw, (∀ core v, IsCore raw.toList core → ¬ Writes core v) →
      parse raw = .error (.invalidVersion raw)) ∧
    (∀ raw v, parse raw = .ok v → parse v.text = .ok v) ∧
    ∀ v : Version, parse v.text = .ok v ↔ v.HasPlainSuffix := by
  have hback : ∀ v : Version, v.HasPlainSuffix → parse v.text = .ok v :=
    fun v h => parse_eq_ok_iff.mpr ⟨_, (isTrimmed_text h).isCore, writes_text h⟩
  have hplain : ∀ raw v, parse raw = .ok v → v.HasPlainSuffix := by
    intro raw v h
    obtain ⟨core, hcore, hwrites⟩ := parse_eq_ok_iff.mp h
    exact hasPlainSuffix_of_writes hcore.1 hwrites
  refine ⟨fun raw v => parse_eq_ok_iff, ?_, ?_, ?_⟩
  · intro raw hnone
    rcases hraw : parse raw with e | v
    · rw [parse_eq_error hraw]
    · obtain ⟨core, hcore, hwrites⟩ := parse_eq_ok_iff.mp hraw
      exact absurd hwrites (hnone core v hcore)
  · intro raw v h
    exact hback v (hplain raw v h)
  · intro v
    exact ⟨hplain v.text v, hback v⟩

theorem reads_what_is_written_loosely :
    parse " +2019.04.31f1 " = .ok ⟨2019, 4, 31, some "f1"⟩ ∧
    parse "2019.4.31f1" = .ok ⟨2019, 4, 31, some "f1"⟩ ∧
    parse "2019.4.f1" = .error (.invalidVersion "2019.4.f1") := by
  have hloose : parse " +2019.04.31f1 " = .ok ⟨2019, 4, 31, some "f1"⟩ := by decide +kernel
  have htext : (⟨2019, 4, 31, some "f1"⟩ : Version).text = "2019.4.31f1" := by decide +kernel
  have hback := reads_what_is_written.2.2.1 " +2019.04.31f1 " _ hloose
  rw [htext] at hback
  refine ⟨hloose, hback, ?_⟩
  apply reads_what_is_written.2.1
  intro core v hcore hwrites
  have hread := reads_what_is_written.1 "2019.4.f1" v |>.mpr ⟨core, hcore, hwrites⟩
  have hfails : (parse "2019.4.f1").isOk = false := by decide +kernel
  rw [hread] at hfails
  cases hfails

end Version
end VmMetadata
