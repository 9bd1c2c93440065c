import VmMetadata.Proofs.Load.Placed

/-!
How type parameters are recognized. All types are kept in one table, those of type parameters under
marked keys, and what is kept under the key of a reference need not have been made for it. Main
statement: every text of a snapshot gets the type that its name, the scopes around it and the
described classes call for, just if no other name, of a class or in a text, is the key of a type
parameter.
-/

namespace VmMetadata

/-! ## The law -/

namespace TypeRef

/-- The reference is to a type parameter. -/
def IsParameter : TypeRef → Prop
  | ofMethod _ | ofClass _ => True
  | global _ => False

instance : DecidablePred IsParameter
  | ofMethod _ | ofClass _ => isTrue trivial
  | global _ => isFalse id

/-- The type shows what the reference is to: a type parameter of the method or of the class under
its name, or none. -/
def Recognized : TypeRef → TypeNode → Prop
  | ofMethod name, n => n.kind = .mvar ∧ n.name = name
  | ofClass name, n => n.kind = .var ∧ n.name = name
  | global _, n => n.kind ≠ .mvar ∧ n.kind ≠ .var

/-- In the words of the scopes. -/
theorem recognized_ofText_iff {text : String} {classScope methodScope : List String}
    {n : TypeNode} :
    (ofText text classScope methodScope).Recognized n ↔
      (n.kind = .mvar ↔ TypeName.normalized text ∈ methodScope) ∧
      (n.kind = .var ↔
        TypeName.normalized text ∉ methodScope ∧ TypeName.normalized text ∈ classScope) ∧
      (n.kind = .mvar ∨ n.kind = .var → n.name = TypeName.normalized text) := by
  unfold ofText ofName
  generalize TypeName.normalized text = name
  by_cases hmethod : name ∈ methodScope
  · rw [if_pos (by simpa using hmethod)]
    constructor
    · rintro ⟨hkind, hname⟩
      simp [hkind, hname, hmethod]
    · rintro ⟨hkind, -, hname⟩
      exact ⟨hkind.mpr hmethod, hname (Or.inl (hkind.mpr hmethod))⟩
  · rw [if_neg (by simpa using hmethod)]
    by_cases hclass : name ∈ classScope
    · rw [if_pos (by simpa using hclass)]
      constructor
      · rintro ⟨hkind, hname⟩
        simp [hkind, hname, hmethod, hclass]
      · rintro ⟨-, hkind, hname⟩
        have hvar := hkind.mpr ⟨hmethod, hclass⟩
        exact ⟨hvar, hname (Or.inr hvar)⟩
    · rw [if_neg (by simpa using hclass)]
      constructor
      · rintro ⟨hmvar, hvar⟩
        exact ⟨⟨fun h => absurd h hmvar, fun h => absurd h hmethod⟩,
          ⟨fun h => absurd h hvar, fun h => absurd h.2 hclass⟩, fun h => (h.elim hmvar hvar).elim⟩
      · rintro ⟨hmvar, hvar, -⟩
        exact ⟨fun h => hmethod (hmvar.mp h), fun h => hclass (hvar.mp h).2⟩

/-- What names and classes are kept as is no type parameter. -/
theorem recognized_global_of_named {name : String} {n : TypeNode} (h : n.kind ∈ TypeKind.named) :
    (global name).Recognized n := by
  refine ⟨fun hkind => ?_, fun hkind => ?_⟩
  all_goals
    rw [hkind] at h
    exact absurd h (by decide)

theorem recognized_blankNode (r : TypeRef) : r.Recognized r.blankNode := by
  cases r with
  | ofMethod name | ofClass name => exact ⟨rfl, rfl⟩
  | global name => exact recognized_global_of_named (TypeName.kind_mem name)

theorem recognized_nodeIn (entries : List (Handle × ClassDescription)) (r : TypeRef) :
    r.Recognized (r.nodeIn entries) := by
  cases r with
  | ofMethod name | ofClass name => exact ⟨rfl, rfl⟩
  | global name => exact recognized_global_of_named (kind_nodeIn_global entries name)

/-- The type that was made for one parameter shows no other reference. -/
theorem eq_of_recognized {r r' : TypeRef} (hr : r.IsParameter) (h : r.Recognized r'.blankNode) :
    r' = r := by
  cases r with
  | global name => exact hr.elim
  | ofMethod name =>
      obtain ⟨hkind, rfl⟩ := h
      cases r' with
      | ofMethod name' => rfl
      | ofClass name' => cases hkind
      | global name' => exact absurd hkind (recognized_blankNode (global name')).1
  | ofClass name =>
      obtain ⟨hkind, rfl⟩ := h
      cases r' with
      | ofClass name' => rfl
      | ofMethod name' => cases hkind
      | global name' => exact absurd hkind (recognized_blankNode (global name')).2

theorem isParameter_of_recognized {r r' : TypeRef} (hr' : r'.IsParameter)
    (h : r.Recognized r'.blankNode) : r.IsParameter := by
  cases r with
  | ofMethod | ofClass => trivial
  | global name =>
      cases r' with
      | ofMethod => exact h.1 rfl
      | ofClass => exact h.2 rfl
      | global => exact hr'

end TypeRef

/-! ## Keys that are apart -/

namespace Snapshot

/-- No class has the key of a type parameter that is referred to for its full name, and nothing else
that a text refers to has this key. -/
def KeysApart (s : Snapshot) : Prop :=
  ∀ r ∈ s.refs, r.IsParameter →
    s.classNamed? r.key = none ∧ ∀ r' ∈ s.refs, r'.key = r.key → r' = r

instance (s : Snapshot) : Decidable s.KeysApart :=
  inferInstanceAs (Decidable (∀ _ ∈ _, _ → _ ∧ ∀ _ ∈ _, _))

variable {s : Snapshot}

theorem typeNode_global (s : Snapshot) (name : String) :
    s.typeNode (.global name) = match s.classNamed? name with
      | some (h, c) => c.typeNode h
      | none => (TypeRef.global name).blankNode :=
  rfl

/-- Under a key that no class has, the first reference with this key is kept. -/
theorem exists_keptNode_eq {r : TypeRef} (hr : r ∈ s.refs) (hnone : s.classNamed? r.key = none) :
    ∃ r₀ ∈ s.refs, r₀.key = r.key ∧ ∀ r', r'.key = r.key → s.keptNode r' = r₀.blankNode := by
  have hsome : (firstRef? s.refs r.key).isSome := List.find?_isSome.mpr ⟨r, hr, by simp⟩
  obtain ⟨r₀, hr₀⟩ := Option.isSome_iff_exists.mp hsome
  refine ⟨r₀, List.mem_of_find?_eq_some hr₀, key_of_firstRef? hr₀, fun r' hkey => ?_⟩
  rw [keptNode, hkey, hnone, hr₀]
  rfl

/-- Where the keys are apart, every reference gets the type that it stands for. -/
theorem KeysApart.keptNode_eq (h : s.KeysApart) {r : TypeRef} (hr : r ∈ s.refs) :
    s.keptNode r = s.typeNode r := by
  cases r with
  | ofMethod name | ofClass name =>
      obtain ⟨hnone, hall⟩ := h _ hr trivial
      obtain ⟨r₀, hr₀, hkey, hnode⟩ := exists_keptNode_eq hr hnone
      rw [hnode _ rfl, hall r₀ hr₀ hkey]
      rfl
  | global name =>
      rw [typeNode_global]
      cases hfirst : s.classNamed? name with
      | some q => rw [keptNode, TypeRef.key, hfirst]
      | none =>
          obtain ⟨r₀, hr₀, hkey, hnode⟩ := exists_keptNode_eq hr hfirst
          rw [hnode _ rfl]
          -- a type parameter with this key would be this reference
          cases r₀ with
          | ofMethod name' | ofClass name' => cases (h _ hr₀ trivial).2 _ hr hkey.symm
          | global name' => rw [show name' = name from hkey]

/-- A type parameter that shares its key with a class or with another reference is not recognized,
or that other reference is taken for it. -/
theorem keysApart_of_recognized (h : ∀ r ∈ s.refs, r.Recognized (s.keptNode r)) : s.KeysApart := by
  intro r hr hparameter
  have hrec := h r hr
  have hnone : s.classNamed? r.key = none := by
    by_contra hsome
    obtain ⟨q, hq⟩ := Option.ne_none_iff_exists'.mp hsome
    rw [keptNode, hq] at hrec
    have hglobal : (TypeRef.global "").Recognized (q.2.typeNode q.1) :=
      TypeRef.recognized_global_of_named q.2.typeKind_mem
    cases r with
    | ofMethod => exact hglobal.1 hrec.1
    | ofClass => exact hglobal.2 hrec.1
    | global => exact hparameter
  obtain ⟨r₀, -, -, hnode⟩ := exists_keptNode_eq hr hnone
  rw [hnode r rfl] at hrec
  obtain rfl := TypeRef.eq_of_recognized hparameter hrec
  refine ⟨hnone, fun r' hr' hkey => ?_⟩
  have hrec' := h r' hr'
  rw [hnode r' hkey] at hrec'
  exact (TypeRef.eq_of_recognized (TypeRef.isParameter_of_recognized hparameter hrec') hrec').symm

/-- All type parameters are recognized just if the keys are apart. -/
theorem keysApart_iff_recognized :
    s.KeysApart ↔ ∀ r ∈ s.refs, r.Recognized (s.keptNode r) :=
  ⟨fun h r hr => h.keptNode_eq hr ▸ r.recognized_nodeIn s.entries, keysApart_of_recognized⟩

/-- And just then every reference gets the type that it stands for. -/
theorem keysApart_iff_keptNode_eq :
    s.KeysApart ↔ ∀ r ∈ s.refs, s.keptNode r = s.typeNode r :=
  ⟨fun h _ hr => h.keptNode_eq hr, fun h => keysApart_of_recognized fun r hr =>
    h r hr ▸ r.recognized_nodeIn s.entries⟩

/-- Names that do not begin like the key of a type parameter are kept apart. -/
theorem Plain.keysApart (hs : s.Plain) : s.KeysApart := by
  intro r hr hparameter
  refine ⟨List.find?_eq_none.mpr fun q hq hname => ?_, fun r' hr' hkey =>
    TypeRef.key_injective (hs.refs hr') (hs.refs hr) hkey⟩
  refine (hs.entries hq).1 (of_decide_eq_true hname ▸ ?_)
  cases r with
  | ofMethod name => exact TypeRef.isMarked_key_ofMethod name
  | ofClass name => exact TypeRef.isMarked_key_ofClass name
  | global => exact hparameter.elim

end Snapshot

/-! ## The types of members -/

/-- The field lies at the handle, and its type is the one that is kept for its text. -/
def FieldDescription.KeptAt (f : FieldDescription) (s : Snapshot) (a : Arena)
    (c : ClassDescription) (h : Handle) : Prop :=
  ∃ n, a.field h = .ok n ∧ a.HoldsType n.type (s.keptNode (f.ref c))

/-- The method lies at the handle, and its types are those that are kept for its texts. -/
def MethodDescription.KeptAt (m : MethodDescription) (s : Snapshot) (a : Arena)
    (c : ClassDescription) (h : Handle) : Prop :=
  ∃ n, a.method h = .ok n ∧ a.HoldsType n.returnType (s.keptNode (m.returnRef c)) ∧
    List.Forall₂ (fun p q => a.HoldsType q.2 (s.keptNode (p.ref c m))) m.parameters n.parameters

/-- The class lies at the handle with such members. -/
def ClassDescription.KeptAt (c : ClassDescription) (s : Snapshot) (a : Arena) (h : Handle) : Prop :=
  ∃ n, a.class_ h = .ok n ∧
    List.Forall₂ (fun f => FieldDescription.KeptAt f s a c) c.fields n.fields ∧
    List.Forall₂ (fun m => MethodDescription.KeptAt m s a c) c.methods n.methods

section

variable {a b : Arena} (hab : a.Later b) {s : Snapshot} {c : ClassDescription} {h : Handle}
include hab

theorem FieldDescription.KeptAt.later {f : FieldDescription} (hf : f.KeptAt s a c h) :
    f.KeptAt s b c h := by
  obtain ⟨n, hn, htype⟩ := hf
  exact ⟨n, hab.field hn, htype.later hab⟩

theorem MethodDescription.KeptAt.later {m : MethodDescription} (hm : m.KeptAt s a c h) :
    m.KeptAt s b c h := by
  obtain ⟨n, hn, hreturn, hparameters⟩ := hm
  exact ⟨n, hab.method hn, hreturn.later hab, hparameters.imp fun _ _ hp => hp.later hab⟩

theorem ClassDescription.KeptAt.later (hc : c.KeptAt s a h) : c.KeptAt s b h := by
  obtain ⟨n, hn, hfields, hmethods⟩ := hc
  exact ⟨n, hab.class_ hn, hfields.imp fun _ _ hf => hf.later hab,
    hmethods.imp fun _ _ hm => hm.later hab⟩

end

namespace Load

variable {s : Snapshot} {l : Loader} (hl : Kept s.entries s.refs l)
include hl

theorem Kept.holdsType {text : String} {classScope methodScope : List String} {t : Handle}
    (ht : TypeKept l text classScope methodScope t) :
    l.arena.HoldsType t (s.keptNode (.ofText text classScope methodScope)) :=
  ⟨_, hl.type_eq ht, rfl, rfl, rfl⟩

theorem Kept.keptAt {known : WellKnown} {image h : Handle} {c : ClassDescription}
    (hc : LinkedAt l known image c h) : c.KeptAt s l.arena h := by
  obtain ⟨t, fields, methods, hclass, -, hfields, hmethods⟩ := hc
  refine ⟨_, hclass, hfields.imp fun f k hf => ?_, hmethods.imp fun m k hm => ?_⟩
  · obtain ⟨t, ht, hnode⟩ := hf
    exact ⟨_, hnode, hl.holdsType ht⟩
  · obtain ⟨ret, ps, hret, hps, hnode⟩ := hm
    exact ⟨_, hnode, hl.holdsType hret, hps.imp fun p q hq => hl.holdsType hq.2⟩

end Load

/-- In the machine of a snapshot the members of every class have the types that are kept for their
texts. -/
theorem Snapshot.keptAt_machine {s : Snapshot} {q : Handle × ClassDescription}
    (hq : q ∈ s.entries) : q.2.KeptAt s s.machine.arena q.1 := by
  obtain ⟨l, hmachine, hlaid, hkept⟩ := s.machine_kept
  obtain ⟨p, -, hlinked⟩ := hlaid.linkedAt hq
  rw [hmachine]
  exact hkept.keptAt hlinked

end VmMetadata
