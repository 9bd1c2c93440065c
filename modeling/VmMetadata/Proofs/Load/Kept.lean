import VmMetadata.Proofs.Load.Named

/-!
Which types the second pass of loading makes. It reads the texts of the members class by class, and
under every key the first reference decides which type is kept; only the types of classes are there
before. Main statement: a step that reads texts keeps just the types of their references, in the
order in which they are read, whatever the names are.
-/

namespace VmMetadata

/-! ## The references of a class -/

def FieldDescription.ref (f : FieldDescription) (c : ClassDescription) : TypeRef :=
  .ofText f.type c.typeParameters []

def MethodDescription.returnRef (m : MethodDescription) (c : ClassDescription) : TypeRef :=
  .ofText m.returnType c.typeParameters m.typeParameters

def ParameterDescription.ref (p : ParameterDescription) (c : ClassDescription)
    (m : MethodDescription) : TypeRef :=
  .ofText p.type c.typeParameters m.typeParameters

/-- What the texts of the method refer to, in the order in which they are read. -/
def MethodDescription.refs (m : MethodDescription) (c : ClassDescription) : List TypeRef :=
  m.returnRef c :: m.parameters.map fun p => p.ref c m

/-- What the texts of the class refer to, in the order in which they are read. -/
def ClassDescription.refs (c : ClassDescription) : List TypeRef :=
  (c.fields.map fun f => f.ref c) ++ c.methods.flatMap fun m => m.refs c

/-- The first of the references with the key. -/
def firstRef? (refs : List TypeRef) (key : String) : Option TypeRef :=
  refs.find? fun r => r.key = key

theorem firstRef?_append (refs : List TypeRef) (r : TypeRef) (key : String) :
    firstRef? (refs ++ [r]) key =
      (firstRef? refs key).or (if r.key = key then some r else none) := by
  unfold firstRef?
  rw [List.find?_append]
  congr 1
  by_cases hr : r.key = key <;> simp [hr]

theorem key_of_firstRef? {refs : List TypeRef} {key : String} {r : TypeRef}
    (h : firstRef? refs key = some r) : r.key = key := by
  simpa using List.find?_some h

namespace Load

variable {entries : List (Handle × ClassDescription)}

/-! ## Tables of the second pass -/

/-- The tables hold the first class of every name and its type. Under any other key there is the
type of the first reference with the key, if there is one. -/
structure Kept (entries : List (Handle × ClassDescription)) (refs : List TypeRef) (l : Loader) :
    Prop where
  named : ∀ name : String, l.classes[name]? = (firstOf? entries name).map Prod.fst
  typed : ∀ {name h c}, firstOf? entries name = some (h, c) →
    ∃ t, l.types[name]? = some t ∧ l.arena.type t = .ok (c.typeNode h)
  made : ∀ {key r}, firstOf? entries key = none → firstRef? refs key = some r →
    ∃ t, l.types[key]? = some t ∧ l.arena.type t = .ok r.blankNode
  missing : ∀ {key}, firstOf? entries key = none → firstRef? refs key = none →
    l.types[key]? = none

theorem Entered.kept {l : Loader} (h : Entered entries l) : Kept entries [] l where
  named := h.named
  typed := h.typed
  made := fun _ hr => by cases hr
  missing := fun hfirst _ => h.missing hfirst

namespace Kept

variable {refs : List TypeRef} {l m : Loader}

theorem mono (h : Kept entries refs l) (hclasses : m.classes = l.classes)
    (htypes : m.types = l.types)
    (harena : ∀ {t n}, l.arena.type t = .ok n → m.arena.type t = .ok n) : Kept entries refs m where
  named name := hclasses ▸ h.named name
  typed hfirst := by
    obtain ⟨t, ht, hn⟩ := h.typed hfirst
    exact ⟨t, htypes ▸ ht, harena hn⟩
  made hfirst hr := by
    obtain ⟨t, ht, hn⟩ := h.made hfirst hr
    exact ⟨t, htypes ▸ ht, harena hn⟩
  missing hfirst hr := htypes ▸ h.missing hfirst hr

/-- Where a key is taken, another reference with it changes nothing. -/
theorem again (h : Kept entries refs l) {r : TypeRef} {t : Handle} (ht : l.types[r.key]? = some t) :
    Kept entries (refs ++ [r]) l where
  named := h.named
  typed := h.typed
  made {key r'} hfirst hr := by
    rw [firstRef?_append] at hr
    cases hold : firstRef? refs key with
    | some r₀ =>
        rw [hold, Option.some_or] at hr
        cases hr
        exact h.made hfirst hold
    | none =>
        rw [hold, Option.none_or] at hr
        split at hr
        · rename_i hkey
          rw [hkey, h.missing hfirst hold] at ht
          cases ht
        · cases hr
  missing hfirst hr := by
    rw [firstRef?_append, Option.or_eq_none_iff] at hr
    exact h.missing hfirst hr.1

/-- Where a key is free, its type is made. -/
theorem make (h : Kept entries refs l) {r : TypeRef} (hkey : l.types[r.key]? = none) :
    Kept entries (refs ++ [r]) { l with
      arena := l.arena.push (.type r.blankNode)
      types := l.types.insert r.key l.arena.next } := by
  have hstays : ∀ {t n}, l.arena.type t = .ok n →
      (l.arena.push (.type r.blankNode)).type t = .ok n :=
    fun ht => (Loader.GrowsBut.push l _).type (by simp) ht
  have hother : ∀ {key : String} {t : Handle}, l.types[key]? = some t →
      (l.types.insert r.key l.arena.next)[key]? = some t := by
    intro key t ht
    rw [Std.TreeMap.getElem?_insert, if_neg, ht]
    intro heq
    rw [Std.LawfulEqCmp.eq_of_compare heq, ht] at hkey
    cases hkey
  refine ⟨h.named, fun hfirst => ?_, fun {key r'} hfirst hr => ?_, fun {key} hfirst hr => ?_⟩
  · obtain ⟨t, ht, hn⟩ := h.typed hfirst
    exact ⟨t, hother ht, hstays hn⟩
  · rw [firstRef?_append] at hr
    cases hold : firstRef? refs key with
    | some r₀ =>
        rw [hold, Option.some_or] at hr
        cases hr
        obtain ⟨t, ht, hn⟩ := h.made hfirst hold
        exact ⟨t, hother ht, hstays hn⟩
    | none =>
        rw [hold, Option.none_or] at hr
        split at hr
        · rename_i heq
          cases hr
          exact ⟨_, heq ▸ Std.TreeMap.getElem?_insert_self,
            Arena.type_eq_ok.mpr (Arena.get?_push_next _ _)⟩
        · cases hr
  · rw [firstRef?_append, Option.or_eq_none_iff] at hr
    rw [Std.TreeMap.getElem?_insert, if_neg, h.missing hfirst hr.1]
    intro heq
    rw [if_pos (Std.LawfulEqCmp.eq_of_compare heq)] at hr
    cases hr.2

end Kept

/-- The types of references that are not marked are those that were made for them. -/
theorem Kept.interned {refs : List TypeRef} {l : Loader} (h : Kept entries refs l)
    (hplain : ∀ r ∈ refs, ¬IsMarked r.name) : Interned entries l where
  named := h.named
  typed := h.typed
  blank {key t} ht hfirst := by
    cases hr : firstRef? refs key with
    | none =>
        rw [h.missing hfirst hr] at ht
        cases ht
    | some r =>
        obtain ⟨u, hu, hn⟩ := h.made hfirst hr
        cases hu.symm.trans ht
        exact ⟨r, key_of_firstRef? hr, hplain r (List.mem_of_find?_eq_some hr), hn⟩

/-! ## Steps that read texts -/

/-- The step reads texts with just these references, in this order. -/
def Refers (entries : List (Handle × ClassDescription)) (x : Load α) (refs : List TypeRef) : Prop :=
  ∀ before l, Kept entries before l → Kept entries (before ++ refs) (x l).2

namespace Refers

variable {x : Load α} {refs others : List TypeRef}

/-- What leaves the tables and all types as they are. -/
theorem none (h : ∀ l, (x l).2.classes = l.classes ∧ (x l).2.types = l.types ∧
    ∀ {t n}, l.arena.type t = .ok n → (x l).2.arena.type t = .ok n) : Refers entries x [] := by
  intro before l hl
  obtain ⟨hclasses, htypes, harena⟩ := h l
  rw [List.append_nil]
  exact hl.mono hclasses htypes harena

theorem pure (a : α) : Refers entries (Pure.pure a : Load α) [] :=
  .none fun _ => ⟨rfl, rfl, fun ht => ht⟩

theorem push (n : Node) : Refers entries (Load.push n) [] :=
  .none fun l => ⟨rfl, rfl, fun ht => (Loader.GrowsBut.push l n).type (by simp) ht⟩

theorem bind {f : α → Load β} (hx : Refers entries x refs)
    (hf : ∀ a, Refers entries (f a) others) : Refers entries (x >>= f) (refs ++ others) := by
  intro before l hl
  rw [← List.append_assoc]
  exact hf _ _ _ (hx before l hl)

theorem mapM {f : α → Load β} {refs : α → List TypeRef} (hf : ∀ a, Refers entries (f a) (refs a)) :
    ∀ as : List α, Refers entries (as.mapM f) (as.flatMap refs)
  | [] => by
      rw [List.mapM_nil]
      exact .pure []
  | a :: as => by
      rw [List.mapM_cons, List.flatMap_cons, ← List.append_nil (as.flatMap refs)]
      exact (hf a).bind fun _ => (mapM hf as).bind fun _ => .pure _

theorem forM {f : α → Load PUnit} {refs : α → List TypeRef}
    (hf : ∀ a, Refers entries (f a) (refs a)) :
    ∀ as : List α, Refers entries (as.forM f) (as.flatMap refs)
  | [] => .pure PUnit.unit
  | a :: as => by
      rw [List.flatMap_cons]
      exact (hf a).bind fun _ => forM hf as

end Refers

theorem internType_refers (text : String) (classScope methodScope : List String) :
    Refers entries (internType text classScope methodScope)
      [.ofText text classScope methodScope] := by
  intro before l hl
  cases hkey : l.types[(typeKey (TypeName.normalized text) classScope methodScope).1]? with
  | some t =>
      rw [internType_known hkey]
      rw [TypeRef.typeKey_eq] at hkey
      exact hl.again hkey
  | none =>
      rw [internType_new hkey]
      rw [TypeRef.typeKey_eq] at hkey ⊢
      have hmade := hl.make hkey
      rw [TypeRef.blankNode, TypeRef.name_ofText] at hmade
      exact hmade

theorem linkField_refers (c : ClassDescription) (f : FieldDescription) :
    Refers entries (linkField c f) [f.ref c] := by
  rw [← List.append_nil [f.ref c]]
  exact (internType_refers _ _ _).bind fun _ => .push _

theorem linkParameter_refers (c : ClassDescription) (m : MethodDescription)
    (p : ParameterDescription) : Refers entries (linkParameter c m p) [p.ref c m] := by
  rw [← List.append_nil [p.ref c m]]
  exact (internType_refers _ _ _).bind fun _ => .pure _

theorem linkMethod_refers (c : ClassDescription) (cls : Handle) (m : MethodDescription) :
    Refers entries (linkMethod cls c m) (m.refs c) := by
  have hparameters : Refers entries (m.parameters.mapM (linkParameter c m))
      (m.parameters.map fun p => p.ref c m) := by
    rw [List.map_eq_flatMap]
    exact .mapM (linkParameter_refers c m) m.parameters
  have hrefs : m.refs c =
      [m.returnRef c] ++ ((m.parameters.map fun p => p.ref c m) ++ []) := by
    rw [List.append_nil]
    rfl
  rw [hrefs]
  exact (internType_refers _ _ _).bind fun _ => hparameters.bind fun _ => .push _

theorem linkClass_refers (known : WellKnown) (cls : Handle) (c : ClassDescription) :
    Refers entries (linkClass known cls c) c.refs := by
  have hparent : Refers entries (parentOf known cls c) [] := .none fun l => by
    rw [parentOf_apply]
    exact ⟨rfl, rfl, fun ht => ht⟩
  have hdeclaring : Refers entries (declaringOf c) [] := .none fun l => by
    rw [declaringOf_apply]
    exact ⟨rfl, rfl, fun ht => ht⟩
  have hinterfaces : Refers entries
      (c.interfaces.mapM fun name => classNamed (TypeName.normalized name)) [] := .none fun l => by
    rw [mapM_classNamed]
    exact ⟨rfl, rfl, fun ht => ht⟩
  have hfields : Refers entries (c.fields.mapM (linkField c)) (c.fields.map fun f => f.ref c) := by
    rw [List.map_eq_flatMap]
    exact .mapM (linkField_refers c) c.fields
  have hrefs : c.refs = [] ++ ([] ++ ([] ++ ((c.fields.map fun f => f.ref c) ++
      ((c.methods.flatMap fun m => m.refs c) ++ [])))) := by
    simp only [List.nil_append, List.append_nil]
    rfl
  rw [hrefs]
  refine hparent.bind fun parent => hdeclaring.bind fun declaring => hinterfaces.bind
    fun interfaces => hfields.bind fun fields =>
    (Refers.mapM (linkMethod_refers c cls) c.methods).bind fun methods => .none fun l => ?_
  rw [modify_apply]
  split
  · rename_i node hnode
    exact ⟨rfl, rfl, fun ht => Arena.type_set hnode (by simp) ht⟩
  · exact ⟨rfl, rfl, fun ht => ht⟩

theorem linkClasses_refers (known : WellKnown) (pending : List (Handle × ClassDescription)) :
    Refers entries (pending.forM fun q => linkClass known q.1 q.2)
      (pending.flatMap fun q => q.2.refs) := by
  have h : ∀ q : Handle × ClassDescription, Refers entries (linkClass known q.1 q.2) q.2.refs :=
    fun q => linkClass_refers known q.1 q.2
  exact Refers.forM h pending

end Load

end VmMetadata
