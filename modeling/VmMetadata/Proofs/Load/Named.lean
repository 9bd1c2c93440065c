import VmMetadata.Proofs.Load.Machine

/-!
What names stand for in a loaded snapshot. Of classes with one full name the first stands for it,
whichever image it is in, and a text that names a type refers to a type parameter before it refers
to a class. Main statement: the tables that the loader leaves hold for every name just this, as long
as no name begins like the key of a type parameter.
-/

namespace VmMetadata

open Arena (handleAt)

/-- The first of the classes with the full name, and its handle. -/
def firstOf? (entries : List (Handle × ClassDescription)) (name : String) :
    Option (Handle × ClassDescription) :=
  entries.find? fun q => q.2.fullName = name

theorem firstOf?_append (entries : List (Handle × ClassDescription)) (h : Handle)
    (c : ClassDescription) (name : String) :
    firstOf? (entries ++ [(h, c)]) name =
      (firstOf? entries name).or (if c.fullName = name then some (h, c) else none) := by
  unfold firstOf?
  rw [List.find?_append]
  congr 1
  by_cases hc : c.fullName = name <;> simp [hc]

/-! ## Kinds -/

/-- The kinds that names and classes have. Type parameters are of no such kind. -/
def TypeKind.named : List TypeKind :=
  [.void, .boolean, .char, .i1, .u1, .i2, .u2, .i4, .u4, .i8, .u8, .r4, .r8, .string, .i, .u,
    .object, .szArray, .ptr, .byRef, .genericInst, .classType, .valueType]

theorem TypeName.kind_mem (name : String) : kind name ∈ TypeKind.named := by
  unfold kind
  cases hbuiltin : builtin? name with
  | some k =>
      unfold builtin? at hbuiltin
      split at hbuiltin <;> cases hbuiltin <;> decide
  | none =>
      rw [Option.getD_none]
      unfold shape
      split_ifs <;> decide

theorem ClassDescription.typeKind_mem (c : ClassDescription) : c.typeKind ∈ TypeKind.named := by
  have hkind := TypeName.kind_mem c.fullName
  unfold typeKind
  split
  · split_ifs <;> decide
  · split_ifs <;> decide
  · exact hkind

/-! ## References -/

/-- The name begins like the key under which the loader keeps a type parameter. -/
def IsMarked (name : String) : Prop :=
  name.toList.head? = some '!'

instance (name : String) : Decidable (IsMarked name) :=
  inferInstanceAs (Decidable (_ = _))

/-- What a text that names a type refers to. -/
inductive TypeRef
  /-- A type parameter of the method. -/
  | ofMethod (name : String)
  /-- A type parameter of the class. -/
  | ofClass (name : String)
  /-- A class, or no type that is described. -/
  | global (name : String)
  deriving DecidableEq, Repr

namespace TypeRef

def name : TypeRef → String
  | ofMethod name | ofClass name | global name => name

/-- What a normalized name refers to: type parameters of the method come before those of the class,
and both before all other names. -/
def ofName (name : String) (classScope methodScope : List String) : TypeRef :=
  if methodScope.contains name then ofMethod name
  else if classScope.contains name then ofClass name
  else global name

/-- The reference of a text in the scope of a class and a method. -/
def ofText (text : String) (classScope methodScope : List String) : TypeRef :=
  ofName (TypeName.normalized text) classScope methodScope

/-- Where the loader keeps the type. -/
def key : TypeRef → String
  | ofMethod name => "!!" ++ name
  | ofClass name => "!" ++ name
  | global name => name

/-- The representation of a type that no class describes. -/
def kind : TypeRef → TypeKind
  | ofMethod _ => .mvar
  | ofClass _ => .var
  | global name => TypeName.kind name

/-- The type that is made where no class describes it. -/
def blankNode (r : TypeRef) : TypeNode where
  name := r.name
  kind := r.kind
  «class» := .null
  object := .null

/-- The type that the reference stands for among these classes. -/
def nodeIn (entries : List (Handle × ClassDescription)) : TypeRef → TypeNode
  | global name =>
      match firstOf? entries name with
      | some (h, c) => c.typeNode h
      | none => (global name).blankNode
  | r => r.blankNode

/-- What is no type parameter is of a kind that names and classes have. -/
theorem kind_nodeIn_global (entries : List (Handle × ClassDescription)) (name : String) :
    ((global name).nodeIn entries).kind ∈ TypeKind.named := by
  unfold nodeIn
  simp only []
  split
  · exact ClassDescription.typeKind_mem _
  · exact TypeName.kind_mem name

@[simp] theorem name_ofText (text : String) (classScope methodScope : List String) :
    (ofText text classScope methodScope).name = TypeName.normalized text := by
  unfold ofText ofName
  split
  · rfl
  · split <;> rfl

theorem typeKey_eq (text : String) (classScope methodScope : List String) :
    Load.typeKey (TypeName.normalized text) classScope methodScope =
      ((ofText text classScope methodScope).key, (ofText text classScope methodScope).kind) := by
  unfold Load.typeKey ofText ofName
  split
  · rfl
  · split <;> rfl

theorem isMarked_key_ofMethod (name : String) : IsMarked (ofMethod name).key := by
  simp [IsMarked, key, String.toList_append]

theorem isMarked_key_ofClass (name : String) : IsMarked (ofClass name).key := by
  simp [IsMarked, key, String.toList_append]

/-- Names that are not marked are kept apart. -/
theorem key_injective {r r' : TypeRef} (hr : ¬IsMarked r.name) (hr' : ¬IsMarked r'.name)
    (h : r.key = r'.key) : r = r' := by
  have hkeys := congrArg String.toList h
  cases r with
  | ofMethod name =>
      cases r' with
      | ofMethod name' =>
          simp only [key, String.toList_append, List.append_cancel_left_eq,
            String.toList_inj] at hkeys
          rw [hkeys]
      | ofClass name' =>
          -- what is left of the longer mark would mark the other name
          refine absurd ?_ hr'
          simp only [key, String.toList_append] at hkeys
          exact congrArg (fun cs => cs.tail.head?) hkeys.symm
      | global name' => exact absurd (h ▸ isMarked_key_ofMethod name : IsMarked (global name').key) hr'
  | ofClass name =>
      cases r' with
      | ofMethod name' =>
          refine absurd ?_ hr
          simp only [key, String.toList_append] at hkeys
          exact congrArg (fun cs => cs.tail.head?) hkeys
      | ofClass name' =>
          simp only [key, String.toList_append, List.append_cancel_left_eq,
            String.toList_inj] at hkeys
          rw [hkeys]
      | global name' => exact absurd (h ▸ isMarked_key_ofClass name : IsMarked (global name').key) hr'
  | global name =>
      cases r' with
      | ofMethod name' => exact absurd (h ▸ isMarked_key_ofMethod name' : IsMarked (global name).key) hr
      | ofClass name' => exact absurd (h ▸ isMarked_key_ofClass name' : IsMarked (global name).key) hr
      | global name' => exact congrArg global h

end TypeRef

/-! ## Tables of the first pass -/

theorem getElem?_insertIfNew_or (t : Std.TreeMap String Handle) (k name : String) (v : Handle) :
    (t.insertIfNew k v)[name]? = t[name]?.or (if k = name then some v else none) := by
  rw [Std.TreeMap.getElem?_insertIfNew]
  by_cases hk : k = name
  · subst hk
    by_cases hmem : k ∈ t <;> simp [hmem]
  · rw [if_neg fun h => hk (Std.LawfulEqCmp.eq_of_compare h.1), if_neg hk, Option.or_none]

namespace Arena

/-- To set an object that is no type leaves all types as they are. -/
theorem type_set {a : Arena} {h t : Handle} {n n' : Node} {m : TypeNode}
    (hn : a.get? h = some n) (hne : ∀ k, n ≠ .type k) (ht : a.type t = .ok m) :
    (a.set h n').type t = .ok m := by
  rw [type_eq_ok] at ht ⊢
  rw [get?_set_of_ne, ht]
  rintro rfl
  rw [ht] at hn
  exact hne m (Option.some.inj hn).symm

end Arena

namespace Load

/-- The tables hold the first class of every name and its type. Any other type in them is the one
that was made for a reference. -/
structure Interned (entries : List (Handle × ClassDescription)) (l : Loader) : Prop where
  named : ∀ name : String, l.classes[name]? = (firstOf? entries name).map Prod.fst
  typed : ∀ {name h c}, firstOf? entries name = some (h, c) →
    ∃ t, l.types[name]? = some t ∧ l.arena.type t = .ok (c.typeNode h)
  blank : ∀ {key t}, l.types[key]? = some t → firstOf? entries key = none →
    ∃ r : TypeRef, r.key = key ∧ ¬IsMarked r.name ∧ l.arena.type t = .ok r.blankNode

theorem Interned.mono {entries : List (Handle × ClassDescription)} {l m : Loader}
    (h : Interned entries l) (hclasses : m.classes = l.classes) (htypes : m.types = l.types)
    (harena : ∀ {t n}, l.arena.type t = .ok n → m.arena.type t = .ok n) :
    Interned entries m where
  named name := hclasses ▸ h.named name
  typed hfirst := by
    obtain ⟨t, ht, hn⟩ := h.typed hfirst
    exact ⟨t, htypes ▸ ht, harena hn⟩
  blank ht hfirst := by
    obtain ⟨r, hkey, hr, hn⟩ := h.blank (htypes ▸ ht) hfirst
    exact ⟨r, hkey, hr, harena hn⟩

/-- The tables hold the first class of every name and its type, and nothing else. -/
structure Entered (entries : List (Handle × ClassDescription)) (l : Loader) : Prop
    extends Interned entries l where
  missing : ∀ {name}, firstOf? entries name = none → l.types[name]? = none

theorem Entered.mono {entries : List (Handle × ClassDescription)} {l m : Loader}
    (h : Entered entries l) (hclasses : m.classes = l.classes) (htypes : m.types = l.types)
    (harena : ∀ {t n}, l.arena.type t = .ok n → m.arena.type t = .ok n) :
    Entered entries m :=
  ⟨h.toInterned.mono hclasses htypes harena, fun hfirst => htypes ▸ h.missing hfirst⟩

theorem Entered.push {entries : List (Handle × ClassDescription)} {l : Loader}
    (h : Entered entries l) (n : Node) : Entered entries { l with arena := l.arena.push n } :=
  h.mono rfl rfl fun ht => (Loader.GrowsBut.push l n).type (by simp) ht

theorem declareClass_enters {entries : List (Handle × ClassDescription)} {l : Loader}
    (hl : Entered entries l) (image : Handle) (c : ClassDescription) :
    Entered (entries ++ [((declareClass image c l).1, c)]) (declareClass image c l).2 := by
  rw [declareClass_apply]
  have hstays : ∀ {t n}, l.arena.type t = .ok n →
      (l.arena.append (declaredNodes image l.arena.nodes.size c)).type t = .ok n := fun ht =>
    Arena.type_eq_ok.mpr (Arena.get?_append_of_get? (Arena.type_eq_ok.mp ht) _)
  have hmissing : ∀ {name}, firstOf? (entries ++ [(l.arena.next, c)]) name = none →
      (l.types.insertIfNew c.fullName (handleAt (l.arena.nodes.size + 1)))[name]? = none := by
    intro name hfirst
    rw [firstOf?_append, Option.or_eq_none_iff] at hfirst
    rw [getElem?_insertIfNew_or, hl.missing hfirst.1, Option.none_or]
    split
    · rename_i hc
      rw [if_pos hc] at hfirst
      cases hfirst.2
    · rfl
  refine ⟨⟨fun name => ?_, fun {name h d} hfirst => ?_, fun {name t} ht hfirst => ?_⟩, hmissing⟩
  · simp only [getElem?_insertIfNew_or, firstOf?_append, hl.named, Option.map_or]
    by_cases hc : c.fullName = name <;> simp [hc]
  · rw [firstOf?_append] at hfirst
    simp only [getElem?_insertIfNew_or]
    cases hold : firstOf? entries name with
    | some q =>
        rw [hold, Option.some_or] at hfirst
        cases hfirst
        obtain ⟨t, ht, hn⟩ := hl.typed hold
        exact ⟨t, by rw [ht, Option.some_or], hstays hn⟩
    | none =>
        rw [hold, Option.none_or] at hfirst
        split at hfirst
        · rename_i hc
          cases hfirst
          exact ⟨_, by rw [hl.missing hold, Option.none_or, if_pos hc],
            Arena.type_eq_ok.mpr (Arena.get?_append_new l.arena (i := 1) rfl)⟩
        · cases hfirst
  · rw [hmissing hfirst] at ht
    cases ht

theorem mapM_declareClass_enters (image : Handle) : ∀ (cs : List ClassDescription)
    {entries : List (Handle × ClassDescription)} {l : Loader}, Entered entries l →
      Entered (entries ++ (cs.mapM (declareClass image) l).1.zip cs)
        (cs.mapM (declareClass image) l).2
  | [], entries, l, hl => by
      rw [List.mapM_nil, pure_apply, List.zip_nil_right, List.append_nil]
      exact hl
  | c :: cs, entries, l, hl => by
      have hrest := mapM_declareClass_enters image cs (declareClass_enters hl image c)
      rw [List.mapM_cons, bind_apply, bind_apply, pure_apply]
      rw [List.append_assoc] at hrest
      exact hrest

/-- An image enters its classes behind those of the images before it. -/
theorem declareImage_enters {p : Site} {entries : List (Handle × ClassDescription)} {l : Loader}
    (hl : l.Sound) (hp : l.arena.nodes.size = p.position) (h : Entered entries l) :
    Entered (entries ++ p.classes.zip p.described)
      (declareImage p.name p.described (word32 p.start) l).2 := by
  let l₁ : Loader := { l with arena := l.arena.push (.image (blankImage p)) }
  have hnext : l.arena.next = p.image := by rw [Arena.next, hp, Site.image]
  have hblank : l₁.arena.get? p.image = some (.image (blankImage p)) := by
    rw [← hnext]
    exact Arena.get?_push_next l.arena _
  have hl₁ : l₁.Sound := hl.push (by simp [Node.WellLinked, blankImage])
  obtain ⟨l₂, hclasses, -, hgrow, -, -⟩ := declareClasses_site hl₁
    ⟨_, Arena.image_eq_ok.mpr hblank⟩ (by simp [l₁, Arena.push, hp])
  have hentered := mapM_declareClass_enters p.image p.described (h.push (.image (blankImage p)))
  have hclasses' : p.described.mapM (declareClass p.image) { l with
      arena := l.arena.push (.image (blankImage p)) } = (p.classes, l₂) := hclasses
  rw [hclasses'] at hentered
  rw [declareImage_of_classes hp hclasses]
  exact hentered.mono rfl rfl fun ht => Arena.type_set (hgrow.get? hblank) (by simp) ht

theorem declareAssemblies_enters : ∀ (as : List AssemblyDescription) (position start : Nat)
    {entries : List (Handle × ClassDescription)} {l : Loader}, l.Sound →
      l.arena.nodes.size = position → Entered entries l →
      Entered (entries ++ (sitesFrom position start as).flatMap fun p => p.classes.zip p.described)
        (declareAssemblies as start l).2
  | [], _, _, entries, l, _, _, h => by
      rw [sitesFrom, List.flatMap_nil, List.append_nil]
      exact h
  | a :: rest, position, start, entries, l, hl, hsize, h => by
      let p : Site := ⟨a.image, a.classes, position, start⟩
      obtain ⟨l₁, hrun, hl₁, -, hp, hsize₁⟩ := declareImage_site (p := p) hl hsize
      have hentered := declareImage_enters (p := p) hl hsize h
      rw [hrun] at hentered
      let l₂ : Loader := { l₁ with arena := l₁.arena.push (.assembly p.image) }
      have hl₂ : l₂.Sound :=
        hl₁.push ((Loader.GrowsBut.push l₁ _).keeps.hasImage ⟨_, hp.1⟩)
      have hsize₂ : l₂.arena.nodes.size = position + 2 + 2 * a.classes.length := by
        simp only [l₂, p, Arena.push, Array.size_push, hsize₁]
        omega
      have hrest := declareAssemblies_enters rest (position + 2 + 2 * a.classes.length)
        (start + a.classes.length) hl₂ hsize₂ (hentered.push (.assembly p.image))
      rw [declareAssemblies_cons, show declareImage a.image a.classes (word32 start) l = _ from hrun]
      simp only [Site.length_classes]
      rw [sitesFrom, List.flatMap_cons, ← List.append_assoc]
      exact hrest

end Load

end VmMetadata
