import VmMetadata.Proofs.Load.Kept

/-!
What the tables of a loaded snapshot hold. Main statements: every text that names a type has found
the type that is kept under the key of its reference, whatever the names are; and this is the type
that its reference stands for, as long as no name begins like the key of a type parameter.
-/

namespace VmMetadata

/-! ## Descriptions whose names are kept apart -/

/-- The texts of the class that name types. -/
def ClassDescription.typeTexts (c : ClassDescription) : List String :=
  c.fields.map FieldDescription.type ++
    c.methods.flatMap fun m => m.returnType :: m.parameters.map ParameterDescription.type

/-- No name of the class, and none that it gives a type, begins like the key of a type parameter. -/
def ClassDescription.Plain (c : ClassDescription) : Prop :=
  ¬IsMarked c.fullName ∧ ∀ text ∈ c.typeTexts, ¬IsMarked (TypeName.normalized text)

instance (c : ClassDescription) : Decidable c.Plain :=
  inferInstanceAs (Decidable (_ ∧ _))

def Snapshot.Plain (s : Snapshot) : Prop :=
  ∀ a ∈ s.assemblies, ∀ c ∈ a.classes, c.Plain

instance (s : Snapshot) : Decidable s.Plain :=
  inferInstanceAs (Decidable (∀ _ ∈ _, _))

namespace ClassDescription.Plain

variable {c : ClassDescription} (hc : c.Plain)
include hc

theorem field {f : FieldDescription} (hf : f ∈ c.fields) :
    ¬IsMarked (TypeName.normalized f.type) :=
  hc.2 _ (List.mem_append_left _ (List.mem_map_of_mem hf))

theorem returnType {m : MethodDescription} (hm : m ∈ c.methods) :
    ¬IsMarked (TypeName.normalized m.returnType) :=
  hc.2 _ (List.mem_append_right _ (List.mem_flatMap.mpr ⟨m, hm, List.mem_cons_self⟩))

theorem parameter {m : MethodDescription} (hm : m ∈ c.methods) {p : ParameterDescription}
    (hp : p ∈ m.parameters) : ¬IsMarked (TypeName.normalized p.type) :=
  hc.2 _ (List.mem_append_right _ (List.mem_flatMap.mpr
    ⟨m, hm, List.mem_cons_of_mem _ (List.mem_map_of_mem hp)⟩))

theorem refs {r : TypeRef} (hr : r ∈ c.refs) : ¬IsMarked r.name := by
  rcases List.mem_append.mp hr with hr | hr
  · obtain ⟨f, hf, rfl⟩ := List.mem_map.mp hr
    rw [FieldDescription.ref, TypeRef.name_ofText]
    exact hc.field hf
  · obtain ⟨m, hm, hr⟩ := List.mem_flatMap.mp hr
    rcases List.mem_cons.mp hr with rfl | hr
    · rw [MethodDescription.returnRef, TypeRef.name_ofText]
      exact hc.returnType hm
    · obtain ⟨p, hp, rfl⟩ := List.mem_map.mp hr
      rw [ParameterDescription.ref, TypeRef.name_ofText]
      exact hc.parameter hm hp

end ClassDescription.Plain

namespace Snapshot

/-- The classes of all images with their handles, in the order in which they are declared. -/
def entries (s : Snapshot) : List (Handle × ClassDescription) :=
  s.images.flatMap fun p => p.classes.zip p.described

theorem Plain.entries {s : Snapshot} (hs : s.Plain) {q : Handle × ClassDescription}
    (hq : q ∈ s.entries) : q.2.Plain := by
  obtain ⟨p, hp, hq⟩ := List.mem_flatMap.mp hq
  have hmem := (List.of_mem_zip hq).2
  rcases mem_images.mp hp with hp | ⟨-, rfl⟩
  · obtain ⟨a, ha, -, hdescribed⟩ := mem_sitesFrom_described hp
    exact hs a ha q.2 (hdescribed ▸ hmem)
  · have hbuiltin : ∀ c ∈ builtinCorlib, c.Plain := by decide +kernel
    exact hbuiltin q.2 hmem

/-- The first class of the full name in any image, and its handle. -/
def classNamed? (s : Snapshot) (name : String) : Option (Handle × ClassDescription) :=
  firstOf? s.entries name

/-- The handle of that class, null if there is none. -/
def handleNamed (s : Snapshot) (name : String) : Handle :=
  ((s.classNamed? name).map Prod.fst).getD .null

def wellKnown (s : Snapshot) : WellKnown where
  object := s.handleNamed "System.Object"
  valueType := s.handleNamed "System.ValueType"
  enumeration := s.handleNamed "System.Enum"
  typeClass := s.handleNamed "System.Type"
  string := s.handleNamed "System.String"

/-- The type that a reference stands for. -/
def typeNode (s : Snapshot) (r : TypeRef) : TypeNode :=
  r.nodeIn s.entries

/-- What the texts of all classes refer to, in the order in which they are read. -/
def refs (s : Snapshot) : List TypeRef :=
  s.entries.flatMap fun q => q.2.refs

/-- The type that is kept under the key of a reference: that of the first class whose full name is
the key, else the one of the first reference with the key. -/
def keptNode (s : Snapshot) (r : TypeRef) : TypeNode :=
  match s.classNamed? r.key with
  | some (h, c) => c.typeNode h
  | none => ((firstRef? s.refs r.key).getD r).blankNode

theorem Plain.refs {s : Snapshot} (hs : s.Plain) {r : TypeRef} (hr : r ∈ s.refs) :
    ¬IsMarked r.name := by
  obtain ⟨q, hq, hr⟩ := List.mem_flatMap.mp hr
  exact (hs.entries hq).refs hr

end Snapshot

namespace Load

/-! ## Steps that leave true what was true -/

/-- Whatever the loader is, `G` stays true of it. -/
def Upholds (G : Loader → Prop) (x : Load α) : Prop :=
  ∀ l, G l → G (x l).2

namespace Upholds

variable {G : Loader → Prop} {x : Load α}

theorem pure (a : α) : Upholds G (Pure.pure a : Load α) :=
  fun _ h => h

theorem bind {f : α → Load β} (hx : Upholds G x) (hf : ∀ a, Upholds G (f a)) :
    Upholds G (x >>= f) :=
  fun l h => hf (x l).1 (x l).2 (hx l h)

theorem mapM {f : α → Load β} : ∀ {as : List α}, (∀ a ∈ as, Upholds G (f a)) →
    Upholds G (as.mapM f)
  | [], _ => by
      rw [List.mapM_nil]
      exact .pure []
  | a :: as, hf => by
      rw [List.mapM_cons]
      exact (hf a List.mem_cons_self).bind fun _ =>
        (mapM fun b hb => hf b (List.mem_cons_of_mem a hb)).bind fun _ => .pure _

theorem forM {f : α → Load PUnit} : ∀ {as : List α}, (∀ a ∈ as, Upholds G (f a)) →
    Upholds G (as.forM f)
  | [], _ => .pure PUnit.unit
  | a :: _, hf => (hf a List.mem_cons_self).bind fun _ =>
      forM fun b hb => hf b (List.mem_cons_of_mem a hb)

end Upholds

theorem classNamed_upholds {G : Loader → Prop} (name : String) : Upholds G (classNamed name) :=
  fun _ h => h

/-! ## Loaded snapshots -/

/-- The core library is found among the images, or made up behind them. -/
theorem corlibOf_enters {s : Snapshot} {l : Loader} (hl : l.Sound)
    (hsize : l.arena.nodes.size = positionAfter 1 s.assemblies)
    (h : Entered (s.sites.flatMap fun p => p.classes.zip p.described) l) :
    Entered s.entries (corlibOf (declaredAt s.sites) l).2 := by
  have hcorlib : (declaredAt s.sites).corlib =
      (s.sites.reverse.find? fun p => p.name = corlibImage).map Site.image := rfl
  unfold corlibOf Snapshot.entries Snapshot.images
  rw [hcorlib]
  cases hf : s.sites.reverse.find? fun p => p.name = corlibImage with
  | some p =>
      rw [if_pos ⟨p, List.mem_reverse.mp (List.mem_of_find?_eq_some hf),
        by simpa using List.find?_some hf⟩]
      exact h
  | none =>
      have hmadeUp := declareImage_enters (p := s.madeUpSite) hl hsize h
      have hnone : ¬∃ p ∈ s.sites, p.name = corlibImage := fun ⟨p, hp, hname⟩ =>
        List.find?_eq_none.mp hf p (List.mem_reverse.mpr hp) (by simpa using hname)
      rw [if_neg hnone, List.flatMap_append, List.flatMap_singleton]
      simp only [Option.map_none, bind_apply, pure_apply]
      rw [show declareImage corlibImage builtinCorlib 0 l = declareImage s.madeUpSite.name
        s.madeUpSite.described (word32 s.madeUpSite.start) l from rfl]
      exact hmadeUp

/-- A table that holds the first class of every name names the classes of the snapshot. -/
theorem named_eq {s : Snapshot} {l : Loader}
    (h : ∀ name : String, l.classes[name]? = (firstOf? s.entries name).map Prod.fst)
    (name : String) : l.named name = s.handleNamed name := by
  rw [Loader.named, h, Snapshot.handleNamed, Snapshot.classNamed?]

/-- What the tables of a loaded snapshot hold, whatever the names are. -/
theorem snapshot_kept (s : Snapshot) :
    (snapshot s ⟨.empty, ∅, ∅⟩).1.wellKnown = s.wellKnown ∧
      Kept s.entries s.refs (snapshot s ⟨.empty, ∅, ∅⟩).2 := by
  have hentered₁ : Entered [] begun := {
    named := fun name => by simp [begun, firstOf?]
    typed := fun hfirst => by cases hfirst
    blank := fun ht => by simp [begun] at ht
    missing := fun _ => by simp [begun] }
  obtain ⟨l₂, hrun₂, hl₂, -, hsites, hsize⟩ :=
    declareAssemblies_sites s.assemblies 1 0 begun sound_begun rfl
  have hentered₂ := declareAssemblies_enters s.assemblies 1 0 sound_begun rfl hentered₁
  rw [hrun₂, List.nil_append] at hentered₂
  obtain ⟨builtin, l₃, hrun₃, -, -, -, hpending⟩ :=
    corlibOf_images hl₂ (fun p hp => (hsites p hp).1) hsize
  have hentered₃ := corlibOf_enters hl₂ hsize hentered₂
  rw [hrun₃] at hentered₃
  have hkept := hentered₃.kept
  have hknown : wellKnown l₃ = (s.wellKnown, l₃) := by
    have hnamed := named_eq hkept.named
    change (({
      object := l₃.named _
      valueType := l₃.named _
      enumeration := l₃.named _
      typeClass := l₃.named _
      string := l₃.named _ } : WellKnown), l₃) = _
    rw [hnamed, hnamed, hnamed, hnamed, hnamed]
    rfl
  have hlinked := linkClasses_refers s.wellKnown s.entries [] l₃ hkept
  rw [snapshot_apply hrun₂ hrun₃ hknown hpending]
  exact ⟨rfl, hlinked⟩

/-- A text has found the type that is kept under the key of its reference. -/
theorem Kept.type_eq {s : Snapshot} {l : Loader} (h : Kept s.entries s.refs l) {text : String}
    {classScope methodScope : List String} {t : Handle}
    (ht : TypeKept l text classScope methodScope t) :
    l.arena.type t = .ok (s.keptNode (.ofText text classScope methodScope)) := by
  rw [TypeKept, TypeRef.typeKey_eq] at ht
  unfold Snapshot.keptNode Snapshot.classNamed?
  cases hfirst : firstOf? s.entries (TypeRef.ofText text classScope methodScope).key with
  | some q =>
      obtain ⟨u, hu, hn⟩ := h.typed hfirst
      cases hu.symm.trans ht
      exact hn
  | none =>
      cases hr : firstRef? s.refs (TypeRef.ofText text classScope methodScope).key with
      | none =>
          rw [h.missing hfirst hr] at ht
          cases ht
      | some r =>
          obtain ⟨u, hu, hn⟩ := h.made hfirst hr
          cases hu.symm.trans ht
          exact hn

variable {entries : List (Handle × ClassDescription)}

/-- A text has found the type that its reference stands for. -/
theorem Interned.type_of_kept {l : Loader} (h : Interned entries l)
    (hentries : ∀ q ∈ entries, ¬IsMarked q.2.fullName) {text : String}
    (hplain : ¬IsMarked (TypeName.normalized text)) {classScope methodScope : List String}
    {t : Handle} (ht : TypeKept l text classScope methodScope t) :
    l.arena.type t = .ok ((TypeRef.ofText text classScope methodScope).nodeIn entries) := by
  rw [TypeKept, TypeRef.typeKey_eq] at ht
  generalize hr : TypeRef.ofText text classScope methodScope = r at ht ⊢
  have hmarked : ¬IsMarked r.name := by rwa [← hr, TypeRef.name_ofText]
  -- what is kept under a key that no class has was made for the reference of that key
  have hblank : firstOf? entries r.key = none → l.arena.type t = .ok r.blankNode := by
    intro hfirst
    obtain ⟨r', hkey, hmarked', hn⟩ := h.blank ht hfirst
    rwa [TypeRef.key_injective hmarked' hmarked hkey] at hn
  have hparameter : IsMarked r.key → firstOf? entries r.key = none := by
    intro hkey
    refine List.find?_eq_none.mpr fun q hq hname => hentries q hq ?_
    rwa [of_decide_eq_true hname]
  cases r with
  | ofMethod name => exact hblank (hparameter (TypeRef.isMarked_key_ofMethod name))
  | ofClass name => exact hblank (hparameter (TypeRef.isMarked_key_ofClass name))
  | global name =>
      cases hfirst : firstOf? entries name with
      | none =>
          simp only [TypeRef.nodeIn, hfirst]
          exact hblank hfirst
      | some q =>
          obtain ⟨u, hu, hn⟩ := h.typed hfirst
          cases hu.symm.trans ht
          simp only [TypeRef.nodeIn, hfirst]
          exact hn

end Load

end VmMetadata
