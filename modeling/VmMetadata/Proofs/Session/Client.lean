import VmMetadata.Dump.Destination
import VmMetadata.Proofs.Dump.Declaration
import VmMetadata.Proofs.Session.Reached

/-!
Everything that a client can ask, but for dumps. Each query leaves a sound session sound, and
nothing that was true in it has become false. Main statement: this holds for all that can be asked
of the views of a session, of the session itself, and of the machine behind it.
-/

namespace VmMetadata

open Query (Agree Agrees Runs)
open Std (TreeMap)

/-- The query leaves the session later and sound, whatever comes of it. -/
abbrev Query.Keeps (x : Query α) (s : Session) : Prop :=
  Runs x s (fun _ _ => True) True

namespace Query

variable {s : Session} {x : Query α} {P Q : α → Session → Prop} {E : Prop}

namespace Runs

theorem keeps (h : Runs x s P E) : x.Keeps s :=
  h.weaken (fun _ _ _ _ => trivial) fun _ => trivial

theorem loose (h : Runs x s P E) : Runs x s P True :=
  h.weaken (fun _ _ _ ha => ha) fun _ => trivial

theorem map {f : α → β} (h : Runs x s P E) :
    Runs (f <$> x) s (fun b t => ∃ a, P a t ∧ b = f a) E := by
  rw [map_eq_pure_bind]
  exact h.bind fun a t _ sound ha => .pure sound ⟨a, ha, rfl⟩

theorem remember {page : Nat} {k : Handle} {f : Fact} {find : Query f.Value} (hs : s.Sound)
    (hp : s.notebook.shown? page = some k) (hfind : Runs find s (fun v t => f.Holds t k v) E) :
    Runs (Query.remember page f find) s (fun v t => f.Holds t k v) E :=
  (rememberAnd (I := fun _ => True) hs hp trivial (fun _ _ _ => trivial)
    (hfind.weaken (fun _ _ _ hv => ⟨hv, trivial⟩) id)).weaken (fun _ _ _ hv => hv.1) id

theorem view (hs : s.Sound) (e : Entity) (h : Handle) :
    Runs (Query.view e h) s (fun v t => t.Shows v ∧ v.handle = h) (h = .null) :=
  (Agree.view (.refl hs) e h).runs

theorem viewAny (hs : s.Sound) (e : Entity) (h : Handle) :
    Runs (Query.view? e h) s (fun v? t => ∀ v ∈ v?, t.Shows v) True := by
  unfold Query.view?
  cases h.nonNull? with
  | none => exact .pure hs (by simp)
  | some k =>
      refine (view hs e k).loose.map.weaken ?_ id
      rintro _ t _ ⟨v, hv, rfl⟩ w hw
      cases hw
      exact hv.1

/-- A call of any kind. -/
theorem call (hs : s.Sound) (c : Call r) : (Query.ask c).Keeps s :=
  (Runs.ask hs (Vm.answer_steps hs.vm c)).keeps

theorem callView (hs : s.Sound) (e : Entity) (c : Call .handle) :
    Runs (do Query.view? e (← Query.ask c)) s (fun v? t => ∀ v ∈ v?, t.Shows v) True :=
  (call hs c).bind fun k _ _ sound _ => viewAny sound e k

end Runs

end Query

namespace Session

/-- The session with a copy of the page. -/
def copied (s : Session) (page : Nat) : Session :=
  { s with notebook := s.notebook.copyPage page }

variable {s : Session} {page : Nat} {h : Handle}

theorem later_copied (hp : s.notebook.shown? page = some h) : s.Later (s.copied page) :=
  ⟨.refl _, rfl, fun other k hk => by
    rw [copied, Notebook.shown?_copyPage hp, if_neg, hk]
    exact Nat.ne_of_lt (Notebook.lt_size_of_shown? hk)⟩

/-- A copy knows what the page knows, and it is about the same object. -/
theorem Sound.copied (hs : s.Sound) (hp : s.notebook.shown? page = some h) :
    (s.copied page).Sound where
  vm := hs.vm
  pointerSize := hs.pointerSize
  faults := hs.faults
  front := (later_copied hp).shown _ _ hs.front
  notes := fun other k f v hshown hfound => by
    refine Fact.Holds.later (later_copied hp) ?_
    simp only [Session.copied] at hshown hfound
    rw [Notebook.shown?_copyPage hp] at hshown
    rw [Notebook.find?_copyPage hp] at hfound
    split at hshown
    · cases hshown
      rw [if_pos ‹_›] at hfound
      exact hs.notes page _ f v hp hfound
    · rw [if_neg ‹_›] at hfound
      exact hs.notes other k f v hshown hfound

end Session

variable {s : Session}

theorem Query.copy_keeps (hs : s.Sound) {v : View e} (hv : s.Shows v) : (Query.copy v).Keeps s :=
  .ok rfl (Session.later_copied hv.2) (hs.copied hv.2) trivial

/-! ## Types, fields and methods -/

namespace TypeView

variable (hs : s.Sound) {t : TypeView} (ht : s.Shows t)
include hs ht

theorem kind_keeps : t.kind.Keeps s :=
  (Runs.remember (f := .typeKind) hs ht.2 ((Runs.tell hs rfl).map.weaken
    (fun _ _ _ ⟨tag, htag, hk⟩ => ⟨tag, htag.1, hk⟩) id)).keeps

theorem class?_keeps : t.class?.Keeps s := by
  refine (Runs.remember (f := .typeClass) hs ht.2 ((Runs.tell hs rfl).map.weaken
    (fun _ _ _ ⟨c, hc, hk⟩ => ⟨c, hc.1, hk⟩) id)).loose.bind fun c? _ _ sound _ => ?_
  cases c? with
  | none => exact .pure sound trivial
  | some c => exact (Runs.view sound .class_ c).map.keeps

end TypeView

namespace Method

variable (hs : s.Sound) {m : Method} (hm : s.Shows m)
include hs hm

theorem isInflated_keeps : m.isInflated.Keeps s :=
  (Runs.remember hs hm.2 ((Runs.tell hs rfl).weaken (fun _ _ _ hv => hv.1) id)).keeps

theorem virtualAddress_keeps : m.virtualAddress.Keeps s :=
  (virtualAddress_agrees (.refl hs) hm).runs.keeps

theorem relativeVirtualAddress_keeps : m.relativeVirtualAddress.Keeps s :=
  (Runs.call hs .moduleBase).bind fun _ _ later sound _ =>
    (virtualAddress_keeps sound (hm.later later)).bind fun _ _ _ sound _ => .pure sound trivial

theorem parameters_runs : Runs m.parameters s (fun _ _ => True) True :=
  (parameters_agrees (.refl hs) hm).runs.keeps

omit hm in
/-- Running a method, whatever it is given. -/
theorem invoke_runs (m : Method) (object : Option Object) (arguments : List Object) :
    Runs (m.invoke object arguments) s (fun o? t => ∀ o ∈ o?, t.Shows o) True :=
  Runs.callView hs .object _

end Method

/-! ## Classes -/

namespace Class

variable (hs : s.Sound) {c : Class} (hc : s.Shows c)

section

include hs hc

theorem name_keeps : c.name.Keeps s :=
  (Runs.remember hs hc.2 ((Runs.tell hs rfl).weaken (fun _ _ _ hv => hv.1) id)).keeps

theorem namespace_keeps : c.namespace_.Keeps s :=
  (Runs.remember hs hc.2 ((Runs.tell hs rfl).weaken (fun _ _ _ hv => hv.1) id)).keeps

theorem isInflated_keeps : c.isInflated.Keeps s :=
  (Runs.remember hs hc.2 ((Runs.tell hs rfl).weaken (fun _ _ _ hv => hv.1) id)).keeps

theorem declaringClass_keeps : c.declaringClass.Keeps s :=
  (Runs.remember hs hc.2 (Agree.viewAnyOf (.refl hs) .class_ rfl rfl).runs).keeps

theorem assemblyName_keeps : c.assemblyName.Keeps s :=
  (image_agrees (.refl hs) hc).runs.loose.bind fun _ _ _ sound hi =>
    (Image.name_agrees (.refl sound) hi.1).runs.loose.bind fun _ _ _ sound _ =>
      .pure sound trivial

/-- What follows from the kind. -/
theorem kind_map_keeps (f : ClassKind → α) : (do pure (f (← c.kind)) : Query α).Keeps s :=
  (kind_agrees (.refl hs) hc).runs.loose.bind fun _ _ _ sound _ => .pure sound trivial

end

theorem firstMethod_runs (name : String) (count : Option Nat) : ∀ {ms : List Method} {s : Session},
    s.Sound → (∀ m ∈ ms, s.Shows m) →
      Runs (firstMethod name count ms) s (fun m? t => ∀ m ∈ m?, t.Shows m) True
  | [], _, hs, _ => .pure hs (by simp)
  | m :: rest, s, hs, hms => by
      obtain ⟨hm, hrest⟩ := List.forall_mem_cons.mp hms
      unfold firstMethod
      refine (Method.name_agrees (.refl hs) hm).runs.loose.bind fun found t later sound _ => ?_
      have hrest : ∀ d ∈ rest, t.Shows d := fun d hd => (hrest d hd).later later
      split
      · exact firstMethod_runs name count sound hrest
      · cases count with
        | none =>
            refine .pure sound fun d hd => ?_
            cases hd
            exact hm.later later
        | some n =>
            refine (Method.parameters_runs sound (hm.later later)).bind
              fun ps u later' sound' _ => ?_
            split
            · refine .pure sound' fun d hd => ?_
              cases hd
              exact hm.later (later.trans later')
            · exact firstMethod_runs name (some n) sound' fun d hd => (hrest d hd).later later'

theorem firstField_keeps (name : String) : ∀ {fs : List Field} {s : Session}, s.Sound →
    (∀ f ∈ fs, s.Shows f) → (firstField name fs).Keeps s
  | [], _, hs, _ => .pure hs trivial
  | f :: rest, _, hs, hfs => by
      obtain ⟨hf, hrest⟩ := List.forall_mem_cons.mp hfs
      unfold firstField
      refine (Field.name_agrees (.refl hs) hf).runs.loose.bind fun found t later sound _ => ?_
      split
      · exact .pure sound trivial
      · exact firstField_keeps name sound fun d hd => (hrest d hd).later later

include hs hc

theorem method?_runs (name : String) (count : Option Nat) :
    Runs (c.method? name count) s (fun m? t => ∀ m ∈ m?, t.Shows m) True :=
  (methods_agrees (.refl hs) hc).runs.loose.bind fun _ _ _ sound hms =>
    firstMethod_runs name count sound hms.1

theorem field?_keeps (name : String) : (c.field? name).Keeps s :=
  (fields_agrees (.refl hs) hc).runs.loose.bind fun _ _ _ sound hfs =>
    firstField_keeps name sound hfs.1

end Class

/-! ## Tables of names -/

namespace Session

theorem showsIn_empty (s : Session) : s.ShowsIn (∅ : TreeMap String (View e)) := by
  intro name v hv
  simp at hv

theorem ShowsIn.insert {table : TreeMap String (View e)} (h : s.ShowsIn table) {v : View e}
    (hv : s.Shows v) (name : String) : s.ShowsIn (table.insert name v) := by
  intro other w hw
  rw [TreeMap.getElem?_insert] at hw
  split at hw
  · cases hw
    exact hv
  · exact h other w hw

end Session

/-- Looking up a name finds the last thing under it. -/
theorem getElem?_tabulate (names : List String) (things : List α) (name : String) :
    (tabulate names things)[name]? = (names.zip things).reverse.lookup name := by
  have hfold : ∀ (entries : List (String × α)) (table : TreeMap String α),
      (entries.foldl (fun table entry => table.insert entry.1 entry.2) table)[name]? =
        (entries.reverse.lookup name).or table[name]? := by
    intro entries
    induction entries with
    | nil => exact fun table => rfl
    | cons entry entries ih =>
        intro table
        obtain ⟨key, thing⟩ := entry
        rw [List.foldl_cons, ih, TreeMap.getElem?_insert, List.reverse_cons, List.lookup_append,
          Option.or_assoc]
        by_cases hname : name = key
        · simp [hname]
        · have hother : (name == key) = false := by simpa using hname
          simp [List.lookup_cons, hother, Ne.symm hname]
  rw [tabulate, hfold]
  simp

theorem mem_of_tabulate {names : List String} {things : List α} {name : String} {a : α}
    (h : (tabulate names things)[name]? = some a) : a ∈ things := by
  rw [getElem?_tabulate, List.lookup_eq_some_iff] at h
  obtain ⟨before, after, hentries, -⟩ := h
  have hmem : (name, a) ∈ (names.zip things).reverse := hentries ▸ by simp
  exact (List.of_mem_zip (List.mem_reverse.mp hmem)).2

theorem getElem?_tabulate_map (f : α → β) (names : List String) (things : List α) (name : String) :
    (tabulate names (things.map f))[name]? = (tabulate names things)[name]?.map f := by
  have hlookup : ∀ entries : List (String × α),
      (entries.map (Prod.map id f)).lookup name = (entries.lookup name).map f := by
    intro entries
    induction entries with
    | nil => rfl
    | cons entry entries ih =>
        obtain ⟨key, thing⟩ := entry
        rw [List.map_cons, Prod.map_apply, id_eq, List.lookup_cons, List.lookup_cons, ih]
        cases name == key <;> rfl
  rw [getElem?_tabulate, getElem?_tabulate, List.zip_map_right, ← List.map_reverse, hlookup]

theorem Session.Indexes.showsIn {s : Session} {tells : Handle → String → Prop} {vs : List (View e)}
    {table : TreeMap String (View e)} (h : Indexes tells vs table) (hvs : ∀ v ∈ vs, s.Shows v) :
    s.ShowsIn table := by
  obtain ⟨names, -, rfl⟩ := h
  exact fun name v hv => hvs v (mem_of_tabulate hv)

/-- A table of shown views by what is read of each. It is made unless nothing can be read of one. -/
theorem Query.table_runs (tells : Session → Handle → String → Prop)
    (htells : ∀ {s t : Session} {k : Handle} {name : String}, s.Later t → tells s k name →
      tells t k name) {key : View e → Query String}
    (hkey : ∀ v t, t.Sound → t.Shows v → Runs (key v) t (fun name u => tells u v.handle name)
      (∀ name, ¬tells t v.handle name))
    {vs : List (View e)} (hs : s.Sound) (hvs : ∀ v ∈ vs, s.Shows v) :
    Runs (vs.foldlM (fun (table : TreeMap String (View e)) v => do
      pure (table.insert (← key v) v)) ∅) s (fun table t => Session.Indexes (tells t) vs table)
      (∃ v ∈ vs, ∀ name, ¬tells s v.handle name) := by
  -- the table that has been made so far is filled with what is left
  have hfold : ∀ (vs : List (View e)) (made : TreeMap String (View e)) {s : Session}, s.Sound →
      (∀ v ∈ vs, s.Shows v) →
      Runs (vs.foldlM (fun (table : TreeMap String (View e)) v => do
        pure (table.insert (← key v) v)) made) s (fun table t => ∃ names,
          List.Forall₂ (fun v name => tells t v.handle name) vs names ∧
          table = (names.zip vs).foldl (fun table entry => table.insert entry.1 entry.2) made)
        (∃ v ∈ vs, ∀ name, ¬tells s v.handle name) := by
    intro vs
    induction vs with
    | nil => exact fun made s hs _ => .pure hs ⟨[], .nil, rfl⟩
    | cons v vs ih =>
        intro made s hs hvs
        obtain ⟨hv, hvs⟩ := List.forall_mem_cons.mp hvs
        rw [List.foldlM_cons, bind_assoc]
        refine ((hkey v s hs hv).weaken (fun _ _ _ hname => hname) fun hnone =>
          ⟨v, List.mem_cons_self, hnone⟩).bind fun name t later sound hname => ?_
        rw [pure_bind]
        refine (ih _ sound fun w hw => (hvs w hw).later later).weaken ?_ ?_
        · rintro table u later' ⟨names, hnames, rfl⟩
          exact ⟨name :: names, .cons (htells later' hname) hnames, rfl⟩
        · rintro ⟨w, hw, hnone⟩
          exact ⟨w, List.mem_cons_of_mem v hw, fun name hname => hnone name (htells later hname)⟩
  exact hfold vs ∅ hs hvs

/-! ## Images, assemblies and the domain -/

namespace Image

variable (hs : s.Sound) {i : Image}
include hs

theorem classesByName_runs (hi : s.Shows i) : Runs i.classesByName s
    (fun table t => Fact.Holds t i.handle .imageClassesByName table) True := by
  refine Runs.remember (f := .imageClassesByName) hs hi.2 ?_
  refine (classes_runs hs hi).loose.bind fun cs t later sound hcs => ?_
  refine (Query.table_runs (fun s => s.vm.TellsTypeName)
    (fun later h => later.vm.repeats.typeName h)
    (fun c u hu hc => (Class.typeName_agrees (.refl hu) hc).runs) sound hcs.1.1).weaken
    (fun table u later' htable => ?_) fun _ => trivial
  exact ⟨cs, Session.ShowsClasses.later hcs.1 later', htable⟩

theorem classFromName_runs (i : Image) (namespace_ name : String) :
    Runs (i.classFromName namespace_ name) s
      (fun c? t => t.ShowsAny (.classFromName i.handle namespace_ name) c?)
      (∀ k, ¬s.vm.Tells (.classFromName i.handle namespace_ name) k) :=
  (Agree.viewAnyOf (.refl hs) .class_ rfl rfl).runs

end Image

/-- A view that the session may have is one of its views. -/
theorem Session.ShowsAny.shows {t : Session} {c : Call .handle} {v? : Option (View e)}
    (h : t.ShowsAny c v?) : ∀ v ∈ v?, t.Shows v := by
  rintro v rfl
  exact h.1

theorem Session.ShowsAny.tells {t : Session} {c : Call .handle} {v? : Option (View e)}
    (h : t.ShowsAny c v?) : t.vm.Tells c ((v?.map View.handle).getD .null) := by
  cases v? with
  | none => exact h
  | some v => exact h.2

namespace Domain

/-- The machine does not say which assemblies the domain has, or of one of them no name. -/
def Unnamed (s : Session) (d : Domain) : Prop :=
  ∀ as, s.vm.Tells (.domainAssemblies d.handle) as →
    Handle.null ∈ as ∨ ∃ a ∈ as, ∀ name, ¬s.vm.TellsAssemblyName a name

/-- The assemblies by their names. -/
theorem table_runs (hs : s.Sound) {d : Domain} (hd : s.Shows d) :
    Runs (Query.remember d.page .domainAssembliesByName do
      (← d.assemblies).foldlM (fun (table : TreeMap String Assembly) a => do
        pure (table.insert (← a.name) a)) ∅) s
      (fun table t => Fact.Holds t d.handle .domainAssembliesByName table) (Unnamed s d) := by
  refine Runs.remember hs hd.2 ?_
  refine ((assemblies_agrees (.refl hs) hd).runs.weaken (fun _ _ _ has => has)
    fun hnull as has => Or.inl (hnull as has)).bind fun as t later sound has => ?_
  refine (Query.table_runs (fun s => s.vm.TellsAssemblyName)
    (fun later h => later.vm.repeats.assemblyName h)
    (fun a u hu ha => (Assembly.name_agrees (.refl hu) ha).runs.weaken (fun _ _ _ hname => hname)
      ?_) sound has.1).weaken ?_ ?_
  · rintro hnone name ⟨image, text, himage, htext, -⟩
    obtain ⟨n, hn, -⟩ := Vm.tells_imageName.mp htext
    exact hnone image text (Arena.ne_null_of_get? (Arena.image_eq_ok.mp hn)) himage htext
  · exact fun table u later' htable => ⟨as, Session.ShowsAll.later has rfl later', htable⟩
  · rintro ⟨a, ha, hnone⟩ ks hks
    cases has.2.unique (hks.later rfl later.vm)
    exact Or.inr ⟨a.handle, List.mem_map_of_mem ha, fun name hname =>
      hnone name (later.vm.repeats.assemblyName hname)⟩

theorem assembly?_runs (hs : s.Sound) {d : Domain} (hd : s.Shows d) (name : String) :
    Runs (d.assembly? name) s (fun a? t => (∀ a ∈ a?, t.Shows a) ∧
      t.vm.TellsNamed d.handle name (a?.map View.handle)) (Unnamed s d) := by
  refine (table_runs hs hd).bind fun table t _ sound htable => .pure sound ?_
  obtain ⟨as, has, hindex⟩ := htable
  refine ⟨fun a ha => hindex.showsIn has.1 name a ha, ?_⟩
  obtain ⟨names, hnames, rfl⟩ := hindex
  exact ⟨_, names, has.2, List.forall₂_map_left_iff.mpr hnames,
    (getElem?_tabulate_map View.handle names as name).symm⟩

theorem firstClass_keeps (namespace_ name : String) : ∀ {as : List Assembly} {s : Session},
    s.Sound → (∀ a ∈ as, s.Shows a) → (firstClass namespace_ name as).Keeps s
  | [], _, hs, _ => .pure hs trivial
  | a :: rest, _, hs, has => by
      obtain ⟨ha, hrest⟩ := List.forall_mem_cons.mp has
      unfold firstClass
      refine (Assembly.image_agrees (.refl hs) ha).runs.loose.bind fun i t later sound _ => ?_
      refine (Image.classFromName_runs sound i namespace_ name).loose.bind
        fun c? u later' sound' _ => ?_
      cases c? with
      | some c => exact .pure sound' trivial
      | none => exact firstClass_keeps namespace_ name sound' fun b hb =>
          (hrest b hb).later (later.trans later')

theorem findClass_keeps (hs : s.Sound) {d : Domain} (hd : s.Shows d) (qualified : String) :
    (d.findClass qualified).Keeps s :=
  (assemblies_agrees (.refl hs) hd).runs.loose.bind fun _ _ _ sound has =>
    firstClass_keeps _ _ sound has.1

end Domain

/-! ## Objects and arrays -/

theorem Object.class_keeps (hs : s.Sound) {o : Object} (ho : s.Shows o) : o.class_.Keeps s := by
  refine (Runs.remember (f := .objectClass) (E := True) hs ho.2 ?_).bind fun c _ _ sound _ =>
    (Runs.view sound .class_ c).keeps
  refine (Runs.tell hs rfl).loose.bind fun c t _ sound hc => ?_
  refine (Agree.require (.refl sound) c "object class").runs.weaken ?_ fun _ => trivial
  rintro k u later ⟨rfl, hne⟩
  exact ⟨hne, hc.1.later rfl later.vm⟩

namespace ArrayView

variable (hs : s.Sound) {a : ArrayView}
include hs

theorem length_runs (ha : s.Shows a) :
    Runs a.length s (fun n t => t.vm.Tells (.arrayLength a.handle) n) True :=
  (Runs.remember hs ha.2 ((Runs.tell hs rfl).weaken (fun _ _ _ hv => hv.1) id)).loose

theorem isEmpty_keeps (ha : s.Shows a) : a.isEmpty.Keeps s :=
  (length_runs hs ha).bind fun _ _ _ sound _ => .pure sound trivial

theorem element?_keeps (a : ArrayView) (index : Nat) : (a.element? index).Keeps s :=
  (Runs.callView hs .object _).keeps

end ArrayView

/-! ## The host -/

namespace Session

/-- The page is one for what is known about the host. -/
def Hosts (s : Session) (h : Host) : Prop :=
  s.notebook.shown? h.page = some .null

theorem Hosts.later {s t : Session} {h : Host} (hh : s.Hosts h) (hst : s.Later t) : t.Hosts h :=
  hst.shown _ _ hh

end Session

namespace Host

theorem new_runs (hs : s.Sound) : Runs Host.new s (fun h t => t.Hosts h) False :=
  .ok rfl (Session.later_paged s .null) (hs.paged .null) (by
    simp [Session.Hosts, Notebook.shown?_addPage])

theorem findClass_runs : ∀ {names : List String} {d : Domain} {s : Session}, s.Sound → s.Shows d →
    Runs (findClass d names) s (fun c? t => (∀ c ∈ c?, t.Shows c) ∧
      t.vm.TellsHost d.handle names ((c?.map View.handle).getD .null)) True
  | [], _, _, hs, _ => .pure hs ⟨by simp, rfl⟩
  | name :: rest, d, s, hs, hd => by
      unfold findClass
      refine (Domain.assembly?_runs hs hd name).loose.bind fun a? t later sound ha => ?_
      obtain ⟨hshown, hnamed⟩ := ha
      cases a? with
      | none =>
          refine (findClass_runs sound (hd.later later)).weaken (fun c? u hlater hc => ?_) id
          exact ⟨hc.1, Or.inl ⟨hlater.vm.repeats.named hnamed, hc.2⟩⟩
      | some a =>
          refine (Assembly.image_agrees (.refl sound) (hshown a rfl)).runs.loose.bind
            fun i u later' sound' hi => ?_
          refine (Image.classFromName_runs sound' i _ _).loose.bind
            fun c? v later'' sound'' hc => ?_
          have hnamed := later''.vm.repeats.named (later'.vm.repeats.named hnamed)
          have himage := hi.2.later rfl later''.vm
          cases c? with
          | some c =>
              refine .pure sound'' ⟨hc.shows, Or.inr ⟨_, _, _, hnamed, himage, hc.tells, ?_⟩⟩
              exact (if_neg hc.1.1).mpr rfl
          | none =>
              refine (findClass_runs sound'' (hd.later (later.trans (later'.trans later'')))).weaken
                (fun c? w hlater hrest => ?_) id
              refine ⟨hrest.1, Or.inr ⟨_, _, _, hlater.vm.repeats.named hnamed,
                himage.later rfl hlater.vm, hc.tells.later rfl hlater.vm, ?_⟩⟩
              exact (if_pos rfl).mpr hrest.2

variable {h : Host} (hs : s.Sound) (hh : s.Hosts h)
include hs hh

theorem class?_runs : Runs h.class? s (fun c? t => Fact.Holds t .null .hostClass c?) True := by
  refine Runs.remember (f := .hostClass) hs hh ?_
  refine ((Query.domain_agrees (.refl hs)).runs.loose).bind fun d t _ sound hd => ?_
  refine (findClass_runs sound hd.1).weaken (fun c? u later hc => ?_) id
  exact ⟨hc.1, d.handle, hd.2.later rfl later.vm, hc.2⟩

theorem text?_keeps (getter : String) : (h.text? getter).Keeps s := by
  refine (class?_runs hs hh).bind fun c? t _ sound hc => ?_
  cases c? with
  | none => exact .pure sound trivial
  | some c =>
      refine (Class.method?_runs sound (hc.1 c rfl) getter (some 0)).bind fun m? u _ sound' _ => ?_
      cases m? with
      | none => exact .pure sound' trivial
      | some m =>
          refine (Method.invoke_runs sound' m none []).bind fun o? v _ sound'' _ => ?_
          cases o? with
          | none => exact .pure sound'' trivial
          | some o =>
              have hcontents : o.contents.Keeps v := Runs.call sound'' (.stringChars o.handle)
              exact hcontents.bind fun _ _ _ sound₃ _ => .pure sound₃ trivial

theorem identifier_keeps : h.identifier.Keeps s := by
  refine (text?_keeps hs hh _).bind fun text? t later sound _ => ?_
  cases text? with
  | some text => exact .pure sound trivial
  | none => exact text?_keeps sound (hh.later later) _

end Host

theorem Destination.path_keeps (hs : s.Sound) (d : Destination) (kind : DumpKind) (now : String) :
    (d.path kind now).Keeps s := by
  refine (Host.new_runs hs).loose.bind fun host t later sound hhost => ?_
  have hdirectory : (d.resolveDirectory host).Keeps t := by
    unfold Destination.resolveDirectory
    cases d.directory with
    | some directory => exact .pure sound trivial
    | none =>
        exact (Host.text?_keeps sound hhost _).bind fun _ _ _ sound' _ => .pure sound' trivial
  refine hdirectory.bind fun directory u later' sound' _ => ?_
  have hhost := hhost.later later'
  have hname : (d.resolveFileName host now).Keeps u := by
    unfold Destination.resolveFileName
    cases d.fileName with
    | some name => exact .pure sound' trivial
    | none =>
        refine (Host.identifier_keeps sound' hhost).bind fun identifier v later'' sound'' _ => ?_
        have hversion := Host.text?_keeps sound'' (hhost.later later'')
        refine (hversion _).bind fun version _ _ sound₃ _ => ?_
        split <;> exact .pure sound₃ trivial
  exact hname.bind fun _ _ _ sound'' _ => .pure sound'' trivial

/-! ## All queries -/

abbrev AnyQuery := (α : Type) × Query α

/-! What can be read of a view without saying more. -/

def TypeView.readings (t : TypeView) : List AnyQuery :=
  [⟨_, t.name⟩, ⟨_, t.kind⟩, ⟨_, t.class?⟩, ⟨_, t.object⟩]

def Field.readings (f : Field) : List AnyQuery :=
  [⟨_, f.name⟩, ⟨_, f.type⟩, ⟨_, f.offset⟩, ⟨_, f.flags⟩, ⟨_, f.isStatic⟩, ⟨_, f.isLiteral⟩,
    ⟨_, f.isReadOnly⟩, ⟨_, f.declaration⟩]

def Method.readings (m : Method) : List AnyQuery :=
  [⟨_, m.name⟩, ⟨_, m.class_⟩, ⟨_, m.returnType⟩, ⟨_, m.parameters⟩, ⟨_, m.flags⟩,
    ⟨_, m.isStatic⟩, ⟨_, m.isVirtual⟩, ⟨_, m.isAbstract⟩, ⟨_, m.isGeneric⟩, ⟨_, m.isInflated⟩,
    ⟨_, m.typeParameterCount⟩, ⟨_, m.virtualAddress⟩, ⟨_, m.relativeVirtualAddress⟩,
    ⟨_, m.addressToken?⟩, ⟨_, m.declaration⟩]

def Class.readings (c : Class) : List AnyQuery :=
  [⟨_, c.name⟩, ⟨_, c.namespace_⟩, ⟨_, c.type⟩, ⟨_, c.typeName⟩, ⟨_, c.image⟩,
    ⟨_, c.assemblyName⟩, ⟨_, c.parent⟩, ⟨_, c.declaringClass⟩, ⟨_, c.interfaces⟩, ⟨_, c.fields⟩,
    ⟨_, c.methods⟩, ⟨_, c.flags⟩, ⟨_, c.isAbstract⟩, ⟨_, c.isSealed⟩, ⟨_, c.kind⟩,
    ⟨_, c.isValueType⟩, ⟨_, c.isStruct⟩, ⟨_, c.isEnum⟩, ⟨_, c.isInterface⟩, ⟨_, c.isGeneric⟩,
    ⟨_, c.isInflated⟩, ⟨_, c.typeParameterCount⟩, ⟨_, c.declaration⟩]

def Image.readings (i : Image) : List AnyQuery :=
  [⟨_, i.name⟩, ⟨_, i.classCount⟩, ⟨_, i.classStart⟩, ⟨_, i.classes⟩, ⟨_, i.classesByName⟩]

def Assembly.readings (a : Assembly) : List AnyQuery :=
  [⟨_, a.name⟩, ⟨_, a.image⟩]

def Object.readings (o : Object) : List AnyQuery :=
  [⟨_, Object.class_ o⟩, ⟨_, Object.contents o⟩]

def ArrayView.readings (a : ArrayView) : List AnyQuery :=
  [⟨_, a.length⟩, ⟨_, a.isEmpty⟩]

def Host.readings (h : Host) : List AnyQuery :=
  [⟨_, h.class?⟩, ⟨_, h.persistentDataPath⟩, ⟨_, h.identifier⟩, ⟨_, h.version⟩]

namespace Session

/-- What a client can ask in the session: of the machine, of the session, or of a view of it. -/
inductive Asks (s : Session) : AnyQuery → Prop
  | call (c : Call r) : Asks s ⟨_, Query.ask c⟩
  | view (e : Entity) (h : Handle) : Asks s ⟨_, Query.view e h⟩
  | copy {v : View e} (shown : s.Shows v) : Asks s ⟨_, Query.copy v⟩
  | domain : Asks s ⟨_, Query.domain⟩
  | corlib : Asks s ⟨_, Query.corlib⟩
  | rootClass : Asks s ⟨_, Query.rootClass⟩
  | reflectionClass : Asks s ⟨_, Query.reflectionClass⟩
  | host : Asks s ⟨_, Host.new⟩
  | readHost {h : Host} (hosts : s.Hosts h) {x : AnyQuery} (member : x ∈ h.readings) : Asks s x
  | path (d : Destination) (kind : DumpKind) (now : String) : Asks s ⟨_, d.path kind now⟩
  | assemblies {d : Domain} (shown : s.Shows d) : Asks s ⟨_, d.assemblies⟩
  | assembly {d : Domain} (shown : s.Shows d) (name : String) : Asks s ⟨_, d.assembly? name⟩
  | findClass {d : Domain} (shown : s.Shows d) (name : String) : Asks s ⟨_, d.findClass name⟩
  | readAssembly {a : Assembly} (shown : s.Shows a) {x : AnyQuery} (member : x ∈ a.readings) :
      Asks s x
  | readImage {i : Image} (shown : s.Shows i) {x : AnyQuery} (member : x ∈ i.readings) : Asks s x
  | classFromName {i : Image} (shown : s.Shows i) (namespace_ name : String) :
      Asks s ⟨_, i.classFromName namespace_ name⟩
  | readClass {c : Class} (shown : s.Shows c) {x : AnyQuery} (member : x ∈ c.readings) : Asks s x
  | method {c : Class} (shown : s.Shows c) (name : String) (count : Option Nat) :
      Asks s ⟨_, c.method? name count⟩
  | field {c : Class} (shown : s.Shows c) (name : String) : Asks s ⟨_, c.field? name⟩
  | readType {t : TypeView} (shown : s.Shows t) {x : AnyQuery} (member : x ∈ t.readings) : Asks s x
  | readField {f : Field} (shown : s.Shows f) {x : AnyQuery} (member : x ∈ f.readings) : Asks s x
  | readMethod {m : Method} (shown : s.Shows m) {x : AnyQuery} (member : x ∈ m.readings) :
      Asks s x
  | parameter {p : Parameter} (shown : s.Shows p.type) : Asks s ⟨_, p.text⟩
  | invoke {m : Method} (shown : s.Shows m) (object : Option Object) (arguments : List Object) :
      Asks s ⟨_, m.invoke object arguments⟩
  | readObject {o : Object} (shown : s.Shows o) {x : AnyQuery} (member : x ∈ o.readings) : Asks s x
  | readArray {a : ArrayView} (shown : s.Shows a) {x : AnyQuery} (member : x ∈ a.readings) :
      Asks s x
  | element {a : ArrayView} (shown : s.Shows a) (index : Nat) : Asks s ⟨_, a.element? index⟩
  | array {c : Class} (shown : s.Shows c) (objects : List Object) :
      Asks s ⟨_, ArrayView.ofObjects c objects⟩
  | placeholders (count : Nat) : Asks s ⟨_, placeholderArguments count⟩
  | inflateClass {c : Class} {cs : List Class} (shown : s.Shows c)
      (arguments : ∀ d ∈ cs, s.Shows d) : Asks s ⟨_, c.inflate cs⟩
  | representClass {c : Class} (shown : s.Shows c) : Asks s ⟨_, c.representative⟩
  | inflateMethod {m : Method} {cs : List Class} (shown : s.Shows m)
      (arguments : ∀ d ∈ cs, s.Shows d) : Asks s ⟨_, m.inflate cs⟩
  | representMethod {m : Method} (shown : s.Shows m) (classWasGeneric : Bool) :
      Asks s ⟨_, m.representative classWasGeneric⟩

end Session

section

variable (hs : s.Sound)
include hs

theorem TypeView.readings_keep {t : TypeView} (ht : s.Shows t) :
    ∀ x ∈ t.readings, x.2.Keeps s := by
  have alike := Session.Alike.refl hs
  simp only [readings, List.forall_mem_cons]
  exact ⟨(name_agrees alike ht).runs.keeps, kind_keeps hs ht, class?_keeps hs ht,
    (object_agrees alike ht).runs.keeps, by simp⟩

theorem Field.readings_keep {f : Field} (hf : s.Shows f) : ∀ x ∈ f.readings, x.2.Keeps s := by
  have alike := Session.Alike.refl hs
  simp only [readings, List.forall_mem_cons]
  exact ⟨(name_agrees alike hf).runs.keeps, (type_agrees alike hf).runs.keeps,
    (offset_agrees alike hf).runs.keeps, (flags_agrees alike hf).runs.keeps,
    (flag_finds alike hf _).same.runs, (flag_finds alike hf _).same.runs,
    (flag_finds alike hf _).same.runs,
    (declaration_finds alike hf).same.runs, by simp⟩

theorem Method.readings_keep {m : Method} (hm : s.Shows m) : ∀ x ∈ m.readings, x.2.Keeps s := by
  have alike := Session.Alike.refl hs
  simp only [readings, List.forall_mem_cons]
  exact ⟨(name_agrees alike hm).runs.keeps, (class_agrees alike hm).runs.keeps,
    (returnType_agrees alike hm).runs.keeps, parameters_runs hs hm,
    (flags_agrees alike hm).runs.keeps, (flag_finds alike hm _).same.runs,
    (flag_finds alike hm _).same.runs, (flag_finds alike hm _).same.runs,
    (isGeneric_agrees alike hm).runs.keeps, isInflated_keeps hs hm,
    (typeParameterCount_agrees alike hm).runs.keeps, virtualAddress_keeps hs hm,
    relativeVirtualAddress_keeps hs hm, (addressToken_agrees alike hm).runs.keeps,
    (declaration_finds alike hm).same.runs, by simp⟩

theorem Class.readings_keep {c : Class} (hc : s.Shows c) : ∀ x ∈ c.readings, x.2.Keeps s := by
  have alike := Session.Alike.refl hs
  simp only [readings, List.forall_mem_cons]
  exact ⟨name_keeps hs hc, namespace_keeps hs hc, (type_agrees alike hc).runs.keeps,
    (typeName_agrees alike hc).runs.keeps, (image_agrees alike hc).runs.keeps,
    assemblyName_keeps hs hc, (parent_agrees alike hc).runs.keeps, declaringClass_keeps hs hc,
    (interfaces_agrees alike hc).runs.keeps, (fields_agrees alike hc).runs.keeps,
    (methods_agrees alike hc).runs.keeps, (flags_agrees alike hc).runs.keeps,
    (flag_finds alike hc _).same.runs, (flag_finds alike hc _).same.runs,
    (kind_agrees alike hc).runs.keeps, kind_map_keeps hs hc _, kind_map_keeps hs hc _,
    kind_map_keeps hs hc _, kind_map_keeps hs hc _, (isGeneric_agrees alike hc).runs.keeps,
    isInflated_keeps hs hc, (typeParameterCount_agrees alike hc).runs.keeps,
    (declaration_finds alike hc).same.runs, by simp⟩

theorem Image.readings_keep {i : Image} (hi : s.Shows i) : ∀ x ∈ i.readings, x.2.Keeps s := by
  simp only [readings, List.forall_mem_cons]
  exact ⟨(name_agrees (.refl hs) hi).runs.keeps, (classCount_runs hs hi).keeps,
    (classStart_runs hs hi).keeps, (classes_runs hs hi).keeps, (classesByName_runs hs hi).keeps,
    by simp⟩

theorem Assembly.readings_keep {a : Assembly} (ha : s.Shows a) :
    ∀ x ∈ a.readings, x.2.Keeps s := by
  simp only [readings, List.forall_mem_cons]
  exact ⟨(name_agrees (.refl hs) ha).runs.keeps, (image_agrees (.refl hs) ha).runs.keeps, by simp⟩

theorem Object.readings_keep {o : Object} (ho : s.Shows o) : ∀ x ∈ o.readings, x.2.Keeps s := by
  simp only [readings, List.forall_mem_cons]
  exact ⟨class_keeps hs ho, Runs.call hs _, by simp⟩

theorem ArrayView.readings_keep {a : ArrayView} (ha : s.Shows a) :
    ∀ x ∈ a.readings, x.2.Keeps s := by
  simp only [readings, List.forall_mem_cons]
  exact ⟨(length_runs hs ha).keeps, isEmpty_keeps hs ha, by simp⟩

theorem Host.readings_keep {h : Host} (hh : s.Hosts h) : ∀ x ∈ h.readings, x.2.Keeps s := by
  simp only [readings, List.forall_mem_cons]
  exact ⟨(class?_runs hs hh).keeps, text?_keeps hs hh _, identifier_keeps hs hh,
    text?_keeps hs hh _, by simp⟩

/-- Whatever is asked leaves the session later and sound. -/
theorem Session.Asks.keeps {x : AnyQuery} (h : s.Asks x) : x.2.Keeps s := by
  have alike := Alike.refl hs
  cases h with
  | call c => exact Runs.call hs c
  | view e k => exact (Runs.view hs e k).keeps
  | copy shown => exact Query.copy_keeps hs shown
  | domain => exact (Query.domain_agrees alike).runs.keeps
  | corlib => exact (Query.corlib_agrees alike).runs.keeps
  | rootClass => exact (Query.rootClass_agrees alike).runs.keeps
  | reflectionClass => exact (Query.reflectionClass_agrees alike).runs.keeps
  | host => exact (Host.new_runs hs).keeps
  | readHost hosts member => exact Host.readings_keep hs hosts _ member
  | path d kind now => exact d.path_keeps hs kind now
  | assemblies shown => exact (Domain.assemblies_agrees alike shown).runs.keeps
  | assembly shown name => exact (Domain.assembly?_runs hs shown name).keeps
  | findClass shown name => exact Domain.findClass_keeps hs shown name
  | readAssembly shown member => exact Assembly.readings_keep hs shown _ member
  | readImage shown member => exact Image.readings_keep hs shown _ member
  | classFromName _ namespace_ name => exact (Image.classFromName_runs hs _ namespace_ name).keeps
  | readClass shown member => exact Class.readings_keep hs shown _ member
  | method shown name count => exact (Class.method?_runs hs shown name count).keeps
  | field shown name => exact Class.field?_keeps hs shown name
  | readType shown member => exact TypeView.readings_keep hs shown _ member
  | readField shown member => exact Field.readings_keep hs shown _ member
  | readMethod shown member => exact Method.readings_keep hs shown _ member
  | parameter shown => exact (Parameter.text_finds alike shown).same.runs
  | invoke _ object arguments => exact (Method.invoke_runs hs _ object arguments).keeps
  | readObject shown member => exact Object.readings_keep hs shown _ member
  | readArray shown member => exact ArrayView.readings_keep hs shown _ member
  | element _ index => exact ArrayView.element?_keeps hs _ index
  | array _ objects => exact (ArrayView.ofObjects_agrees alike _ objects).runs.keeps
  | placeholders count => exact (placeholderArguments_agrees alike count).runs.keeps
  | inflateClass shown arguments => exact (Class.inflate_agrees alike shown arguments).runs.keeps
  | representClass shown => exact (Class.representative_agrees alike shown).runs.keeps
  | inflateMethod shown arguments => exact (Method.inflate_agrees alike shown arguments).runs.keeps
  | representMethod shown classWasGeneric =>
      exact (Method.representative_agrees alike shown classWasGeneric).runs.keeps

end

end VmMetadata
