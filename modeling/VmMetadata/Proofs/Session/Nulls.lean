import VmMetadata.Proofs.Session.Held

/-!
Where a null handle comes back. A getter that requires an object fails and says what it has required;
nothing is noted from the call on. A class that is missing among the classes of an image means that
the layout does not fit. Where an object may be absent, there is none. Main statement: this holds in
any session that a client has got to, and in none of them is a null handle held, noted or sent.
-/

namespace VmMetadata

open Query (ask)

/-- A null handle is answered, or is among the handles that are. -/
def Reply.HasNull : (r : Reply) → r.Value → Prop
  | .handle, h => h = .null
  | .handles, hs => .null ∈ hs
  | _, _ => False

namespace Session

/-! ## What requires an object -/

/-- In the session the query comes to make the call, in the session that is named last, and requires
the handles of the answer to be those of objects of the kind. What has been noted before is not asked
for, and what is built from a query that requires an object requires it too. -/
inductive Requires : Session → {α : Type} → Query α → {r : Reply} → Call r → String → Session → Prop
  | domain (s : Session) : Requires s Query.domain .domainGet "domain" s
  | corlib (s : Session) : Requires s Query.corlib .corlib "image" s
  | rootImage {s : Session} (fresh : s.notebook.find? Notebook.front .rootClass = none) :
      Requires s Query.rootClass .corlib "corlib image" s
  | rootClass {s t : Session} {i : Handle}
      (fresh : s.notebook.find? Notebook.front .rootClass = none) (image : ask .corlib s = .ok i t)
      (present : i ≠ .null) :
      Requires s Query.rootClass (.classFromName i "System" "Object") "corlib class" t
  | reflectionImage {s : Session} (fresh : s.notebook.find? Notebook.front .reflectionClass = none) :
      Requires s Query.reflectionClass .corlib "corlib image" s
  | reflectionClass {s t : Session} {i : Handle}
      (fresh : s.notebook.find? Notebook.front .reflectionClass = none)
      (image : ask .corlib s = .ok i t) (present : i ≠ .null) :
      Requires s Query.reflectionClass (.classFromName i "System" "Type") "corlib class" t
  | descriptor {s t : Session} {pointerSize size : Nat}
      (pointers : ask .pointerSize s = .ok pointerSize t)
      (room : s.layout.descriptorSize pointerSize = .ok size) (needed : size ≠ 0)
      (fresh : t.notebook.find? Notebook.front .descriptor = none) :
      Requires s Query.descriptor (.alloc size) "descriptor" t
  | assemblies {s : Session} {d : Domain}
      (fresh : s.notebook.find? d.page .domainAssemblies = none) :
      Requires s d.assemblies (.domainAssemblies d.handle) "assembly" s
  | assemblyImage {s : Session} {a : Assembly}
      (fresh : s.notebook.find? a.page .assemblyImage = none) :
      Requires s a.image (.assemblyImage a.handle) "image" s
  | classType {s : Session} {c : Class} (fresh : s.notebook.find? c.page .classType = none) :
      Requires s c.type (.classType c.handle) "type" s
  | classImage {s : Session} {c : Class} (fresh : s.notebook.find? c.page .classImage = none) :
      Requires s c.image (.classImage c.handle) "image" s
  | interfaces {s : Session} {c : Class}
      (fresh : s.notebook.find? c.page .classInterfaces = none) :
      Requires s c.interfaces (.classInterfaces c.handle) "class" s
  | fields {s : Session} {c : Class} (fresh : s.notebook.find? c.page .classFields = none) :
      Requires s c.fields (.classFields c.handle) "field" s
  | methods {s : Session} {c : Class} (fresh : s.notebook.find? c.page .classMethods = none) :
      Requires s c.methods (.classMethods c.handle) "method" s
  | fieldType {s : Session} {f : Field} (fresh : s.notebook.find? f.page .fieldType = none) :
      Requires s f.type (.fieldType f.handle) "type" s
  | methodClass {s : Session} {m : Method} (fresh : s.notebook.find? m.page .methodClass = none) :
      Requires s m.class_ (.methodClass m.handle) "class" s
  | returnType {s : Session} {m : Method}
      (fresh : s.notebook.find? m.page .methodReturnType = none) :
      Requires s m.returnType (.methodReturnType m.handle) "type" s
  | parameter {s t u v : Session} {m : Method} {count position : Nat} {ps : List Parameter}
      {name : String} (fresh : s.notebook.find? m.page .methodParameters = none)
      (counted : ask (.methodParameterCount m.handle) s = .ok count t)
      (inside : position < count) (before : m.readParameters 0 position t = .ok ps u)
      (named : ask (.methodParameterName m.handle position) u = .ok name v) :
      Requires s m.parameters (.methodParameterType m.handle position) "type" v
  | typeObject {s : Session} {t : TypeView} (fresh : s.notebook.find? t.page .typeObject = none) :
      Requires s t.object (.typeObject t.handle) "type object" s
  | objectClass {s : Session} {o : Object} (fresh : s.notebook.find? o.page .objectClass = none) :
      Requires s (Object.class_ o) (.objectClass o.handle) "object class" s
  | array (s : Session) (c : Class) {objects : List Object}
      (short : objects.length < 0x1_0000_0000) :
      Requires s (ArrayView.ofObjects c objects) (.arrayNew c.handle objects.length) "array" s
  | inflateClass {s t u v w : Session} {c : Class} {cs : List Class} {name : String}
      {array : ArrayView} (named : c.typeName s = .ok name t)
      (generic : c.isGeneric t = .ok true u) (arity : c.typeParameterCount u = .ok cs.length v)
      (arguments : argumentArray cs v = .ok array w) :
      Requires s (c.inflate cs) (.classInflate c.handle array.handle) "class" w
  | inflateMethod {s t u v w x : Session} {m : Method} {cs : List Class} {name : String}
      {array : ArrayView} (named : m.name s = .ok name t) (generic : m.isGeneric t = .ok true u)
      (arity : m.typeParameterCount u = .ok cs.length v)
      (arguments : argumentArray cs v = .ok array w)
      (unregistered : ask (.methodFindInflated m.handle array.handle) w = .ok .null x) :
      Requires s (m.inflate cs) (.methodInflateRaw m.handle array.handle) "method" x
  | within {s t : Session} {α β : Type} {x : Query α} {r : Reply} {c : Call r} {kind : String}
      (first : Requires s x c kind t) (next : α → Query β) : Requires s (x >>= next) c kind t
  | later {s t u : Session} {α β : Type} {x : Query α} {a : α} {next : α → Query β} {r : Reply}
      {c : Call r} {kind : String} (run : x s = .ok a u) (rest : Requires u (next a) c kind t) :
      Requires s (x >>= next) c kind t
  | kept {s t : Session} {page : Nat} {f : Fact} {find : Query f.Value} {r : Reply} {c : Call r}
      {kind : String} (fresh : s.notebook.find? page f = none) (search : Requires s find c kind t) :
      Requires s (Query.remember page f find) c kind t

variable {s t u : Session}

/-- The query fails because a handle of the kind is null, and has noted nothing since the session. -/
def Rejects (s : Session) (x : Query α) (kind : String) (t : Session) : Prop :=
  ∃ u, x s = .error (.invalidHandle kind .null) u ∧
    ∀ page f, u.notebook.find? page f = t.notebook.find? page f

namespace Rejects

variable {x : Query α} {kind : String}

theorem within (h : s.Rejects x kind t) (next : α → Query β) : s.Rejects (x >>= next) kind t := by
  obtain ⟨u, run, same⟩ := h
  exact ⟨u, Query.bind_error run, same⟩

theorem later {a : α} {next : α → Query β} (run : x s = .ok a u)
    (h : u.Rejects (next a) kind t) : s.Rejects (x >>= next) kind t := by
  obtain ⟨v, run', same⟩ := h
  exact ⟨v, (Query.bind_ok run).trans run', same⟩

theorem kept {page : Nat} {f : Fact} {find : Query f.Value}
    (fresh : s.notebook.find? page f = none) (h : s.Rejects find kind t) :
    s.Rejects (Query.remember page f find) kind t := by
  obtain ⟨u, run, same⟩ := h
  exact ⟨u, Query.remember_of_error fresh run, same⟩

/-- A call notes nothing. -/
theorem since {r : Reply} {c : Call r} {a : r.Value} (run : Query.ask c t = .ok a u)
    (h : s.Rejects x kind u) : s.Rejects x kind t := by
  obtain ⟨v, hv, same⟩ := h
  have hsame := Query.ask_notebook c t
  rw [Query.leaves_of_ok run] at hsame
  exact ⟨v, hv, fun page f => hsame ▸ same page f⟩

theorem ask {r : Reply} {c : Call r} {a : r.Value} {next : r.Value → Query α}
    (run : Query.ask c s = .ok a u) (h : u.Rejects (next a) kind u) :
    s.Rejects (Query.ask c >>= next) kind s :=
  (later run h).since run

theorem require (kind : String) (s : Session) :
    s.Rejects (Query.lift (Handle.null.require kind)) kind s :=
  ⟨s, rfl, fun _ _ => rfl⟩

theorem view (e : Entity) (s : Session) : s.Rejects (Query.view e .null) e.label s :=
  ⟨s, Query.view_null e s, fun _ _ => rfl⟩

/-- A list with a null handle is not viewed. -/
theorem views (e : Entity) : ∀ {hs : List Handle} (s : Session), .null ∈ hs →
    s.Rejects (hs.mapM (Query.view e)) e.label s
  | [], _, hnull => absurd hnull List.not_mem_nil
  | h :: hs, s, hnull => by
      rw [List.mapM_cons]
      by_cases hfirst : h = .null
      · subst hfirst
        exact (view e s).within _
      · have hrest : .null ∈ hs := (List.mem_cons.mp hnull).resolve_left (Ne.symm hfirst)
        obtain ⟨u, run, same⟩ := (views e (s.paged h) hrest).within
          fun vs => pure ((⟨h, s.notebook.next⟩ : View e) :: vs)
        refine ⟨u, (Query.bind_ok (Query.view_of_ne_null hfirst e s)).trans run, fun page f => ?_⟩
        exact (same page f).trans (Notebook.find?_addPage ..)

/-- The parameters are read up to the one whose type is null. -/
theorem parameters {m : Method} {name : String} {v : Session} (position : Nat) :
    ∀ {start count : Nat} {ps : List Parameter} {s t : Session},
      m.readParameters start position s = .ok ps t → position < count →
        Query.ask (.methodParameterName m.handle (start + position)) t = .ok name u →
          Query.ask (.methodParameterType m.handle (start + position)) u = .ok .null v →
            s.Rejects (m.readParameters start count) "type" u := by
  induction position with
  | zero =>
      intro start count ps s t before inside named null
      obtain ⟨n, rfl⟩ := Nat.exists_eq_add_one_of_ne_zero (Nat.ne_zero_of_lt inside)
      cases before
      exact .later named (.ask null ((view .type v).within _))
  | succ position ih =>
      intro start count ps s t before inside named null
      obtain ⟨n, rfl⟩ := Nat.exists_eq_add_one_of_ne_zero (Nat.ne_zero_of_lt inside)
      obtain ⟨_, _, hname, before⟩ := Query.bind_eq_ok.mp before
      obtain ⟨_, _, htype, before⟩ := Query.bind_eq_ok.mp before
      obtain ⟨_, _, hview, before⟩ := Query.bind_eq_ok.mp before
      obtain ⟨_, _, hrest, before⟩ := Query.bind_eq_ok.mp before
      cases before
      have hposition : start + (position + 1) = start + 1 + position := by omega
      rw [hposition] at named null
      have hlater := ih hrest (Nat.lt_of_succ_lt_succ inside) named null
      exact .later hname (.later htype (.later hview (hlater.within _)))

end Rejects

theorem checkArity_self (name : String) (cs : List Class) (s : Session) :
    checkArity name cs.length cs s = .ok () s := by
  unfold checkArity
  rw [if_pos rfl]
  rfl

theorem Requires.rejects {x : Query α} {r : Reply} {c : Call r} {kind : String} {answer : r.Value}
    (h : Requires s x c kind t) (run : ask c t = .ok answer u) (null : r.HasNull answer) :
    s.Rejects x kind t := by
  induction h with
  | domain s =>
      cases null
      exact .ask run (.view .domain u)
  | corlib s =>
      cases null
      exact .ask run (.view .image u)
  | rootImage fresh | reflectionImage fresh =>
      cases null
      exact .within (.kept fresh (.ask run ((Rejects.require _ u).within _))) _
  | @rootClass _ t i fresh image present | @reflectionClass _ t i fresh image present =>
      cases null
      have hrequire : Query.lift (i.require "corlib image") t = .ok i t := by
        rw [Handle.require_of_ne_null present]
        rfl
      exact .within (.kept fresh (.later image (.later hrequire (.ask run (.require _ u))))) _
  | @descriptor s t _ size pointers room needed fresh =>
      cases null
      have hget : (get : Query Session) s = .ok s s := rfl
      refine .later hget (.later pointers ?_)
      simp only [room, Query.lift_ok, pure_bind, if_neg needed]
      exact .kept fresh (.ask run (.require _ u))
  | assemblies fresh | interfaces fresh | fields fresh | methods fresh =>
      exact .kept fresh (.ask run (.views _ u null))
  | assemblyImage fresh | classType fresh | classImage fresh | fieldType fresh | methodClass fresh
  | returnType fresh =>
      cases null
      exact .kept fresh (.ask run (.view _ u))
  | @parameter _ _ _ _ m _ position _ _ fresh counted inside before named =>
      cases null
      rw [← Nat.zero_add position] at named run
      exact .kept fresh (.later counted (.parameters _ before inside named run))
  | typeObject fresh | objectClass fresh =>
      cases null
      exact .within (.kept fresh (.ask run (.require _ u))) _
  | array s c short =>
      cases null
      unfold ArrayView.ofObjects
      rw [if_neg (Nat.not_le.mpr short)]
      exact .ask run ((Rejects.view .array u).within _)
  | @inflateClass s t v w y c cs name array named generic arity arguments =>
      cases null
      refine .later named (.later generic ?_)
      change v.Rejects (do
        checkArity name (← c.typeParameterCount) cs
        let array ← argumentArray cs
        Query.view .class_ (← Query.ask (.classInflate c.handle array.handle))) _ _
      refine .later arity (.later (checkArity_self name cs w) (.later arguments ?_))
      exact .ask run (.view _ u)
  | @inflateMethod s t v w y z m cs name array named generic arity arguments unregistered =>
      cases null
      refine .later named (.later generic ?_)
      change v.Rejects (do
        checkArity name (← m.typeParameterCount) cs
        Query.view .method (← m.instantiate (← argumentArray cs))) _ _
      refine .later arity (.later (checkArity_self name cs w) (.later arguments ?_))
      have hraw : m.instantiate array y = .ok .null u := (Query.bind_ok unregistered).trans run
      exact (Rejects.later hraw (.view .method u)).since run
  | within _ next ih => exact (ih run null).within next
  | later first _ ih => exact .later first (ih run null)
  | kept fresh _ ih => exact .kept fresh (ih run null)

/-! ## Classes that are missing -/

/-- The classes of the image are read up to an index for which the machine answers null, in the
session that is named last. -/
inductive Gap (i : Image) (s : Session) : String → Nat → Session → Prop
  | current {t u v : Session} {count k : Nat} {cs : List Class} (layout : s.layout = .current)
      (counted : i.classCount s = .ok count t)
      (before : Image.classesFrom (fun index => do
        i.classAt "current" index (← ask (.imageGetClass i.handle index))) 0 k t = .ok cs u)
      (inside : k < count) (null : ask (.imageGetClass i.handle k) u = .ok .null v) :
      Gap i s "current" k v
  | legacy {t₁ t₂ t₃ t₄ u v w : Session} {offset pointerSize size start count k : Nat}
      {d : Handle} {cs : List Class} (layout : s.layout = .legacy offset)
      (pointers : ask .pointerSize s = .ok pointerSize t₁) (started : i.classStart t₁ = .ok start t₂)
      (counted : i.classCount t₂ = .ok count t₃) (scratch : Query.descriptor t₃ = .ok d t₄)
      (room : t₄.layout.descriptorSize pointerSize = .ok size)
      (numbered : start + count < 0x1_0000_0000)
      (before : Image.classesFrom (i.windowClass d (descriptorBytes size pointerSize offset))
        start k t₄ = .ok cs u)
      (inside : k < count)
      (written : ask (.writeBytes d (descriptorBytes size pointerSize offset (start + k))) u =
        .ok () v)
      (null : ask (.classFromType d) v = .ok .null w) : Gap i s "legacy" (start + k) w

/-- The layout does not fit, or not even the name of the image can be read to say so. -/
def Misfits (i : Image) (layout : String) (index : Nat) (t : Session) (e : Error) (u : Session) :
    Prop :=
  (∃ name, i.name t = .ok name u ∧ e = .layoutMismatch layout name index) ∨ i.name t = .error e u

theorem mismatch_fails (i : Image) (layout : String) (index : Nat) (t : Session) :
    ∃ e u, (i.mismatch layout index : Query α) t = .error e u ∧ Misfits i layout index t e u := by
  cases named : i.name t with
  | ok name u => exact ⟨_, u, Query.bind_ok named, Or.inl ⟨name, named, rfl⟩⟩
  | error e u => exact ⟨e, u, Query.bind_error named, Or.inr named⟩

/-- The classes are found one after the other until one fails. -/
theorem classesFrom_fails {find : Nat → Query Class} {e : Error} {v : Session} (k : Nat) :
    ∀ {index count : Nat} {cs : List Class} {s t : Session},
      Image.classesFrom find index k s = .ok cs t → k < count →
        find (index + k) t = .error e v → Image.classesFrom find index count s = .error e v := by
  induction k with
  | zero =>
      intro index count cs s t before inside fails
      obtain ⟨n, rfl⟩ := Nat.exists_eq_add_one_of_ne_zero (Nat.ne_zero_of_lt inside)
      cases before
      exact Query.bind_error fails
  | succ k ih =>
      intro index count cs s t before inside fails
      obtain ⟨n, rfl⟩ := Nat.exists_eq_add_one_of_ne_zero (Nat.ne_zero_of_lt inside)
      obtain ⟨_, _, hfirst, before⟩ := Query.bind_eq_ok.mp before
      obtain ⟨_, _, hrest, before⟩ := Query.bind_eq_ok.mp before
      cases before
      have hindex : index + (k + 1) = index + 1 + k := by omega
      rw [hindex] at fails
      have hfails := ih hrest (Nat.lt_of_succ_lt_succ inside) fails
      exact (Query.bind_ok hfirst).trans (Query.bind_error hfails)

/-- Where a class is missing, the layout does not fit. -/
theorem Gap.fails {i : Image} {layout : String} {index : Nat} (h : Gap i s layout index t)
    (fresh : s.notebook.find? i.page .imageClasses = none) :
    ∃ e u, i.classes s = .error e u ∧ Misfits i layout index t e u := by
  obtain ⟨e, u, hmismatch, hmisfits⟩ := mismatch_fails (α := Class) i layout index t
  refine ⟨e, u, ?_, hmisfits⟩
  have hget : (get : Query Session) s = .ok s s := rfl
  refine Query.remember_of_error fresh ((Query.bind_ok hget).trans ?_)
  cases h with
  | current layout counted before inside null =>
      rw [layout]
      refine (Query.bind_ok counted).trans (classesFrom_fails _ before inside ?_)
      rw [Nat.zero_add]
      exact (Query.bind_ok null).trans hmismatch
  | @legacy _ _ _ t₄ _ _ _ _ _ _ _ _ _ _ _ layout pointers started counted scratch room numbered
      before inside written null =>
      rw [layout]
      have hget : (get : Query Session) t₄ = .ok t₄ t₄ := rfl
      refine (Query.bind_ok pointers).trans ((Query.bind_ok started).trans ?_)
      refine (Query.bind_ok counted).trans ((Query.bind_ok scratch).trans ?_)
      refine (Query.bind_ok hget).trans ?_
      simp only [room, Query.lift_ok, pure_bind, if_pos numbered]
      refine classesFrom_fails _ before inside ?_
      exact (Query.bind_ok written).trans ((Query.bind_ok null).trans hmismatch)

/-! ## What may be absent -/

/-- The query makes the call in the session, and answers none for a null handle. What has been noted
before is not asked for. -/
inductive Allows : Session → {α : Type} → Query (Option α) → Call .handle → Prop
  | parent {s : Session} {c : Class} (fresh : s.notebook.find? c.page .classParent = none) :
      Allows s c.parent (.classParent c.handle)
  | declaringClass {s : Session} {c : Class}
      (fresh : s.notebook.find? c.page .classDeclaring = none) :
      Allows s c.declaringClass (.classDeclaringType c.handle)
  | typeClass {s : Session} {t : TypeView} (fresh : s.notebook.find? t.page .typeClass = none) :
      Allows s t.class? (.typeClass t.handle)
  | classFromName (s : Session) (i : Image) (namespace_ name : String) :
      Allows s (i.classFromName namespace_ name) (.classFromName i.handle namespace_ name)
  | invoke (s : Session) (m : Method) (object : Option Object) (arguments : List Object) :
      Allows s (m.invoke object arguments) (.methodInvoke m.handle
        ((object.map View.handle).getD .null) (arguments.map View.handle))
  | element (s : Session) (a : ArrayView) (index : Nat) :
      Allows s (a.element? index) (.arrayGet a.handle index)

theorem Allows.eq_none {x : Query (Option α)} {c : Call .handle} (h : Allows s x c)
    (run : ask c s = .ok .null u) : ∃ v, x s = .ok none v := by
  cases h with
  | parent fresh | declaringClass fresh =>
      exact ⟨_, Query.remember_of_ok fresh (Query.bind_ok run)⟩
  | @typeClass t fresh =>
      have hfind : (Handle.nonNull? <$> ask (.typeClass t.handle)) s = .ok none u := by
        rw [map_eq_pure_bind]
        exact Query.bind_ok run
      exact ⟨_, Query.bind_ok (Query.remember_of_ok (f := .typeClass) fresh hfind)⟩
  | classFromName | invoke | element => exact ⟨u, Query.bind_ok run⟩

/-- In the images of these assemblies, one after the other, no class of the name is found. -/
inductive Lacks (namespace_ name : String) : List Assembly → Session → Session → Prop
  | nil (s : Session) : Lacks namespace_ name [] s s
  | cons {s t u v : Session} {a : Assembly} {as : List Assembly} {i : Image}
      (image : a.image s = .ok i t)
      (null : ask (.classFromName i.handle namespace_ name) t = .ok .null u)
      (rest : Lacks namespace_ name as u v) : Lacks namespace_ name (a :: as) s v

theorem Lacks.eq_none {namespace_ name : String} {as : List Assembly}
    (h : Lacks namespace_ name as s t) : Domain.firstClass namespace_ name as s = .ok none t := by
  induction h with
  | nil s => rfl
  | @cons _ t u _ _ _ i image null _ ih =>
      have hnone : i.classFromName namespace_ name t = .ok none u := Query.bind_ok null
      exact (Query.bind_ok image).trans ((Query.bind_ok hnone).trans ih)

end Session

/-! ## Null handles stay outside -/

/-- In any session that a client has got to, whatever its calls are made to answer: no view that it
holds shows the null handle, none is noted, and no call that was made carries one where it means an
object. A query that requires an object and gets a null handle fails, notes nothing from the call on,
and keeps its own place empty; likewise the classes of an image of which one is missing, which is a
misfit of the layout. Where an object may be absent, a null handle is none. -/
theorem Session.Run.null_free {snapshot : Snapshot} {vm : Vm} {version : Version}
    {layout : ClassLayout} {s : Session} {held : List AnyView}
    (hvm : Vm.ofSnapshot snapshot = .ok vm) (run : (Session.new vm version layout).Run s held) :
    (∀ v ∈ held, v.2.handle ≠ .null) ∧
    (∀ page f v, s.notebook.find? page f = some v → f.Shown s v) ∧
    (∀ c ∈ s.probe.calls, c.2.NamesObjects) ∧
    (∀ (α : Type) (x : Query α) (r : Reply) (c : Call r) kind t answer u, Requires s x c kind t →
      ask c t = .ok answer u → r.HasNull answer →
        ∃ v, x s = .error (.invalidHandle kind .null) v ∧
          (∀ page f, v.notebook.find? page f = t.notebook.find? page f) ∧
          ∀ page f, s.KeepsUnder x page f → v.notebook.find? page f = none) ∧
    (∀ (i : Image) layout index t, s.Shows i → s.notebook.find? i.page .imageClasses = none →
      Gap i s layout index t → ∃ e u, i.classes s = .error e u ∧ Misfits i layout index t e u ∧
        u.notebook.find? i.page .imageClasses = none) ∧
    (∀ (α : Type) (x : Query (Option α)) c u, Allows s x c → ask c s = .ok .null u →
      ∃ v, x s = .ok none v) ∧
    ∀ (d : Domain) name as t u, d.assemblies s = .ok as t →
      Lacks (splitQualified name).1 (splitQualified name).2 as t u →
        d.findClass name s = .ok none u := by
  have secure := run.secure (Session.intact_new (Vm.wellFormed_ofSnapshot hvm) version layout)
  have hs := secure.intact
  refine ⟨fun v hv => (secure.shows v hv).1, hs.notes, ?_, ?_, ?_, ?_, ?_⟩
  · obtain ⟨calls, hcalls, heq⟩ := secure.calls
    have hall : s.probe.calls = calls := heq.trans (List.append_nil _)
    rw [hall]
    exact hcalls
  · intro α x r c kind t answer u requires run null
    obtain ⟨v, fails, same⟩ := requires.rejects run null
    exact ⟨v, fails, same, fun page f keeps => keeps.blank hs _ _ fails⟩
  · intro i layout index t shown fresh gap
    obtain ⟨e, u, fails, misfits⟩ := gap.fails fresh
    exact ⟨e, u, fails, misfits,
      (Image.classes_notes (n := 7) hs shown (by decide)).blank _ _ fails⟩
  · intro α x c u allows run
    exact allows.eq_none run
  · intro d name as t u list lacks
    exact (Query.bind_ok list).trans lacks.eq_none

/-- The type of a class is answered with null once. -/
theorem Session.Run.null_free_small :
    let s₀ := Session.new Snapshot.small.machine ⟨2020, 3, 1, some "f1"⟩ .current
    let c : Class := ⟨Arena.handleAt 2, 1⟩
    let s₁ : Session := (Query.view .class_ c.handle).leaves s₀
    let s := { s₁ with probe := s₁.probe.setFault "class_type" ⟨0, some 1, .answers .handle .null⟩ }
    s₀.Run s [c.any] ∧ ∃ t, c.type s = .error (.invalidHandle "type" .null) t ∧
      t.notebook.find? c.page .classType = none := by
  intro s₀ c s₁ s
  have hvm : Vm.ofSnapshot Snapshot.small = .ok Snapshot.small.machine :=
    Vm.ofSnapshot_machine (Or.inr rfl)
  have viewed : Query.view .class_ c.handle s₀ = .ok c s₁ := rfl
  have run : s₀.Run s [c.any] := .spoil (.yields .start (.view .class_ c.handle) viewed) _ _
  have fresh : s.notebook.find? c.page .classType = none := rfl
  have answered : ask (.classType c.handle) s = .ok .null _ := rfl
  obtain ⟨shown, _, _, rejects, _⟩ := null_free hvm run
  obtain ⟨t, fails, _, blank⟩ := rejects _ _ _ _ _ _ _ _ (.classType fresh) answered rfl
  have hshown : s.Shows c := ⟨shown _ List.mem_cons_self, rfl⟩
  exact ⟨run, t, fails, blank _ _ (.fact (f := .classType) hshown rfl)⟩

end VmMetadata
