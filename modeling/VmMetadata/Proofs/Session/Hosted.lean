import VmMetadata.Proofs.Session.Lookups
import VmMetadata.Proofs.Session.Moves

/-!
What a host says about itself. Its application class is looked for in the last assembly of each
name, and a getter is the first method of its name that counts no parameters. Main statements: a
session reads of a getter what the description says that it returns, and runs that one method for
it; looking for the getter runs none, however the calls are spoiled.
-/

namespace VmMetadata

open Query (Runs Moves CallsOnly RunsAtMost)

/-! ## Calls that look up a getter -/

namespace Call

/-- A call by which the application class and its methods are looked up. -/
def isLookup : Call r → Bool
  | .domainGet | .domainAssemblies _ | .assemblyImage _ | .imageName _ | .classFromName _ _ _
  | .classMethods _ | .methodName _ | .methodParameterCount _ | .methodParameterName _ _
  | .methodParameterType _ _ => true
  | _ => false

/-- A call by which something is read of the host: a getter is looked up, or run without an object
and without arguments, or its text is read. -/
def readsHost : Call r → Bool
  | .methodInvoke _ object arguments => object = .null ∧ arguments = []
  | .stringChars _ => true
  | c => c.isLookup

theorem readsHost_of_isLookup {c : Call r} (hc : c.isLookup = true) : c.readsHost = true := by
  cases c with
  | methodInvoke method object arguments => cases hc
  | _ => first | rfl | exact hc

theorem invoked?_of_isLookup {c : Call r} (hc : c.isLookup = true) : c.invoked? = none := by
  cases c with
  | methodInvoke method object arguments => cases hc
  | _ => rfl

end Call

/-- The query makes no calls but to look something up. -/
abbrev Query.Seeks (x : Query α) : Prop :=
  x.CallsOnly fun c => c.2.isLookup = true

/-- The query makes no calls but to read something of the host. -/
abbrev Query.ReadsHost (x : Query α) : Prop :=
  x.CallsOnly fun c => c.2.readsHost = true

namespace Query.Seeks

theorem ask {c : Call r} (hc : c.isLookup = true) : (Query.ask c).Seeks :=
  CallsOnly.ask hc

/-- A noted answer. -/
theorem note {page : Nat} {f : Fact} {c : Call r} (hc : c.isLookup = true)
    {g : r.Value → Query f.Value} (hg : ∀ a, (g a).Seeks) :
    (Query.remember page f (Query.ask c >>= g)).Seeks :=
  .remember ((ask hc).bind hg)

theorem readsHost {x : Query α} (hx : x.Seeks) : x.ReadsHost :=
  CallsOnly.weaken hx fun _ => Call.readsHost_of_isLookup

theorem runsNone {x : Query α} (hx : x.Seeks) : x.RunsNone :=
  CallsOnly.weaken hx fun _ => Call.invoked?_of_isLookup

end Query.Seeks

open Query (Seeks)

theorem Query.domain_seeks : Query.domain.Seeks :=
  (Seeks.ask rfl).bind fun _ => .view _ _

theorem Image.name_seeks (i : Image) : i.name.Seeks :=
  .remember (Seeks.ask rfl)

theorem Image.classFromName_seeks (i : Image) (namespace_ name : String) :
    (i.classFromName namespace_ name).Seeks :=
  (Seeks.ask rfl).bind fun _ => .viewAny _ _

namespace Assembly

variable (a : Assembly)

theorem image_seeks : a.image.Seeks :=
  Seeks.note rfl fun _ => .view _ _

theorem name_seeks : a.name.Seeks :=
  .remember ((image_seeks a).bind fun i => (Image.name_seeks i).bind fun _ => .pure _)

end Assembly

namespace Domain

variable (d : Domain)

theorem assemblies_seeks : d.assemblies.Seeks :=
  Seeks.note rfl (.mapM (.view _))

theorem assembly?_seeks (name : String) : (d.assembly? name).Seeks :=
  .bind (.remember ((assemblies_seeks d).bind fun as => .foldlM (fun _ a =>
    (Assembly.name_seeks a).bind fun _ => .pure _) as _)) fun _ => .pure _

end Domain

namespace Method

variable (m : Method)

theorem name_seeks : m.name.Seeks :=
  .remember (Seeks.ask rfl)

theorem readParameters_seeks : ∀ count position : Nat,
    (m.readParameters position count).Seeks
  | 0, _ => .pure []
  | count + 1, position => (Seeks.ask rfl).bind fun _ => (Seeks.ask rfl).bind fun _ =>
      .bind (.view _ _) fun _ => (readParameters_seeks count (position + 1)).bind fun _ => .pure _

theorem parameters_seeks : m.parameters.Seeks :=
  Seeks.note rfl fun count => readParameters_seeks m count 0

theorem isMatch_seeks (name : String) (count : Option Nat) : (m.isMatch name count).Seeks := by
  refine (name_seeks m).bind fun found => ?_
  split
  · exact .pure false
  · cases count with
    | none => exact .pure true
    | some k => exact (parameters_seeks m).bind fun _ => .pure _

end Method

namespace Class

theorem firstMethod_seeks (name : String) (count : Option Nat) : ∀ ms : List Method,
    (firstMethod name count ms).Seeks
  | [] => .pure none
  | m :: rest => by
      rw [firstMethod_cons]
      refine (Method.isMatch_seeks m name count).bind fun found => ?_
      split
      · exact .pure _
      · exact firstMethod_seeks name count rest

theorem method?_seeks (c : Class) (name : String) (count : Option Nat) :
    (c.method? name count).Seeks :=
  .bind (Seeks.note rfl (.mapM (.view _))) fun ms => firstMethod_seeks name count ms

end Class

namespace Method

/-- The text that the method returns. An empty text counts as absent. -/
def text? (m : Method) : Query (Option String) := do
  let some o ← m.invoke none [] | pure none
  let text ← Object.contents o
  pure (if text = "" then none else some text)

theorem text?_readsHost (m : Method) : m.text?.ReadsHost := by
  refine .bind ((CallsOnly.ask (by rfl)).bind fun _ => .viewAny _ _) fun o? => ?_
  cases o? with
  | none => exact .pure none
  | some o => exact (CallsOnly.ask (by rfl)).bind fun _ => .pure _

theorem text?_runsAtMost (m : Method) : m.text?.RunsAtMost 1 := by
  have hinvoke : (m.invoke none []).RunsAtMost 1 :=
    (RunsAtMost.ask _).bind (m := 0) fun _ => .of_runsNone (.viewAny _ _)
  refine hinvoke.bind (m := 0) fun o? => .of_runsNone ?_
  cases o? with
  | none => exact .pure none
  | some o => exact (CallsOnly.ask (by rfl)).bind fun _ => .pure _

end Method

namespace Host

theorem findClass_seeks (d : Domain) : ∀ names : List String, (findClass d names).Seeks
  | [] => .pure none
  | name :: rest => by
      unfold findClass
      refine (Domain.assembly?_seeks d name).bind fun a? => ?_
      cases a? with
      | none => exact findClass_seeks d rest
      | some a =>
          refine (Assembly.image_seeks a).bind fun i =>
            (Image.classFromName_seeks i _ _).bind fun c? => ?_
          cases c? with
          | none => exact findClass_seeks d rest
          | some c => exact .pure _

/-- The host is a page of the notebook, and the machine is not asked for it. -/
theorem new_moves {R : Session → Session → Prop} [Session.IgnoresNotes R] : Host.new.Moves R :=
  .of_notes fun _ => ⟨_, rfl⟩

variable (h : Host)

theorem class?_seeks : h.class?.Seeks :=
  .remember (Query.domain_seeks.bind fun d => findClass_seeks d assemblyNames)

/-- The getter of the name. -/
def getter? (name : String) : Query (Option Method) := do
  let some c ← h.class? | pure none
  c.method? name (some 0)

theorem getter?_seeks (name : String) : (h.getter? name).Seeks := by
  refine (class?_seeks h).bind fun c? => ?_
  cases c? with
  | none => exact .pure none
  | some c => exact Class.method?_seeks c name (some 0)

/-- A getter is looked up and then run. -/
theorem text?_eq (name : String) : h.text? name = (do
    let some m ← h.getter? name | pure none
    m.text?) := by
  unfold text? getter?
  rw [bind_assoc]
  congr 1
  funext c?
  cases c? <;> rfl

theorem text?_readsHost (name : String) : (h.text? name).ReadsHost := by
  rw [text?_eq]
  refine .bind (getter?_seeks h name).readsHost fun m? => ?_
  cases m? with
  | none => exact .pure none
  | some m => exact Method.text?_readsHost m

theorem text?_runsAtMost (name : String) : (h.text? name).RunsAtMost 1 := by
  rw [text?_eq]
  refine RunsAtMost.bind (n := 0) (m := 1) (.of_runsNone (getter?_seeks h name).runsNone)
    fun m? => ?_
  cases m? with
  | none => exact .of_runsNone (.pure none)
  | some m => exact Method.text?_runsAtMost m

theorem identifier_runsAtMost : h.identifier.RunsAtMost 2 := by
  refine RunsAtMost.bind (n := 1) (m := 1) (text?_runsAtMost h _) fun text? => ?_
  cases text? with
  | none => exact text?_runsAtMost h _
  | some text => exact .of_runsNone (.pure _)

theorem identifier_readsHost : h.identifier.ReadsHost := by
  refine .bind (text?_readsHost h _) fun text? => ?_
  cases text? with
  | none => exact text?_readsHost h _
  | some text => exact .pure _

end Host

/-! ## What is described of the host -/

namespace Snapshot

/-- The application class of the host. -/
def hostClass? (s : Snapshot) : Option (Handle × ClassDescription) :=
  Host.assemblyNames.findSome? fun name =>
    (s.assemblyNamed? name).bind fun p => p.classNamed? "UnityEngine" "Application"

/-- The methods of a class with their handles. -/
def methodsAt (s : Snapshot) (q : Handle × ClassDescription) : List (Handle × MethodDescription) :=
  match s.machine.arena.class_ q.1 with
  | .ok n => n.methods.zip q.2.methods
  | .error _ => []

/-- The first method of the application class that has the name and counts no parameters. -/
def hostGetter? (s : Snapshot) (name : String) : Option (Handle × MethodDescription) :=
  s.hostClass?.bind fun q => (s.methodsAt q).find? fun m =>
    m.2.name = name ∧ word32 m.2.parameters.length = 0

/-- What a getter of the host returns. An empty text counts as absent. -/
def hostText? (s : Snapshot) (name : String) : Option String :=
  ((s.hostGetter? name).bind fun m => m.2.result).filter fun text => text ≠ ""

/-- The methods that are run for the getters, as far as they are there. -/
def runsOf (s : Snapshot) (names : List String) : List Handle :=
  names.filterMap fun name => (s.hostGetter? name).map Prod.fst

variable {s : Snapshot}

theorem mem_entries_of_hostClass? {q : Handle × ClassDescription} (h : s.hostClass? = some q) :
    q ∈ s.entries := by
  obtain ⟨name, -, hq⟩ := List.exists_of_findSome?_eq_some h
  obtain ⟨p, hp, hq⟩ := Option.bind_eq_some_iff.mp hq
  exact mem_entries_of_zip (mem_images.mpr (Or.inl (mem_sites_of_assemblyNamed? hp)))
    (List.mem_of_find?_eq_some hq)

end Snapshot

/-- The method lies at the handle as it is described. -/
def MethodDescription.LiesAt (m : MethodDescription) (a : Arena) (h : Handle) : Prop :=
  ∃ n, a.method h = .ok n ∧ n.name = m.name ∧ n.parameters.length = m.parameters.length ∧
    n.result = m.result

theorem MethodDescription.LiesAt.later {m : MethodDescription} {a b : Arena} {h : Handle}
    (hm : m.LiesAt a h) (hab : a.Later b) : m.LiesAt b h := by
  obtain ⟨n, hn, hsame⟩ := hm
  exact ⟨n, hab.method hn, hsame⟩

/-- The methods of a class lie one after the other as they are described. -/
theorem Snapshot.exists_methodsAt {s : Snapshot} {q : Handle × ClassDescription}
    (hq : q ∈ s.entries) : ∃ n, s.machine.arena.class_ q.1 = .ok n ∧
      s.methodsAt q = n.methods.zip q.2.methods ∧
      List.Forall₂ (fun k m => MethodDescription.LiesAt m s.machine.arena k) n.methods
        q.2.methods := by
  obtain ⟨l, hmachine, hlaid, -⟩ := s.machine_kept
  obtain ⟨p, -, t, fields, methods, hclass, -, -, hmethods⟩ := hlaid.linkedAt hq
  have harena : s.machine.arena = l.arena := by
    rw [hmachine]
    rfl
  rw [← harena] at hclass
  refine ⟨_, hclass, ?_, ?_⟩
  · rw [methodsAt, hclass]
  · refine hmethods.flip.imp fun k m ⟨ret, ps, _, hps, hk⟩ => ⟨_, harena ▸ hk, rfl, ?_, rfl⟩
    exact hps.length_eq.symm

theorem Snapshot.liesAt_of_hostGetter? {s : Snapshot} {name : String}
    {m : Handle × MethodDescription} (h : s.hostGetter? name = some m) :
    m.2.LiesAt s.machine.arena m.1 := by
  obtain ⟨q, hq, hm⟩ := Option.bind_eq_some_iff.mp h
  obtain ⟨n, -, hmethods, hlie⟩ := exists_methodsAt (mem_entries_of_hostClass? hq)
  rw [hmethods] at hm
  exact (List.forall₂_iff_zip.mp hlie).2 (List.mem_of_find?_eq_some hm)

/-- Among nodes the first match is found at the same handle as among descriptions. -/
theorem exists_nodes_find?_eq {a : Arena} {ks : List Handle} {ms : List MethodDescription}
    (h : List.Forall₂ (fun k m => MethodDescription.LiesAt m a k) ks ms) (name : String) :
    ∃ ns, List.Forall₂ (fun k n => a.method k = .ok n) ks ns ∧
      ((ks.zip ns).find? fun q => q.2.Matches name (some 0)).map Prod.fst =
        ((ks.zip ms).find? fun m =>
          m.2.name = name ∧ word32 m.2.parameters.length = 0).map Prod.fst := by
  induction h with
  | nil => exact ⟨[], .nil, rfl⟩
  | @cons k m ks ms hm _ ih =>
      obtain ⟨n, hn, hname, hparameters, -⟩ := hm
      obtain ⟨ns, hns, hfind⟩ := ih
      refine ⟨n :: ns, .cons hn hns, ?_⟩
      have hmatches : n.Matches name (some 0) ↔
          m.name = name ∧ word32 m.parameters.length = 0 := by
        simp [MethodNode.Matches, hname, hparameters]
      rw [List.zip_cons_cons, List.zip_cons_cons]
      by_cases hmatch : n.Matches name (some 0)
      · rw [List.find?_cons_of_pos (by simpa using hmatch),
          List.find?_cons_of_pos (by simpa using hmatches.mp hmatch)]
        rfl
      · rw [List.find?_cons_of_neg (by simpa using hmatch),
          List.find?_cons_of_neg (by simpa using mt hmatches.mpr hmatch), hfind]

/-! ## What a session reads of the host -/

/-- What is known of two runs that are the same run. -/
theorem Query.Runs.and {x : Query α} {s : Session} {P Q : α → Session → Prop} {E F : Prop}
    (hP : Runs x s P E) (hQ : Runs x s Q F) : Runs x s (fun a t => P a t ∧ Q a t) (E ∧ F) := by
  cases hQ with
  | ok run later sound post => exact .ok run later sound ⟨(hP.of_ok run).2.2, post⟩
  | error run later sound reason =>
      cases hP with
      | ok run' _ _ _ => cases run.symm.trans run'
      | error _ _ _ reason' => exact .error run later sound ⟨reason', reason⟩

/-- Running a method yields a new string object, or null. -/
theorem Access.invoke_returns {vm : Vm} {h : Handle} {n : MethodNode}
    (hn : vm.arena.method h = .ok n) : (Access.invoke h).Steps vm
      (fun o w => match n.result with
        | some text => w.arena.object o = .ok (.string text)
        | none => o = .null) False := by
  have hnode : Access.methodNode h vm = .ok n vm := Access.methodNode_eq_ok.mpr ⟨hn, rfl⟩
  unfold Access.invoke
  cases hresult : n.result with
  | none =>
      refine .of_ok (w := vm) ?_ .idle rfl
      rw [Access.bind_ok hnode, hresult]
      rfl
  | some text =>
      refine .of_ok (a := vm.arena.next) (w := { vm with arena := vm.arena.push _ }) ?_
        (.string text) (Arena.object_eq_ok.mpr (Arena.get?_push_next _ _))
      rw [Access.bind_ok hnode, hresult]
      rfl

theorem Vm.tells_stringChars {vm : Vm} {o : Handle} {text : String}
    (ho : vm.arena.object o = .ok (.string text)) : vm.Tells (.stringChars o) text := by
  change (Access.objectNode o >>= _) vm = _
  rw [Access.bind_ok (Access.objectNode_eq_ok.mpr ⟨ho, rfl⟩)]
  rfl

/-- Running a method that is described yields a string object with the result, if there is one. -/
theorem Method.invoke_returns {s : Session} (hs : s.Sound) {m : Method} {d : MethodDescription}
    (hm : d.LiesAt s.vm.arena m.handle) :
    Runs (m.invoke none []) s (fun o? t => (∀ text ∈ d.result, ∃ o, o? = some o ∧
      t.vm.Tells (.stringChars o.handle) text) ∧ (d.result = none → o? = none) ∧
      t.ran = s.ran ++ [m.handle]) False := by
  obtain ⟨n, hn, -, -, hresult⟩ := hm
  refine (Runs.ask hs (c := .methodInvoke m.handle .null []) (Access.invoke_returns hn)).bind
    fun k t _ sound hk => ?_
  obtain ⟨hreturns, hcalled⟩ := hk
  have hcalls : t.probe.calls = ⟨_, .methodInvoke m.handle .null []⟩ :: s.probe.calls := by
    rw [hcalled]
    rfl
  have hran : t.ran = s.ran ++ [m.handle] := Session.ran_of_calls hcalls
  rw [hresult] at hreturns
  cases hd : d.result with
  | none =>
      rw [hd] at hreturns
      obtain rfl : k = .null := hreturns
      exact .pure sound ⟨by simp, fun _ => rfl, hran⟩
  | some text =>
      rw [hd] at hreturns
      have hne : k ≠ .null := Arena.ne_null_of_get? (Arena.object_eq_ok.mp hreturns)
      unfold Query.view?
      rw [Handle.nonNull?_of_ne_null hne]
      refine (Query.RunsNone.runs (Moves.view _ k) (Runs.view sound .object k)).map.weaken ?_ hne
      rintro _ u later ⟨o, ⟨⟨-, rfl⟩, hquiet⟩, rfl⟩
      refine ⟨?_, by simp, hquiet.trans hran⟩
      intro _ hmem
      cases hmem
      exact ⟨o, rfl, (Vm.tells_stringChars hreturns).later rfl later.vm⟩

theorem Method.text?_runs {s : Session} (hs : s.Sound) {m : Method} {d : MethodDescription}
    (hm : d.LiesAt s.vm.arena m.handle) : Runs m.text? s (fun text? t =>
      text? = d.result.filter (fun text => text ≠ "") ∧ t.ran = s.ran ++ [m.handle]) False := by
  refine (invoke_returns hs hm).bind fun o? t _ sound ho => ?_
  obtain ⟨hsome, hnone, hran⟩ := ho
  cases hresult : d.result with
  | none =>
      rw [hnone hresult]
      exact .pure sound ⟨rfl, hran⟩
  | some text =>
      obtain ⟨o, rfl, htells⟩ := hsome text hresult
      refine (Query.RunsNone.runs (CallsOnly.ask rfl) (Runs.known sound htells)).bind
        fun text' u _ sound' htext => ?_
      obtain ⟨⟨rfl, -⟩, hquiet⟩ := htext
      refine .pure sound' ⟨?_, hquiet.trans hran⟩
      by_cases hempty : text' = "" <;> simp [Option.filter_some, hempty]

namespace Session.On

variable {snapshot : Snapshot}

/-- Now and later, the application class is the one that is described. -/
theorem eq_of_tellsHost {s t : Session} (hs : s.On snapshot) (later : s.Later t) {d : Handle}
    (hd : s.vm.Tells .domainGet d) : ∀ {names : List String} {k : Handle},
    t.vm.TellsHost d names k → k = ((names.findSome? fun name =>
      (snapshot.assemblyNamed? name).bind fun p =>
        p.classNamed? "UnityEngine" "Application").map Prod.fst).getD .null
  | [], _, h => h
  | name :: rest, k, h => by
      rw [List.findSome?_cons]
      rcases h with ⟨hnone, hrest⟩ | ⟨assembly, image, c, hsome, himage, hc, hrest⟩
      · rw [Option.map_eq_none_iff.mp (hs.eq_of_tellsNamed later hd hnone).symm]
        exact hs.eq_of_tellsHost later hd hrest
      · obtain ⟨p, hp, rfl⟩ :=
          Option.map_eq_some_iff.mp (hs.eq_of_tellsNamed later hd hsome).symm
        have hsite := Snapshot.mem_sites_of_assemblyNamed? hp
        have htold := (Vm.tells_assemblyImage.mpr (hs.assembly hsite)).later rfl later.vm
        cases himage.unique htold
        have hfound := hc.unique ((hs.tells_classFromName (Snapshot.mem_images.mpr (Or.inl hsite))
          "UnityEngine" "Application").later rfl later.vm)
        rw [hp, Option.bind_some]
        cases hq : p.classNamed? "UnityEngine" "Application" with
        | none =>
            rw [hq] at hfound
            obtain rfl : c = .null := hfound
            rw [if_pos rfl] at hrest
            exact hs.eq_of_tellsHost later hd hrest
        | some q =>
            rw [hq] at hfound
            obtain rfl : c = q.1 := hfound
            rw [if_neg (Site.ne_null_of_classNamed? (Option.mem_map_of_mem Prod.fst hq))] at hrest
            exact hrest

/-- Looking for the application class does not fail. -/
theorem findHostClass_runs : ∀ {names : List String} {s : Session}, s.On snapshot →
    ∀ {d : Domain}, s.ShowsAt .domainGet d → Runs (Host.findClass d names) s (fun _ _ => True) False
  | [], _, hs, _, _ => .pure hs.sound trivial
  | name :: rest, s, hs, d, hd => by
      unfold Host.findClass
      refine (hs.assembly?_runs hd name).bind fun a? t later sound ha => ?_
      have ht := hs.later later sound
      have hd := hd.later rfl later
      obtain ⟨hshown, hnamed⟩ := ha
      cases a? with
      | none => exact findHostClass_runs ht hd
      | some a =>
          obtain ⟨p, hp, hassembly⟩ := Option.map_eq_some_iff.mp hnamed.symm
          have hsite := Snapshot.mem_sites_of_assemblyNamed? hp
          refine (ht.assemblyImage_runs (hshown a rfl) hsite hassembly.symm).bind
            fun i u later' sound' hi => ?_
          have hu := ht.later later' sound'
          have hd := hd.later rfl later'
          refine (hu.classFromName_runs (Snapshot.mem_images.mpr (Or.inl hsite)) hi.1.2 _ _).bind
            fun c? v later'' sound'' _ => ?_
          cases c? with
          | some c => exact .pure sound'' trivial
          | none => exact findHostClass_runs (hu.later later'' sound'') (hd.later rfl later'')

variable {s : Session} (hs : s.On snapshot) {h : Host} (hh : s.Hosts h)
include hs hh

theorem hostClass_runs : Runs h.class? s (fun c? t => (∀ c ∈ c?, t.Shows c) ∧
    c?.map View.handle = snapshot.hostClass?.map Prod.fst) False := by
  have hnote : Runs h.class? s (fun c? t => Fact.Holds t .null .hostClass c?) False := by
    refine Runs.remember (f := .hostClass) hs.sound hh ?_
    refine (Query.domain_agrees (.refl hs.sound)).runs.bind fun d t later sound hd => ?_
    refine ((Host.findClass_runs sound hd.1).and
      (findHostClass_runs (hs.later later sound) hd)).weaken (fun c? u later' hc => ?_) And.right
    exact ⟨hc.1.1, d.handle, hd.2.later rfl later'.vm, hc.1.2⟩
  refine hnote.weaken (fun c? t later hc => ⟨hc.1, ?_⟩) id
  obtain ⟨hshown, d, hd, hhost⟩ := hc
  have hdomain : s.vm.Tells .domainGet s.vm.domain := rfl
  cases hd.unique (hdomain.later rfl later.vm)
  refine Handle.eq_of_getD_null ?_ ?_ (hs.eq_of_tellsHost later hdomain hhost)
  · intro k hk
    obtain ⟨c, hmem, rfl⟩ := Option.map_eq_some_iff.mp hk
    exact (hshown c hmem).1
  · intro k hk
    obtain ⟨q, hq, rfl⟩ := Option.map_eq_some_iff.mp hk
    exact Snapshot.ne_null_of_mem_entries (Snapshot.mem_entries_of_hostClass? hq)

variable (hmachine : snapshot.machine.Later s.vm)
include hmachine

/-- The getter is looked for among the methods of the application class. -/
theorem getter?_runs (name : String) : Runs (h.getter? name) s (fun m? _ =>
    m?.map View.handle = (snapshot.hostGetter? name).map Prod.fst) False := by
  refine (hs.hostClass_runs hh).bind fun c? t later sound hc => ?_
  obtain ⟨hshown, hclass⟩ := hc
  cases c? with
  | none =>
      have hclass := Option.map_eq_none_iff.mp hclass.symm
      exact .pure sound (by rw [Snapshot.hostGetter?, hclass]; rfl)
  | some c =>
      obtain ⟨q, hq, hhandle⟩ := Option.map_eq_some_iff.mp hclass.symm
      obtain ⟨n, hn, hmethods, hlie⟩ :=
        Snapshot.exists_methodsAt (Snapshot.mem_entries_of_hostClass? hq)
      obtain ⟨ns, hns, hfind⟩ := exists_nodes_find?_eq hlie name
      have harena := (hmachine.trans later.vm).arena
      have hnode := harena.class_ hn
      rw [hhandle] at hnode
      rw [Snapshot.hostGetter?, hq, Option.bind_some, hmethods, ← hfind]
      exact (Class.method?_finds sound (hshown c rfl) hnode
        (hns.imp fun _ _ hm => harena.method hm) name (some 0)).weaken (fun _ _ _ hm => hm.2) id

/-- The text of a getter is the one that is described. The getter is run for it, if it is there, and
nothing else. -/
theorem text?_runs (name : String) : Runs (h.text? name) s (fun text? t =>
    text? = snapshot.hostText? name ∧ t.ran = s.ran ++ snapshot.runsOf [name]) False := by
  rw [Host.text?_eq]
  refine ((Host.getter?_seeks h name).runsNone.runs (hs.getter?_runs hh hmachine name)).bind
    fun m? t later sound hm => ?_
  obtain ⟨hmethod, hquiet⟩ := hm
  cases m? with
  | none =>
      have hmethod := Option.map_eq_none_iff.mp hmethod.symm
      exact .pure sound (by simp [Snapshot.hostText?, Snapshot.runsOf, hmethod, hquiet])
  | some m =>
      obtain ⟨d, hd, hhandle⟩ := Option.map_eq_some_iff.mp hmethod.symm
      have hlies := (Snapshot.liesAt_of_hostGetter? hd).later (hmachine.trans later.vm).arena
      rw [hhandle] at hlies
      refine (Method.text?_runs sound hlies).weaken (fun text? u _ htext => ?_) id
      rw [htext.1, htext.2, hquiet]
      simp [Snapshot.hostText?, Snapshot.runsOf, hd, hhandle]

end Session.On

end VmMetadata
