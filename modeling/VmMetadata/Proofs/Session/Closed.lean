import VmMetadata.Proofs.Dump.History

/-!
The methods of a generic class that has been closed. Closing a class takes its type parameters away,
but not those that a method has of its own: such a method stays generic and has no body until it is
instantiated itself. Main statement: every other method of the closed class is not generic, and its
body is where its description has it, whatever the client does in between.
-/

namespace VmMetadata

open Query (Runs)

/-- Where the body of a method lies when its class is closed. Generic methods have none. -/
def MethodDescription.closedAddress? (m : MethodDescription) : Option Nat :=
  if m.isAbstract ∨ m.typeParameters ≠ [] ∨ m.address = some 0 then none else m.address

namespace Session

/-- The view shows a method of a closed class; so it is described. -/
structure ShowsClosed (s : Session) (m : MethodDescription) (v : Method) : Prop where
  shown : s.Shows v
  isGeneric : s.vm.Tells (.methodIsGeneric v.handle) (!m.typeParameters.isEmpty)
  pointer : s.vm.Tells (.methodPointer v.handle) (m.closedAddress?.getD 0)

variable {s t : Session} {m : MethodDescription} {v : Method}

theorem ShowsClosed.later (h : s.ShowsClosed m v) (hst : s.Later t) : t.ShowsClosed m v where
  shown := h.shown.later hst
  isGeneric := h.isGeneric.later rfl hst.vm
  pointer := h.pointer.later rfl hst.vm

variable (hs : s.Sound) (h : s.ShowsClosed m v)
include hs h

theorem ShowsClosed.isGeneric_runs :
    Runs v.isGeneric s (fun isGeneric _ => isGeneric = !m.typeParameters.isEmpty) False :=
  (Query.Agree.known rfl h.isGeneric (Method.isGeneric_agrees (.refl hs) h.shown)).runs

theorem ShowsClosed.virtualAddress_runs :
    Runs v.virtualAddress s (fun address _ => address = m.closedAddress?) False := by
  refine (Method.virtualAddress_agrees (.refl hs) h.shown).runs.weaken
    (fun address t later hfound => ?_) fun hnone => hnone _ h.pointer
  obtain ⟨p, hp, rfl⟩ := hfound
  cases hp.unique (h.pointer.later rfl later.vm)
  -- no body is at the null address
  have hzero : m.closedAddress? ≠ some 0 := by
    unfold MethodDescription.closedAddress?
    split
    · nofun
    · rename_i hbody
      exact fun heq => hbody (Or.inr (Or.inr heq))
  cases haddress : m.closedAddress? with
  | none => rfl
  | some address =>
      rw [haddress] at hzero
      exact if_neg fun heq => hzero (congrArg some heq)

end Session

/-! ## Closing -/

section

variable {s : Session} {c : ClassDescription} {h : Handle} {n : ClassNode}

/-- What the machine answers about a method of a closed class. -/
theorem Vm.tells_closedMethod {v : Vm} {m : MethodDescription} {k ret r j : Handle}
    {ps : List (String × Handle)} {args : List Handle} {d : ClassNode}
    (hk : v.arena.method k = .ok (m.node h ret ps)) (hd : v.arena.ClosedOver h args n r d)
    (hj : v.arena.ClosedMethod r ⟨n.typeParameters, args⟩ k j) :
    v.Tells (.methodIsGeneric j) (!m.typeParameters.isEmpty) ∧
      v.Tells (.methodPointer j) (m.closedAddress?.getD 0) := by
  obtain ⟨node, hnode, hclosed⟩ := hj
  cases hk.symm.trans hnode
  refine ⟨tells_methodIsGeneric.mpr ⟨_, hclosed, rfl⟩, ?_⟩
  have hpointer : m.closedAddress?.getD 0 = if d.isOpen || !m.typeParameters.isEmpty then 0
      else (if m.isAbstract then none else m.address).getD 0 := by
    rw [hd.isOpen_result, Bool.false_or]
    unfold MethodDescription.closedAddress?
    by_cases habstract : m.isAbstract = true
    · simp [habstract]
    · by_cases hgeneric : m.typeParameters = []
      · by_cases hzero : m.address = some 0 <;> simp [habstract, hgeneric, hzero]
      · simp [hgeneric]
  rw [hpointer]
  exact tells_methodPointer hclosed hd.result

/-- The methods of a closed class are copies of those of its definition, in their order. -/
theorem Class.methods_of_closedOver (hs : s.Sound) {r : Class} (hr : s.Shows r)
    {args : List Handle} {d : ClassNode} (hd : s.vm.arena.ClosedOver h args n r.handle d) :
    Runs r.methods s (fun ms t => List.Forall₂ (fun k (m : Method) => t.Shows m ∧
      t.vm.arena.ClosedMethod r.handle ⟨n.typeParameters, args⟩ k m.handle) n.methods ms)
      False := by
  have hmethods := Vm.tells_classMethods.mpr ⟨d, hd.result, rfl⟩
  refine (Class.methods_agrees (.refl hs) hr).runs.weaken (fun ms t later hms => ?_) fun hnull => ?_
  · have hcopies := (hd.later later.vm.arena hs.vm.arena).methods
    rw [← hms.2.unique (hmethods.later rfl later.vm), List.forall₂_map_right_iff] at hcopies
    refine List.forall₂_iff_get.mpr ⟨hcopies.length_eq, fun i hi hi' => ?_⟩
    exact ⟨hms.1 _ (List.get_mem ms ⟨i, hi'⟩), hcopies.get hi hi'⟩
  · exact (hs.vm.arena.class_ hd.result).null_not_mem_methods (hnull _ hmethods)

/-- The methods of a closed class are those of its description. -/
theorem Class.methods_runs_closed (hs : s.Sound) {v : Class} (hv : s.Shows v) {args : List Handle}
    {d : ClassNode} (hc : c.LiesAt s.vm.arena h n)
    (hd : s.vm.arena.ClosedOver h args n v.handle d) :
    Runs v.methods s (fun ms t => List.Forall₂ t.ShowsClosed c.methods ms) False := by
  refine (Class.methods_of_closedOver hs hv hd).weaken (fun ms t later hms => ?_) id
  have hd := hd.later later.vm.arena hs.vm.arena
  refine forall₂_compose (hc.later later.vm.arena).methods (fun m k v ⟨ret, ps, hk⟩ hv => ?_) hms
  obtain ⟨hgeneric, hpointer⟩ := Vm.tells_closedMethod hk hd hv.2
  exact ⟨hv.1, hgeneric, hpointer⟩

end

/-- The class at the handle is described so; every machine of the snapshot has it there. -/
def Snapshot.Describes (s : Snapshot) (h : Handle) (c : ClassDescription) : Prop :=
  ∃ p ∈ s.images, (c, h) ∈ p.described.zip p.classes

/-- The classes of an assembly are described where its site puts them. -/
theorem Snapshot.describes_of_site {s : Snapshot} {i : Nat} {h : Handle} {c : ClassDescription}
    (hi : i < s.sites.length) (hc : (c, h) ∈ s.sites[i].described.zip s.sites[i].classes) :
    s.Describes h c :=
  ⟨s.sites[i], mem_images.mpr (Or.inl (List.getElem_mem hi)), hc⟩

theorem Session.On.liesAt {s : Session} {snapshot : Snapshot} (hs : s.On snapshot) {h : Handle}
    {c : ClassDescription} (hc : snapshot.Describes h c) : ∃ n, c.LiesAt s.vm.arena h n := by
  obtain ⟨p, hp, hmem⟩ := hc
  exact (List.forall₂_iff_zip.mp (hs.presents hp)).2 hmem

/-- A client can close a class over the root class in two ways. Neither fails if the type parameters
can be filled. -/
theorem Class.close_runs {s : Session} (hs : s.Sound) {c : Class} (hc : s.Shows c) {n : ClassNode}
    (hn : s.vm.arena.class_ c.handle = .ok n) (hopen : n.isOpen = true) {close : Query Class}
    (hclose : close ∈
      [c.representative, placeholderArguments n.typeParameters.length >>= c.inflate]) :
    Runs close s (fun v t => t.Shows v ∧ ∃ args d,
      t.vm.arena.ClosedOver c.handle args n v.handle d)
      ¬(s.CanFill ∧ n.typeParameters.length < 0x1_0000_0000) := by
  rcases List.mem_pair.mp hclose with rfl | rfl
  · refine (Class.representative_agrees (.refl hs) hc).runs.weaken (fun v t later hv => ?_)
      fun hno hfill => hno ⟨n, hn, fun _ => hfill⟩
    obtain ⟨hshows, n', hn', _, hclosed⟩ := hv
    cases (later.vm.arena.class_ hn).symm.trans hn'
    obtain ⟨type, d, _, hd⟩ := hclosed hopen
    exact ⟨hshows, _, d, hd⟩
  · refine (Class.inflateOverRoot_agrees (.refl hs) hc hn hopen _).runs.weaken
      (fun v t _ hv => ?_) fun hno hfill => hno ⟨hfill.1, rfl, hfill.2⟩
    obtain ⟨hshows, type, d, _, hd⟩ := hv
    exact ⟨hshows, _, d, hd⟩

/-- A described generic class can be closed over the root class, and then each of its methods is
generic just if it has type parameters of its own; if it has none, its body is where it is
described. -/
theorem Class.methods_of_closed {snapshot : Snapshot} {vm : Vm} {config : Config} {s t : Session}
    (hvm : Vm.ofSnapshot snapshot = .ok vm) (hattach : Session.attach vm config = .ok s)
    (hobject : (firstNamed? "System" "Object" snapshot.corlibSite.described).isSome)
    (hreflection : (firstNamed? "System" "Type" snapshot.corlibSite.described).isSome)
    (history : s.History t) {c : Class} (hc : t.Shows c) {d : ClassDescription}
    (hd : snapshot.Describes c.handle d) (hgeneric : d.typeParameters ≠ []) {close : Query Class}
    (hclose : close ∈
      [c.representative, placeholderArguments d.typeParameters.length >>= c.inflate]) :
    (d.typeParameters.length < 0x1_0000_0000 → ∃ v u, close t = .ok v u) ∧
    ∀ v u, close t = .ok v u → ∀ w, u.History w → ∃ ms x, v.methods w = .ok ms x ∧
      List.Forall₂ (fun (m : MethodDescription) (method : Method) => ∀ y, x.History y →
        (∃ z, method.isGeneric y = .ok (!m.typeParameters.isEmpty) z) ∧
        ∃ z, method.virtualAddress y = .ok m.closedAddress? z) d.methods ms := by
  have hs := Session.On.of_attach hvm hattach
  obtain ⟨later, sound⟩ := history.sound hs
  have ht := hs.later later sound
  obtain ⟨n, hn⟩ := ht.liesAt hd
  have hopen : n.isOpen = true := by
    rw [hn.isOpen_eq]
    simpa using hgeneric
  rw [← hn.typeParameters] at hclose ⊢
  have hruns := Class.close_runs sound hc hn.node hopen hclose
  constructor
  · intro hcount
    have hfill : t.CanFill := ⟨ht.knowsClass_iff.mpr hobject, ht.knowsClass_iff.mpr hreflection⟩
    obtain ⟨v, u, hrun, _⟩ :=
      (hruns.weaken (fun _ _ _ hv => hv) fun hno => hno ⟨hfill, hcount⟩).exists_ok
    exact ⟨v, u, hrun⟩
  · intro v u hrun w hw
    obtain ⟨later, sound, hv, args, d', hclosed⟩ := hruns.of_ok hrun
    have hu := ht.later later sound
    obtain ⟨later', sound'⟩ := hw.sound hu
    have hclosed := hclosed.later later'.vm.arena sound.vm.arena
    obtain ⟨ms, x, hms, later'', sound'', hall⟩ := (Class.methods_runs_closed sound'
      (hv.later later') (hn.later (later.trans later').vm.arena) hclosed).exists_ok
    refine ⟨ms, x, hms, hall.imp fun m method hmethod y hy => ?_⟩
    obtain ⟨later₃, sound₃⟩ := hy.sound ((hu.later later' sound').later later'' sound'')
    have hmethod := hmethod.later later₃
    obtain ⟨_, z, hisGeneric, _, _, rfl⟩ := (hmethod.isGeneric_runs sound₃).exists_ok
    obtain ⟨_, z', haddress, _, _, rfl⟩ := (hmethod.virtualAddress_runs sound₃).exists_ok
    exact ⟨⟨z, hisGeneric⟩, z', haddress⟩

/-- A generic class that has a method with a type parameter of its own. -/
def Snapshot.mapping : Snapshot :=
  { Snapshot.small with
    assemblies :=
      { image := "Game.dll"
        classes := [
          { name := "Pool"
            typeParameters := ["T"]
            methods := [
              { name := "Get", returnType := "T", address := some 0x1040 },
              { name := "Map", returnType := "U", typeParameters := ["U"],
                address := some 0x1060 }] }] } :: Snapshot.small.assemblies.drop 1 }

theorem Class.methods_of_closed_mapping :
    let s := Session.new Snapshot.mapping.machine ⟨2020, 3, 1, some "f1"⟩ .current
    let t := (Query.view .class_ (Arena.handleAt 2)).leaves s
    let c : Class := ⟨Arena.handleAt 2, s.notebook.next⟩
    s.History t ∧ ∃ v u ms x, (placeholderArguments 1 >>= c.inflate) t = .ok v u ∧
      v.methods u = .ok ms x ∧
      List.Forall₂ (fun reported (method : Method) =>
        (∃ z, method.isGeneric x = .ok reported.1 z) ∧
        ∃ z, method.virtualAddress x = .ok reported.2 z)
        [(false, some 0x1040), (true, none)] ms := by
  intro s t c
  have hattach : Session.attach Snapshot.mapping.machine = .ok s :=
    Session.attach_eq_ok.mpr ⟨_, _, by decide +kernel, rfl⟩
  have history : s.History t :=
    .view .start .class_ (Arena.handleAt 2)
  have hdescribes : Snapshot.mapping.Describes c.handle Snapshot.mapping.sites[0].described[0] :=
    Snapshot.describes_of_site (i := 0) (by decide) (by decide +kernel)
  have hclosed := Class.methods_of_closed (Vm.ofSnapshot_machine (s := Snapshot.mapping)
    (Or.inr rfl)) hattach (by decide +kernel) (by decide +kernel) history
    ⟨by decide +kernel, by decide +kernel⟩ hdescribes (by decide)
    (List.mem_pair.mpr (Or.inr rfl))
  obtain ⟨v, u, hrun⟩ := hclosed.1 (by decide)
  obtain ⟨ms, x, hms, hall⟩ := hclosed.2 v u hrun u .start
  refine ⟨history, v, u, ms, x, hrun, hms, ?_⟩
  have hreported : [(false, some 0x1040), (true, none)] =
      Snapshot.mapping.sites[0].described[0].methods.map
        fun m => (!m.typeParameters.isEmpty, m.closedAddress?) := by
    decide +kernel
  rw [hreported, List.forall₂_map_left_iff]
  exact hall.imp fun m method hm => hm x .start

/-- A method with a type parameter of its own stays generic when its class is closed, and has no
body though it is described with one. -/
theorem Class.closed_mapping_stays_generic :
    let s := Session.new Snapshot.mapping.machine ⟨2020, 3, 1, some "f1"⟩ .current
    let t := (Query.view .class_ (Arena.handleAt 2)).leaves s
    let c : Class := ⟨Arena.handleAt 2, s.notebook.next⟩
    let d := Snapshot.mapping.sites[0].described[0]
    Session.attach Snapshot.mapping.machine = .ok s ∧
      (firstNamed? "System" "Object" Snapshot.mapping.corlibSite.described).isSome ∧
      (firstNamed? "System" "Type" Snapshot.mapping.corlibSite.described).isSome ∧
      s.History t ∧ t.Shows c ∧ Snapshot.mapping.Describes c.handle d ∧
      d.typeParameters = ["T"] ∧
      d.methods.map (fun m => (m.isAbstract, m.address)) =
        [(false, some 0x1040), (false, some 0x1060)] ∧
      (Query.attempt (do
        let closed ← c.inflate (← placeholderArguments 1)
        (← closed.methods).mapM fun m => do pure (← m.isGeneric, ← m.virtualAddress)) t).1 =
        .ok [(false, some 0x1040), (true, none)] := by
  refine ⟨Session.attach_eq_ok.mpr ⟨_, _, by decide +kernel, rfl⟩, by decide +kernel,
    by decide +kernel, .view .start .class_ (Arena.handleAt 2),
    ⟨by decide +kernel, by decide +kernel⟩,
    Snapshot.describes_of_site (i := 0) (by decide) (by decide +kernel),
    by decide +kernel, by decide +kernel, by decide +kernel⟩

end VmMetadata
