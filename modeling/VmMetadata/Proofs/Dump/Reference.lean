import VmMetadata.Proofs.Dump.Builds

/-!
The dump of methods as a function of the description. Generic classes are shown closed over the root
class, and so are generic methods of other classes; a generic method of a generic class stays open
and has no body. Main statement: a session without overrides pulls just the lines of this function.
-/

namespace VmMetadata

open Query (Agree Agrees Runs)

open Session (Pairs SameListing)

/-! ## The reference -/

/-- The body that a dump shows for a method of the class. `root` is the type name of the root class.
A generic method has the body of its first instantiation over the root class, taken as many times as
the method counts type parameters, else its own. -/
def MethodDescription.shown (m : MethodDescription) (c : ClassDescription) (root : String) :
    Option Nat :=
  let own := if m.isAbstract then none else m.address
  if m.typeParameters = [] then own
  else if c.typeParameters = [] then
    let count := word32 m.typeParameters.length
    (compiledAddress? (List.replicate count root) m.instantiations).or own
  else none

/-- The type name of the class, closed over the root class if it is generic. -/
def ClassDescription.closedName (c : ClassDescription) (root : String) : String :=
  if c.typeParameters = [] then c.fullName
  else genericName c.fullName (List.replicate c.typeParameters.length root)

/-- A method contributes a line if it has a body at an address other than null. -/
def MethodDescription.line? (m : MethodDescription) (s : Snapshot) (root : String)
    (c : ClassDescription) : Option String :=
  match m.shown c root with
  | none | some 0 => none
  | some address => some (addressToken s.moduleBase s.pointerSize address ++ " " ++
      c.closedName root ++ "." ++ m.name ++ "\n")

def ClassDescription.lines (c : ClassDescription) (s : Snapshot) (root : String) : List String :=
  c.methods.filterMap fun m => m.line? s root c

/-- All lines, in the order of assemblies, classes and methods. -/
def Snapshot.methodLines (s : Snapshot) (root : String) : List String :=
  s.assemblies.flatMap fun a => a.classes.flatMap fun c => c.lines s root

/-- Type parameters are counted by numbers of 32 bits. -/
structure ClassDescription.Countable (c : ClassDescription) : Prop where
  typeParameters : c.typeParameters.length < 0x1_0000_0000
  methods : ∀ m ∈ c.methods, m.typeParameters.length < 0x1_0000_0000

theorem Snapshot.map_described (s : Snapshot) :
    s.sites.map Site.described = s.assemblies.map AssemblyDescription.classes := by
  suffices h : ∀ (as : List AssemblyDescription) (position start : Nat),
      (sitesFrom position start as).map Site.described = as.map AssemblyDescription.classes from
    h s.assemblies 1 0
  intro as
  induction as with
  | nil => exact fun _ _ => rfl
  | cons a rest ih =>
      intro position start
      rw [sitesFrom, List.map_cons, List.map_cons, ih]

/-! ## The line of a method -/

namespace Vm

variable {vm : Vm} {k : Handle} {m : MethodNode} {n : ClassNode} {type : String}

theorem TellsLine.eq {line? : Option String} (h : vm.TellsLine k line?)
    (hm : vm.arena.method k = .ok m) (hn : vm.arena.class_ m.class = .ok n)
    (htype : vm.arena.NamesType n.type type) :
    line? = (vm.token? (if n.isOpen || !m.typeParameters.isEmpty then 0 else m.address.getD 0)).map
      fun token => token ++ " " ++ type ++ "." ++ m.name ++ "\n" := by
  obtain ⟨p, cls, type', name, hp, hcls, htype', hname, rfl⟩ := h
  cases hp.unique (tells_methodPointer hm hn)
  cases hcls.unique (tells_methodClass.mpr ⟨m, hm, rfl⟩)
  cases hname.unique (tells_methodName.mpr ⟨m, hm, rfl⟩)
  obtain ⟨t, ht, rfl⟩ := htype
  have hne : n.type ≠ .null := Arena.ne_null_of_get? (Arena.type_eq_ok.mp ht)
  cases htype'.unique
    ⟨n.type, hne, tells_classType.mpr ⟨n, hn, rfl⟩, tells_typeName.mpr ⟨t, ht, rfl⟩⟩
  rfl

end Vm

/-- The line in terms of the pointer that a machine of the snapshot reports. -/
theorem MethodDescription.line?_eq {s : Session} {snapshot : Snapshot} (hs : s.On snapshot)
    (m : MethodDescription) (c : ClassDescription) (root : String) :
    m.line? snapshot root c = (s.vm.token? ((m.shown c root).getD 0)).map
      fun token => token ++ " " ++ c.closedName root ++ "." ++ m.name ++ "\n" := by
  unfold line? Vm.token?
  rw [hs.moduleBase, hs.pointerSize]
  match m.shown c root with
  | none => rfl
  | some 0 => rfl
  | some (p + 1) => rfl

theorem forall₂_compose {P : α → β → Prop} {Q : β → γ → Prop} {R : α → γ → Prop} {as : List α}
    {bs : List β} (h : List.Forall₂ P as bs) (hR : ∀ a b c, P a b → Q b c → R a c) :
    ∀ {cs : List γ}, List.Forall₂ Q bs cs → List.Forall₂ R as cs := by
  induction h with
  | nil =>
      intro cs hcs
      cases hcs
      exact .nil
  | cons hab _ ih =>
      intro cs hcs
      cases hcs with
      | cons hbc hcs => exact .cons (hR _ _ _ hab hbc) (ih hcs)

theorem eq_map_of_forall₂ {f : α → β} {as : List α} {bs : List β}
    (h : List.Forall₂ (fun a b => b = f a) as bs) : bs = as.map f := by
  induction h with
  | nil => rfl
  | cons hab _ ih => rw [hab, ih, List.map_cons]

theorem eq_replicate_of_names {a : Arena} {type : Handle} {name : String} {count : Nat}
    {names : List String} (htype : a.NamesType type name)
    (h : List.Forall₂ a.NamesType (List.replicate count type) names) :
    names = List.replicate count name := by
  refine List.eq_replicate_iff.mpr ⟨by rw [← h.length_eq, List.length_replicate], fun x hx => ?_⟩
  obtain ⟨t, ht, n, hn, rfl⟩ := Load.mem_of_forall₂ h hx
  obtain ⟨u, hu, rfl⟩ := htype
  rw [List.eq_of_mem_replicate ht, hu] at hn
  cases hn
  rfl

namespace Session.On

variable {s : Session} {snapshot : Snapshot} (hs : s.On snapshot) {root : String}
  (hroot : ∀ type, s.RootType type → s.vm.arena.NamesType type root) {c : ClassDescription}
  {h : Handle} {n : ClassNode} (hc : c.LiesAt s.vm.arena h n)
include hs hroot hc

/-- The line of a method in a class that is not generic. -/
theorem line_eq {m : MethodDescription} {k ret : Handle} {ps : List (String × Handle)}
    (hclosed : c.typeParameters = []) (hk : s.vm.arena.method k = .ok (m.node h ret ps))
    {line? : Option String} (hline : s.TellsLineOf false k line?) :
    line? = m.line? snapshot root c := by
  obtain ⟨v, hv, hline⟩ := hline
  obtain ⟨node, hnode, hself, hinstance⟩ := hv.2 rfl
  cases hk.symm.trans hnode
  have hopen : n.isOpen = false := by rw [hc.isOpen_eq, hclosed]; rfl
  have hname : c.typeName = c.closedName root := by
    rw [ClassDescription.typeName, ClassDescription.closedName, if_pos hclosed, if_pos hclosed]
  rw [m.line?_eq hs, ← hname]
  by_cases hempty : m.typeParameters = []
  · cases hself hempty
    rw [hline.eq hk hc.node hc.type, hopen]
    simp [MethodDescription.node, MethodDescription.shown, hempty]
  · obtain ⟨type, htype, node', names, hnode', hnames, hv⟩ := hinstance hempty
    cases hk.symm.trans hnode'
    rw [hline.eq hv hc.node hc.type, hopen]
    have hnames := eq_replicate_of_names (hroot type htype) hnames
    subst hnames
    simp [MethodNode.instantiated, MethodNode.substituted, MethodDescription.node,
      MethodDescription.shown, hempty, hclosed]

/-- The line of a method in a generic class that has been closed. -/
theorem line_eq_of_closed {m : MethodDescription} {k ret v j type : Handle}
    {ps : List (String × Handle)} {d : ClassNode} (hopen : c.typeParameters ≠ [])
    (hk : s.vm.arena.method k = .ok (m.node h ret ps)) (htype : s.RootType type)
    (hd : s.vm.arena.ClosedOver h (List.replicate n.typeParameters.length type) n v d)
    (hj : s.vm.arena.ClosedMethod v
      ⟨n.typeParameters, List.replicate n.typeParameters.length type⟩ k j)
    {line? : Option String} (hline : s.TellsLineOf true j line?) :
    line? = m.line? snapshot root c := by
  obtain ⟨j', hj', hline⟩ := hline
  cases hj'.1 rfl
  obtain ⟨node, hnode, hclosed⟩ := hj
  cases hk.symm.trans hnode
  obtain ⟨t, names, ht, _, _, hnames, hname⟩ := hd.type
  have hnames := eq_replicate_of_names (hroot type htype) hnames
  have hname : t.name = c.closedName root := by
    rw [hname, hnames, hc.fullName, hc.typeParameters, ClassDescription.closedName, if_neg hopen]
  rw [m.line?_eq hs, hline.eq hclosed hd.result ⟨t, ht, hname⟩, hd.isOpen_result]
  by_cases hempty : m.typeParameters = [] <;>
    simp [MethodNode.closed, MethodNode.substituted, MethodDescription.node,
      MethodDescription.shown, hempty, hopen]

/-- A described class has the lines of the reference. -/
theorem lines_eq {lines : List String} (hlines : s.TellsLines h lines) :
    lines = c.lines snapshot root := by
  obtain ⟨d, v, ms, line?s, hd, ⟨d', hd', hself, hclosed⟩, hms, hall, rfl⟩ := hlines
  cases hd.symm.trans hd'
  cases hd.symm.trans hc.node
  obtain ⟨nv, hnv, rfl⟩ := Vm.tells_classMethods.mp hms
  have hopen := hc.isOpen_eq
  -- a class that is not generic stands for itself; any other has copies of its methods
  suffices heq : line?s = c.methods.map fun m => m.line? snapshot root c by
    rw [heq, ClassDescription.lines, List.filterMap_map]
    rfl
  by_cases hempty : c.typeParameters = []
  · rw [hempty] at hopen
    cases hself hopen
    cases hd.symm.trans hnv
    rw [hopen] at hall
    exact eq_map_of_forall₂ (forall₂_compose hc.methods (fun m k line? ⟨ret, ps, hk⟩ hline =>
      hs.line_eq hroot hc hempty hk hline) hall)
  · have hopen : n.isOpen = true := by
      rw [hopen]
      simpa using hempty
    obtain ⟨type, n', htype, hover⟩ := hclosed hopen
    cases hnv.symm.trans hover.result
    rw [hopen] at hall
    have hcopies := forall₂_compose (R := fun (m : MethodDescription) j => ∃ k,
      (∃ ret ps, s.vm.arena.method k = .ok (m.node h ret ps)) ∧ s.vm.arena.ClosedMethod v
        ⟨n.typeParameters, List.replicate n.typeParameters.length type⟩ k j)
      hc.methods (fun m k j hk hj => ⟨k, hk, hj⟩) hover.methods
    exact eq_map_of_forall₂ (forall₂_compose hcopies
      (fun m j line? ⟨k, ⟨ret, ps, hk⟩, hj⟩ hline =>
        hs.line_eq_of_closed hroot hc hempty hk htype hover hj hline) hall)

end Session.On

/-- A described class has its lines written if the type parameters can be filled. -/
theorem ClassDescription.LiesAt.writable {s : Session} {c : ClassDescription} {h : Handle}
    {n : ClassNode} (hc : c.LiesAt s.vm.arena h n)
    (hclass : c.typeParameters ≠ [] → s.CanFill ∧ c.typeParameters.length < 0x1_0000_0000)
    (hmethods : c.typeParameters = [] → ∀ m ∈ c.methods, m.typeParameters ≠ [] →
      ∀ ret ps, s.CanFillMethod (m.node h ret ps)) : s.Writable h := by
  have hopen := hc.isOpen_eq
  refine ⟨n, hc.node, fun htrue => ?_, fun hfalse m hm _ => ?_⟩
  · rw [hc.typeParameters]
    exact hclass (by simpa using hopen.symm.trans htrue)
  · obtain ⟨d, hd, ret, ps, hnode⟩ := Load.mem_of_forall₂ hc.methods hm
    exact ⟨_, hnode, fun hgeneric =>
      hmethods (by simpa using hopen.symm.trans hfalse) d hd hgeneric ret ps⟩

/-! ## Pulling the lines -/

theorem Patience.after?_endless (item : DumpItem) : endless.after? item = some .endless := by
  cases item <;> rfl

/-- The part that was pulled is these lines, and the end was seen. -/
structure Pulled.Gives (p : Pulled) (lines : List String) : Prop where
  ended : p.patience = some .endless
  items : p.items = lines.map .ok

namespace Pulled

theorem ofItems_endless (items : List DumpItem) :
    ofItems .endless items = ⟨items.map .item, some .endless⟩ := by
  induction items with
  | nil => rfl
  | cons item items ih =>
      rw [ofItems, Patience.after?_endless]
      simp only [ih, List.map_cons]

theorem items_append (events : List DumpEvent) (p : Pulled) :
    Pulled.items { p with events := events ++ p.events } =
      Pulled.items ⟨events, p.patience⟩ ++ p.items := by
  simp [items, List.filterMap_append]

theorem gives_ofItems (lines : List String) :
    (ofItems .endless (lines.map .ok)).Gives lines := by
  rw [ofItems_endless]
  refine ⟨rfl, ?_⟩
  simp [items, List.filterMap_map, Function.comp_def]

variable {s₁ s₂ : Session}

/-- One part after the other. -/
theorem andThen_gives {first : Pulled} {lines rest : List String}
    {next : Patience → StateM Session Pulled} (hfirst : first.Gives lines)
    (hnext : Pulls (next .endless) s₁ s₂ (fun p t => t.vm.arena.BelowScratch → p.Gives rest)) :
    Pulls (first.andThen next) s₁ s₂
      (fun p t => t.vm.arena.BelowScratch → p.Gives (lines ++ rest)) := by
  unfold andThen
  rw [hfirst.ended]
  refine hnext.bind fun p t₁ t₂ hpairs hp => .pure hpairs.stay fun hbelow => ?_
  refine ⟨(hp hbelow).ended, ?_⟩
  rw [items_append, (hp hbelow).items, List.map_append]
  congr 1
  exact hfirst.items

end Pulled

/-- What holds only below scratch memory need not be shown where the arena is not below it. -/
theorem Pulls.vacuous {x : StateM Session α} {s₁ s₂ : Session} {P : α → Session → Prop}
    (h : Pulls x s₁ s₂ (fun _ _ => True)) (hnot : ¬s₁.vm.arena.BelowScratch) :
    Pulls x s₁ s₂ (fun a t => t.vm.arena.BelowScratch → P a t) :=
  h.weaken fun _ _ later _ _ hbelow => absurd (later.vm.arena.belowScratch hbelow) hnot

variable {snapshot : Snapshot} {root : ClassDescription}
  (hobject : firstNamed? "System" "Object" snapshot.corlibSite.described = some root)
  (hreflection : ∃ d, firstNamed? "System" "Type" snapshot.corlibSite.described = some d)
include hobject hreflection

theorem classItems_lines {s₁ s₂ : Session} (hb : Pairs s₁ s₂ s₁ s₂) (hs : s₁.On snapshot)
    {c : Class} (hc : s₁.Shows c) {d : ClassDescription} {n : ClassNode}
    (hd : d.LiesAt s₁.vm.arena c.handle n) (hcount : d.Countable) :
    Pulls (classItems .methods c) s₁ s₂
      (fun items _ => items = (d.lines snapshot root.typeName).map .ok) := by
  refine (Pulls.attemptBlind hb fun _ halike => methodLines_agrees halike hc).bind
    fun lines? t₁ t₂ hpairs hlines => ?_
  cases lines? with
  | error e =>
      obtain ⟨_, hreflection⟩ := hreflection
      obtain ⟨k, _, hk, _⟩ := hs.knowsClass hobject
      obtain ⟨j, _, hj, _⟩ := hs.knowsClass hreflection
      have hfill : s₁.CanFill := ⟨⟨k, hk⟩, ⟨j, hj⟩⟩
      exact absurd (hd.writable (fun _ => ⟨hfill, hcount.typeParameters⟩)
        fun _ m hm _ _ _ => hfill.method hs.sound.vm (hcount.methods m hm)) (hlines.2 e rfl)
  | ok lines =>
      have hs := hs.later hpairs.later hpairs.sound
      rw [hs.lines_eq (fun _ => hs.namesType_root hobject) (hd.later hpairs.later.vm.arena)
        (hlines.1 lines rfl)]
      exact .pure hpairs.stay rfl

/-- The class view shows the described class. -/
def Session.ShowsDescribed (s : Session) (d : ClassDescription) (c : Class) : Prop :=
  s.Shows c ∧ d.Countable ∧ ∃ n, d.LiesAt s.vm.arena c.handle n

omit hobject hreflection in
theorem Session.ShowsDescribed.later {s t : Session} {d : ClassDescription} {c : Class}
    (h : s.ShowsDescribed d c) (hst : s.Later t) : t.ShowsDescribed d c := by
  obtain ⟨hshows, hcount, n, hn⟩ := h
  exact ⟨hshows.later hst, hcount, n, hn.later hst.vm.arena⟩

theorem pullClasses_lines : ∀ {ds : List ClassDescription} {cs : List Class} {s₁ s₂ : Session},
    Pairs s₁ s₂ s₁ s₂ → s₁.On snapshot → List.Forall₂ s₁.ShowsDescribed ds cs →
      Pulls (pullClasses .methods cs .endless) s₁ s₂ (fun p t => t.vm.arena.BelowScratch →
        p.Gives (ds.flatMap fun d => d.lines snapshot root.typeName))
  | _, _, _, _, hb, _, .nil => .pure hb fun _ => ⟨rfl, rfl⟩
  | _, _, _, _, hb, hs, .cons ⟨hshows, hcount, n, hn⟩ hrest => by
      refine (classItems_lines hobject hreflection hb hs hshows hn hcount).bind
        fun items t₁ t₂ hpairs hitems => ?_
      subst hitems
      rw [List.flatMap_cons]
      exact Pulled.andThen_gives (Pulled.gives_ofItems _) (pullClasses_lines hpairs.stay
        (hs.later hpairs.later hpairs.sound) (hrest.imp fun _ _ h => h.later hpairs.later))

omit hobject hreflection in
theorem Session.On.showsDescribed {s : Session} (hs : s.On snapshot) {p : Site}
    (hp : p ∈ snapshot.images) (hcount : ∀ d ∈ p.described, d.Countable) {cs : List Class}
    (hcs : ∀ c ∈ cs, s.Shows c) (hhandles : cs.map View.handle = p.classes) :
    List.Forall₂ s.ShowsDescribed p.described cs := by
  have hpresents := hs.presents hp
  rw [← hhandles] at hpresents
  refine List.forall₂_iff_get.mpr ⟨?_, fun k hk hk' => ?_⟩
  · rw [hpresents.length_eq, List.length_map]
  · have hn := hpresents.get hk (by simpa using hk')
    simp only [List.get_eq_getElem, List.getElem_map] at hn ⊢
    exact ⟨hcs _ (List.getElem_mem hk'), hcount _ (List.getElem_mem hk), hn⟩

omit hobject hreflection in
/-- The classes of an assembly can be read, and they are the described ones. -/
theorem Assembly.classes_runs_listed {s : Session} (hfits : s.Fits snapshot) {a : Assembly}
    (ha : s.Shows a) {p : Site} (hp : p ∈ snapshot.sites) (hassembly : a.handle = p.assembly) :
    Runs (do (← a.image).classes) s (fun cs t => (∀ c ∈ cs, t.Shows c) ∧
      (t.vm.arena.BelowScratch → cs.map View.handle = p.classes)) ¬s.vm.arena.BelowScratch := by
  refine ((hfits.on.assemblyImage_runs ha hp hassembly).weaken (fun _ _ _ hi => hi)
    False.elim).bind fun i t later sound hi => ?_
  have hi' := hi.1.2
  have hfits := hfits.later later sound
  refine (Image.classes_runs sound hi.1.1).weaken (fun cs u later' hcs => ?_) fun hno hbelow => ?_
  · refine ⟨hcs.1.1, fun hbelow => ?_⟩
    obtain ⟨n, hn⟩ := hcs.1.2 hbelow
    exact hn.unique (hi' ▸ (hfits.lists hp).later later')
  · exact hno (hi.2 ▸ hbelow) _ _ (hi' ▸ hfits.lists hp)

variable {b₁ b₂ : Session} (hlisting : SameListing b₁ b₂)
include hlisting

theorem pullAssembly_lines {s₁ s₂ : Session} (hb : Pairs b₁ b₂ s₁ s₂) (hfits : s₁.Fits snapshot)
    {a : Assembly} (ha : s₁.Shows a) {p : Site} (hp : p ∈ snapshot.sites)
    (hassembly : a.handle = p.assembly) (hcount : ∀ d ∈ p.described, d.Countable) :
    Pulls (pullAssembly .methods a .endless) s₁ s₂ (fun pulled t => t.vm.arena.BelowScratch →
      pulled.Gives (p.described.flatMap fun d => d.lines snapshot root.typeName)) := by
  have hmem := Snapshot.mem_images.mpr (Or.inl hp)
  refine (Pulls.attemptBlind hb.stay fun _ halike => Assembly.name_agrees halike ha).bind
    fun name? t₁ t₂ hpairs hname => ?_
  cases name? with
  | error e =>
      have himage := hfits.on.image hmem
      refine absurd (Vm.tells_imageName.mpr ⟨_, himage, rfl⟩) (hname.2 e rfl p.image _
        (Arena.ne_null_of_get? (Arena.image_eq_ok.mp himage)) ?_)
      exact hassembly ▸ Vm.tells_assemblyImage.mpr (hfits.on.assembly hp)
  | ok name =>
      have hb := hb.trans hpairs
      have ha := ha.later hpairs.later
      have hfits := hfits.later hpairs.later hpairs.sound
      have hassembled : a.handle ∈ t₁.vm.assemblies := by
        rw [hfits.on.assemblies, hassembly]
        exact List.mem_map_of_mem hp
      refine (Pulls.attempt hb.stay (Assembly.classes_runs_listed hfits ha hp hassembly)
        fun hbelow _ => Assembly.classes_same hlisting (hb.together hbelow) ha hassembled
          hbelow).bind fun classes? u₁ u₂ hpairs' hclasses => ?_
      cases classes? with
      | error e =>
          exact .pure hpairs'.stay fun hbelow => absurd
            (hpairs'.later.vm.arena.belowScratch hbelow) (hclasses.2 e rfl)
      | ok classes =>
          obtain ⟨hshown, hhandles⟩ := hclasses.1 classes rfl
          have hon := hfits.on.later hpairs'.later hpairs'.sound
          refine Pulls.bind (P := fun pulled t => t.vm.arena.BelowScratch →
            pulled.Gives (p.described.flatMap fun d => d.lines snapshot root.typeName)) ?_
            fun pulled v₁ v₂ hpairs'' hpulled => .pure hpairs''.stay fun hbelow =>
              ⟨(hpulled hbelow).ended, (hpulled hbelow).items⟩
          by_cases hbelow : u₁.vm.arena.BelowScratch
          · exact pullClasses_lines hobject hreflection hpairs'.stay hon
              (hon.showsDescribed hmem hcount hshown (hhandles hbelow))
          · exact (pullClasses_pulls .methods classes .endless hpairs'.stay hshown).vacuous hbelow

/-- The assembly lies at the site, whose classes can be counted. -/
def Site.Holds (snapshot : Snapshot) (p : Site) (a : Assembly) : Prop :=
  a.handle = p.assembly ∧ p ∈ snapshot.sites ∧ ∀ d ∈ p.described, d.Countable

theorem pullAssemblies_lines : ∀ {ps : List Site} {as : List Assembly} {s₁ s₂ : Session},
    Pairs b₁ b₂ s₁ s₂ → s₁.Fits snapshot → (∀ a ∈ as, s₁.Shows a) →
      List.Forall₂ (Site.Holds snapshot) ps as →
      Pulls (pullAssemblies .methods as .endless) s₁ s₂ (fun pulled t =>
        t.vm.arena.BelowScratch → pulled.Gives
          (ps.flatMap fun p => p.described.flatMap fun d => d.lines snapshot root.typeName))
  | _, _, _, _, hb, _, _, .nil => .pure hb.stay fun _ => ⟨rfl, rfl⟩
  | _, a :: as, s₁, s₂, hb, hfits, has, .cons ⟨hassembly, hp, hcount⟩ hrest => by
      refine (pullAssembly_lines hobject hreflection hlisting hb hfits (has a List.mem_cons_self)
        hp hassembly hcount).bind fun first t₁ t₂ hpairs hfirst => ?_
      have hb := hb.trans hpairs
      have hfits := hfits.later hpairs.later hpairs.sound
      have hshown : ∀ b ∈ as, t₁.Shows b := fun b hb =>
        (has b (List.mem_cons_of_mem a hb)).later hpairs.later
      by_cases hbelow : t₁.vm.arena.BelowScratch
      · rw [List.flatMap_cons]
        exact Pulled.andThen_gives (hfirst hbelow) (pullAssemblies_lines hb hfits hshown hrest)
      · refine (Pulled.andThen_pulls hb.stay fun q => pullAssemblies_pulls hlisting .methods as q hb
          fun b hb => ⟨hshown b hb, ?_⟩).vacuous hbelow
        obtain ⟨q, _, hassembly, hq, _⟩ := Load.mem_of_forall₂ hrest hb
        rw [hfits.on.assemblies, hassembly]
        exact List.mem_map_of_mem hq

theorem pullDump_lines {s₁ s₂ : Session} (hb : Pairs b₁ b₂ s₁ s₂) (hfits : s₁.Fits snapshot)
    (hcount : ∀ a ∈ snapshot.assemblies, ∀ c ∈ a.classes, c.Countable) :
    Pulls (pullDump .methods .endless) s₁ s₂ (fun pulled t => t.vm.arena.BelowScratch →
      pulled.Gives (snapshot.methodLines root.typeName)) := by
  have hlines : snapshot.methodLines root.typeName = snapshot.sites.flatMap fun p =>
      p.described.flatMap fun d => d.lines snapshot root.typeName := by
    unfold Snapshot.methodLines
    rw [← List.flatMap_map (f := AssemblyDescription.classes), ← snapshot.map_described,
      List.flatMap_map]
  rw [hlines]
  refine (Pulls.attemptBlind hb.stay fun _ halike => Query.assemblies_agrees halike).bind
    fun as? t₁ t₂ hpairs has => ?_
  cases as? with
  | error e =>
      have hnull := has.2 e rfl
      obtain ⟨p, hp, hassembly, _⟩ := hfits.on.site_of_mem hnull
      exact absurd hassembly.symm (Arena.ne_null_of_get?
        (Arena.assembly_eq_ok.mp (hfits.on.assembly hp)))
  | ok as =>
      obtain ⟨hshown, hhandles⟩ := has.1 as rfl
      have hfits := hfits.later hpairs.later hpairs.sound
      rw [hfits.on.assemblies] at hhandles
      refine pullAssemblies_lines hobject hreflection hlisting (hb.trans hpairs) hfits hshown
        ((Session.forall₂_of_handles hhandles).imp fun p a hp => ⟨hp.2, hp.1, fun d hd => ?_⟩)
      obtain ⟨b, hb, _, hdescribed⟩ := mem_sitesFrom_described hp.1
      exact hcount b hb d (hdescribed ▸ hd)

omit hobject hreflection hlisting in
/-- In a session without overrides the dump of methods gives no error, and its lines are those of
the reference, if the core library has a root class and a class of reflection objects. -/
theorem pullDump_methods_eq {vm : Vm} {s : Session} (hvm : Vm.ofSnapshot snapshot = .ok vm)
    (hattach : Session.attach vm = .ok s) (hcount : snapshot.classCount < 0x1_0000_0000)
    (hcountable : ∀ a ∈ snapshot.assemblies, ∀ c ∈ a.classes, c.Countable)
    (hobject : firstNamed? "System" "Object" snapshot.corlibSite.described = some root)
    (hreflection : ∃ d, firstNamed? "System" "Type" snapshot.corlibSite.described = some d)
    (hbelow : (pullDump .methods .endless s).2.vm.arena.BelowScratch) :
    (pullDump .methods .endless s).1.ended = true ∧
      (pullDump .methods .endless s).1.items =
        (snapshot.methodLines root.typeName).map .ok := by
  have hfits := Session.Fits.of_attach hvm hattach hcount
  have hgives := (pullDump_lines hobject hreflection (hfits.sameListing hfits rfl)
    (Session.Alike.refl hfits.on.sound).pairs hfits hcountable).post hbelow
  exact ⟨congrArg Option.isSome hgives.ended, hgives.items⟩

omit hobject hreflection hlisting in
/-- The generic class of the small snapshot is shown closed. -/
theorem pullDump_methods_eq_small :
    let s := Session.new Snapshot.small.machine ⟨2020, 3, 1, some "f1"⟩ .current
    Session.attach Snapshot.small.machine = .ok s ∧ (pullDump .methods .endless s).1.items =
      [.ok "0x00000040 Pool<System.Object>.Get\n", .ok "0x00000080 System.Object.Finalize\n"] := by
  intro s
  have hvm := Vm.ofSnapshot_machine (s := Snapshot.small) (Or.inr rfl)
  have hattach : Session.attach Snapshot.small.machine = .ok s :=
    Session.attach_eq_ok.mpr ⟨_, _, by decide +kernel, rfl⟩
  have hcountable : ∀ a ∈ Snapshot.small.assemblies, ∀ c ∈ a.classes,
      c.typeParameters.length < 0x1_0000_0000 ∧
        ∀ m ∈ c.methods, m.typeParameters.length < 0x1_0000_0000 := by
    decide
  refine ⟨hattach, ?_⟩
  rw [(pullDump_methods_eq hvm hattach (by decide)
    (fun a ha c hc => ⟨(hcountable a ha c hc).1, (hcountable a ha c hc).2⟩)
    (by decide +kernel : _ = some (Snapshot.small.corlibSite.described[0])) ⟨_, rfl⟩
    (Arena.belowScratch_of_size (by decide +kernel))).2]
  decide +kernel

end VmMetadata
