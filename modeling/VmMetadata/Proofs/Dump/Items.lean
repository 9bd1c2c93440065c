import VmMetadata.Proofs.Dump.Reference
import VmMetadata.Proofs.Dump.Words
import VmMetadata.Proofs.Session.Refusal

/-!
What a class contributes to a dump. It follows from the description, or from the nodes of the
machine, and these never change; so it is the same whenever the class is dumped, whatever the
session has done before. Main statements: the lines of a class, or the error in their place, are
those of its description; and every described class has its contribution to either dump.
-/

namespace VmMetadata

open Query (Agree Runs Fails Says)

/-! ## Computations that do not fail -/

/-- The computation leaves the session later and sound, and yields something of which `P` holds. -/
structure Ends (x : StateM Session α) (s : Session) (P : α → Session → Prop) : Prop where
  later : s.Later (x s).2
  sound : (x s).2.Sound
  post : P (x s).1 (x s).2

namespace Ends

variable {s : Session} {P Q : α → Session → Prop} {x : StateM Session α}

theorem weaken (h : Ends x s P) (hPQ : ∀ a t, s.Later t → t.Sound → P a t → Q a t) :
    Ends x s Q :=
  ⟨h.later, h.sound, hPQ _ _ h.later h.sound h.post⟩

theorem pure {a : α} (hs : s.Sound) (ha : P a s) : Ends (Pure.pure a) s P :=
  ⟨.refl s, hs, ha⟩

theorem bind {f : α → StateM Session β} {R : β → Session → Prop} (hx : Ends x s P)
    (hf : ∀ a t, s.Later t → t.Sound → P a t → Ends (f a) t R) : Ends (x >>= f) s R := by
  have hrest := hf _ _ hx.later hx.sound hx.post
  exact ⟨hx.later.trans hrest.later, hrest.sound, hrest.post⟩

theorem attempt {q : Query α} {E : Prop} (h : Runs q s P E) :
    Ends q.attempt s (fun r t => (∃ a, r = .ok a ∧ P a t) ∨ (∃ e, r = .error e) ∧ E) := by
  unfold Query.attempt
  cases h with
  | @ok a t run later sound post =>
      refine ⟨?_, ?_, Or.inl ⟨a, ?_, ?_⟩⟩ <;> simp only [run] <;> assumption
  | @error e t run later sound reason =>
      refine ⟨?_, ?_, Or.inr ⟨⟨e, ?_⟩, reason⟩⟩ <;> simp only [run] <;> assumption

/-- A query that does not fail. -/
theorem attempt_ok {q : Query α} (h : Runs q s P False) :
    Ends q.attempt s (fun r t => ∃ a, r = .ok a ∧ P a t) :=
  (attempt h).weaken fun _ _ _ _ hr => hr.resolve_right fun hno => hno.2

/-- A query that fails. -/
theorem attempt_error {q : Query α} {e : Error} (h : Fails q s e) :
    Ends q.attempt s (fun r _ => r = .error e) := by
  obtain ⟨t, run, later, sound⟩ := h
  unfold Query.attempt
  refine ⟨?_, ?_, ?_⟩ <;> simp only [run] <;> assumption

end Ends

/-! ## Why a class cannot be shown -/

/-- Why a generic method cannot be instantiated over the root class. -/
def MethodDescription.lineError? (m : MethodDescription) (s : Snapshot) : Option Error :=
  if m.typeParameters = [] then none
  else s.fillError? (instantiationRefusal? m.name m.typeParameters m.instantiations
    (List.replicate (word32 m.typeParameters.length) s.rootName))

/-- Why the methods of a class cannot be shown: it cannot be closed itself, or else the first of its
generic methods cannot be instantiated. -/
def ClassDescription.linesError? (c : ClassDescription) (s : Snapshot) : Option Error :=
  if c.typeParameters = [] then c.methods.findSome? fun m => m.lineError? s
  else s.fillError? (arityRefusal? c.fullName c.typeParameters.length
    (word32 c.typeParameters.length))

/-- What a class contributes to the dump of methods. -/
def ClassDescription.methodItems (c : ClassDescription) (s : Snapshot) : List DumpItem :=
  match c.linesError? s with
  | some e => [.error e]
  | none => (c.lines s s.rootName).map .ok

namespace Session.On

variable {s : Session} {snapshot : Snapshot} (hs : s.On snapshot)
include hs

variable {c : ClassDescription} {n : ClassNode}

theorem writable {h : Handle} (hc : c.LiesAt s.vm.arena h n)
    (hnone : c.linesError? snapshot = none) : s.Writable h := by
  unfold ClassDescription.linesError? at hnone
  refine hc.writable (fun hopen => ?_) fun hclosed m hm hgeneric ret ps => ?_
  · rw [if_neg hopen] at hnone
    obtain ⟨hfill, hcount⟩ := hs.canFill hnone
    exact ⟨hfill, word32_eq_self_iff.mp (arityRefusal?_eq_none.mp hcount).symm⟩
  · rw [if_pos hclosed, List.findSome?_eq_none_iff] at hnone
    have hline := hnone m hm
    unfold MethodDescription.lineError? at hline
    rw [if_neg hgeneric] at hline
    exact hs.canFillMethod (n := m.node h ret ps) hline

/-- The described method lies at the view. -/
def ShowsMethod (s : Session) (cls : Handle) (m : MethodDescription) (v : Method) : Prop :=
  s.Shows v ∧ ∃ ret ps, s.vm.arena.method v.handle = .ok (m.node cls ret ps)

theorem methodLine_runs {cls : Handle} {m : MethodDescription} {v : Method}
    (hm : ShowsMethod s cls m v) (hnone : m.lineError? snapshot = none) :
    Runs (methodLine false v) s (fun _ _ => True) False := by
  obtain ⟨hshows, ret, ps, hnode⟩ := hm
  refine (methodLine_agrees (.refl hs.sound) hshows false).runs.weaken (fun _ _ _ _ => trivial)
    fun hno => hno ⟨⟨_, hnode⟩, fun _ => ⟨_, hnode, fun hgeneric => ?_⟩⟩
  change m.typeParameters ≠ [] at hgeneric
  unfold MethodDescription.lineError? at hnone
  rw [if_neg hgeneric] at hnone
  exact hs.canFillMethod (n := m.node cls ret ps) hnone

theorem methodLine_fails {cls : Handle} {m : MethodDescription} {v : Method}
    (hm : ShowsMethod s cls m v) {e : Error} (herror : m.lineError? snapshot = some e) :
    Fails (methodLine false v) s e := by
  obtain ⟨hshows, ret, ps, hnode⟩ := hm
  unfold MethodDescription.lineError? at herror
  split at herror
  · cases herror
  · rename_i hgeneric
    exact (Method.representative_fails hs hshows hnode hgeneric herror).bind _

/-- Where the description calls for an error, the lines cannot be read for this error. -/
theorem methodLines_fails {v : Class} (hv : s.Shows v) (hc : c.LiesAt s.vm.arena v.handle n)
    {e : Error} (herror : c.linesError? snapshot = some e) : Fails (methodLines v) s e := by
  have hopen := hc.isOpen_eq
  have hgeneric := Vm.tells_classIsGeneric.mpr ⟨n, hc.node, rfl⟩
  refine .after (Agree.known rfl hgeneric (Class.isGeneric_agrees (.refl hs.sound) hv)).runs
    fun isGeneric t later sound heq => ?_
  subst heq
  have hs := hs.later later sound
  have hv := hv.later later
  have hc := hc.later later.vm.arena
  unfold ClassDescription.linesError? at herror
  by_cases hempty : c.typeParameters = []
  · rw [if_pos hempty] at herror
    have hclosed : n.isOpen = false := by
      rw [hopen, hempty]
      rfl
    -- the class stands for itself, and the first of its methods that cannot be closed decides
    refine .after ((Class.representative_agrees (.refl sound) hv).runs.weaken
      (fun _ _ _ hw => hw) fun hno => hno ⟨n, hc.node, fun htrue => ?_⟩)
      fun w u later' sound' hw => ?_
    · rw [hclosed] at htrue
      cases htrue
    obtain ⟨hw, d, hd, hself, _⟩ := hw
    have hc := hc.later later'.vm.arena
    cases hd.symm.trans hc.node
    have hmethods := Vm.tells_classMethods.mpr ⟨n, hd, rfl⟩
    rw [← hself hclosed] at hmethods hc
    refine .after ((Class.methods_agrees (.refl sound') hw).runs.weaken (fun _ _ _ hms => hms)
      fun hnull => ?_) fun ms x later'' sound'' hms => ?_
    · exact (sound'.vm.arena.class_ hd).null_not_mem_methods (hnull _ hmethods)
    have hhandles := hms.2.unique (hmethods.later rfl later''.vm)
    have hall : List.Forall₂ (ShowsMethod x w.handle) c.methods ms := by
      have hlie := (hc.later later''.vm.arena).methods
      rw [← hhandles, List.forall₂_map_right_iff] at hlie
      refine List.forall₂_iff_get.mpr ⟨hlie.length_eq, fun k hk hk' => ⟨?_, hlie.get hk hk'⟩⟩
      exact hms.1 _ (List.get_mem ms ⟨k, hk'⟩)
    have hx := (hs.later later' sound').later later'' sound''
    rw [hclosed]
    refine .bind (.mapM (G := fun d m => ShowsMethod x w.handle d m) sound'' hall herror ?_) _
    rintro d m y ⟨hshows, ret, ps, hnode⟩ later₃ sound₃
    have hm : ShowsMethod y w.handle d m :=
      ⟨hshows.later later₃, ret, ps, later₃.vm.arena.method hnode⟩
    exact ⟨fun hnone => (hx.later later₃ sound₃).methodLine_runs hm hnone,
      fun e he => (hx.later later₃ sound₃).methodLine_fails hm he⟩
  · rw [if_neg hempty, ← hc.typeParameters, ← hc.fullName] at herror
    refine (Class.representative_fails hs hv hc.node ?_ herror).bind _
    rw [hopen]
    simpa using hempty

end Session.On

/-! ## What a class contributes -/

/-- The class at the handle contributes these items to the dump, now and at any later time. -/
def Session.Settles (s : Session) (kind : DumpKind) (h : Handle) (items : List DumpItem) : Prop :=
  ∀ t, s.Later t → t.Sound → ∀ c : Class, t.Shows c → c.handle = h →
    Ends (classItems kind c) t (fun shown _ => shown = items)

theorem Session.Settles.later {s t : Session} {kind : DumpKind} {h : Handle}
    {items : List DumpItem} (hs : s.Settles kind h items) (hst : s.Later t) :
    t.Settles kind h items :=
  fun u htu hu => hs u (hst.trans htu) hu

theorem classBlock_finds {s₁ s₂ : Session} (h : s₁.Alike s₂) {c : Class} (hc : s₁.Shows c) :
    (classBlock c).Says s₁ s₂ (do pure ((← Look.classDeclaration c.handle) ++ "\n\n")) :=
  (Class.declaration_finds h hc).map (· ++ "\n\n")

theorem classItems_ends {s : Session} (hs : s.Sound) (kind : DumpKind) {c : Class}
    (hc : s.Shows c) : Ends (classItems kind c) s (fun _ _ => True) := by
  cases kind with
  | classes =>
      exact (Ends.attempt (classBlock_same (.refl hs) hc).runs).bind
        fun _ _ _ sound _ => .pure sound trivial
  | methods =>
      refine (Ends.attempt (methodLines_agrees (.refl hs) hc).runs).bind fun r _ _ sound _ => ?_
      cases r <;> exact .pure sound trivial

namespace Session.On

variable {s : Session} {snapshot : Snapshot} (hs : s.On snapshot) {c : ClassDescription}
  {h : Handle} {n : ClassNode} (hc : c.LiesAt s.vm.arena h n)
include hs hc

/-- A described class contributes the lines of its description, or the error in their place. -/
theorem settles_methods : s.Settles .methods h (c.methodItems snapshot) := by
  rintro t later sound v hv rfl
  have hs := hs.later later sound
  have hc := hc.later later.vm.arena
  unfold ClassDescription.methodItems
  cases herror : c.linesError? snapshot with
  | none =>
      refine (Ends.attempt_ok ((methodLines_agrees (.refl sound) hv).runs.weaken
        (fun _ _ _ hl => hl) fun hno => hno (hs.writable hc herror))).bind
        fun r u later' sound' hr => ?_
      obtain ⟨lines, rfl, hlines⟩ := hr
      have hs := hs.later later' sound'
      rw [hs.lines_eq (fun _ => hs.namesType_rootName) (hc.later later'.vm.arena) hlines]
      exact .pure sound' rfl
  | some e =>
      refine (Ends.attempt_error (hs.methodLines_fails hv hc herror)).bind
        fun r u later' sound' hr => ?_
      rw [hr]
      exact .pure sound' rfl

omit hs hc in
/-- A class contributes its declaration, as it can be looked up in the machine. -/
theorem settles_classes {text : String} (htext : (Look.classDeclaration h).Finds s.vm text) :
    s.Settles .classes h [.ok (text ++ "\n\n")] := by
  rintro t later sound v hv rfl
  have htext := htext.later later.vm
  refine (Ends.attempt_ok ((classBlock_finds (.refl sound) hv).runs.weaken
    (fun block u later' hblock => hblock.1) fun hnone => ?_)).bind fun r u later' sound' hr => ?_
  · exact hnone _ (Look.finds_bind.mpr ⟨text, htext, Look.finds_pure.mpr rfl⟩)
  · obtain ⟨block, rfl, hblock⟩ := hr
    obtain ⟨text', htext', hblock⟩ := Look.finds_bind.mp hblock
    cases htext'.unique (htext.later later'.vm)
    cases Look.finds_pure.mp hblock
    exact .pure sound' rfl

/-- Every described class has its contribution. -/
theorem exists_settles (kind : DumpKind) : ∃ items, s.Settles kind h items := by
  cases kind with
  | methods => exact ⟨_, hs.settles_methods hc⟩
  | classes =>
      obtain ⟨text, htext⟩ := Look.exists_classDeclaration hs.sound.vm.arena hc.node
      exact ⟨_, settles_classes htext⟩

end Session.On

end VmMetadata
