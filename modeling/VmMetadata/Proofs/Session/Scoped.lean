import VmMetadata.Proofs.Dump.History
import VmMetadata.Proofs.Load.Scoped
import VmMetadata.Proofs.Session.Surveyed

/-!
The types of members as a session reads them. Main statement: whatever was done before, the types of
all fields, results and parameters of a class are those that are kept for its texts. So type
parameters are recognized by the scopes alone just if the keys of the snapshot are apart.
-/

namespace VmMetadata

/-! ## Reading all types of a class -/

/-- The types of the result and of the parameters. -/
def Method.signature (m : Method) : Query (List TypeView) := do
  let result ← m.returnType
  pure (result :: (← m.parameters).map Parameter.type)

/-- The types of all members, in the order of the description. -/
def Class.memberTypes (c : Class) : Query (List TypeView) := do
  let fields ← (← c.fields).mapM Field.type
  let methods ← (← c.methods).mapM Method.signature
  pure (fields ++ methods.flatten)

/-- The references of a method that a client comes to: of the parameters those that can be counted. -/
def MethodDescription.shownRefs (m : MethodDescription) (c : ClassDescription) : List TypeRef :=
  m.returnRef c :: (counted m.parameters).map fun p => p.ref c m

def ClassDescription.shownRefs (c : ClassDescription) : List TypeRef :=
  (c.fields.map fun f => f.ref c) ++ c.methods.flatMap fun m => m.shownRefs c

/-- Where all parameters can be counted, no reference is passed over. -/
theorem ClassDescription.shownRefs_eq {c : ClassDescription}
    (hcount : ∀ m ∈ c.methods, m.parameters.length < 0x1_0000_0000) : c.shownRefs = c.refs := by
  rw [shownRefs, refs]
  refine congrArg _ (List.flatMap_congr fun m hm => ?_)
  rw [MethodDescription.shownRefs, MethodDescription.refs, counted_eq (hcount m hm)]

/-- The view is one of the type that is kept for the reference. -/
def Session.ShowsKept (u : Session) (s : Snapshot) (r : TypeRef) (t : TypeView) : Prop :=
  u.Shows t ∧ u.vm.arena.HoldsType t.handle (s.keptNode r)

theorem Session.ShowsKept.later {u v : Session} {s : Snapshot} {r : TypeRef} {t : TypeView}
    (h : u.ShowsKept s r t) (huv : u.Later v) : v.ShowsKept s r t :=
  ⟨h.1.later huv, h.2.later huv.vm.arena⟩

variable {b : Session} {s : Snapshot} {c : ClassDescription}

theorem Field.type_kept {f : FieldDescription} {v : Field} (hv : b.Shows v)
    (hf : f.KeptAt s b.vm.arena c v.handle) :
    b.Answers v.type fun t u => u.ShowsKept s (f.ref c) t := by
  obtain ⟨n, hn, htype⟩ := hf
  refine (type_answers hv hn htype.ne_null).weaken fun t u later ht => ?_
  obtain ⟨hhandle, hshown⟩ := ht
  exact ⟨hshown, hhandle ▸ htype.later later.vm.arena⟩

theorem Method.signature_answers {m : MethodDescription} {v : Method} (hv : b.Shows v)
    (hm : m.KeptAt s b.vm.arena c v.handle) :
    b.Answers v.signature fun ts u => List.Forall₂ (u.ShowsKept s) (m.shownRefs c) ts := by
  obtain ⟨n, hn, hreturn, hparameters⟩ := hm
  have htypes : ∀ q ∈ n.parameters, b.vm.arena.HasType q.2 := by
    intro q hq
    obtain ⟨p, -, t, ht, -⟩ := Load.mem_of_forall₂ hparameters hq
    exact ⟨t, ht⟩
  have hresult : b.Answers v.returnType fun t u => u.ShowsKept s (m.returnRef c) t := by
    refine (returnType_answers hv hn hreturn.ne_null).weaken fun t u later ht => ?_
    obtain ⟨hhandle, hshown⟩ := ht
    exact ⟨hshown, hhandle ▸ hreturn.later later.vm.arena⟩
  refine hresult.andKeep (fun _ _ _ hst ht => ht.later hst) fun t => ?_
  refine (parameters_answers hv hn htypes).bind fun ps u later _ hps => .pure fun w later' ht => ?_
  obtain ⟨hkeys, hshown⟩ := hps
  have hparameters := forall₂_counted hparameters
  rw [← hkeys, List.forall₂_map_right_iff] at hparameters
  refine .cons ht (List.forall₂_map_left_iff.mpr (List.forall₂_map_right_iff.mpr ?_))
  have hall := ((List.forall₂_and_left ps (counted m.parameters)).mpr ⟨hshown, hparameters.flip⟩).flip
  exact hall.imp fun _ _ hp =>
    ⟨hp.1.later later', Arena.HoldsType.later (later.trans later').vm.arena hp.2⟩

theorem Class.memberTypes_answers {v : Class} (hv : b.Shows v)
    (hc : c.KeptAt s b.vm.arena v.handle) :
    b.Answers v.memberTypes fun ts u => List.Forall₂ (u.ShowsKept s) c.shownRefs ts := by
  obtain ⟨n, hn, hfields, hmethods⟩ := hc
  have hfieldTypes := (fields_answers hv hn fun hnull => by
    obtain ⟨f, -, m, hm, -⟩ := Load.mem_of_forall₂ hfields hnull
    exact Arena.ne_null_of_get? (Arena.field_eq_ok.mp hm) rfl).throughViews
    (g := Field.type) (R := fun (f : FieldDescription) t u => u.ShowsKept s (f.ref c) t)
    (fun _ _ _ _ hst ht => ht.later hst) hfields
    fun f w u later _ hw hf => Field.type_kept hw (hf.later later.vm.arena)
  have hsignatures := (methods_answers hv hn fun hnull => by
    obtain ⟨m, -, k, hk, -⟩ := Load.mem_of_forall₂ hmethods hnull
    exact Arena.ne_null_of_get? (Arena.method_eq_ok.mp hk) rfl).throughViews
    (g := Method.signature) (R := fun m ts u => List.Forall₂ (u.ShowsKept s) (m.shownRefs c) ts)
    (fun _ _ _ _ hst hts => hts.imp fun _ _ ht => ht.later hst) hmethods
    fun m w u later _ hw hm => Method.signature_answers hw (hm.later later.vm.arena)
  refine .assoc <| hfieldTypes.andKeep
    (fun _ _ _ hst hts => hts.imp fun _ _ ht => ht.later hst) fun fields =>
    .assoc <| hsignatures.andKeep
    (fun _ _ _ hst hms => hms.imp fun _ _ hts => hts.imp fun _ _ ht => ht.later hst) fun methods =>
    .pure fun u _ hmethods hfields => ?_
  rw [ClassDescription.shownRefs, List.flatMap_def]
  exact List.rel_append (List.forall₂_map_left_iff.mpr hfields)
    (List.rel_flatten (List.forall₂_map_left_iff.mpr hmethods))

/-- What is kept is of a kind that has a tag of its own. -/
theorem Snapshot.hasTag_keptNode (s : Snapshot) (r : TypeRef) : (s.keptNode r).kind.HasTag := by
  have hblank : ∀ r : TypeRef, r.blankNode.kind.HasTag := by
    intro r
    cases r with
    | ofMethod | ofClass => rfl
    | global name => exact TypeKind.hasTag_of_named _ (TypeName.kind_mem name)
  unfold keptNode
  split
  · exact TypeKind.hasTag_of_named _ (ClassDescription.typeKind_mem _)
  · exact hblank _

/-- The surveys of all types of a class. -/
theorem Class.surveyTypes_answers {v : Class} (hv : b.Shows v)
    (hc : c.KeptAt s b.vm.arena v.handle) :
    b.Answers (do (← v.memberTypes).mapM TypeView.survey) fun outs _ =>
      List.Forall₂ (fun r out => out.Reports out.type.handle (s.keptNode r)) c.shownRefs outs :=
  (memberTypes_answers hv hc).bind fun _ _ _ _ hts =>
    .mapM (fun _ _ _ _ _ h => h) <| hts.imp fun r _ ht =>
      (TypeView.survey_answers ht.1 ht.2 (s.hasTag_keptNode r)).weaken fun _ _ _ hout =>
        { hout with handle := rfl }

/-- Whatever was done before, the types of all members of a class are reported, and they are those
that are kept for its texts. A reference to a type parameter of the method or the class is
recognized and shown under its name, and nothing else is shown as one, just if the keys of the
snapshot are apart; and just then the type of every text depends on nothing but its name, the scopes
around it and the described classes. This is so where no name begins like a key. -/
theorem Session.types_by_scope {vm : Vm} {config : Config} (hvm : Vm.ofSnapshot s = .ok vm)
    (hattach : Session.attach vm config = .ok b) :
    (∀ t, b.History t → ∀ q ∈ s.entries, ∀ v : Class, t.Shows v → v.handle = q.1 →
      ∃ outs u, (do (← v.memberTypes).mapM TypeView.survey : Query (List SurveyedType)) t =
          .ok outs u ∧
        List.Forall₂ (fun r out => out.Reports out.type.handle (s.keptNode r)) q.2.shownRefs outs) ∧
    (s.KeysApart ↔ ∀ r ∈ s.refs, r.Recognized (s.keptNode r)) ∧
    (s.KeysApart ↔ ∀ r ∈ s.refs, s.keptNode r = s.typeNode r) ∧
    (s.Plain → s.KeysApart) ∧
    ∀ text classScope methodScope n,
      (TypeRef.ofText text classScope methodScope).Recognized n ↔
        (n.kind = .mvar ↔ TypeName.normalized text ∈ methodScope) ∧
        (n.kind = .var ↔
          TypeName.normalized text ∉ methodScope ∧ TypeName.normalized text ∈ classScope) ∧
        (n.kind = .mvar ∨ n.kind = .var → n.name = TypeName.normalized text) := by
  refine ⟨fun t history q hq v hv hhandle => ?_, Snapshot.keysApart_iff_recognized,
    Snapshot.keysApart_iff_keptNode_eq, Snapshot.Plain.keysApart,
    fun _ _ _ _ => TypeRef.recognized_ofText_iff⟩
  obtain ⟨later, sound⟩ := history.sound (Session.On.of_attach hvm hattach)
  have hkept := Snapshot.keptAt_machine hq
  rw [← Session.machine_of_attach hvm hattach, ← hhandle] at hkept
  obtain ⟨outs, u, hrun, -, -, houts⟩ :=
    (Class.surveyTypes_answers hv (hkept.later later.vm.arena) t (.refl t) sound).exists_ok
  exact ⟨outs, u, hrun, houts⟩

/-- A type parameter, and a text that is its key. -/
def Snapshot.marked : Snapshot where
  vmVersion := "2020.3.1f1"
  moduleBase := 0x1000
  assemblies := [{
    image := "Game.dll"
    classes := [{
      name := "Pool"
      typeParameters := ["T"]
      fields := [{ name := "other", type := "!T" }, { name := "item", type := "T" }] }] }]

/-- The field of the type parameter gets the type of the other field, which is none. -/
theorem Session.types_by_scope_marked :
    let b := Session.new Snapshot.marked.machine ⟨2020, 3, 1, some "f1"⟩ .current
    let v : Class := ⟨Arena.handleAt 2, b.notebook.next⟩
    Session.attach Snapshot.marked.machine = .ok b ∧ ¬Snapshot.marked.KeysApart ∧
      ∃ outs u, (do (← v.memberTypes).mapM TypeView.survey : Query (List SurveyedType))
          ((Query.view .class_ v.handle).leaves b) = .ok outs u ∧
        outs.map (fun out => (out.name, out.kind)) = [("!T", .classType), ("!T", .classType)] := by
  intro b v
  have hattach : Session.attach Snapshot.marked.machine = .ok b :=
    Session.attach_eq_ok.mpr ⟨_, _, by decide +kernel, rfl⟩
  obtain ⟨hall, -⟩ := Session.types_by_scope
    (Vm.ofSnapshot_machine (s := Snapshot.marked) (Or.inr rfl)) hattach
  refine ⟨hattach, by decide +kernel, ?_⟩
  obtain ⟨outs, u, hrun, houts⟩ := hall _
    (.view .start .class_ v.handle)
    (v.handle, Snapshot.marked.sites[0].described[0]) (by decide +kernel) v
    ⟨by decide +kernel, by decide +kernel⟩ rfl
  refine ⟨outs, u, hrun, ?_⟩
  have hrefs : Snapshot.marked.sites[0].described[0].refs = [.global "!T", .ofClass "T"] := by
    decide +kernel
  rw [ClassDescription.shownRefs_eq (by decide +kernel), hrefs] at houts
  cases houts with
  | cons hother hrest =>
      cases hrest with
      | cons hitem hnil =>
          cases hnil
          rw [List.map_cons, List.map_singleton, hother.name, hother.kind, hitem.name, hitem.kind]
          decide +kernel

end VmMetadata
