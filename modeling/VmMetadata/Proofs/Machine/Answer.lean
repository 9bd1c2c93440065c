import VmMetadata.Proofs.Machine.Reading
import VmMetadata.Proofs.Machine.Step

/-!
What each call that makes or writes something does, and what it answers. Main statement: a call
takes a well-formed machine one step on, and a call that fails leaves it as it was.
-/

namespace VmMetadata

open Arena (handleAt)

namespace Arena

/-- The array holds the reflection objects of the types. -/
def Arguments (a : Arena) (array : Handle) (args : List Handle) : Prop :=
  ∃ cls items, a.object array = .ok (.array cls items) ∧
    List.Forall₂ (fun i t => a.object i = .ok (.typeObject t)) items args

theorem Arguments.hasType {a : Arena} (wf : a.WellFormed) {array : Handle} {args : List Handle}
    (h : a.Arguments array args) : ∀ t ∈ args, a.HasType t := by
  obtain ⟨_, _, _, hargs⟩ := h
  intro t ht
  obtain ⟨_, _, ho⟩ := Load.mem_of_forall₂ hargs ht
  obtain ⟨n, hn, _⟩ := wf.typeObject ho
  exact ⟨n, hn⟩

end Arena

namespace Access

/-! ## Lists of look-ups -/

theorem mapM_eq_ok {f : α → Access β} {R : α → β → Prop} {v : Vm}
    (hf : ∀ {a b w}, f a v = .ok b w ↔ w = v ∧ R a b) :
    ∀ {as : List α} {bs : List β} {w : Vm},
      as.mapM f v = .ok bs w ↔ w = v ∧ List.Forall₂ R as bs
  | [], bs, w => by
      rw [List.mapM_nil, pure_apply]
      constructor
      · rintro ⟨⟩
        exact ⟨rfl, .nil⟩
      · rintro ⟨rfl, ⟨⟩⟩
        rfl
  | a :: as, bs, w => by
      rw [List.mapM_cons, bind_eq_ok]
      constructor
      · rintro ⟨b, u, hb, hbs⟩
        obtain ⟨rfl, hab⟩ := hf.mp hb
        obtain ⟨bs', u', hbs', hcons⟩ := bind_eq_ok.mp hbs
        obtain ⟨rfl, habs⟩ := (mapM_eq_ok hf).mp hbs'
        cases hcons
        exact ⟨rfl, .cons hab habs⟩
      · rintro ⟨rfl, habs⟩
        cases habs with
        | cons hab habs =>
            exact ⟨_, _, hf.mpr ⟨rfl, hab⟩, bind_eq_ok.mpr
              ⟨_, _, (mapM_eq_ok hf).mpr ⟨rfl, habs⟩, rfl⟩⟩

theorem typeNames_eq_ok {args : List Handle} {names : List String} {v w : Vm} :
    typeNames args v = .ok names w ↔ w = v ∧ List.Forall₂ v.arena.NamesType args names := by
  refine mapM_eq_ok fun {t name w} => ?_
  rw [bind_eq_ok]
  constructor
  · rintro ⟨n, u, hn, ⟨⟩⟩
    obtain ⟨hn, rfl⟩ := typeNode_eq_ok.mp hn
    exact ⟨rfl, n, hn, rfl⟩
  · rintro ⟨rfl, n, hn, rfl⟩
    exact ⟨n, w, typeNode_eq_ok.mpr ⟨hn, rfl⟩, rfl⟩

theorem typeArgument_eq_ok {item t : Handle} {v w : Vm} :
    typeArgument item v = .ok t w ↔ w = v ∧ v.arena.object item = .ok (.typeObject t) := by
  rw [typeArgument, bind_eq_ok]
  constructor
  · rintro ⟨o, u, ho, ht⟩
    obtain ⟨ho, rfl⟩ := objectNode_eq_ok.mp ho
    cases o with
    | typeObject s =>
        cases ht
        exact ⟨rfl, ho⟩
    | _ => cases ht
  · rintro ⟨rfl, ho⟩
    exact ⟨_, _, objectNode_eq_ok.mpr ⟨ho, rfl⟩, rfl⟩

theorem typeArguments_eq_ok {array : Handle} {args : List Handle} {v w : Vm} :
    typeArguments array v = .ok args w ↔ w = v ∧ v.arena.Arguments array args := by
  rw [typeArguments, bind_eq_ok]
  constructor
  · rintro ⟨o, u, ho, hargs⟩
    obtain ⟨ho, rfl⟩ := objectNode_eq_ok.mp ho
    cases o with
    | array cls items =>
        obtain ⟨rfl, hargs⟩ := (mapM_eq_ok typeArgument_eq_ok).mp hargs
        exact ⟨rfl, cls, items, ho, hargs⟩
    | _ => cases hargs
  · rintro ⟨rfl, cls, items, ho, hargs⟩
    exact ⟨_, _, objectNode_eq_ok.mpr ⟨ho, rfl⟩, (mapM_eq_ok typeArgument_eq_ok).mpr ⟨rfl, hargs⟩⟩

theorem typeArguments_reads (array : Handle) : (typeArguments array).Reads := by
  refine Reads.bind (.lift_node _) fun o => ?_
  cases o with
  | array _ items =>
      refine .mapM (fun i => Reads.bind (.lift_node _) fun o => ?_) items
      cases o with
      | typeObject t => exact .pure t
      | _ => exact .refuse _
  | _ => exact .refuse _

theorem typeNames_reads (types : List Handle) : (typeNames types).Reads :=
  .mapM (fun _ => Reads.bind (.lift_node _) fun _ => .pure _) types

theorem substituteParameters_apply (cls method : Substitution) :
    ∀ (ps : List (String × Handle)) (v : Vm), substituteParameters cls method ps v =
      .ok (ps.map fun p => (p.1, v.arena.substitute cls method p.2)) v
  | [], v => rfl
  | (name, type) :: ps, v => by
      have ih := substituteParameters_apply cls method ps v
      have hfirst : (do pure (name, ← substitute cls method type) : Access (String × Handle)) v =
          .ok (name, v.arena.substitute cls method type) v := rfl
      unfold substituteParameters at ih ⊢
      rw [List.mapM_cons, bind_ok hfirst, bind_ok ih]
      rfl

/-! ## Closing a class -/

/-- Steps that each add one object add all of them, one behind the other. -/
theorem mapM_push (f : α → Access Handle) (a : Arena) (xs : List α) (nodes : List Node)
    (h : List.Forall₂ (fun x n => ∀ (v : Vm) (l : List Node), v.arena = a.append l →
      f x v = .ok v.arena.next { v with arena := v.arena.push n }) xs nodes) :
    ∀ (v : Vm) (l : List Node), v.arena = a.append l →
      xs.mapM f v = .ok ((List.range' v.arena.nodes.size xs.length).map handleAt)
        { v with arena := v.arena.append nodes } := by
  induction h with
  | nil =>
      intro v l _
      simp [pure_apply]
  | @cons x n xs nodes hx _ ih =>
      intro v l hv
      have ih := ih { v with arena := v.arena.push n } (l ++ [n])
        (by rw [hv, Arena.push_eq_append, Arena.append_append])
      rw [List.mapM_cons, bind_ok (hx v l hv), bind_ok ih, pure_apply]
      simp only [Arena.push_eq_append, Arena.append_append, Arena.size_append]
      rfl

section

variable {v : Vm} {a : Arena} {l : List Node} (hv : v.arena = a.append l) (wf : a.WellFormed)
include hv wf

theorem closeField_apply {f : Handle} {n : FieldNode} (hf : a.field f = .ok n) (σ : Substitution) :
    closeField σ f v =
      .ok v.arena.next { v with arena := v.arena.push (a.closedField σ n) } := by
  have hlater : a.Later v.arena := hv ▸ Arena.later_append a l
  rw [closeField, bind_ok (fieldNode_eq_ok.mpr ⟨hlater.field hf, rfl⟩),
    bind_ok (show substitute σ .empty n.type v = .ok (a.substitute σ .empty n.type) v by
      rw [← hlater.substitute (wf.field hf)]; rfl)]
  rfl

theorem closeMethod_apply {h : Handle} {m : MethodNode} (hm : a.method h = .ok m)
    (σ : Substitution) :
    closeMethod a.next σ h v =
      .ok v.arena.next { v with arena := v.arena.push (a.closedMethod σ m) } := by
  have hlater : a.Later v.arena := hv ▸ Arena.later_append a l
  obtain ⟨-, hret, hps⟩ := wf.method hm
  rw [closeMethod, bind_ok (methodNode_eq_ok.mpr ⟨hlater.method hm, rfl⟩),
    bind_ok (show substitute σ .empty m.returnType v = .ok (a.substitute σ .empty m.returnType) v by
      rw [← hlater.substitute hret]; rfl),
    bind_ok (substituteParameters_apply σ .empty m.parameters v)]
  rw [show (m.parameters.map fun p => (p.1, v.arena.substitute σ .empty p.2)) =
      m.parameters.map fun p => (p.1, a.substitute σ .empty p.2) from
    List.map_congr_left fun p hp => by rw [hlater.substitute (hps p hp)]]
  rfl

end

theorem closeClass_apply {vm : Vm} (wf : vm.WellFormed) {cls : Handle} {args : List Handle}
    {d : ClassNode} {names : List String} {fields : List FieldNode} {methods : List MethodNode}
    (h : vm.arena.Closing cls args d names fields methods) :
    closeClass cls d args vm = .ok vm.arena.next { vm with
      arena := vm.arena.append (vm.arena.closedNodes cls args d names fields methods) } := by
  let σ : Substitution := ⟨d.typeParameters, args⟩
  let blank : ClassNode := { d with definition := cls, fields := [], methods := [] }
  let start : List Node := [.class_ blank, .type (vm.arena.closedType d names)]
  let v₂ : Vm := { vm with arena := vm.arena.append start }
  -- the fields come to lie behind the class and its type, the methods behind the fields
  have hfields := mapM_push (closeField σ) vm.arena d.fields
    (fields.map (vm.arena.closedField σ))
    (List.forall₂_map_right_iff.mpr (h.fields.imp fun f n hf v l hv =>
      closeField_apply hv wf.arena hf σ)) v₂ start rfl
  let v₃ : Vm := { v₂ with arena := v₂.arena.append (fields.map (vm.arena.closedField σ)) }
  have hmethods := mapM_push (closeMethod vm.arena.next σ) vm.arena d.methods
    (methods.map (vm.arena.closedMethod σ))
    (List.forall₂_map_right_iff.mpr (h.methods.imp fun k m hm v l hv =>
      closeMethod_apply hv wf.arena hm σ)) v₃ (start ++ fields.map (vm.arena.closedField σ))
    (Arena.append_append _ _ _)
  let v₄ : Vm := { v₃ with arena := v₃.arena.append (methods.map (vm.arena.closedMethod σ)) }
  have hlast : v₄.arena = vm.arena.append (.class_ blank :: .type (vm.arena.closedType d names) ::
      (fields.map (vm.arena.closedField σ) ++ methods.map (vm.arena.closedMethod σ))) := by
    simp only [v₄, v₃, v₂, start, Arena.append_append, List.cons_append, List.nil_append]
  -- only the class is changed once more, when its members are known
  have hblank : v₄.arena.class_ vm.arena.next = .ok blank := by
    rw [hlast]
    exact Arena.class_eq_ok.mpr (Arena.get?_append_new vm.arena (i := 0) rfl)
  have hdone : v₄.arena.set vm.arena.next (.class_ (vm.arena.closedClass cls d)) =
      vm.arena.append (vm.arena.closedNodes cls args d names fields methods) := by
    rw [hlast, Arena.set_append_cons]
    rfl
  have hnode : ({ blank with
      type := handleAt (vm.arena.nodes.size + 1)
      fields := (List.range' v₂.arena.nodes.size d.fields.length).map handleAt
      methods := (List.range' v₃.arena.nodes.size d.methods.length).map handleAt } : ClassNode) =
      vm.arena.closedClass cls d := by
    simp [Arena.closedClass, blank, v₃, v₂, start, h.fields.length_eq]
  -- the run, step by step
  let v₁ : Vm := { vm with arena := vm.arena.push (.class_ blank) }
  have hpush₁ : push (.class_ blank) vm = .ok vm.arena.next v₁ := rfl
  have hpush₂ : push (.type (vm.arena.closedType d names)) v₁ =
      .ok (handleAt (vm.arena.nodes.size + 1)) v₂ := by
    simp only [push, v₁, v₂, start, Arena.push_eq_append, Arena.append_append, Arena.next_append]
    rfl
  rw [closeClass, bind_ok (typeNames_eq_ok.mpr ⟨rfl, h.names⟩), bind_ok hpush₁]
  change (push (.type (vm.arena.closedType d names)) >>= _) v₁ = _
  rw [bind_ok hpush₂, bind_ok hfields]
  change (d.methods.mapM (closeMethod vm.arena.next σ) >>= _) v₃ = _
  rw [bind_ok hmethods, bind_ok (classNode_eq_ok.mpr ⟨hblank, rfl⟩), hnode]
  change EStateM.Result.ok _ { v₄ with
    arena := v₄.arena.set vm.arena.next (.class_ (vm.arena.closedClass cls d)) } = _
  rw [hdone]

/-! ## Calls that make or write something -/

/-- The computation takes the machine one step on and answers as `P` says; where it fails it
leaves the machine alone, and `E` is the reason. -/
def Steps (x : Access α) (vm : Vm) (P : α → Vm → Prop) (E : Prop) : Prop :=
  match x vm with
  | .ok a w => vm.Step w ∧ P a w
  | .error _ w => w = vm ∧ E

theorem Steps.of_ok {x : Access α} {vm w : Vm} {a : α} {P : α → Vm → Prop} {E : Prop}
    (h : x vm = .ok a w) (step : vm.Step w) (ha : P a w) : x.Steps vm P E := by
  unfold Steps
  rw [h]
  exact ⟨step, ha⟩

theorem Steps.of_error {x : Access α} {vm : Vm} {e : Error} {P : α → Vm → Prop} {E : Prop}
    (h : x vm = .error e vm) (he : E) : x.Steps vm P E := by
  unfold Steps
  rw [h]
  exact ⟨rfl, he⟩

theorem Steps.weaken {x : Access α} {vm : Vm} {P Q : α → Vm → Prop} {E F : Prop}
    (h : x.Steps vm P E) (hPQ : ∀ a w, P a w → Q a w) (hEF : E → F) : x.Steps vm Q F := by
  unfold Steps at h ⊢
  cases hx : x vm with
  | ok a w =>
      rw [hx] at h
      exact ⟨h.1, hPQ a w h.2⟩
  | error e w =>
      rw [hx] at h
      exact ⟨h.1, hEF h.2⟩

/-- Behind a computation that only reads. -/
theorem Steps.bind {x : Access α} {f : α → Access β} {vm : Vm} {P : β → Vm → Prop} {E : Prop}
    (hx : x.Reads) (hf : ∀ a, x vm = .ok a vm → (f a).Steps vm P E)
    (he : ∀ e, x vm = .error e vm → E) : (x >>= f).Steps vm P E := by
  obtain ⟨r, hr⟩ := hx vm
  cases r with
  | ok a =>
      have := hf a hr
      unfold Steps at this ⊢
      rw [bind_ok hr]
      exact this
  | error e => exact .of_error (bind_error hr) (he e hr)

theorem Reads.steps {x : Access α} (hx : x.Reads) (vm : Vm) :
    x.Steps vm (fun _ _ => True) True := by
  obtain ⟨r, hr⟩ := hx vm
  cases r with
  | ok a => exact .of_ok hr .idle trivial
  | error e => exact .of_error hr trivial

variable {vm : Vm}

theorem alloc_steps (vm : Vm) (size : Nat) : (alloc size).Steps vm
    (fun h w => h = ⟨vm.scratch.cursor⟩ ∧ w = { vm with scratch := (vm.scratch.alloc size).2 })
    False :=
  .of_ok rfl (.scratch (.alloc size)) ⟨rfl, rfl⟩

theorem writeBytes_steps (vm : Vm) (at_ : Handle) (bytes : List UInt8) :
    (writeBytes at_ bytes).Steps vm
      (fun _ w => ∃ m, vm.scratch.write at_ bytes = .ok m ∧ w = { vm with scratch := m })
      (∀ m, vm.scratch.write at_ bytes ≠ .ok m) := by
  cases hm : vm.scratch.write at_ bytes with
  | ok m =>
      refine .of_ok (a := ()) (w := { vm with scratch := m }) ?_ (.scratch (.write hm))
        ⟨m, rfl, rfl⟩
      rw [writeBytes, get_bind_apply, hm]
      rfl
  | error e =>
      refine .of_error (e := e) ?_ (by simp)
      rw [writeBytes, get_bind_apply, hm]
      rfl

theorem typeObject_steps (wf : vm.WellFormed) (t : Handle) : (typeObject t).Steps vm
    (fun o w => w.arena.object o = .ok (.typeObject t)) ¬vm.arena.HasType t := by
  refine Steps.bind (.lift_node _) (fun node hnode => ?_) fun e he => ?_
  · obtain ⟨hnode, -⟩ := typeNode_eq_ok.mp hnode
    by_cases hnull : node.object = .null
    · rw [if_pos (Handle.isNull_iff.mpr hnull)]
      exact .of_ok (w := { vm with arena := vm.arena.tieObject t node }) rfl
        (.reflect hnode hnull) (Arena.tieObject_object hnode)
    · rw [if_neg (by rw [Handle.isNull_iff]; exact hnull)]
      exact .of_ok rfl .idle ((wf.arena.type hnode).2.resolve_left hnull)
  · rintro ⟨node, hnode⟩
    rw [typeNode_eq_ok.mpr ⟨hnode, rfl⟩] at he
    cases he

theorem invoke_steps (vm : Vm) (method : Handle) :
    (invoke method).Steps vm (fun _ _ => True) True := by
  refine Steps.bind (.lift_node _) (fun node _ => ?_) fun _ _ => trivial
  cases node.result with
  | some value => exact .of_ok rfl (.string value) trivial
  | none => exact .of_ok rfl .idle trivial

theorem arrayNew_steps (vm : Vm) (cls : Handle) (length : Nat) : (arrayNew cls length).Steps vm
    (fun h w => w.arena.object h = .ok (.array cls (List.replicate length .null)))
    ¬vm.arena.HasClass cls := by
  refine Steps.bind (.lift_node _) (fun node hnode => ?_) fun e he => ?_
  · exact .of_ok rfl (.array length ⟨node, (classNode_eq_ok.mp hnode).1⟩)
      (Arena.object_eq_ok.mpr (Arena.get?_push_next _ _))
  · rintro ⟨node, hnode⟩
    rw [classNode_eq_ok.mpr ⟨hnode, rfl⟩] at he
    cases he

theorem arraySet_steps (vm : Vm) (array : Handle) (index : Nat) (value : Handle) :
    (arraySet array index value).Steps vm
      (fun _ w => ∃ cls items, vm.arena.object array = .ok (.array cls items) ∧
        w.arena = vm.arena.set array (.object (.array cls (items.set index value))))
      ¬∃ cls items, vm.arena.object array = .ok (.array cls items) ∧ index < items.length := by
  refine Steps.bind (.lift_node _) (fun o ho => ?_) fun e he => ?_
  · obtain ⟨ho, -⟩ := objectNode_eq_ok.mp ho
    cases o with
    | array cls items =>
        by_cases hlt : index < items.length
        · simp only [if_pos hlt]
          exact .of_ok rfl (.slot index value ho) ⟨cls, items, ho, rfl⟩
        · simp only [if_neg hlt]
          refine .of_error rfl ?_
          rintro ⟨cls', items', ho', hlt'⟩
          rw [ho] at ho'
          cases ho'
          exact hlt hlt'
    | _ =>
        refine .of_error rfl ?_
        rintro ⟨_, _, ho', _⟩
        rw [ho] at ho'
        cases ho'
  · rintro ⟨cls, items, ho, _⟩
    rw [objectNode_eq_ok.mpr ⟨ho, rfl⟩] at he
    cases he

/-! ## Instantiation -/

theorem mem_of_find? {definition result : Handle} {args : List Handle} {known : List Instance}
    (h : Instance.find? definition args known = some result) :
    ⟨definition, args, result⟩ ∈ known := by
  obtain ⟨i, hi, rfl⟩ := Option.map_eq_some_iff.mp h
  have hkey := List.find?_some hi
  simp only [Bool.and_eq_true, beq_iff_eq] at hkey
  obtain ⟨rfl, rfl⟩ := hkey
  exact List.mem_of_find?_eq_some hi

theorem exists_forall₂ {R : α → β → Prop} : ∀ {as : List α}, (∀ a ∈ as, ∃ b, R a b) →
    ∃ bs, List.Forall₂ R as bs
  | [], _ => ⟨[], .nil⟩
  | a :: as, h => by
      obtain ⟨b, hb⟩ := h a List.mem_cons_self
      obtain ⟨bs, hbs⟩ := exists_forall₂ fun x hx => h x (List.mem_cons_of_mem a hx)
      exact ⟨b :: bs, .cons hb hbs⟩

theorem exists_names {a : Arena} {args : List Handle} (h : ∀ t ∈ args, a.HasType t) :
    ∃ names, List.Forall₂ a.NamesType args names :=
  exists_forall₂ fun t ht => by
    obtain ⟨n, hn⟩ := h t ht
    exact ⟨n.name, n, hn, rfl⟩

theorem exists_closing {a : Arena} (wf : a.WellFormed) {cls : Handle} {d : ClassNode}
    {args : List Handle} (hd : a.class_ cls = .ok d) (isOpen : d.isOpen = true)
    (arity : d.typeParameters.length = args.length) (hargs : ∀ t ∈ args, a.HasType t) :
    ∃ names fields methods, a.Closing cls args d names fields methods := by
  obtain ⟨names, hnames⟩ := exists_names hargs
  obtain ⟨fields, hfields⟩ := exists_forall₂ (R := fun h n => a.field h = .ok n) fun f hf => by
    obtain ⟨n, hn, _⟩ := (wf.class_ hd).fields f hf
    exact ⟨n, hn⟩
  obtain ⟨methods, hmethods⟩ := exists_forall₂ (R := fun h n => a.method h = .ok n) fun m hm => by
    obtain ⟨n, hn, _⟩ := (wf.class_ hd).methods m hm
    exact ⟨n, hn⟩
  exact ⟨names, fields, methods, hd, isOpen, arity, hnames, hfields, hmethods⟩

theorem arguments_of_typeArguments {array : Handle} {args : List Handle}
    (h : typeArguments array vm = .ok args vm) : vm.arena.Arguments array args :=
  (typeArguments_eq_ok.mp h).2

/-- An array holds one list of types only. -/
theorem arguments_unique {array : Handle} {args args' : List Handle}
    (h : vm.arena.Arguments array args) (h' : vm.arena.Arguments array args') : args = args' := by
  have heq := typeArguments_eq_ok.mpr ⟨rfl, h⟩
  rw [typeArguments_eq_ok.mpr ⟨rfl, h'⟩] at heq
  cases heq
  rfl

/-- The array holds as many types as the open definition has parameters. -/
def Closable (a : Arena) (cls array : Handle) : Prop :=
  ∃ args d, a.Arguments array args ∧ a.class_ cls = .ok d ∧ d.isOpen = true ∧
    d.typeParameters.length = args.length

theorem reads_read (f : Vm → α) : (read f).Reads :=
  fun vm => ⟨.ok (f vm), rfl⟩

theorem inflateClass_steps (wf : vm.WellFormed) (cls array : Handle) :
    (inflateClass cls array).Steps vm
      (fun r w => ∃ args d c, vm.arena.Arguments array args ∧ w.arena.ClosedOver cls args d r c)
      ¬Closable vm.arena cls array := by
  refine Steps.bind (typeArguments_reads array) (fun args hargs => ?_) fun e he => ?_
  · have hargs := arguments_of_typeArguments hargs
    refine Steps.bind (reads_read _) (fun known hknown => ?_) (by rintro _ ⟨⟩)
    cases hknown
    cases hfind : Instance.find? cls args vm.classInstances with
    | some r =>
        obtain ⟨d, c, hclosed⟩ := wf.classInstances _ (mem_of_find? hfind)
        exact .of_ok rfl .idle ⟨args, d, c, hargs, hclosed⟩
    | none =>
        refine Steps.bind (.lift_node _) (fun d hd => ?_) fun e he => ?_
        · obtain ⟨hd, -⟩ := classNode_eq_ok.mp hd
          -- an array holds one list of types, so this is what the call can be refused for
          have hreason : Closable vm.arena cls array →
              d.isOpen = true ∧ d.typeParameters.length = args.length := by
            rintro ⟨args', d', hargs', hd', h⟩
            rw [hd] at hd'
            cases hd'
            exact arguments_unique hargs' hargs ▸ h
          by_cases hopen : d.isOpen = true
          · rw [hopen, Bool.not_true, if_neg Bool.false_ne_true]
            by_cases harity : d.typeParameters.length = args.length
            · rw [if_neg (not_not_intro harity)]
              obtain ⟨names, fields, methods, hclosing⟩ :=
                exists_closing wf.arena hd hopen harity (hargs.hasType wf.arena)
              refine .of_ok ?_ (.close hfind hclosing)
                ⟨args, d, _, hargs, hclosing.closedOver wf.arena⟩
              rw [bind_ok (closeClass_apply wf hclosing)]
              rfl
            · rw [if_pos harity]
              exact .of_error rfl fun h => harity (hreason h).2
          · rw [Bool.eq_false_iff.mpr hopen]
            exact .of_error rfl fun h => hopen (hreason h).1
        · rintro ⟨_, d, _, hd, _⟩
          rw [classNode_eq_ok.mpr ⟨hd, rfl⟩] at he
          cases he
  · rintro ⟨args, _, hargs, _⟩
    rw [typeArguments_eq_ok.mpr ⟨rfl, hargs⟩] at he
    cases he

theorem pushMethodInstance_apply {method : Handle} {m : MethodNode}
    (hm : vm.arena.method method = .ok m) (args : List Handle) (address : Option Nat) :
    pushMethodInstance method args address vm = .ok vm.arena.next { vm with
      arena := vm.arena.push (.method (m.instantiated vm.arena args address)) } := by
  rw [pushMethodInstance, bind_ok (methodNode_eq_ok.mpr ⟨hm, rfl⟩)]
  change ((substituteParameters _ _ m.parameters) >>= _) vm = _
  rw [bind_ok (substituteParameters_apply _ _ _ _)]
  rfl

/-- The handle is the compiled instantiation of the method, null if there is none. -/
def IsCompiled (v w : Vm) (method : Handle) (args : List Handle) (r : Handle) : Prop :=
  ∃ m names, v.arena.method method = .ok m ∧ List.Forall₂ v.arena.NamesType args names ∧
    match compiledAddress? names m.instantiations with
    | none => r = .null
    | some address => w.arena.method r = .ok (m.instantiated v.arena args (some address))

theorem findInflatedMethod_steps (wf : vm.WellFormed) (method array : Handle) :
    (findInflatedMethod method array).Steps vm
      (fun r w => ∃ args, vm.arena.Arguments array args ∧ IsCompiled vm w method args r ∧
        (r = .null → w = vm))
      ¬∃ args m, vm.arena.Arguments array args ∧ vm.arena.method method = .ok m := by
  refine Steps.bind (typeArguments_reads array) (fun args hargs => ?_) fun e he => ?_
  · have hargs := arguments_of_typeArguments hargs
    refine Steps.bind (reads_read _) (fun known hknown => ?_) (by rintro _ ⟨⟩)
    cases hknown
    cases hfind : Instance.find? method args vm.methodInstances with
    | some r =>
        obtain ⟨m, hm, _, names, address, hnames, haddress, hr⟩ :=
          wf.methodInstances _ (mem_of_find? hfind)
        refine .of_ok rfl .idle ⟨args, hargs, ⟨m, names, hm, hnames, ?_⟩, fun _ => rfl⟩
        simp only [haddress]
        exact hr
    | none =>
        refine Steps.bind (typeNames_reads args) (fun names hnames => ?_) fun e he => ?_
        obtain ⟨-, hnames⟩ := typeNames_eq_ok.mp hnames
        refine Steps.bind (.lift_node _) (fun m hm => ?_) fun e he => ?_
        · obtain ⟨hm, -⟩ := methodNode_eq_ok.mp hm
          cases haddress : compiledAddress? names m.instantiations with
          | none =>
              refine .of_ok rfl .idle ⟨args, hargs, ⟨m, names, hm, hnames, ?_⟩, fun _ => rfl⟩
              simp only [haddress]
          | some address =>
              refine .of_ok (a := vm.arena.next) ?_ (.compile hfind hm hnames haddress)
                ⟨args, hargs, ⟨m, names, hm, hnames, ?_⟩, fun hnull => ?_⟩
              · simp only []
                rw [bind_ok (pushMethodInstance_apply hm args (some address))]
                rfl
              · simp only [haddress]
                exact Arena.method_eq_ok.mpr (Arena.get?_push_next _ _)
              · exact absurd hnull (Arena.handleAt_ne_null _)
        · rintro ⟨_, m, _, hm⟩
          rw [methodNode_eq_ok.mpr ⟨hm, rfl⟩] at he
          cases he
        · obtain ⟨names, hnames⟩ := exists_names (hargs.hasType wf.arena)
          rw [typeNames_eq_ok.mpr ⟨rfl, hnames⟩] at he
          cases he
  · rintro ⟨args, _, hargs, _⟩
    rw [typeArguments_eq_ok.mpr ⟨rfl, hargs⟩] at he
    cases he

theorem inflateMethodRaw_steps (wf : vm.WellFormed) (method array : Handle) :
    (inflateMethodRaw method array).Steps vm
      (fun r w => ∃ args m, vm.arena.Arguments array args ∧ vm.arena.method method = .ok m ∧
        m.typeParameters.length = args.length ∧
        w.arena.method r = .ok (m.instantiated vm.arena args m.address))
      ¬∃ args m, vm.arena.Arguments array args ∧ vm.arena.method method = .ok m ∧
        m.typeParameters.length = args.length := by
  refine Steps.bind (typeArguments_reads array) (fun args hargs => ?_) fun e he => ?_
  · have hargs := arguments_of_typeArguments hargs
    refine Steps.bind (.lift_node _) (fun m hm => ?_) fun e he => ?_
    · obtain ⟨hm, -⟩ := methodNode_eq_ok.mp hm
      by_cases harity : m.typeParameters.length = args.length
      · rw [if_neg (not_not_intro harity)]
        exact .of_ok (pushMethodInstance_apply hm args m.address)
          (.instantiate m.address hm (hargs.hasType wf.arena))
          ⟨args, m, hargs, hm, harity, Arena.method_eq_ok.mpr (Arena.get?_push_next _ _)⟩
      · rw [if_pos harity]
        refine .of_error rfl ?_
        rintro ⟨args', m', hargs', hm', h⟩
        rw [hm] at hm'
        cases hm'
        exact harity (arguments_unique hargs' hargs ▸ h)
    · rintro ⟨_, m, _, hm, _⟩
      rw [methodNode_eq_ok.mpr ⟨hm, rfl⟩] at he
      cases he
  · rintro ⟨args, _, hargs, _⟩
    rw [typeArguments_eq_ok.mpr ⟨rfl, hargs⟩] at he
    cases he

end Access

open Access in
/-- A call takes a well-formed machine one step on; one that fails leaves it as it was. -/
theorem Vm.answer_steps {vm : Vm} (wf : vm.WellFormed) (c : Call r) :
    (answer c).Steps vm (fun _ _ => True) True := by
  by_cases hread : c.isReading = true
  · exact (answer_reads hread).steps vm
  · cases c with
    | alloc size => exact (alloc_steps vm size).weaken (fun _ _ _ => trivial) fun _ => trivial
    | writeBytes at_ bytes =>
        exact (writeBytes_steps vm at_ bytes).weaken (fun _ _ _ => trivial) fun _ => trivial
    | typeObject t => exact (typeObject_steps wf t).weaken (fun _ _ _ => trivial) fun _ => trivial
    | methodInvoke method _ _ => exact invoke_steps vm method
    | arrayNew cls length =>
        exact (arrayNew_steps vm cls length).weaken (fun _ _ _ => trivial) fun _ => trivial
    | arraySet array index value =>
        exact (arraySet_steps vm array index value).weaken (fun _ _ _ => trivial) fun _ => trivial
    | classInflate cls array =>
        exact (inflateClass_steps wf cls array).weaken (fun _ _ _ => trivial) fun _ => trivial
    | methodFindInflated method array =>
        exact (findInflatedMethod_steps wf method array).weaken (fun _ _ _ => trivial)
          fun _ => trivial
    | methodInflateRaw method array =>
        exact (inflateMethodRaw_steps wf method array).weaken (fun _ _ _ => trivial)
          fun _ => trivial
    | _ => exact absurd rfl hread

end VmMetadata
