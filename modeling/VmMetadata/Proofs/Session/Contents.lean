import VmMetadata.Proofs.Machine.Permanence
import VmMetadata.Proofs.Session.Closing
import VmMetadata.Proofs.Session.Identity
import VmMetadata.Proofs.Session.Moves
import VmMetadata.Proofs.Session.Refusal

/-!
What arrays hold. An array is made empty and filled slot by slot; then it changes only by the calls
that fill a slot of it. Its length is noted when it is first read, and no call changes it. Main
statement: an array of objects is read as the list of these objects until a call fills one of its
slots, and the machine reads off an array of type arguments the types that it was made of.
-/

namespace VmMetadata

open Query (Gathers)

/-! ## Pieces of a history -/

/-- A relation that holds across every piece of which queries are made, and can be carried on. -/
structure Session.Spans (R : Session → Session → Prop) : Prop where
  refl : ∀ s, R s s
  trans : ∀ {s t u}, R s t → R t u → R s u
  call : ∀ (s : Session) {r : Reply} (c : Call r), R s ((Query.ask c).leaves s)
  page : ∀ (s : Session) (h : Handle), R s (s.paged h)
  note : ∀ {s t : Session} {f : Fact} {page : Nat} {h : Handle} {find : Query f.Value}
    {v : f.Value}, f.getter h page = Query.remember page f find →
      s.notebook.shown? page = some h → s.notebook.find? page f = none → find s = .ok v t →
        R s t → R s (t.noted page f v)
  copy : ∀ {s : Session} {e : Entity} {v : View e}, s.Shows v → R s ((Query.copy v).leaves s)

namespace Session.Spans

variable {R : Session → Session → Prop} (hR : Spans R) {s t : Session}
include hR

theorem trail {n : Nat} (h : Trail n s t) : R s t := by
  induction h with
  | refl n s => exact hR.refl s
  | trans _ _ ih ih' => exact hR.trans ih ih'
  | call c _ _ => exact hR.call _ c
  | page h => exact hR.page _ h
  | note _ getter shown miss found _ _ ih => exact hR.note getter shown miss found ih

theorem bind {x : Query α} {next : α → Query β} (hx : R s (x.leaves s))
    (hnext : ∀ a t, R t ((next a).leaves t)) : R s ((x >>= next).leaves s) := by
  rw [Query.leaves_bind]
  cases hrun : x s with
  | ok a t =>
      rw [Query.leaves_of_ok hrun] at hx
      exact hR.trans hx (hnext a t)
  | error e t =>
      rw [Query.leaves_of_error hrun] at hx
      exact hx

theorem view (e : Entity) (h : Handle) (s : Session) : R s ((Query.view e h).leaves s) :=
  hR.trail (Gathers.view (n := 0) e h).leaves

theorem viewAny (e : Entity) (h : Handle) (s : Session) : R s ((Query.view? e h).leaves s) := by
  unfold Query.view?
  cases h.nonNull? with
  | none => exact hR.refl s
  | some k =>
      change R s ((some <$> Query.view e k).leaves s)
      rw [map_eq_pure_bind]
      exact hR.bind (hR.view e k s) fun _ t => hR.refl t

theorem fill (array : ArrayView) : ∀ (objects : List Object) (index : Nat) (s : Session),
    R s ((array.fill index objects).leaves s)
  | [], _, s => hR.refl s
  | _ :: rest, index, s => hR.bind (hR.call s _) fun _ t => fill array rest (index + 1) t

theorem ofObjects (c : Class) (objects : List Object) (s : Session) :
    R s ((ArrayView.ofObjects c objects).leaves s) := by
  unfold ArrayView.ofObjects
  split
  · exact hR.refl s
  · refine hR.bind (hR.call s _) fun h t => ?_
    refine hR.bind (hR.view .array h t) fun array u => ?_
    exact hR.bind (hR.fill array objects 0 u) fun _ v => hR.refl v

theorem asks (hs : s.Intact) {x : AnyQuery} (h : s.Asks x) : R s (x.2.leaves s) := by
  rcases h.wanders_or hs with hx | ⟨e, v, shown, rfl⟩ | hx
  · exact hR.trail hx.leaves
  · exact hR.copy shown
  · cases hx with
    | call _ => exact hR.call s _
    | invoke m object _ => exact hR.bind (hR.call s _) fun h t => hR.viewAny .object h t
    | array c _ => exact hR.ofObjects c _ s

theorem history (hs : s.Intact) (h : s.History t) : R s t := by
  induction h with
  | start => exact hR.refl s
  | ask before asked ih => exact hR.trans ih (hR.asks (before.course.onward hs).intact asked)
  | pull before kind patience ih =>
      have ht := (before.course.onward hs).intact
      exact hR.trans ih (hR.trail (pullDump_roams ht kind patience).trail)
  | write before d kind now tree ih =>
      have ht := (before.course.onward hs).intact
      exact hR.trans ih (hR.trail (d.run_trail ht kind now tree))

end Session.Spans

/-! ## Arrays through a history -/

theorem Vm.after_append (vm : Vm) (first rest : List AnyCall) :
    vm.after (first ++ rest) = (vm.after first).after rest :=
  List.foldl_append

theorem AnyCall.length_fill (array : Handle) (items : List Handle) (c : AnyCall) :
    (c.fill array items).length = items.length := by
  unfold fill
  split
  · split
    · exact List.length_set
    · rfl
  · rfl

theorem AnyCall.length_foldl_fill (array : Handle) (calls : List AnyCall) (items : List Handle) :
    (calls.foldl (fill array) items).length = items.length := by
  induction calls generalizing items with
  | nil => rfl
  | cons c calls ih => exact (ih _).trans (length_fill array items c)

/-- Calls that fill no slot of the array leave its contents alone. -/
theorem AnyCall.foldl_fill_of_forall {array : Handle} {calls : List AnyCall}
    (h : ∀ index value, (⟨_, .arraySet array index value⟩ : AnyCall) ∉ calls)
    (items : List Handle) : calls.foldl (fill array) items = items := by
  induction calls with
  | nil => rfl
  | cons c calls ih =>
      have hfirst : c.fill array items = items := by
        unfold fill
        split
        · rename_i at_ index value
          split
          · rename_i hat
            subst hat
            exact absurd List.mem_cons_self (h index value)
          · rfl
        · rfl
      rw [List.foldl_cons, hfirst]
      exact ih fun index value hmem => h index value (List.mem_cons_of_mem c hmem)

/-- Through a probe that spoils nothing a call is answered by the machine. -/
theorem Query.ask_of_faults_nil {s : Session} (hs : s.probe.faults = []) (c : Call r) :
    ask c s = match Vm.answer c s.vm with
      | .ok v w => .ok v (s.called c w)
      | .error e w => .error e (s.called c w) := by
  apply ask_unspoiled
  rw [hs]
  exact List.forall_mem_nil _

theorem Query.leaves_ask_of_faults_nil {s : Session} (hs : s.probe.faults = []) (c : Call r) :
    (ask c).leaves s = s.called c (s.vm.afterCall ⟨r, c⟩) := by
  unfold leaves Vm.afterCall
  rw [ask_of_faults_nil hs]
  cases Vm.answer c s.vm <;> rfl

namespace Session

/-- The array holds the handles. No call is spoiled, and the length is not noted falsely. -/
structure Stores (s : Session) (a : ArrayView) (cls : Handle) (items : List Handle) : Prop where
  faults : s.probe.faults = []
  shows : s.Shows a
  slots : s.vm.arena.object a.handle = .ok (.array cls items)
  noted : ∀ n, s.notebook.find? a.page .arrayLength = some n → n = word32 items.length

/-- The machine answered calls, and the array holds what they have made of it. -/
def Fills (a : ArrayView) (s t : Session) : Prop :=
  ∀ cls items, s.Stores a cls items → ∃ calls, t.probe.calls = calls.reverse ++ s.probe.calls ∧
    t.vm = s.vm.after calls ∧ t.Stores a cls (calls.foldl (AnyCall.fill a.handle) items)

variable {s t : Session} {a : ArrayView} {cls : Handle} {items : List Handle}

theorem Stores.arrayItems (h : s.Stores a cls items) :
    Access.arrayItems a.handle s.vm = .ok items s.vm := by
  unfold Access.arrayItems
  rw [Access.bind_ok (Access.objectNode_eq_ok.mpr ⟨h.slots, rfl⟩)]
  rfl

theorem Stores.ask_arrayLength (h : s.Stores a cls items) :
    Query.ask (.arrayLength a.handle) s =
      .ok (word32 items.length) (s.called (.arrayLength a.handle) s.vm) := by
  have hanswer : Vm.answer (.arrayLength a.handle) s.vm = .ok (word32 items.length) s.vm := by
    change (do pure (word32 (← Access.arrayItems a.handle).length) : Access Nat) s.vm = _
    rw [Access.bind_ok h.arrayItems]
    rfl
  rw [Query.ask_of_faults_nil h.faults, hanswer]

theorem Stores.of_notebook (h : s.Stores a cls items) (hprobe : t.probe = s.probe)
    (hvm : t.vm = s.vm) (shows : t.Shows a)
    (noted : ∀ n, t.notebook.find? a.page .arrayLength = some n → n = word32 items.length) :
    t.Stores a cls items :=
  ⟨hprobe ▸ h.faults, shows, hvm ▸ h.slots, noted⟩

theorem spans_fills (a : ArrayView) : Spans (Fills a) where
  refl := fun s cls items h => ⟨[], rfl, rfl, h⟩
  trans := by
    intro s t u hst htu cls items h
    obtain ⟨first, hcalls, hvm, ht⟩ := hst cls items h
    obtain ⟨rest, hcalls', hvm', hu⟩ := htu cls _ ht
    refine ⟨first ++ rest, ?_, ?_, ?_⟩
    · rw [hcalls', hcalls, List.reverse_append, List.append_assoc]
    · rw [hvm', hvm, Vm.after_append]
    · rw [List.foldl_append]
      exact hu
  call := by
    intro s r c cls items h
    rw [Query.leaves_ask_of_faults_nil h.faults]
    refine ⟨[⟨r, c⟩], rfl, rfl, h.faults, h.shows, Vm.afterCall_slots h.slots _, ?_⟩
    intro n hn
    exact (h.noted n hn).trans (congrArg word32 (AnyCall.length_fill ..).symm)
  page := by
    intro s k cls items h
    have shows := (s.grows_paged k).shows h.shows
    exact ⟨[], rfl, rfl, h.of_notebook rfl rfl shows fun n hn =>
      h.noted n ((Notebook.find?_addPage ..).symm.trans hn)⟩
  note := by
    intro s t f page k find v getter shown miss found inner cls items h
    obtain ⟨calls, hcalls, hvm, ht⟩ := inner cls items h
    refine ⟨calls, hcalls, hvm, ht.of_notebook rfl rfl ⟨ht.shows.1, ?_⟩ ?_⟩
    · exact (Notebook.shown?_add ..).trans ht.shows.2
    · intro n hn
      by_cases hplace : a.page = page ∧ f = .arrayLength
      · obtain ⟨rfl, rfl⟩ := hplace
        obtain rfl := Option.some.inj (h.shows.2.symm.trans shown)
        have hsame := Notebook.find?_add_same t.notebook .arrayLength v
          (Notebook.lt_size_of_shown? ht.shows.2)
        obtain rfl := Option.some.inj (hsame.symm.trans hn)
        -- the note is what the getter finds in the session before
        have hgetter := congrFun getter s
        have hlength := Query.remember_of_ok miss h.ask_arrayLength
        rw [Query.remember_of_ok miss found] at hgetter
        have hv := hlength.symm.trans hgetter
        injection hv with hv _
        rw [AnyCall.length_foldl_fill]
        exact hv.symm
      · exact ht.noted n ((Notebook.find?_add_of_ne hplace v).symm.trans hn)
  copy := by
    intro s e v shown cls items h
    -- a copy begins a page, and the array keeps its own
    have hold : a.page ≠ s.notebook.next := Nat.ne_of_lt (Notebook.lt_size_of_shown? h.shows.2)
    have hshown := Notebook.shown?_copyPage shown.2 a.page
    rw [if_neg hold] at hshown
    refine ⟨[], rfl, rfl, h.of_notebook rfl rfl ⟨h.shows.1, hshown.trans h.shows.2⟩ ?_⟩
    intro n hn
    have hfound := Notebook.find?_copyPage shown.2 a.page .arrayLength
    rw [if_neg hold] at hfound
    exact h.noted n (hfound.symm.trans hn)

/-! ## What is read of an array -/

/-- The array is read as the list of the objects. -/
structure ReadsAs (s : Session) (a : ArrayView) (objects : List Object) : Prop where
  length : ∃ t, a.length s = .ok objects.length t
  element : ∀ i o, objects[i]? = some o → o.handle ≠ .null →
    ∃ v t, a.element? i s = .ok (some v) t ∧ v.handle = o.handle
  outside : ∀ i, objects.length ≤ i →
    ∃ t, a.element? i s = .error (.accessor (.outOfBounds a.handle i)) t

theorem Stores.answer_arrayGet (h : s.Stores a cls items) (i : Nat) :
    Vm.answer (.arrayGet a.handle i) s.vm = match items[i]? with
      | some item => .ok item s.vm
      | none => .error (.accessor (.outOfBounds a.handle i)) s.vm := by
  change Access.arrayGet a.handle i s.vm = _
  unfold Access.arrayGet
  rw [Access.bind_ok h.arrayItems]
  cases items[i]? <;> rfl

theorem Stores.readsAs {objects : List Object} (hcount : objects.length < 0x1_0000_0000)
    (h : s.Stores a cls (objects.map View.handle)) : s.ReadsAs a objects where
  length := by
    have hword : word32 (objects.map View.handle).length = objects.length := by
      rw [List.length_map]
      exact word32_eq_self_iff.mpr hcount
    have hlength := h.ask_arrayLength
    rw [hword] at hlength
    unfold ArrayView.length
    cases hnote : s.notebook.find? a.page .arrayLength with
    | some n =>
        obtain rfl := (h.noted n hnote).trans hword
        exact ⟨s, Query.remember_hit hnote _⟩
    | none => exact ⟨_, Query.remember_of_ok hnote hlength⟩
  element := by
    intro i o ho hne
    have hask := Query.ask_of_faults_nil h.faults (.arrayGet a.handle i)
    rw [h.answer_arrayGet, List.getElem?_map, ho] at hask
    let t := s.called (.arrayGet a.handle i) s.vm
    have hview : Query.view .object o.handle t = .ok ⟨o.handle, t.notebook.next⟩ _ :=
      Query.view_of_ne_null hne .object t
    refine ⟨⟨o.handle, t.notebook.next⟩, t.paged o.handle, ?_, rfl⟩
    unfold ArrayView.element?
    rw [Query.bind_ok hask]
    unfold Query.view?
    rw [Handle.nonNull?_of_ne_null hne]
    change (some <$> Query.view .object o.handle) _ = _
    rw [map_eq_pure_bind, Query.bind_ok hview]
    rfl
  outside := by
    intro i hi
    have hask := Query.ask_of_faults_nil h.faults (.arrayGet a.handle i)
    rw [h.answer_arrayGet, List.getElem?_eq_none (by rwa [List.length_map])] at hask
    unfold ArrayView.element?
    exact ⟨_, Query.bind_error hask⟩

end Session

/-! ## Making an array -/

/-- Nothing is noted on a page that has not begun. -/
theorem Notebook.find?_next (n : Notebook) (f : Fact) : n.find? n.next f = none := by
  unfold find? next
  rw [Array.getElem?_eq_none (Nat.le_refl _)]
  rfl

/-- The last object gives way to another. -/
theorem Arena.set_push_next (a : Arena) (m n : Node) : (a.push m).set a.next n = a.push n := by
  have hindex : index? a.next = some a.nodes.size := index?_handleAt _
  unfold set
  rw [hindex]
  exact congrArg Arena.mk (Array.toList_inj.mp (by simp [push]))

/-- The machine with one more array. -/
def Vm.withArray (vm : Vm) (cls : Handle) (items : List Handle) : Vm :=
  { vm with arena := vm.arena.push (.object (.array cls items)) }

theorem Vm.object_withArray (vm : Vm) (cls : Handle) (items : List Handle) :
    (vm.withArray cls items).arena.object vm.arena.next = .ok (.array cls items) :=
  Arena.object_eq_ok.mpr (Arena.get?_push_next ..)

theorem Vm.answer_arrayNew {vm : Vm} {cls : Handle} (h : vm.arena.HasClass cls) (length : Nat) :
    Vm.answer (.arrayNew cls length) vm =
      .ok vm.arena.next (vm.withArray cls (List.replicate length .null)) := by
  obtain ⟨node, hnode⟩ := h
  change Access.arrayNew cls length vm = _
  unfold Access.arrayNew
  rw [Access.bind_ok (Access.classNode_eq_ok.mpr ⟨hnode, rfl⟩)]
  rfl

/-- One slot of the last array is filled. -/
theorem Vm.answer_arraySet {vm : Vm} {cls : Handle} {items : List Handle} {index : Nat}
    (h : index < items.length) (value : Handle) :
    Vm.answer (.arraySet vm.arena.next index value) (vm.withArray cls items) =
      .ok () (vm.withArray cls (items.set index value)) := by
  change Access.arraySet vm.arena.next index value (vm.withArray cls items) = _
  unfold Access.arraySet
  rw [Access.bind_ok (Access.objectNode_eq_ok.mpr ⟨vm.object_withArray cls items, rfl⟩)]
  simp only [if_pos h]
  change EStateM.Result.ok () _ = _
  simp only [withArray, Arena.set_push_next]

namespace ArrayView

variable {s : Session}

/-- The slots in front of the index are done; those behind it are null. -/
theorem fill_apply (vm : Vm) (cls : Handle) {a : ArrayView} (ha : a.handle = vm.arena.next) :
    ∀ (objects : List Object) (done : List Handle) {s : Session}, s.probe.faults = [] →
      s.vm = vm.withArray cls (done ++ List.replicate objects.length .null) →
      ∃ t, a.fill done.length objects s = .ok () t ∧
        t.vm = vm.withArray cls (done ++ objects.map View.handle) ∧
        t.probe.faults = [] ∧ t.notebook = s.notebook
  | [], done, s, hfaults, hvm => ⟨s, rfl, hvm, hfaults, rfl⟩
  | o :: rest, done, s, hfaults, hvm => by
      -- one slot more is done, and one null less stands behind it
      have hanswer : Vm.answer (.arraySet a.handle done.length o.handle) s.vm =
          .ok () (vm.withArray cls (done ++ [o.handle] ++ List.replicate rest.length .null)) := by
        rw [hvm, ha, Vm.answer_arraySet (by simp)]
        simp [List.replicate_succ]
      have hask := Query.ask_of_faults_nil hfaults (.arraySet a.handle done.length o.handle)
      rw [hanswer] at hask
      obtain ⟨t, ht, hdone, hrest⟩ := fill_apply vm cls ha rest (done ++ [o.handle])
        (s := s.called (.arraySet a.handle done.length o.handle)
          (vm.withArray cls (done ++ [o.handle] ++ List.replicate rest.length .null))) hfaults rfl
      rw [List.append_assoc] at hdone
      rw [List.length_append] at ht
      refine ⟨t, ?_, hdone, hrest⟩
      unfold fill
      rw [Query.bind_ok hask]
      exact ht

/-- A new array of objects comes last in the arena, and nothing else changes in the machine. -/
theorem ofObjects_apply (hfaults : s.probe.faults = []) {c : Class}
    (hc : s.vm.arena.HasClass c.handle) {objects : List Object}
    (hcount : objects.length < 0x1_0000_0000) :
    ∃ a t, ArrayView.ofObjects c objects s = .ok a t ∧ a.handle = s.vm.arena.next ∧
      t.vm = s.vm.withArray c.handle (objects.map View.handle) ∧
      t.Stores a c.handle (objects.map View.handle) := by
  have hask := Query.ask_of_faults_nil hfaults (.arrayNew c.handle objects.length)
  rw [Vm.answer_arrayNew hc] at hask
  let s₁ := s.called (.arrayNew c.handle objects.length)
    (s.vm.withArray c.handle (List.replicate objects.length .null))
  let a : ArrayView := ⟨s.vm.arena.next, s₁.notebook.next⟩
  have hne : s.vm.arena.next ≠ .null := Arena.handleAt_ne_null _
  have hview : Query.view .array s.vm.arena.next s₁ = .ok a (s₁.paged s.vm.arena.next) :=
    Query.view_of_ne_null hne .array s₁
  obtain ⟨t, hfill, hvm, hfaults', hnotebook⟩ := fill_apply s.vm c.handle (a := a) rfl objects []
    (s := s₁.paged s.vm.arena.next) hfaults rfl
  rw [List.nil_append] at hvm
  refine ⟨a, t, ?_, rfl, hvm, hfaults', ⟨hne, ?_⟩, ?_, ?_⟩
  · unfold ArrayView.ofObjects
    rw [if_neg (Nat.not_le.mpr hcount)]
    refine (Query.bind_ok hask).trans ((Query.bind_ok hview).trans ?_)
    exact (Query.bind_ok hfill).trans rfl
  · rw [hnotebook]
    exact (Notebook.shown?_addPage ..).trans (if_pos rfl)
  · rw [hvm]
    exact Vm.object_withArray ..
  · intro n hn
    rw [hnotebook] at hn
    have hnone := s₁.notebook.find?_next .arrayLength
    cases hnone.symm.trans ((Notebook.find?_addPage ..).symm.trans hn)

end ArrayView

/-- The types that the array of type arguments was made of are read off it, in their order. -/
theorem Session.Sound.typeArguments {s : Session} (hs : s.Sound) {cs : List Class}
    (hcs : ∀ c ∈ cs, s.Shows c) {a : ArrayView} {t : Session}
    (hrun : argumentArray cs s = .ok a t) :
    ∃ types, t.TypesOf cs types ∧ Access.typeArguments a.handle t.vm = .ok types t.vm := by
  obtain ⟨_, _, _, types, htypes, hargs⟩ := (argumentArray_agrees (.refl hs) hcs).runs.of_ok hrun
  exact ⟨types, htypes, Access.typeArguments_eq_ok.mpr ⟨rfl, hargs⟩⟩

namespace Session

/-- The call fills a slot of the array. -/
def FillsSlot (array : Handle) (c : AnyCall) : Prop :=
  ∃ index value, c = ⟨_, .arraySet array index value⟩

/-- While no slot of it is filled, the array is read as it was. -/
theorem Stores.readsAs_of_history {s t : Session} {a : ArrayView} {cls : Handle}
    {objects : List Object} (hs : s.Intact) (hcount : objects.length < 0x1_0000_0000)
    (h : s.Stores a cls (objects.map View.handle))
    (history : s.History t) (calls : s.CallsOnly t fun c => ¬FillsSlot a.handle c) :
    t.ReadsAs a objects := by
  obtain ⟨made, hmade, _, ht⟩ := (spans_fills a).history hs history cls _ h
  obtain ⟨others, hothers, hcalls⟩ := calls
  -- both lists continue the same record, which has the last call first
  have hsame : made.reverse = others := List.append_cancel_right (hmade.symm.trans hcalls)
  have hspared : ∀ index value, (⟨_, .arraySet a.handle index value⟩ : AnyCall) ∉ made := by
    intro index value hmem
    refine hothers _ ?_ ⟨index, value, rfl⟩
    rw [← hsame]
    exact List.mem_reverse.mpr hmem
  rw [AnyCall.foldl_fill_of_forall hspared] at ht
  exact ht.readsAs hcount

/-- An array of objects is read as the list of these objects, whatever is called, until a call fills
one of its slots; making it changes nothing that there was. So the machine reads off an array of
type arguments the types that it was made of. -/
theorem arrays_hold {snapshot : Snapshot} {vm : Vm} {config : Config} {s₀ : Session}
    (hvm : Vm.ofSnapshot snapshot = .ok vm) (hattach : Session.attach vm config = .ok s₀) :
    (∀ s, s₀.Course s → s.probe.faults = [] → ∀ (c : Class) (objects : List Object),
      s.vm.arena.HasClass c.handle → objects.length < 0x1_0000_0000 →
        ∃ a t, ArrayView.ofObjects c objects s = .ok a t ∧ s.vm.arena.get? a.handle = none ∧
          t.vm = s.vm.withArray c.handle (objects.map View.handle) ∧
          (∀ h n, s.vm.arena.get? h = some n → t.vm.arena.get? h = some n) ∧
          t.ReadsAs a objects ∧
          ∀ u, t.History u → t.CallsOnly u (fun c => ¬FillsSlot a.handle c) →
            u.ReadsAs a objects) ∧
      ∀ s, s₀.History s → ∀ cs : List Class, (∀ c ∈ cs, s.Shows c) →
        (s.Arguable cs → ∃ a t, argumentArray cs s = .ok a t) ∧
          ∀ a t, argumentArray cs s = .ok a t → ∃ types, t.TypesOf cs types ∧
            Access.typeArguments a.handle t.vm = .ok types t.vm := by
  have hs₀ := On.of_attach hvm hattach
  obtain ⟨version, layout, _, rfl⟩ := attach_eq_ok.mp hattach
  constructor
  · intro s course hfaults c objects hc hcount
    have hs : s.Intact :=
      (course.onward (intact_new (Vm.wellFormed_ofSnapshot hvm) version layout)).intact
    obtain ⟨a, t, hrun, hnext, hmade, hstores⟩ := ArrayView.ofObjects_apply hfaults hc hcount
    have ht : t.Intact := by
      have honward := ArrayView.ofObjects_onward hs c objects
      rw [Query.leaves_of_ok hrun] at honward
      exact honward.intact
    refine ⟨a, t, hrun, ?_, hmade, ?_, hstores.readsAs hcount, fun u history calls => ?_⟩
    · rw [hnext]
      exact Arena.get?_next _
    · intro h n hn
      rw [hmade]
      exact Arena.get?_push_of_get? hn _
    · exact hstores.readsAs_of_history ht hcount history calls
  · intro s history cs hcs
    have hs := (history.sound hs₀).2
    refine ⟨fun hargs => ?_, fun a t hrun => hs.typeArguments hcs hrun⟩
    obtain ⟨a, t, hrun, _⟩ :=
      ((argumentArray_agrees (.refl hs) hcs).runs.weaken (fun _ _ _ ha => ha)
        fun hno => hno hargs).exists_ok
    exact ⟨a, t, hrun⟩

/-- A reflection object is put into an array twice, and is found there when another array has been
made. The array of arguments for the root class, twice, is read as its type, twice. -/
theorem arrays_hold_small :
    let s₀ := Session.new Snapshot.small.machine ⟨2020, 3, 1, some "f1"⟩ .current
    let s := (Query.ask (.typeObject (Arena.handleAt 7))).leaves s₀
    let element : Class := ⟨Arena.handleAt 8, 1⟩
    let o : Object := ⟨Arena.handleAt 15, 2⟩
    let v := (Query.view .class_ (Arena.handleAt 6)).leaves s₀
    let root : Class := ⟨Arena.handleAt 6, s₀.notebook.next⟩
    s₀.Course s ∧ s.vm.arena.HasClass element.handle ∧ s₀.History v ∧ v.Arguable [root, root] ∧
      (∃ a t, ArrayView.ofObjects element [o, o] s = .ok a t ∧
        ((Query.ask (.arrayNew element.handle 1)).leaves t).ReadsAs a [o, o]) ∧
      ∃ a w types, argumentArray [root, root] v = .ok a w ∧ w.TypesOf [root, root] types ∧
        Access.typeArguments a.handle w.vm = .ok types w.vm := by
  intro s₀ s element o v root
  have hvm : Vm.ofSnapshot Snapshot.small = .ok Snapshot.small.machine :=
    Vm.ofSnapshot_machine (Or.inr rfl)
  have hattach : Session.attach Snapshot.small.machine = .ok s₀ :=
    attach_eq_ok.mpr ⟨_, _, by decide +kernel, rfl⟩
  have course : s₀.Course s :=
    .ask (x := ⟨_, Query.ask (.typeObject (Arena.handleAt 7))⟩) .start (.call _)
  have history : s₀.History v :=
    .view .start .class_ (Arena.handleAt 6)
  have hclass {s : Session} {i : Nat}
      (h : (s.vm.arena.class_ (Arena.handleAt i)) matches .ok _) :
      s.vm.arena.HasClass (Arena.handleAt i) := by
    cases hn : s.vm.arena.class_ (Arena.handleAt i) with
    | ok n => exact ⟨n, hn⟩
    | error e =>
        rw [hn] at h
        cases h
  have hasked : s = s₀.called (.typeObject (Arena.handleAt 7)) _ :=
    Query.leaves_ask_of_faults_nil rfl _
  have hfaults : s.probe.faults = [] := by
    rw [hasked]
    rfl
  have helement : s.vm.arena.HasClass element.handle := hclass (by decide +kernel)
  have hroot : v.vm.arena.HasClass root.handle := hclass (by decide +kernel)
  have hshows : v.Shows root := ⟨by decide, rfl⟩
  have hv : v.On Snapshot.small := by
    obtain ⟨later, sound⟩ := history.sound (On.of_attach hvm hattach)
    exact (On.of_attach hvm hattach).later later sound
  have hargs : v.Arguable [root, root] := by
    refine ⟨by decide, fun c hc => ?_, hv.knowsClass_iff.mpr (by decide +kernel)⟩
    rcases List.mem_pair.mp hc with rfl | rfl <;> exact hroot
  obtain ⟨hmade, hclosing⟩ := arrays_hold hvm hattach
  refine ⟨course, helement, history, hargs, ?_, ?_⟩
  · obtain ⟨a, t, hrun, _, _, _, _, hstays⟩ :=
      hmade s course hfaults element [o, o] helement (by decide)
    let more : AnyQuery := ⟨_, Query.ask (.arrayNew element.handle 1)⟩
    refine ⟨a, t, hrun, hstays _ (.ask (x := more) .start (.call _)) ?_⟩
    refine ⟨[⟨_, .arrayNew element.handle 1⟩], ?_, Query.ask_calls _ t⟩
    intro c hc hfills
    obtain ⟨index, value, hcall⟩ := hfills
    rw [List.mem_singleton.mp hc] at hcall
    cases hcall
  · obtain ⟨hexists, hread⟩ := hclosing v history [root, root] fun c hc => by
      rcases List.mem_pair.mp hc with rfl | rfl <;> exact hshows
    obtain ⟨a, w, hrun⟩ := hexists hargs
    obtain ⟨types, htypes, hlist⟩ := hread a w hrun
    exact ⟨a, w, types, hrun, htypes, hlist⟩

end Session

end VmMetadata
