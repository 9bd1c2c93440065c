import VmMetadata.Proofs.Dump.Items
import VmMetadata.Proofs.Session.Window

/-!
What is pulled of a dump. The whole dump is a list of events that follows from the description, the
layout and what the classes contribute; a puller takes from it what its patience allows. Main
statement: a dump that is pulled in any session on the machine of a snapshot gives just the part of
this list that its patience reaches.
-/

namespace VmMetadata

open Query (Agree Runs Fails)

namespace Pulled

/-- The events as far as they are pulled. -/
def cut : Patience → List DumpEvent → Pulled
  | p, [] => nothing p
  | p, .progress name :: rest =>
      let pulled := cut p rest
      { pulled with events := .progress name :: pulled.events }
  | p, .item item :: rest =>
      match p.after? item with
      | none => ⟨[.item item], none⟩
      | some left =>
          let pulled := cut left rest
          { pulled with events := .item item :: pulled.events }

theorem ofItems_eq_cut : ∀ (p : Patience) (items : List DumpItem),
    ofItems p items = cut p (items.map .item)
  | _, [] => rfl
  | p, item :: rest => by
      rw [ofItems, List.map_cons, cut]
      cases p.after? item with
      | none => rfl
      | some left => simp only [ofItems_eq_cut left rest]

/-- Behind the part that was pulled, the rest is pulled with the patience that is left. -/
theorem cut_append : ∀ (p : Patience) (es fs : List DumpEvent),
    cut p (es ++ fs) = match (cut p es).patience with
      | none => cut p es
      | some left => { cut left fs with events := (cut p es).events ++ (cut left fs).events }
  | _, [], _ => rfl
  | p, .progress name :: rest, fs => by
      rw [List.cons_append, cut, cut]
      simp only [cut_append p rest fs]
      cases h : (cut p rest).patience with
      | none => simp only [h]
      | some left => rfl
  | p, .item item :: rest, fs => by
      rw [List.cons_append, cut, cut]
      cases p.after? item with
      | none => rfl
      | some left =>
          simp only [cut_append left rest fs]
          cases h : (cut left rest).patience with
          | none => simp only [h]
          | some _ => rfl

/-- Endless patience reaches everything. -/
theorem cut_endless (es : List DumpEvent) : cut .endless es = ⟨es, some .endless⟩ := by
  induction es with
  | nil => rfl
  | cons e es ih =>
      cases e with
      | progress name =>
          rw [cut]
          simp only [ih]
      | item item =>
          rw [cut, Patience.after?_endless]
          simp only [ih]

end Pulled

/-! ## The whole dump -/

namespace Snapshot

/-- The events of an assembly: a notice with its name, then what its classes contribute, or the
error if they cannot be listed. -/
def siteEvents (s : Snapshot) (layout : ClassLayout) (items : Handle → List DumpItem) (p : Site) :
    List DumpEvent :=
  .progress (assemblyNameOf p.name) :: match s.listing p layout with
    | .ok ks => (ks.flatMap items).map .item
    | .error e => [.item (.error e)]

/-- The events of a dump to which the classes contribute these items. -/
def dumpEvents (s : Snapshot) (layout : ClassLayout) (items : Handle → List DumpItem) :
    List DumpEvent :=
  s.sites.flatMap (s.siteEvents layout items)

/-- The described classes, with those of a core library that is made up. -/
def classHandles (s : Snapshot) : List Handle :=
  s.images.flatMap Site.classes

variable {s : Snapshot} {p : Site} {layout : ClassLayout}

/-- Whatever is listed is a described class, though not always one of the image. -/
theorem mem_classHandles_of_listing (hp : p ∈ s.images) {ks : List Handle}
    (hlisting : s.listing p layout = .ok ks) {h : Handle} (hh : h ∈ ks) : h ∈ s.classHandles := by
  obtain ⟨_, _, rfl⟩ := listing_eq_ok_iff.mp hlisting
  cases layout with
  | current => exact List.mem_flatMap.mpr ⟨p, hp, List.mem_of_mem_take hh⟩
  | legacy offset =>
      obtain ⟨q, hq, hh⟩ := List.mem_flatMap.mp (List.mem_of_mem_drop (List.mem_of_mem_take hh))
      exact List.mem_flatMap.mpr ⟨q, mem_images.mpr (Or.inl hq), hh⟩

end Snapshot

/-! ## Pulling -/

namespace Ends

variable {s : Session} {P Q : α → Session → Prop} {x : StateM Session α}

theorem and (hP : Ends x s P) (hQ : Ends x s Q) : Ends x s (fun a t => P a t ∧ Q a t) :=
  ⟨hP.later, hP.sound, hP.post, hQ.post⟩

/-- What holds only below scratch memory need not be shown where the arena is not below it. -/
theorem whenBelow (h : Ends x s (fun _ _ => True)) (hP : s.vm.arena.BelowScratch → Ends x s P) :
    Ends x s (fun a t => t.vm.arena.BelowScratch → P a t) :=
  ⟨h.later, h.sound, fun hbelow => (hP (h.later.vm.arena.belowScratch hbelow)).post⟩

end Ends

/-- The computation delivers just these events as far as the patience reaches, unless the arena has
grown into scratch memory. -/
abbrev Delivers (x : StateM Session Pulled) (s : Session) (p : Patience) (es : List DumpEvent) :
    Prop :=
  Ends x s fun pulled t => t.vm.arena.BelowScratch → pulled = .cut p es

theorem Pulled.andThen_delivers {s : Session} (hs : s.Sound) {first : Pulled} {p : Patience}
    {es fs : List DumpEvent} {rest : Patience → StateM Session Pulled}
    (hfirst : s.vm.arena.BelowScratch → first = cut p es)
    (hrest : ∀ left, Delivers (rest left) s left fs) :
    Delivers (first.andThen rest) s p (es ++ fs) := by
  unfold andThen
  cases hleft : first.patience with
  | none =>
      refine .pure hs fun hbelow => ?_
      rw [cut_append, ← hfirst hbelow, hleft]
  | some left =>
      refine (hrest left).bind fun pulled t later sound hpulled => .pure sound fun hbelow => ?_
      rw [cut_append, ← hfirst (later.vm.arena.belowScratch hbelow), hleft, hpulled hbelow]

theorem pullClasses_delivers (kind : DumpKind) (items : Handle → List DumpItem) :
    ∀ (cs : List Class) (p : Patience) {s : Session}, s.Sound → (∀ c ∈ cs, s.Shows c) →
      (s.vm.arena.BelowScratch → ∀ c ∈ cs, s.Settles kind c.handle (items c.handle)) →
      Delivers (pullClasses kind cs p) s p ((cs.flatMap fun c => items c.handle).map .item)
  | [], _, _, hs, _, _ => .pure hs fun _ => rfl
  | c :: cs, p, s, hs, hcs, hitems => by
      have hc := hcs c List.mem_cons_self
      refine (Ends.whenBelow (classItems_ends hs kind hc) fun hbelow =>
        hitems hbelow c List.mem_cons_self s (.refl s) hs c hc rfl).bind
        fun shown t later sound hshown => ?_
      rw [List.flatMap_cons, List.map_append]
      refine Pulled.andThen_delivers sound (fun hbelow => ?_) fun left =>
        pullClasses_delivers kind items cs left sound
          (fun d hd => (hcs d (List.mem_cons_of_mem c hd)).later later) fun hbelow d hd =>
          (hitems (later.vm.arena.belowScratch hbelow) d (List.mem_cons_of_mem c hd)).later later
      rw [hshown hbelow, Pulled.ofItems_eq_cut]

namespace Session.On

variable {s : Session} {snapshot : Snapshot} (hs : s.On snapshot) {a : Assembly}
  (ha : s.Shows a) {p : Site} (hp : p ∈ snapshot.sites) (hassembly : a.handle = p.assembly)
include hs ha hp hassembly

theorem assemblyName_runs : Runs a.name s (fun name _ => name = assemblyNameOf p.name) False := by
  have himage := hs.image (Snapshot.mem_images.mpr (Or.inl hp))
  have htells : s.vm.Tells (.assemblyImage a.handle) p.image :=
    hassembly ▸ Vm.tells_assemblyImage.mpr (hs.assembly hp)
  have hname : s.vm.Tells (.imageName p.image) p.name :=
    Vm.tells_imageName.mpr ⟨_, himage, rfl⟩
  refine (Assembly.name_agrees (.refl hs.sound) ha).runs.weaken ?_ fun hnone =>
    hnone p.image p.name (Arena.ne_null_of_get? (Arena.image_eq_ok.mp himage)) htells hname
  rintro name t later ⟨image, text, himage', htext, rfl⟩
  cases himage'.unique (htells.later rfl later.vm)
  rw [htext.unique (hname.later rfl later.vm)]

/-- The classes of an assembly are listed, or not, as the description and the layout call for. -/
theorem assemblyClasses_ends :
    Ends (Query.attempt do (← a.image).classes) s fun classes? t =>
      (∀ classes, classes? = .ok classes → ∀ c ∈ classes, t.Shows c) ∧
        (t.vm.arena.BelowScratch →
          classes?.map (List.map View.handle) = snapshot.listing p s.layout) := by
  have hmem := Snapshot.mem_images.mpr (Or.inl hp)
  have hruns := Ends.attempt (Assembly.classes_runs hs.sound ha)
  refine Ends.and (hruns.weaken fun r t _ _ hr => ?_)
    (Ends.whenBelow (hruns.weaken fun _ _ _ _ _ => trivial) fun hbelow => ?_)
  · rintro classes rfl
    rcases hr with ⟨_, hok, hshown⟩ | ⟨⟨e, he⟩, _⟩
    · cases hok
      exact hshown
    · cases he
  have himage := hs.assemblyImage_runs ha hp hassembly
  cases hlisting : snapshot.listing p s.layout with
  | ok ks =>
      refine (Ends.attempt_ok (himage.bind fun i t later sound hi => ?_)).weaken
        (P := fun r t => ∃ cs, r = .ok cs ∧ cs.map View.handle = ks) ?_
      · exact ((hs.later later sound).classes_runs hmem hi.1.1 hi.1.2
          (later.layout.symm ▸ hlisting) (hi.2 ▸ hbelow)).weaken (fun _ _ _ hcs => hcs.1.2) id
      · rintro _ t _ _ ⟨cs, rfl, rfl⟩
        rfl
  | error e =>
      refine (Ends.attempt_error (.after himage fun i t later sound hi => ?_)).weaken
        (P := fun r t => r = .error e) ?_
      · exact (hs.later later sound).classes_fails hmem hi.1.1 hi.1.2
          (later.layout.symm ▸ hlisting) (hi.2 ▸ hbelow)
      · rintro _ t _ _ rfl
        rfl

end Session.On

variable {b : Session} {snapshot : Snapshot} {kind : DumpKind} {items : Handle → List DumpItem}
  (hitems : ∀ h ∈ snapshot.classHandles, b.Settles kind h (items h))
include hitems

theorem pullAssembly_delivers {s : Session} (hb : b.Later s) (hs : s.On snapshot) {a : Assembly}
    (ha : s.Shows a) {p : Site} (hp : p ∈ snapshot.sites) (hassembly : a.handle = p.assembly)
    (patience : Patience) : Delivers (pullAssembly kind a patience) s patience
      (snapshot.siteEvents b.layout items p) := by
  have hmem := Snapshot.mem_images.mpr (Or.inl hp)
  refine (Ends.attempt_ok (hs.assemblyName_runs ha hp hassembly)).bind
    fun name? t later sound hname => ?_
  obtain ⟨_, rfl, rfl⟩ := hname
  have hb := hb.trans later
  have hs := hs.later later sound
  refine (hs.assemblyClasses_ends (ha.later later) hp hassembly).bind
    fun classes? u later' sound' hclasses => ?_
  obtain ⟨hshown, hlisting⟩ := hclasses
  rw [hb.layout] at hlisting
  unfold Snapshot.siteEvents
  cases classes? with
  | error e =>
      refine .pure sound' fun hbelow => ?_
      rw [← hlisting hbelow, Pulled.ofItems_eq_cut]
      rfl
  | ok classes =>
      refine (pullClasses_delivers kind items classes patience sound' (hshown classes rfl)
        fun hbelow c hc => ?_).bind fun pulled v later'' sound'' hpulled =>
        .pure sound'' fun hbelow => ?_
      · have hhandle : c.handle ∈ classes.map View.handle := List.mem_map_of_mem hc
        exact (hitems c.handle (Snapshot.mem_classHandles_of_listing hmem
          (hlisting hbelow).symm hhandle)).later (hb.trans later')
      · rw [← hlisting (later''.vm.arena.belowScratch hbelow), hpulled hbelow]
        simp only [Except.map, List.flatMap_map]
        rfl

theorem pullAssemblies_delivers : ∀ {ps : List Site} {as : List Assembly} (patience : Patience)
    {s : Session}, b.Later s → s.On snapshot → (∀ a ∈ as, s.Shows a) →
      List.Forall₂ (fun p a => p ∈ snapshot.sites ∧ a.handle = p.assembly) ps as →
      Delivers (pullAssemblies kind as patience) s patience
        (ps.flatMap (snapshot.siteEvents b.layout items))
  | _, _, _, _, _, hs, _, .nil => .pure hs.sound fun _ => rfl
  | _, a :: as, patience, s, hb, hs, has, .cons ⟨hp, hassembly⟩ hrest => by
      refine (pullAssembly_delivers hitems hb hs (has a List.mem_cons_self) hp hassembly
        patience).bind fun first t later sound hfirst => ?_
      rw [List.flatMap_cons]
      exact Pulled.andThen_delivers sound hfirst fun left =>
        pullAssemblies_delivers left (hb.trans later) (hs.later later sound)
          (fun d hd => (has d (List.mem_cons_of_mem a hd)).later later) hrest

/-- A dump gives what its patience reaches of the events, whatever was done in the session. -/
theorem pullDump_ends {s : Session} (hb : b.Later s) (hs : s.On snapshot) (patience : Patience) :
    Ends (pullDump kind patience) s fun pulled t => t.vm.arena.BelowScratch →
      pulled = if patience.isOver then ⟨[], none⟩
        else .cut patience (snapshot.dumpEvents b.layout items) := by
  refine (Ends.attempt_ok ((Query.assemblies_agrees (.refl hs.sound)).runs.weaken
    (fun _ _ _ has => has) fun hnull => ?_)).bind fun as? t later sound has => ?_
  · obtain ⟨p, hp, hassembly, _⟩ := hs.site_of_mem hnull
    exact Arena.ne_null_of_get? (Arena.assembly_eq_ok.mp (hs.assembly hp)) hassembly.symm
  obtain ⟨as, rfl, hshown, hhandles⟩ := has
  have hs := hs.later later sound
  cases patience.isOver with
  | true => exact .pure sound fun _ => rfl
  | false =>
      rw [hs.assemblies] at hhandles
      exact pullAssemblies_delivers hitems patience (hb.trans later) hs hshown
        (Session.forall₂_of_handles hhandles)

end VmMetadata
