import Mathlib.Tactic.Choose
import VmMetadata.Proofs.Dump.Events
import VmMetadata.Proofs.Dump.Files
import VmMetadata.Proofs.Session.Client

/-!
Dumps after a history. A client asks what it likes of the session, of its views and of the machine
itself, pulls dumps as far as it likes and writes them to files, in any order. All this may close
classes, instantiate methods, make objects and fill scratch memory. Main statement: a dump is the
same after any history as it is in the session that has just begun.
-/

namespace VmMetadata

open Query (Runs)

namespace Session

/-- What a session becomes by what a client does with it. -/
inductive History (s : Session) : Session → Prop
  | start : History s s
  | ask {t : Session} (before : History s t) {x : AnyQuery} (asked : t.Asks x) :
      History s (x.2.leaves t)
  | pull {t : Session} (before : History s t) (kind : DumpKind) (patience : Patience) :
      History s (pullDump kind patience t).2
  | write {t : Session} (before : History s t) (d : Destination) (kind : DumpKind) (now : String)
      (tree : FileTree) : History s ((d.run kind now t : StateM FileTree _) tree).1.2

variable {s t : Session} {snapshot : Snapshot}

/-- A client may look at any handle. -/
theorem History.view (before : s.History t) (e : Entity) (h : Handle) :
    s.History ((Query.view e h).leaves t) :=
  .ask (x := ⟨_, Query.view e h⟩) before (.view e h)

/-- Every described class has its contribution to a dump. -/
theorem On.exists_items (hs : s.On snapshot) (kind : DumpKind) :
    ∃ items : Handle → List DumpItem,
      ∀ h ∈ snapshot.classHandles, s.Settles kind h (items h) := by
  have hall : ∀ h ∈ snapshot.classHandles, ∃ items, s.Settles kind h items := by
    intro h hh
    obtain ⟨p, hp, hh⟩ := List.mem_flatMap.mp hh
    obtain ⟨c, _, n, hn⟩ := Load.mem_of_forall₂ (hs.presents hp) hh
    exact hs.exists_settles hn kind
  choose! items hitems using hall
  exact ⟨items, hitems⟩

theorem On.pull (hs : s.On snapshot) (kind : DumpKind) (patience : Patience) :
    s.Later (pullDump kind patience s).2 ∧ (pullDump kind patience s).2.Sound := by
  obtain ⟨items, hitems⟩ := hs.exists_items kind
  have hends := pullDump_ends hitems (.refl s) hs patience
  exact ⟨hends.later, hends.sound⟩

/-- Writing a dump does nothing to the session but to look for its path and to pull it. -/
theorem On.write (hs : s.On snapshot) (d : Destination) (kind : DumpKind) (now : String)
    (tree : FileTree) :
    s.Later ((d.run kind now s : StateM FileTree _) tree).1.2 ∧
      ((d.run kind now s : StateM FileTree _) tree).1.2.Sound := by
  cases d.path_keeps hs.sound kind now with
  | error run later sound _ =>
      rw [Destination.run_of_path_error run]
      exact ⟨later, sound⟩
  | @ok path u run later sound _ =>
      rw [Destination.run_of_path run]
      cases (Destination.openFile path : StateM FileTree _) tree with
      | mk opened tree =>
          cases opened with
          | error e => exact ⟨later, sound⟩
          | ok _ =>
              have hpull := (hs.later later sound).pull kind ⟨none, true⟩
              exact ⟨later.trans hpull.1, hpull.2⟩

/-- After any history a session is sound, and nothing that was true has become false. -/
theorem History.sound (hs : s.On snapshot) (h : s.History t) : s.Later t ∧ t.Sound := by
  induction h with
  | start => exact ⟨.refl s, hs.sound⟩
  | ask _ asked ih =>
      obtain ⟨later, sound⟩ := ih
      have hleaves := (asked.keeps sound).leaves
      exact ⟨later.trans hleaves.1, hleaves.2⟩
  | pull _ kind patience ih =>
      obtain ⟨later, sound⟩ := ih
      have hpull := (hs.later later sound).pull kind patience
      exact ⟨later.trans hpull.1, hpull.2⟩
  | write _ d kind now tree ih =>
      obtain ⟨later, sound⟩ := ih
      have hwrite := (hs.later later sound).write d kind now tree
      exact ⟨later.trans hwrite.1, hwrite.2⟩

end Session

/-! ## The same dump -/

namespace Session.On

variable {b s t : Session} {snapshot : Snapshot} (hb : b.On snapshot)
include hb

/-- Two sessions that have come from one give the same dump. -/
theorem pullDump_eq (hbs : b.Later s) (hs : s.Sound) (hbt : b.Later t) (ht : t.Sound)
    (kind : DumpKind) (patience : Patience)
    (hbelow : (pullDump kind patience s).2.vm.arena.BelowScratch)
    (hbelow' : (pullDump kind patience t).2.vm.arena.BelowScratch) :
    (pullDump kind patience s).1 = (pullDump kind patience t).1 := by
  obtain ⟨items, hitems⟩ := hb.exists_items kind
  have hleft := (pullDump_ends hitems hbs (hb.later hbs hs) patience).post hbelow
  have hright := (pullDump_ends hitems hbt (hb.later hbt ht) patience).post hbelow'
  exact hleft.trans hright.symm

/-- Two sessions that have come from one write the same bytes. -/
theorem content?_run_eq (hbs : b.Later s) (hs : s.Sound) (hbt : b.Later t) (ht : t.Sound)
    {d d' : Destination} {kind : DumpKind} {now now' path path' : String} {u u' : Session}
    (hpath : d.path kind now s = .ok path u) (hpath' : d'.path kind now' t = .ok path' u')
    {tree tree' : FileTree}
    (hopen : ((Destination.openFile path : StateM FileTree _) tree).1 = .ok ())
    (hopen' : ((Destination.openFile path' : StateM FileTree _) tree').1 = .ok ())
    (hbelow : ((d.run kind now s : StateM FileTree _) tree).1.2.vm.arena.BelowScratch)
    (hbelow' : ((d'.run kind now' t : StateM FileTree _) tree').1.2.vm.arena.BelowScratch) :
    ∃ pulled : Pulled,
      ((d.run kind now s : StateM FileTree _) tree).1.1 = Destination.report path pulled ∧
      ((d'.run kind now' t : StateM FileTree _) tree').1.1 = Destination.report path' pulled ∧
      ((d.run kind now s : StateM FileTree _) tree).2.content? path =
        some (Destination.written pulled) ∧
      ((d'.run kind now' t : StateM FileTree _) tree').2.content? path' =
        some (Destination.written pulled) := by
  have hu := (d.path_keeps hs kind now).leaves
  have hu' := (d'.path_keeps ht kind now').leaves
  simp only [Query.leaves, hpath] at hu
  simp only [Query.leaves, hpath'] at hu'
  obtain ⟨filled, hrun, hfilled⟩ := Destination.run_of_openFile hpath hopen
  obtain ⟨filled', hrun', hfilled'⟩ := Destination.run_of_openFile hpath' hopen'
  rw [hrun] at hbelow ⊢
  rw [hrun'] at hbelow' ⊢
  have heq := hb.pullDump_eq (hbs.trans hu.1) hu.2 (hbt.trans hu'.1) hu'.2 kind ⟨none, true⟩
    hbelow hbelow'
  rw [← heq] at hfilled' ⊢
  exact ⟨_, rfl, rfl, hfilled, hfilled'⟩

end Session.On

/-- Whatever was done before, a dump gives the same as in the session that has just begun, however
long it is pulled, and writes the same bytes. -/
theorem pullDump_eq_of_history {snapshot : Snapshot} {vm : Vm} {config : Config} {s t : Session}
    (hvm : Vm.ofSnapshot snapshot = .ok vm) (hattach : Session.attach vm config = .ok s)
    (history : s.History t) (kind : DumpKind) :
    (∀ patience,
      (pullDump kind patience s).2.vm.arena.BelowScratch →
      (pullDump kind patience t).2.vm.arena.BelowScratch →
      (pullDump kind patience t).1 = (pullDump kind patience s).1) ∧
    ∀ (d : Destination) (now now' path path' : String) (u u' : Session) (tree tree' : FileTree),
      d.path kind now s = .ok path u → d.path kind now' t = .ok path' u' →
      ((Destination.openFile path : StateM FileTree _) tree).1 = .ok () →
      ((Destination.openFile path' : StateM FileTree _) tree').1 = .ok () →
      ((d.run kind now s : StateM FileTree _) tree).1.2.vm.arena.BelowScratch →
      ((d.run kind now' t : StateM FileTree _) tree').1.2.vm.arena.BelowScratch →
      ∃ pulled : Pulled,
        ((d.run kind now s : StateM FileTree _) tree).1.1 = Destination.report path pulled ∧
        ((d.run kind now' t : StateM FileTree _) tree').1.1 = Destination.report path' pulled ∧
        ((d.run kind now s : StateM FileTree _) tree).2.content? path =
          some (Destination.written pulled) ∧
        ((d.run kind now' t : StateM FileTree _) tree').2.content? path' =
          some (Destination.written pulled) := by
  have hs := Session.On.of_attach hvm hattach
  obtain ⟨later, sound⟩ := history.sound hs
  constructor
  · intro patience hbelow hbelow'
    exact hs.pullDump_eq later sound (.refl s) hs.sound kind patience hbelow' hbelow
  · intro d now now' path path' u u' tree tree' hpath hpath' hopen hopen' hbelow hbelow'
    exact hs.content?_run_eq (.refl s) hs.sound later sound hpath hpath' hopen hopen' hbelow hbelow'

theorem pullDump_eq_of_history_small :
    let s := Session.new Snapshot.small.machine ⟨2020, 3, 1, some "f1"⟩ .current
    let t := (Query.ask (.alloc 3)).leaves (pullDump .methods .endless s).2
    let run (u : Session) : (DumpReport × Session) × FileTree :=
      (Destination.run ⟨some "out", some "small"⟩ .methods "" u : StateM FileTree _) ⟨[], []⟩
    s.History t ∧ (pullDump .methods .endless t).1 = (pullDump .methods .endless s).1 ∧
      (run t).2.content? "out/small.ms" = (run s).2.content? "out/small.ms" := by
  intro s t run
  have hattach : Session.attach Snapshot.small.machine = .ok s :=
    Session.attach_eq_ok.mpr ⟨_, _, by decide +kernel, rfl⟩
  have history : s.History t := .ask (x := ⟨_, Query.ask (.alloc 3)⟩)
    (.pull .start .methods .endless) (.call _)
  have hsame := pullDump_eq_of_history (Vm.ofSnapshot_machine (s := Snapshot.small) (Or.inr rfl))
    hattach history .methods
  refine ⟨history, hsame.1 .endless (Arena.belowScratch_of_size (by decide +kernel))
    (Arena.belowScratch_of_size (by decide +kernel)), ?_⟩
  have hpath (u : Session) : Destination.path ⟨some "out", some "small"⟩ .methods "" u =
      .ok "out/small.ms" { u with notebook := u.notebook.addPage .null } := by
    have hjoin : Path.join "out" ("small" ++ "." ++ DumpKind.methods.extension) =
        "out/small.ms" := by
      decide +kernel
    rw [← hjoin]
    rfl
  obtain ⟨pulled, _, _, hfirst, hsecond⟩ := hsame.2 _ "" "" _ _ _ _ ⟨[], []⟩ ⟨[], []⟩ (hpath s)
    (hpath t) (by decide +kernel) (by decide +kernel)
    (Arena.belowScratch_of_size (by decide +kernel))
    (Arena.belowScratch_of_size (by decide +kernel))
  exact hsecond.trans hfirst.symm

end VmMetadata
