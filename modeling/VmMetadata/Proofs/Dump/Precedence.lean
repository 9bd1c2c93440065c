import VmMetadata.Proofs.Dump.Inside
import VmMetadata.Proofs.Session.Hosted

/-!
Which of its settings a dump follows. A client sets directory and base name one by one or from
configurations, in any order and any number of times. What is set explicitly last counts first, then
what the first configuration has, then what the host says about itself. Main statement: the path of
a dump is put together from these, and the host is only asked for what is not set.
-/

namespace VmMetadata

open Query (Runs RunsAtMost)

namespace Destination

/-! ## Settings -/

/-- A setting that a client makes. -/
inductive Setting
  | directory (text : String)
  | fileName (text : String)
  | config (output : OutputConfig)
  deriving DecidableEq, Repr

namespace Setting

def apply (d : Destination) : Setting → Destination
  | directory text => d.setDirectory text
  | fileName text => d.setFileName text
  | config output => d.withDefaults output

/-- The directory that is set explicitly. -/
def directory? : Setting → Option String
  | directory text => some text
  | _ => none

/-- The base name that is set explicitly. -/
def fileName? : Setting → Option String
  | fileName text => some text
  | _ => none

def output? : Setting → Option OutputConfig
  | config output => some output
  | _ => none

end Setting

/-- What the settings come to, one after the other. -/
def ofSettings (settings : List Setting) : Destination :=
  settings.foldl Setting.apply {}

/-- The last value that is set explicitly; without one the first that a configuration has. -/
def chosen (explicit : Setting → Option String) (configured : OutputConfig → Option String)
    (settings : List Setting) : Option String :=
  (settings.reverse.findSome? explicit).or
    (settings.findSome? fun c => c.output?.bind configured)

theorem findSome?_cons_eq_or (f : α → Option β) (a : α) (as : List α) :
    (a :: as).findSome? f = (f a).or (as.findSome? f) := by
  rw [List.findSome?_cons]
  cases f a <;> rfl

/-- An explicit value takes the place of what there is, a configured one does not. -/
theorem foldl_apply_eq (value : Destination → Option String) (explicit : Setting → Option String)
    (configured : OutputConfig → Option String)
    (hstep : ∀ d c, value (Setting.apply d c) =
      (explicit c).or ((value d).or (c.output?.bind configured)))
    (settings : List Setting) (d : Destination) :
    value (settings.foldl Setting.apply d) = (settings.reverse.findSome? explicit).or
      ((value d).or (settings.findSome? fun c => c.output?.bind configured)) := by
  induction settings generalizing d with
  | nil => simp
  | cons c rest ih =>
      have hlast : (c :: rest).reverse.findSome? explicit =
          (rest.reverse.findSome? explicit).or (explicit c) := by
        rw [List.reverse_cons, List.findSome?_append, findSome?_cons_eq_or, List.findSome?_nil,
          Option.or_none]
      rw [List.foldl_cons, ih, hstep, hlast, findSome?_cons_eq_or]
      simp only [Option.or_assoc]

theorem directory_ofSettings (settings : List Setting) :
    (ofSettings settings).directory =
      chosen Setting.directory? OutputConfig.directory settings := by
  refine (foldl_apply_eq Destination.directory Setting.directory? OutputConfig.directory
    (fun d c => ?_) settings {}).trans (by rw [Option.none_or, chosen])
  cases c <;> simp [Setting.apply, setDirectory, setFileName, withDefaults, Setting.directory?,
    Setting.output?]

theorem fileName_ofSettings (settings : List Setting) :
    (ofSettings settings).fileName = chosen Setting.fileName? OutputConfig.fileName settings := by
  refine (foldl_apply_eq Destination.fileName Setting.fileName? OutputConfig.fileName
    (fun d c => ?_) settings {}).trans (by rw [Option.none_or, chosen])
  cases c <;> simp [Setting.apply, setDirectory, setFileName, withDefaults, Setting.fileName?,
    Setting.output?]

end Destination

/-! ## What the host is asked for -/

namespace Snapshot

/-- The identifier of the host, under its newer or its older name. -/
def hostIdentifier? (s : Snapshot) : Option String :=
  (s.hostText? "get_identifier").or (s.hostText? "get_bundleIdentifier")

/-- The getters that the identifier takes. The older one only if the newer one has no text. -/
def identifierGetters (s : Snapshot) : List String :=
  "get_identifier" ::
    if (s.hostText? "get_identifier").isSome then [] else ["get_bundleIdentifier"]

/-- The directory of a dump: the one that is set, else the one of the host, else the current. -/
def directoryFor (s : Snapshot) (d : Destination) : String :=
  d.directory.getD ((s.hostText? "get_persistentDataPath").getD ".")

/-- The base name of a dump: the one that is set, else the identifier and version of the host, else
the time. -/
def fileNameFor (s : Snapshot) (d : Destination) (now : String) : String :=
  d.fileName.getD <|
    match s.hostIdentifier?, s.hostText? "get_version" with
    | some identifier, some version => identifier ++ "_" ++ version
    | _, _ => now

/-- The getters that a path takes, one after the other. -/
def gettersFor (s : Snapshot) (d : Destination) : List String :=
  (if d.directory.isSome then [] else ["get_persistentDataPath"]) ++
    if d.fileName.isSome then [] else s.identifierGetters ++ ["get_version"]

theorem runsOf_append (s : Snapshot) (names names' : List String) :
    s.runsOf (names ++ names') = s.runsOf names ++ s.runsOf names' :=
  List.filterMap_append

end Snapshot

namespace Session.On

variable {snapshot : Snapshot} {s : Session} (hs : s.On snapshot) {h : Host} (hh : s.Hosts h)
  (hmachine : snapshot.machine.Later s.vm)
include hs hh hmachine

theorem identifier_runs : Runs h.identifier s (fun text? t => text? = snapshot.hostIdentifier? ∧
    t.ran = s.ran ++ snapshot.runsOf snapshot.identifierGetters) False := by
  refine (hs.text?_runs hh hmachine "get_identifier").bind fun text? t later sound htext => ?_
  obtain ⟨rfl, hran⟩ := htext
  unfold Snapshot.hostIdentifier? Snapshot.identifierGetters
  cases hnewer : snapshot.hostText? "get_identifier" with
  | some text => exact .pure sound ⟨rfl, hran⟩
  | none =>
      refine ((hs.later later sound).text?_runs (hh.later later) (hmachine.trans later.vm)
        "get_bundleIdentifier").weaken (fun text? u _ htext => ⟨htext.1, ?_⟩) id
      rw [htext.2, hran, List.append_assoc, ← Snapshot.runsOf_append]
      rfl

variable (d : Destination)

theorem resolveDirectory_runs : Runs (d.resolveDirectory h) s (fun directory t =>
    directory = snapshot.directoryFor d ∧ t.ran = s.ran ++ snapshot.runsOf
      (if d.directory.isSome then [] else ["get_persistentDataPath"])) False := by
  unfold Destination.resolveDirectory Snapshot.directoryFor
  cases d.directory with
  | some directory => exact .pure hs.sound ⟨rfl, (List.append_nil _).symm⟩
  | none =>
      refine (hs.text?_runs hh hmachine "get_persistentDataPath").bind
        fun text? t _ sound htext => .pure sound ?_
      obtain ⟨rfl, hran⟩ := htext
      exact ⟨rfl, hran⟩

theorem resolveFileName_runs (now : String) : Runs (d.resolveFileName h now) s (fun name t =>
    name = snapshot.fileNameFor d now ∧ t.ran = s.ran ++ snapshot.runsOf
      (if d.fileName.isSome then [] else snapshot.identifierGetters ++ ["get_version"])) False := by
  unfold Destination.resolveFileName Snapshot.fileNameFor
  cases d.fileName with
  | some name => exact .pure hs.sound ⟨rfl, (List.append_nil _).symm⟩
  | none =>
      refine (hs.identifier_runs hh hmachine).bind fun identifier? t later sound hidentifier => ?_
      obtain ⟨rfl, hran⟩ := hidentifier
      refine ((hs.later later sound).text?_runs (hh.later later) (hmachine.trans later.vm)
        "get_version").bind fun version? u _ sound' hversion => ?_
      obtain ⟨rfl, hran'⟩ := hversion
      rw [hran, List.append_assoc, ← Snapshot.runsOf_append] at hran'
      cases snapshot.hostIdentifier? with
      | none => exact .pure sound' ⟨rfl, hran'⟩
      | some identifier =>
          cases snapshot.hostText? "get_version" with
          | none => exact .pure sound' ⟨rfl, hran'⟩
          | some version => exact .pure sound' ⟨rfl, hran'⟩

omit hh in
theorem path_runs (kind : DumpKind) (now : String) : Runs (d.path kind now) s (fun path t =>
    path = Path.join (snapshot.directoryFor d)
      (snapshot.fileNameFor d now ++ "." ++ kind.extension) ∧
    t.ran = s.ran ++ snapshot.runsOf (snapshot.gettersFor d)) False := by
  refine (Query.RunsNone.runs Host.new_moves (Host.new_runs hs.sound)).bind
    fun host t later sound hhost => ?_
  obtain ⟨hhost, hquiet⟩ := hhost
  have ht := hs.later later sound
  have hmachine := hmachine.trans later.vm
  refine (ht.resolveDirectory_runs hhost hmachine d).bind fun directory u later' sound' hdir => ?_
  obtain ⟨rfl, hran⟩ := hdir
  refine ((ht.later later' sound').resolveFileName_runs (hhost.later later')
    (hmachine.trans later'.vm) d now).bind fun name v _ sound'' hname => .pure sound'' ?_
  obtain ⟨rfl, hran'⟩ := hname
  refine ⟨rfl, ?_⟩
  rw [hran', hran, hquiet, List.append_assoc, ← Snapshot.runsOf_append, Snapshot.gettersFor]

end Session.On

namespace Destination

/-- The directory that the host gives. -/
def hostDirectory : Query String := do
  resolveDirectory {} (← Host.new)

/-- The base name that the host gives. -/
def hostFileName (now : String) : Query String := do
  resolveFileName {} (← Host.new) now

variable {d : Destination} {directory name : String}

/-! ## What any session is asked for -/

theorem path_readsHost (d : Destination) (kind : DumpKind) (now : String) :
    (d.path kind now).ReadsHost := by
  have hdirectory (host : Host) : (d.resolveDirectory host).ReadsHost := by
    unfold resolveDirectory
    cases d.directory with
    | some directory => exact .pure _
    | none => exact .bind (Host.text?_readsHost host _) fun _ => .pure _
  have hname (host : Host) : (d.resolveFileName host now).ReadsHost := by
    unfold resolveFileName
    cases d.fileName with
    | some name => exact .pure _
    | none =>
        refine .bind (Host.identifier_readsHost host) fun identifier? => ?_
        refine .bind (Host.text?_readsHost host _) fun version? => ?_
        split <;> exact .pure _
  exact Host.new_moves.bind fun host => (hdirectory host).bind fun _ => (hname host).bind fun _ =>
    .pure _

/-- One method is run at most for the directory, and three for the base name. -/
theorem path_runsAtMost (d : Destination) (kind : DumpKind) (now : String) :
    (d.path kind now).RunsAtMost
      ((if d.directory.isSome then 0 else 1) + if d.fileName.isSome then 0 else 3) := by
  have hdirectory (host : Host) :
      (d.resolveDirectory host).RunsAtMost (if d.directory.isSome then 0 else 1) := by
    unfold resolveDirectory
    cases d.directory with
    | some directory => exact .of_runsNone (.pure _)
    | none =>
        exact RunsAtMost.bind (m := 0) (Host.text?_runsAtMost host _) fun _ =>
          .of_runsNone (.pure _)
  have hname (host : Host) :
      (d.resolveFileName host now).RunsAtMost (if d.fileName.isSome then 0 else 3) := by
    unfold resolveFileName
    cases d.fileName with
    | some name => exact .of_runsNone (.pure _)
    | none =>
        refine RunsAtMost.bind (n := 2) (m := 1) (Host.identifier_runsAtMost host)
          fun identifier? => ?_
        refine RunsAtMost.bind (n := 1) (m := 0) (Host.text?_runsAtMost host _) fun version? => ?_
        refine .of_runsNone ?_
        split <;> exact .pure _
  rw [← Nat.zero_add (_ + _)]
  refine RunsAtMost.bind (.of_runsNone Host.new_moves) fun host => ?_
  refine RunsAtMost.bind (hdirectory host) fun directory => ?_
  exact RunsAtMost.bind (m := 0) (hname host) fun name => .of_runsNone (.pure _)

theorem path_of_both (hdirectory : d.directory = some directory) (hname : d.fileName = some name)
    (kind : DumpKind) (now : String) (s : Session) :
    d.path kind now s =
      .ok (Path.join directory (name ++ "." ++ kind.extension)) (s.paged .null) := by
  unfold path resolveDirectory resolveFileName
  rw [hdirectory, hname]
  rfl

theorem path_of_directory (hdirectory : d.directory = some directory) (hname : d.fileName = none)
    (kind : DumpKind) (now : String) : d.path kind now =
      (fun name => Path.join directory (name ++ "." ++ kind.extension)) <$> hostFileName now := by
  unfold path hostFileName resolveDirectory resolveFileName
  rw [hdirectory, hname]
  rfl

theorem path_of_fileName (hdirectory : d.directory = none) (hname : d.fileName = some name)
    (kind : DumpKind) (now : String) : d.path kind now =
      (fun directory => Path.join directory (name ++ "." ++ kind.extension)) <$> hostDirectory := by
  unfold path hostDirectory resolveDirectory resolveFileName
  rw [hdirectory, hname]
  rfl

/-- Where a dump goes. What is set explicitly last counts first, then what the first configuration
has, then what the host says about itself, and without any of it the current directory and the time.
In a session without faults there always is a path, and the host's getters are run for what is not
set, the older getter of the identifier only if the newer one has no text. However the calls are
spoiled, no call is made but to read of the host, and it runs one method at most for the directory
and three for the base name. If both are set, no call is made and the path cannot fail; if one of
them is set, all that is done is to read the other one. -/
theorem path_follows_settings (settings : List Setting) (kind : DumpKind) (now : String) :
    let d := ofSettings settings
    (d.directory = chosen Setting.directory? OutputConfig.directory settings ∧
      d.fileName = chosen Setting.fileName? OutputConfig.fileName settings) ∧
    (∀ (snapshot : Snapshot) (vm : Vm) (config : Config) (b t : Session),
      Vm.ofSnapshot snapshot = .ok vm → Session.attach vm config = .ok b → b.History t →
      ∃ u, d.path kind now t = .ok (Path.join (snapshot.directoryFor d)
          (snapshot.fileNameFor d now ++ "." ++ kind.extension)) u ∧
        u.ran = t.ran ++ snapshot.runsOf (snapshot.gettersFor d)) ∧
    ∀ s : Session, (s.CallsOnly ((d.path kind now).leaves s) fun c => c.2.readsHost = true) ∧
      s.RunsAtMost ((if d.directory.isSome then 0 else 1) + if d.fileName.isSome then 0 else 3)
        ((d.path kind now).leaves s) ∧
      (∀ directory name, d.directory = some directory → d.fileName = some name →
        ∃ u, d.path kind now s = .ok (Path.join directory (name ++ "." ++ kind.extension)) u ∧
          u.vm = s.vm ∧ u.probe = s.probe) ∧
      (∀ directory, d.directory = some directory → d.fileName = none → d.path kind now s =
        ((fun name => Path.join directory (name ++ "." ++ kind.extension)) <$>
          hostFileName now) s) ∧
      ∀ name, d.directory = none → d.fileName = some name → d.path kind now s =
        ((fun directory => Path.join directory (name ++ "." ++ kind.extension)) <$>
          hostDirectory) s := by
  intro d
  refine ⟨⟨directory_ofSettings settings, fileName_ofSettings settings⟩, ?_, fun s =>
    ⟨path_readsHost d kind now s, path_runsAtMost d kind now s, ?_, ?_, ?_⟩⟩
  · intro snapshot vm config b t hvm hattach history
    have hb := Session.On.of_attach hvm hattach
    obtain ⟨later, sound⟩ := history.sound hb
    obtain ⟨path, u, run, -, -, rfl, hran⟩ := ((hb.later later sound).path_runs
      (Session.machine_of_attach hvm hattach ▸ later.vm) d kind now).exists_ok
    exact ⟨u, run, hran⟩
  · intro directory name hdirectory hname
    exact ⟨_, path_of_both hdirectory hname kind now s, rfl, rfl⟩
  · intro directory hdirectory hname
    rw [path_of_directory hdirectory hname]
  · intro name hdirectory hname
    rw [path_of_fileName hdirectory hname]

/-- The last base name is taken, and only the getter of the directory is run. With a directory and a
configured base name no session is called at all. -/
theorem path_follows_settings_hosted :
    let named : List Setting :=
      [.fileName "early", .config { fileName := some "configured" }, .fileName "late"]
    let placed : List Setting :=
      [.config { fileName := some "configured" }, .directory "out", .config ⟨some "in", some "x"⟩]
    let b := Session.new Snapshot.hosted.machine ⟨2020, 3, 1, some "f1"⟩ .current
    Session.attach Snapshot.hosted.machine = .ok b ∧
      (∃ u, (ofSettings named).path .classes "" b = .ok "data/late.cs" u ∧
        u.ran = [Arena.handleAt 18]) ∧
      (∀ s, (ofSettings named).path .classes "" s =
        ((fun directory => Path.join directory "late.cs") <$> hostDirectory) s) ∧
      (∀ s, ∃ u, (ofSettings placed).path .classes "" s = .ok "out/configured.cs" u ∧
        u.probe = s.probe) ∧
      ∀ s, (ofSettings [.directory "out"]).path .classes "" s =
        ((fun name => Path.join "out" (name ++ "." ++ "cs")) <$> hostFileName "") s := by
  intro named placed b
  have hvm := Vm.ofSnapshot_machine (s := Snapshot.hosted) (Or.inr rfl)
  have hattach : Session.attach Snapshot.hosted.machine = .ok b :=
    Session.attach_eq_ok.mpr ⟨_, _, by decide +kernel, rfl⟩
  obtain ⟨-, hfree, hany⟩ := path_follows_settings named .classes ""
  obtain ⟨u, run, hran⟩ := hfree _ _ _ b b hvm hattach .start
  have hpath : Path.join (Snapshot.hosted.directoryFor (ofSettings named))
      (Snapshot.hosted.fileNameFor (ofSettings named) "" ++ "." ++ DumpKind.classes.extension) =
        "data/late.cs" := by decide +kernel
  have hruns : b.ran ++ Snapshot.hosted.runsOf (Snapshot.hosted.gettersFor (ofSettings named)) =
      [Arena.handleAt 18] := by decide +kernel
  refine ⟨hattach, ⟨u, hpath ▸ run, hran.trans hruns⟩, fun s => ?_, fun s => ?_, fun s => ?_⟩
  · exact (hany s).2.2.2.2 "late" rfl rfl
  · obtain ⟨v, run, -, hprobe⟩ := ((path_follows_settings placed .classes "").2.2 s).2.2.1
      "out" "configured" rfl rfl
    exact ⟨v, run, hprobe⟩
  · exact ((path_follows_settings [.directory "out"] .classes "").2.2 s).2.2.2.1 "out" rfl rfl

end Destination

end VmMetadata
