import VmMetadata.Proofs.Dump.Written
import VmMetadata.Proofs.Files.Joined
import VmMetadata.Proofs.Session.Origin

/-!
Dumps and the directory they go to. A base name, which the inspected program may have given, is
joined to the directory as it is. Main statement: the path of a dump is a direct child of the
directory just if there is no slash in the base name, and then a dump touches no file outside this
directory.
-/

namespace VmMetadata

namespace Destination

variable {d : Destination} {kind : DumpKind} {now path : String} {s t : Session}

/-- What a path is put together from. -/
theorem exists_of_path (h : d.path kind now s = .ok path t) :
    ∃ directory name u,
      d.resolveDirectory ⟨s.notebook.next⟩ { s with notebook := s.notebook.addPage .null } =
        .ok directory u ∧
      d.resolveFileName ⟨s.notebook.next⟩ now u = .ok name t ∧
      path = Path.join directory (name ++ "." ++ kind.extension) := by
  obtain ⟨host, s', hhost, h⟩ := Query.bind_eq_ok.mp h
  -- the host is a page of the notebook and asks the machine for nothing
  cases hhost
  obtain ⟨directory, u, hdirectory, h⟩ := Query.bind_eq_ok.mp h
  obtain ⟨name, v, hname, h⟩ := Query.bind_eq_ok.mp h
  cases h
  exact ⟨directory, name, u, hdirectory, hname, rfl⟩

/-! ## Base names with their extension -/

/-- The dot and the extension alone are longer than a pair of dots. -/
theorem fileName_ne (name : String) (kind : DumpKind) {text : String}
    (h : text.toList.length ≤ 2) : name ++ "." ++ kind.extension ≠ text := by
  intro htext
  have hlength : 2 < (name ++ "." ++ kind.extension).toList.length := by
    cases kind <;> simp [DumpKind.extension]
  rw [htext] at hlength
  omega

theorem isIdle_fileName (name : String) (kind : DumpKind) :
    Path.isIdle (name ++ "." ++ kind.extension) = false := by
  rw [Path.isIdle, Bool.or_eq_false_iff, beq_eq_false_iff_ne, beq_eq_false_iff_ne]
  exact ⟨fileName_ne name kind (by decide), fileName_ne name kind (by decide)⟩

theorem slash_mem_fileName_iff (name : String) (kind : DumpKind) :
    '/' ∈ (name ++ "." ++ kind.extension).toList ↔ '/' ∈ name.toList := by
  cases kind <;> simp [DumpKind.extension]

/-! ## What a run touches -/

/-- Whatever the path, at most the file that it leads to is made or emptied. -/
theorem run_keepsBut (h : d.path kind now s = .ok path t) (tree : FileTree) :
    tree.KeepsBut ((d.run kind now s : StateM FileTree _) tree).2 [] ∨
      ∃ place, ((d.run kind now s : StateM FileTree _) tree).2.locate? path = some place ∧
        tree.KeepsBut ((d.run kind now s : StateM FileTree _) tree).2 [place] := by
  rw [run_of_path h, openFile_eq]
  cases hopen : tree.open? path with
  | error failed =>
      obtain ⟨place, made⟩ := failed
      exact Or.inl (FileTree.keeps_of_open?_error hopen)
  | ok opened =>
      obtain ⟨made, hmade, hkept⟩ := FileTree.put?_of_open?_ok hopen
      obtain ⟨filled, place, hput, hplace, -, hrest⟩ :=
        FileTree.put?_put? hmade (written (pullDump kind ⟨none, true⟩ t).1)
      right
      simp only
      rw [fillFile_of_put? hput]
      exact ⟨place, hplace, hkept.weaken.trans hrest⟩

/-- Where a dump goes. Without a path it changes nothing. A path is a direct child of the directory,
under the base name with the extension, just if there is no slash in the base name, whoever gave
them. Without a slash a dump makes or empties no file but one that lies just where the directory
leads. -/
theorem stays_inside (d : Destination) (kind : DumpKind) (now : String) (s : Session) :
    (∀ e t, d.path kind now s = .error e t → ∀ tree : FileTree,
      ((d.run kind now s : StateM FileTree _) tree).2 = tree) ∧
    ∀ path t, d.path kind now s = .ok path t → ∃ directory name u,
      d.resolveDirectory ⟨s.notebook.next⟩ { s with notebook := s.notebook.addPage .null } =
        .ok directory u ∧
      d.resolveFileName ⟨s.notebook.next⟩ now u = .ok name t ∧
      (Path.IsChild path directory (name ++ "." ++ kind.extension) ↔ '/' ∉ name.toList) ∧
      ('/' ∉ name.toList → ∀ tree : FileTree,
        let after := ((d.run kind now s : StateM FileTree _) tree).2
        tree.KeepsBut after [] ∨ ∃ above, after.place? directory = some above ∧
          after.isDirectory above = true ∧
          tree.KeepsBut after [above ++ [name ++ "." ++ kind.extension]]) := by
  refine ⟨fun e t h tree => by rw [run_of_path_error h], fun path t h => ?_⟩
  obtain ⟨directory, name, u, hdirectory, hname, rfl⟩ := exists_of_path h
  have hidle := isIdle_fileName name kind
  have hdots : name ++ "." ++ kind.extension ≠ ".." := fileName_ne name kind (by decide)
  have hslash := slash_mem_fileName_iff name kind
  refine ⟨directory, name, u, hdirectory, hname,
    (Path.isChild_join_iff hidle hdots).trans (not_congr hslash), fun hplain tree => ?_⟩
  rcases run_keepsBut h tree with hkept | ⟨place, hplace, hkept⟩
  · exact Or.inl hkept
  · right
    rw [FileTree.locate?_join _ (mt hslash.mp hplain) hidle hdots] at hplace
    obtain ⟨above, habove, hplace⟩ := Option.bind_eq_some_iff.mp hplace
    split at hplace
    · rename_i hdirectory
      cases hplace
      exact ⟨above, habove, hdirectory, hkept⟩
    · cases hplace

end Destination

/-- A host whose identifier begins with a step up. -/
def Snapshot.hosted : Snapshot where
  vmVersion := "2020.3.1f1"
  moduleBase := 0x1000
  assemblies := [{
    image := "UnityEngine.CoreModule.dll"
    classes := [{
      «namespace» := "UnityEngine"
      name := "Application"
      methods := [
        { name := "get_identifier", returnType := "string", isStatic := true, result := "../game" },
        { name := "get_version", returnType := "string", isStatic := true, result := "1.0" },
        { name := "get_persistentDataPath", returnType := "string", isStatic := true,
          result := "data" }] }] }]

/-- The host's data directory gets nothing of the dump, and a file beside it is written over. -/
theorem Destination.stays_inside_hosted :
    let s := Session.new Snapshot.hosted.machine ⟨2020, 3, 1, some "f1"⟩ .current
    let tree : FileTree := ⟨[(["game_1.0.cs"], .file "kept".toUTF8)], []⟩
    let after := ((run {} .classes "" s : StateM FileTree _) tree).2
    Session.attach Snapshot.hosted.machine = .ok s ∧
      (∃ t, path {} .classes "" s = .ok "data/../game_1.0.cs" t) ∧
      ¬Path.IsChild "data/../game_1.0.cs" "data" "../game_1.0.cs" ∧
      after.locate? "data/../game_1.0.cs" = some ["game_1.0.cs"] ∧
      after.content? "game_1.0.cs" ≠ some "kept".toUTF8 := by
  intro s tree after
  have htarget : (Query.attempt (path {} .classes "") s).1 = .ok "data/../game_1.0.cs" := by
    decide +kernel
  have hparts : (Query.attempt (do
      let directory ← resolveDirectory {} ⟨s.notebook.next⟩
      pure (directory, ← resolveFileName {} ⟨s.notebook.next⟩ ""))
      { s with notebook := s.notebook.addPage .null }).1 = .ok ("data", "../game_1.0") := by
    decide +kernel
  cases hpath : path {} .classes "" s with
  | error e t =>
      rw [Query.attempt, hpath] at htarget
      cases htarget
  | ok target t =>
      rw [Query.attempt, hpath] at htarget
      obtain rfl : target = "data/../game_1.0.cs" := Except.ok.inj htarget
      obtain ⟨directory, name, u, hdirectory, hname, hchild, -⟩ :=
        (stays_inside {} .classes "" s).2 _ t hpath
      rw [Query.attempt, Query.bind_ok hdirectory, Query.bind_ok hname] at hparts
      obtain ⟨rfl, rfl⟩ := Prod.mk.inj (Except.ok.inj hparts)
      exact ⟨Session.attach_eq_ok.mpr ⟨_, _, by decide +kernel, rfl⟩, ⟨t, rfl⟩,
        fun h => hchild.mp h (by decide), by decide +kernel, by decide +kernel⟩

end VmMetadata
