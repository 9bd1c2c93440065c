import VmMetadata.Dump.Destination
import VmMetadata.Files.Tree

/-!
A dump in a tree of files. Main statement: once the file is there, its content is what the dump
gave up to its first error, whatever the tree was before.
-/

namespace VmMetadata

/-- Without the entries of one key, the others are found as before. -/
theorem lookup_filter_ne [BEq α] [LawfulBEq α] [DecidableEq α] (key other : α)
    (entries : List (α × β)) :
    (entries.filter (·.1 ≠ key)).lookup other =
      if other = key then none else entries.lookup other := by
  induction entries with
  | nil => exact (ite_self none).symm
  | cons p rest ih =>
      obtain ⟨k, v⟩ := p
      rw [List.lookup_cons]
      by_cases hk : k = key
      · subst hk
        rw [List.filter_cons_of_neg (by simp), ih]
        by_cases ho : other = k
        · simp only [if_pos ho]
        · simp only [if_neg ho, beq_false_of_ne ho]
      · rw [List.filter_cons_of_pos (by simpa using hk), List.lookup_cons, ih]
        by_cases ho : other = k
        · simp only [ho, if_neg hk, beq_self_eq_true]
        · simp only [beq_false_of_ne ho]

namespace FileTree

variable {t u : FileTree} {path : String} {content : ByteArray} {at_ : List String}

theorem lookup_set (h : at_ ≠ []) (e : FileEntry) (other : List String) :
    FileTree.entry? (t.set at_ e) other = if other = at_ then some e else t.entry? other := by
  unfold entry? set
  rw [List.lookup_append, lookup_filter_ne, List.lookup_cons]
  by_cases ho : other = at_
  · subst ho
    simp only [if_neg h, if_pos, beq_self_eq_true, Option.none_or]
  · simp only [if_neg ho, beq_false_of_ne ho, List.lookup_nil, Option.or_none]

/-- A file in the place of no directory is no way to anywhere else. -/
theorem locate?_set (h : ¬ t.isDirectory at_) (path : String) :
    (t.set at_ (.file content)).locate? path = t.locate? path := by
  have hroot : at_ ≠ [] := by
    rintro rfl
    exact h rfl
  have hdirectory : (t.set at_ (.file content)).isDirectory = t.isDirectory := by
    funext other
    by_cases ho : other = at_
    · subst ho
      simpa [isDirectory, lookup_set hroot] using h
    · simp [isDirectory, lookup_set hroot, ho]
  have hstep : (t.set at_ (.file content)).step? = t.step? := by
    funext start segment
    simp [step?, hdirectory]
  simp only [locate?, hstep]
  rfl

/-- Where something can be put there is no directory. -/
theorem put?_eq_some (h : t.put? path content = some u) :
    ∃ at_, t.locate? path = some at_ ∧ ¬ t.isDirectory at_ ∧ u = t.set at_ (.file content) := by
  obtain ⟨at_, hat, h⟩ := Option.bind_eq_some_iff.mp h
  refine ⟨at_, hat, ?_⟩
  unfold isDirectory
  split at h
  next => cases h
  next he =>
    rw [he]
    exact ⟨nofun, (Option.some.inj h).symm⟩
  next he =>
    rw [he]
    split at h
    · exact ⟨nofun, (Option.some.inj h).symm⟩
    · cases h

/-- What is put is there, and can be replaced. -/
theorem content?_put? (h : t.put? path content = some u) : u.content? path = some content := by
  obtain ⟨at_, hat, hd, rfl⟩ := put?_eq_some h
  have hroot : at_ ≠ [] := by
    rintro rfl
    exact hd rfl
  simp [content?, locate?_set hd, hat, lookup_set hroot]

theorem exists_put?_put? (h : t.put? path content = some u) (new : ByteArray) :
    ∃ v, u.put? path new = some v := by
  obtain ⟨at_, hat, hd, rfl⟩ := put?_eq_some h
  have hroot : at_ ≠ [] := by
    rintro rfl
    exact hd rfl
  simp [put?, locate?_set hd, hat, lookup_set hroot]

end FileTree

namespace Destination

variable {d : Destination} {kind : DumpKind} {now path : String} {s t : Session}

theorem run_of_path_error {e : Error} (h : d.path kind now s = .error e t) (tree : FileTree) :
    (d.run kind now s : StateM FileTree _) tree = ((⟨.error e, []⟩, t), tree) := by
  unfold run
  rw [h]
  rfl

/-- A file is made and filled, or there is none. -/
theorem run_of_path (h : d.path kind now s = .ok path t) (tree : FileTree) :
    (d.run kind now s : StateM FileTree _) tree =
      match (openFile path : StateM FileTree _) tree with
      | (.error e, tree) => ((⟨.error e, []⟩, t), tree)
      | (.ok (), tree) => (fillFile path kind t : StateM FileTree _) tree := by
  unfold run
  rw [h]
  change StateT.bind (openFile path) _ tree = _
  unfold StateT.bind
  change (match (openFile path : StateM FileTree _) tree with | (a, s) => _) = _
  cases (openFile path : StateM FileTree _) tree with
  | mk opened tree => cases opened <;> rfl

theorem bind_apply (x : StateM FileTree α) (f : α → StateM FileTree β) (tree : FileTree) :
    (x >>= f) tree = f (x tree).1 (x tree).2 :=
  rfl

theorem put?_of_createFile {before made : FileTree}
    (h : ((do if ← MonadFiles.createFile path then pure (.ok ()) else pure (.error (.io path))) :
      StateM FileTree (Except Error Unit)) before = (.ok (), made)) :
    before.put? path ByteArray.empty = some made := by
  have hcreate : (MonadFiles.createFile path : StateM FileTree Bool) before =
      before.update (before.put? path ByteArray.empty) := rfl
  rw [bind_apply, hcreate] at h
  cases hput : before.put? path ByteArray.empty with
  | none =>
      rw [hput] at h
      cases h
  | some u =>
      rw [hput] at h
      cases h
      rfl

/-- A file that was made was put there empty. -/
theorem put?_of_openFile {tree opened : FileTree}
    (h : (openFile path : StateM FileTree _) tree = (.ok (), opened)) :
    ∃ before : FileTree, before.put? path ByteArray.empty = some opened := by
  unfold openFile at h
  by_cases hp : (Path.parent? path).getD "" = ""
  · rw [if_pos hp] at h
    exact ⟨tree, put?_of_createFile h⟩
  · rw [if_neg hp, bind_apply] at h
    cases hparent : ((MonadFiles.createDirectories ((Path.parent? path).getD "") :
        StateM FileTree Bool) tree).1 with
    | false =>
        rw [hparent] at h
        cases h
    | true =>
        rw [hparent] at h
        exact ⟨_, put?_of_createFile h⟩

/-- What a file is filled with. -/
def written (pulled : Pulled) : ByteArray :=
  (textUntilError pulled.items).1.toUTF8

/-- What is reported of it. -/
def report (path : String) (pulled : Pulled) : DumpReport where
  result :=
    match (textUntilError pulled.items).2 with
    | some e => .error e
    | none => .ok path
  progress := pulled.progress

theorem fillFile_of_put? {tree filled : FileTree}
    (h : tree.put? path (written (pullDump kind ⟨none, true⟩ s).1) = some filled) :
    (fillFile path kind s : StateM FileTree _) tree =
      ((report path (pullDump kind ⟨none, true⟩ s).1, (pullDump kind ⟨none, true⟩ s).2),
        filled) := by
  rcases hpull : pullDump kind ⟨none, true⟩ s with ⟨pulled, u⟩
  rw [hpull] at h
  have hwrite : (MonadFiles.writeFile path (textUntilError pulled.items).1 : StateM FileTree Bool)
      tree = (true, filled) := by
    change tree.update (tree.put? path (written pulled)) = _
    rw [h]
    rfl
  simp only [fillFile, StateT.run, hpull, bind, StateT.bind, hwrite]
  rfl

/-- A file that was made is filled. -/
theorem run_of_openFile (h : d.path kind now s = .ok path t) {tree : FileTree}
    (hopen : ((openFile path : StateM FileTree _) tree).1 = .ok ()) :
    ∃ filled : FileTree,
      (d.run kind now s : StateM FileTree _) tree =
        ((report path (pullDump kind ⟨none, true⟩ t).1, (pullDump kind ⟨none, true⟩ t).2),
          filled) ∧
      filled.content? path = some (written (pullDump kind ⟨none, true⟩ t).1) := by
  have hopened : (openFile path : StateM FileTree _) tree = (.ok (), _) := Prod.ext hopen rfl
  obtain ⟨before, hput⟩ := put?_of_openFile hopened
  obtain ⟨filled, hfilled⟩ := FileTree.exists_put?_put? hput
    (written (pullDump kind ⟨none, true⟩ t).1)
  refine ⟨filled, ?_, FileTree.content?_put? hfilled⟩
  rw [run_of_path h, hopened]
  exact fillFile_of_put? hfilled

end Destination

end VmMetadata
