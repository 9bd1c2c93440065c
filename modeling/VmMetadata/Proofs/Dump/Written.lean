import VmMetadata.Proofs.Dump.Files
import VmMetadata.Proofs.Dump.Stops

/-!
What a written dump leaves on disk. A dump makes the directories above its file and the file, and
touches no other file. Main statement: a dump whose path cannot be found out changes nothing, one
whose file cannot be made changes no file, and any other one fills the file with what it gave up to
its first error and reads nothing behind it.
-/

namespace VmMetadata

namespace FileTree

variable {t u v : FileTree} {places : List (List String)} {path : String}

/-- The working directory is the same, and outside these places whatever there was is there still.
At most there is a new directory where there was nothing. -/
structure KeepsBut (t u : FileTree) (places : List (List String)) : Prop where
  home : u.home = t.home
  entry : ∀ at_, at_ ∉ places → u.entry? at_ = t.entry? at_ ∨
    t.entry? at_ = none ∧ u.entry? at_ = some .directory

namespace KeepsBut

theorem refl (t : FileTree) : t.KeepsBut t places :=
  ⟨rfl, fun _ _ => Or.inl rfl⟩

theorem trans (h : t.KeepsBut u places) (k : u.KeepsBut v places) : t.KeepsBut v places := by
  refine ⟨k.home.trans h.home, ?_⟩
  intro at_ hat
  rcases k.entry at_ hat with k | ⟨knone, kdirectory⟩
  · rcases h.entry at_ hat with h | ⟨hnone, hdirectory⟩
    · exact Or.inl (k.trans h)
    · exact Or.inr ⟨hnone, k.trans hdirectory⟩
  · rcases h.entry at_ hat with h | ⟨_, hdirectory⟩
    · exact Or.inr ⟨h ▸ knone, kdirectory⟩
    · rw [hdirectory] at knone
      cases knone

theorem weaken (h : t.KeepsBut u []) : t.KeepsBut u places :=
  ⟨h.home, fun at_ _ => h.entry at_ List.not_mem_nil⟩

/-- A file that was there is there, and no file is there that was not. -/
theorem file_iff (h : t.KeepsBut u places) {at_ : List String} (hat : at_ ∉ places)
    (content : ByteArray) :
    u.entry? at_ = some (.file content) ↔ t.entry? at_ = some (.file content) := by
  rcases h.entry at_ hat with h | ⟨hnone, hdirectory⟩
  · rw [h]
  · rw [hnone, hdirectory]
    constructor <;> intro hfile <;> cases hfile

theorem set {place : List String} (hplace : place ≠ []) (e : FileEntry) :
    t.KeepsBut (t.set place e) [place] := by
  refine ⟨rfl, ?_⟩
  intro at_ hat
  rw [List.mem_singleton] at hat
  left
  rw [lookup_set hplace, if_neg hat]

/-- A directory that is made where there was nothing is no loss. -/
theorem set_directory {place : List String} (hplace : t.entry? place = none) :
    t.KeepsBut (t.set place .directory) [] := by
  have hroot : place ≠ [] := by
    rintro rfl
    cases hplace
  refine ⟨rfl, ?_⟩
  intro at_ _
  rw [lookup_set hroot]
  by_cases hat : at_ = place
  · subst hat
    exact Or.inr ⟨hplace, if_pos rfl⟩
  · exact Or.inl (if_neg hat)

end KeepsBut

theorem createDirectory?_keeps (h : t.createDirectory? path = some u) : t.KeepsBut u [] := by
  obtain ⟨place, _, h⟩ := Option.bind_eq_some_iff.mp h
  split at h
  next =>
    cases h
    exact .refl t
  next => cases h
  next hnone =>
    split at h
    · cases h
      exact .set_directory hnone
    · cases h

theorem createAll_keeps (paths : List String) (t : FileTree) :
    t.KeepsBut (t.createAll paths).1 [] := by
  induction paths generalizing t with
  | nil => exact .refl t
  | cons path paths ih =>
      rw [createAll]
      cases hmade : t.createDirectory? path with
      | none => exact .refl t
      | some u => exact (createDirectory?_keeps hmade).trans (ih u)

theorem createDirectories_keeps (t : FileTree) (path : String) :
    t.KeepsBut (t.createDirectories path).1 [] := by
  unfold createDirectories
  split
  · exact .refl t
  · exact createAll_keeps _ t

/-- The tree with an empty file at the path and the directories above it; or the path that cannot
be made, and the tree with the directories that could. -/
def open? (t : FileTree) (path : String) : Except (String × FileTree) FileTree :=
  let parent := (Path.parent? path).getD ""
  match if parent = "" then (t, true) else t.createDirectories parent with
  | (made, false) => .error (parent, made)
  | (made, true) =>
      match made.put? path ByteArray.empty with
      | some opened => .ok opened
      | none => .error (path, made)

theorem parents_keep (t : FileTree) (parent : String) :
    t.KeepsBut (if parent = "" then (t, true) else t.createDirectories parent).1 [] := by
  split
  · exact .refl t
  · exact createDirectories_keeps t parent

/-- Where no file can be made, all files are as they were. -/
theorem keeps_of_open?_error {place : String} (h : t.open? path = .error (place, u)) :
    t.KeepsBut u [] := by
  have hparents := parents_keep t ((Path.parent? path).getD "")
  unfold open? at h
  dsimp only at h
  split at h
  · rename_i hmade
    cases h
    rwa [hmade] at hparents
  · rename_i hmade
    split at h
    · cases h
    · cases h
      rwa [hmade] at hparents

/-- Where a file is made, it was put into a tree in which all files are as they were. -/
theorem put?_of_open?_ok (h : t.open? path = .ok u) :
    ∃ made : FileTree, made.put? path ByteArray.empty = some u ∧ t.KeepsBut made [] := by
  have hparents := parents_keep t ((Path.parent? path).getD "")
  unfold open? at h
  dsimp only at h
  split at h
  · cases h
  · rename_i hmade
    split at h
    · rename_i hput
      cases h
      rw [hmade] at hparents
      exact ⟨_, hput, hparents⟩
    · cases h

/-- Something that is put in the place of a file lies where that lay, and all else is kept. -/
theorem put?_put? {first : ByteArray} (h : t.put? path first = some u) (content : ByteArray) :
    ∃ (v : FileTree) (place : List String), u.put? path content = some v ∧
      v.locate? path = some place ∧ v.entry? place = some (.file content) ∧
        t.KeepsBut v [place] := by
  obtain ⟨v, hv⟩ := exists_put?_put? h content
  obtain ⟨place, hplace, hdirectory, rfl⟩ := put?_eq_some h
  obtain ⟨place', hplace', hdirectory', rfl⟩ := put?_eq_some hv
  have hroot : place ≠ [] := by
    rintro rfl
    exact hdirectory rfl
  rw [locate?_set hdirectory, hplace] at hplace'
  cases hplace'
  refine ⟨_, place, hv, ?_, ?_, ?_⟩
  · rw [locate?_set hdirectory', locate?_set hdirectory, hplace]
  · rw [lookup_set hroot, if_pos rfl]
  · exact (KeepsBut.set hroot _).trans (.set hroot _)

end FileTree

theorem textUntilError_chunks (chunks : List String) (rest : List DumpItem) :
    textUntilError (chunks.map .ok ++ rest) =
      (String.join chunks ++ (textUntilError rest).1, (textUntilError rest).2) := by
  induction chunks with
  | nil => simp [String.join_nil]
  | cons chunk chunks ih =>
      rw [List.map_cons, List.cons_append, textUntilError, ih, String.join_cons,
        String.append_assoc]

namespace Pulled

theorem progress_append_item (before : List DumpEvent) (item : DumpItem) (p : Option Patience) :
    (⟨before ++ [.item item], p⟩ : Pulled).progress = (⟨before, none⟩ : Pulled).progress := by
  unfold progress
  rw [List.filterMap_append]
  exact List.append_nil _

end Pulled

namespace Destination

variable {d : Destination} {kind : DumpKind} {now path : String} {s t : Session}

theorem openFile_eq (path : String) (tree : FileTree) :
    (openFile path : StateM FileTree _) tree = match tree.open? path with
      | .ok opened => (.ok (), opened)
      | .error (place, made) => (.error (.io place), made) := by
  have hcreate : ∀ before : FileTree, ((do
      if ← MonadFiles.createFile path then pure (.ok ()) else pure (.error (.io path))) :
        StateM FileTree (Except Error Unit)) before =
      match before.put? path ByteArray.empty with
      | some opened => (.ok (), opened)
      | none => (.error (.io path), before) := by
    intro before
    have hcreate : (MonadFiles.createFile path : StateM FileTree Bool) before =
        before.update (before.put? path ByteArray.empty) := rfl
    rw [bind_apply, hcreate]
    cases before.put? path ByteArray.empty <;> rfl
  unfold openFile FileTree.open?
  by_cases hparent : (Path.parent? path).getD "" = ""
  · simp only [if_pos hparent]
    refine (hcreate tree).trans ?_
    cases tree.put? path ByteArray.empty <;> rfl
  · simp only [if_neg hparent]
    rw [bind_apply]
    have hmake : (MonadFiles.createDirectories ((Path.parent? path).getD "") :
        StateM FileTree Bool) tree =
          (tree.createDirectories ((Path.parent? path).getD "")).swap := rfl
    rw [hmake]
    rcases tree.createDirectories ((Path.parent? path).getD "") with ⟨made, isMade⟩
    cases isMade with
    | false => rfl
    | true =>
        refine (hcreate made).trans ?_
        simp only
        cases made.put? path ByteArray.empty <;> rfl

/-- In any session and on any tree. If the path cannot be found out, that is the outcome and the
tree stays as it is. If a directory or the file cannot be made, that is the outcome, all files are
as they were and nothing is pulled. Otherwise the file consists of the chunks in front of the first
error, whatever it was before, and all else is kept; the outcome is the path if there is no error
and that error if there is one, with the notices in front of it. The session is that of one who
pulls as many items as there are up to the error, or all. -/
theorem run_leaves (d : Destination) (kind : DumpKind) (now : String) (s : Session)
    (tree : FileTree) :
    (∀ e t, d.path kind now s = .error e t →
      (d.run kind now s : StateM FileTree _) tree = ((⟨.error e, []⟩, t), tree)) ∧
    ∀ path t, d.path kind now s = .ok path t →
      (∀ place made, tree.open? path = .error (place, made) →
        tree.KeepsBut made [] ∧
          (d.run kind now s : StateM FileTree _) tree = ((⟨.error (.io place), []⟩, t), made)) ∧
      ∀ opened, tree.open? path = .ok opened →
        ∃ (chunks : List String) (before after : List DumpEvent) (filled : FileTree)
            (place : List String),
          (pullDump kind .endless t).1.events = before ++ after ∧
          (⟨before, none⟩ : Pulled).items = chunks.map .ok ∧
          filled.locate? path = some place ∧
          filled.entry? place = some (.file (String.join chunks).toUTF8) ∧
          tree.KeepsBut filled [place] ∧
          ((after = [] ∧ (d.run kind now s : StateM FileTree _) tree =
              ((⟨.ok path, (⟨before, none⟩ : Pulled).progress⟩,
                (pullDump kind .endless t).2), filled)) ∨
            ∃ e rest, after = .item (.error e) :: rest ∧
              (d.run kind now s : StateM FileTree _) tree =
                ((⟨.error e, (⟨before, none⟩ : Pulled).progress⟩,
                  (pullDump kind (.atMost (chunks.length + 1)) t).2), filled)) := by
  refine ⟨fun e t h => run_of_path_error h tree, fun path t hpath => ⟨?_, ?_⟩⟩
  · intro place made hopen
    refine ⟨FileTree.keeps_of_open?_error hopen, ?_⟩
    rw [run_of_path hpath, openFile_eq, hopen]
  · intro opened hopen
    obtain ⟨chunks, before, after, hevents, hchunks, hpulled⟩ := pullDump_toFirstError kind t
    obtain ⟨made, hmade, hkept⟩ := FileTree.put?_of_open?_ok hopen
    obtain ⟨filled, place, hput, hplace, hfile, hrest⟩ :=
      FileTree.put?_put? hmade (String.join chunks).toUTF8
    refine ⟨chunks, before, after, filled, place, hevents, hchunks, hplace, hfile,
      hkept.weaken.trans hrest, ?_⟩
    have hrun : ∀ pulled u, pullDump kind .toFirstError t = (pulled, u) →
        (textUntilError pulled.items).1 = String.join chunks →
        (d.run kind now s : StateM FileTree _) tree = ((report path pulled, u), filled) := by
      intro pulled u hpull htext
      have hwritten : written (pullDump kind ⟨none, true⟩ t).1 = (String.join chunks).toUTF8 := by
        change written (pullDump kind .toFirstError t).1 = _
        rw [hpull, ← htext]
        rfl
      rw [run_of_path hpath, openFile_eq, hopen]
      refine (fillFile_of_put? (hwritten ▸ hput)).trans ?_
      change ((report path (pullDump kind .toFirstError t).1,
        (pullDump kind .toFirstError t).2), filled) = _
      rw [hpull]
    rcases hpulled with ⟨rfl, hpull⟩ | ⟨e, rest, rfl, hpull⟩
    · have htext := textUntilError_chunks chunks []
      rw [List.append_nil, ← hchunks, textUntilError, String.append_empty] at htext
      refine Or.inl ⟨rfl, ?_⟩
      have hitems : (⟨before, some .toFirstError⟩ : Pulled).items =
          (⟨before, none⟩ : Pulled).items := rfl
      rw [hrun _ _ hpull (by rw [hitems, htext]), report, hitems, htext]
      rfl
    · have htext := textUntilError_chunks chunks [.error e]
      rw [textUntilError, String.append_empty, ← hchunks] at htext
      refine Or.inr ⟨e, rest, rfl, ?_⟩
      have hitems := Pulled.items_append before ⟨[.item (.error e)], none⟩
      have hlast : (⟨[.item (.error e)], none⟩ : Pulled).items = [.error e] := rfl
      rw [hlast] at hitems
      rw [hrun _ _ hpull (by rw [hitems, htext]), report, hitems, htext,
        Pulled.progress_append_item]

theorem map_some_ne (chunks : List String) {text : String} {rest : List (Option String)} :
    chunks.map some ++ [] ≠ some text :: none :: rest := by
  intro h
  have hnone : none ∈ chunks.map some ++ [] := by
    rw [h]
    exact List.mem_cons_of_mem _ List.mem_cons_self
  simp at hnone

theorem eq_singleton_of_map_some {chunks : List String} {text : String}
    {rest others : List (Option String)}
    (h : chunks.map some ++ none :: others = some text :: none :: rest) : chunks = [text] := by
  match chunks, h with
  | [chunk], h =>
      have hchunk : some chunk = some text := (List.cons.inj h).1
      rw [Option.some.inj hchunk]

/-- The parent of the second class cannot be read. So the first one is written, in the place of what
was in the file, and nothing else changes. A dump into a directory that is a file changes nothing,
nor does one for which the host cannot be asked for the directory. -/
theorem run_leaves_small :
    let lost (entry : String) (passing : Nat) : Session :=
      let s := Session.new Snapshot.small.machine ⟨2020, 3, 1, some "f1"⟩ .current
      { s with probe := s.probe.setFault entry ⟨passing, none, .fails "lost"⟩ }
    let tree : FileTree :=
      ⟨[(["note"], .file "kept".toUTF8), (["small.cs"], .file "old".toUTF8)], []⟩
    (∃ e u filled,
      (run ⟨some "", some "small"⟩ .classes "" (lost "class_parent" 1) : StateM FileTree _) tree =
        ((⟨.error e, ["Game", "mscorlib"]⟩, u), filled) ∧
      filled.content? "small.cs" =
        some "// Game.dll\nclass Pool<T>\n\x7b\n    T Get();\n\x7d\n\n".toUTF8 ∧
      filled.content? "note" = some "kept".toUTF8) ∧
    (∃ u, (run ⟨some "note", some "small"⟩ .classes "" (lost "class_parent" 1) :
      StateM FileTree _) tree = ((⟨.error (.io "note"), []⟩, u), tree)) ∧
    ∃ e u, (run ⟨none, some "small"⟩ .classes "" (lost "domain_get" 0) : StateM FileTree _) tree =
      ((⟨.error e, []⟩, u), tree) := by
  intro lost tree
  have hpath (directory path : String)
      (h : Path.join directory ("small" ++ "." ++ DumpKind.classes.extension) = path)
      (s : Session) : Destination.path ⟨some directory, some "small"⟩ .classes "" s =
        .ok path { s with notebook := s.notebook.addPage .null } := by
    rw [← h]
    rfl
  refine ⟨?_, ?_, ?_⟩
  · have hfile := hpath "" "small.cs" (by decide +kernel) (lost "class_parent" 1)
    have hopen : tree.open? "small.cs" = .ok (tree.set ["small.cs"] (.file .empty)) := rfl
    obtain ⟨chunks, before, after, filled, place, hevents, hchunks, hplace, hfilled, hkept, hrun⟩ :=
      ((run_leaves ⟨some "", some "small"⟩ .classes "" (lost "class_parent" 1) tree).2 _ _
        hfile).2 _ hopen
    have hroot : filled.isDirectory [] = true := rfl
    have hlocate (name : String) (hname : Path.isAbsolute name = false) (hempty : name ≠ "")
        (hsegments : Path.segments name = [name]) (hidle : Path.isIdle name = false)
        (hdots : name ≠ "..") : filled.locate? name = some [name] := by
      simp [FileTree.locate?, hempty, hname, hkept.home, tree, hsegments, FileTree.step?, hroot,
        hidle, hdots]
    have hsmall := hlocate "small.cs" (by decide) (by decide) (by decide +kernel) (by decide)
      (by decide)
    have hnote := hlocate "note" (by decide) (by decide) (by decide +kernel) (by decide) (by decide)
    rw [hsmall] at hplace
    cases hplace
    have hother : ["note"] ∉ [["small.cs"]] := by decide
    have hkeptNote := (hkept.file_iff hother "kept".toUTF8).mpr rfl
    have hcontent {name : String} {bytes : ByteArray} (hname : filled.locate? name = some [name])
        (hbytes : filled.entry? [name] = some (.file bytes)) :
        filled.content? name = some bytes := by
      simp [FileTree.content?, hname, hbytes]
    have hprogress : ((run ⟨some "", some "small"⟩ .classes "" (lost "class_parent" 1) :
        StateM FileTree _) tree).1.1.progress = ["Game", "mscorlib"] := by
      decide +kernel
    have hitems : (pullDump .classes .endless { lost "class_parent" 1 with
          notebook := (lost "class_parent" 1).notebook.addPage .null }).1.items.map
        Except.toOption =
          [some "// Game.dll\nclass Pool<T>\n\x7b\n    T Get();\n\x7d\n\n", none, none] := by
      decide +kernel
    have hsplit (pulled : Pulled) (h : pulled.events = before ++ after) :
        pulled.items = chunks.map .ok ++ (⟨after, none⟩ : Pulled).items := by
      rw [← hchunks, Pulled.items, h]
      exact List.filterMap_append ..
    rw [hsplit _ hevents, List.map_append, List.map_map] at hitems
    rcases hrun with ⟨rfl, _⟩ | ⟨e, rest, rfl, hrun⟩
    · exact absurd hitems (map_some_ne chunks)
    · rw [hrun] at hprogress
      change (⟨before, none⟩ : Pulled).progress = _ at hprogress
      rw [hprogress] at hrun
      refine ⟨e, _, filled, hrun, ?_, hcontent hnote hkeptNote⟩
      rw [hcontent hsmall hfilled, eq_singleton_of_map_some hitems]
      rfl
  · have hfile := hpath "note" "note/small.cs" (by decide +kernel) (lost "class_parent" 1)
    have hopen : tree.open? "note/small.cs" = .error ("note", tree) := rfl
    exact ⟨_, (((run_leaves ⟨some "note", some "small"⟩ .classes "" (lost "class_parent" 1) tree).2
      _ _ hfile).1 _ _ hopen).2⟩
  · cases hlost : Destination.path ⟨none, some "small"⟩ .classes "" (lost "domain_get" 0) with
    | ok path u => cases hlost
    | error e u =>
        exact ⟨e, u, (run_leaves ⟨none, some "small"⟩ .classes "" (lost "domain_get" 0) tree).1 e u
          hlost⟩

end Destination

end VmMetadata
