import Mathlib.Data.List.DropRight
import VmMetadata.Files.Tree

/-!
A directory and a name put together. Main statements: the path is a direct child of the directory
under this name just if there is no slash in the name; and it leads where the directory leads and
from there one step further.
-/

namespace VmMetadata

namespace Path

/-! ## Segments -/

theorem split_eq_splitOn (cs : List Char) : segments.split cs = cs.splitOn '/' := by
  induction cs with
  | nil => rfl
  | cons c cs ih =>
      rw [List.splitOn_eq_splitOnP] at ih ⊢
      rw [segments.split, ih, List.splitOnP_cons_eq_if_modifyHead]
      by_cases hc : c = '/'
      · rw [if_pos hc, if_pos (by simpa using hc)]
      · rw [if_neg hc, if_neg (by simpa using hc)]
        cases hsplit : List.splitOnP (fun x => x == '/') cs with
        | nil => exact absurd hsplit (List.splitOnP_ne_nil _ _)
        | cons first rest => rfl

theorem split_ne_nil (cs : List Char) : segments.split cs ≠ [] :=
  split_eq_splitOn cs ▸ List.splitOn_ne_nil _ _

theorem segments_eq (path : String) :
    segments path = (path.toList.splitOn '/').map String.ofList := by
  rw [segments, split_eq_splitOn]

theorem segments_append (a b : String) :
    segments (a ++ "/" ++ b) = segments a ++ segments b := by
  rw [segments_eq, segments_eq, segments_eq, String.toList_append, String.toList_append,
    List.append_assoc]
  change ((a.toList ++ '/' :: b.toList).splitOn '/').map _ = _
  rw [List.splitOn_append_cons_self, List.map_append]

/-- A name without a slash is one segment. -/
theorem segments_of_plain {name : String} (h : '/' ∉ name.toList) : segments name = [name] := by
  rw [segments_eq, List.splitOn_eq_singleton h]
  simp

theorem not_mem_split {cs s : List Char} (h : s ∈ segments.split cs) : '/' ∉ s := by
  induction cs generalizing s with
  | nil =>
      rw [segments.split, List.mem_singleton] at h
      simp [h]
  | cons c cs ih =>
      rw [segments.split] at h
      split at h
      · rcases List.mem_cons.mp h with rfl | h
        · exact List.not_mem_nil
        · exact ih h
      · rename_i hc
        cases hsplit : segments.split cs with
        | nil =>
            rw [hsplit] at h
            rw [List.mem_singleton.mp h]
            simpa using Ne.symm hc
        | cons first rest =>
            rw [hsplit] at h ih
            rcases List.mem_cons.mp h with rfl | h
            · exact List.not_mem_cons_of_ne_of_not_mem (Ne.symm hc) (ih List.mem_cons_self)
            · exact ih (List.mem_cons_of_mem _ h)

theorem not_mem_segment {path s : String} (h : s ∈ segments path) : '/' ∉ s.toList := by
  obtain ⟨cs, hcs, rfl⟩ := List.mem_map.mp h
  rw [String.toList_ofList]
  exact not_mem_split hcs

/-- Segments that are put together are found again. -/
theorem segments_intercalate {ss : List String} (hne : ss ≠ [])
    (hplain : ∀ s ∈ ss, '/' ∉ s.toList) : segments ("/".intercalate ss) = ss := by
  rw [segments_eq, String.toList_intercalate]
  change (List.splitOn '/' (['/'].intercalate (ss.map String.toList))).map _ = _
  rw [List.splitOn_intercalate '/' (by simpa using hplain) (by simpa using hne), List.map_map]
  simp [Function.comp_def]

theorem intercalate_segments (path : String) : "/".intercalate (segments path) = path := by
  rw [segments_eq, ← String.toList_inj, String.toList_intercalate, List.map_map]
  simp [Function.comp_def]

theorem segments_eq_singleton_iff {path : String} : segments path = [""] ↔ path = "" := by
  constructor
  · intro h
    rw [← intercalate_segments path, h]
    rfl
  · rintro rfl
    rfl

theorem segments_ne_nil (path : String) : segments path ≠ [] := by
  simp [segments, split_ne_nil]

/-- An absolute path begins with an empty segment and has another one. -/
theorem isAbsolute_iff {path : String} :
    isAbsolute path = true ↔ (segments path).head? = some "" ∧ 1 < (segments path).length := by
  rw [isAbsolute, segments]
  cases path.toList with
  | nil => simp [segments.split]
  | cons c cs =>
      have hlength : 0 < (segments.split cs).length := List.length_pos_iff.mpr (split_ne_nil cs)
      by_cases hc : c = '/'
      · simp [segments.split, hc, hlength]
      · cases hsplit : segments.split cs with
        | nil => simp [segments.split, hc, hsplit]
        | cons first rest => simp [segments.split, hc, hsplit]

/-! ## Idle segments at the end -/

/-- The segments in front of a last one that is empty, or all. A name is joined to these. -/
def stem (directory : String) : List String :=
  if (segments directory).getLast? = some "" then (segments directory).dropLast
  else segments directory

theorem getLast?_split_concat {c : Char} (hc : c ≠ '/') (cs : List Char) :
    (segments.split (cs ++ [c])).getLast? ≠ some [] := by
  induction cs with
  | nil => simp [segments.split, hc]
  | cons x cs ih =>
      rw [List.cons_append, segments.split]
      cases hsplit : segments.split (cs ++ [c]) with
      | nil => exact absurd hsplit (split_ne_nil _)
      | cons first rest =>
          rw [hsplit] at ih
          split
          · rwa [List.getLast?_cons_cons]
          · cases rest with
            | nil => simp
            | cons second rest => rwa [List.getLast?_cons_cons] at ih ⊢

/-- A path whose last segment is empty is empty itself, or ends with a slash. -/
theorem getLast?_segments {path : String} :
    (segments path).getLast? = some "" ↔ path = "" ∨ path.toList.getLast? = some '/' := by
  have hlast : (segments path).getLast? = some "" ↔
      (segments.split path.toList).getLast? = some [] := by
    rw [segments, List.getLast?_map, Option.map_eq_some_iff]
    simp
  rw [hlast, ← String.toList_eq_nil_iff]
  rcases List.eq_nil_or_concat path.toList with hnil | ⟨cs, c, hcs⟩
  · simp [hnil, segments.split]
  · rw [hcs, List.concat_eq_append]
    by_cases hc : c = '/'
    · subst hc
      rw [split_eq_splitOn, List.splitOn_append_cons_self]
      simp
    · simp [getLast?_split_concat hc cs, hc]

/-- A name without a slash becomes the last segment. -/
theorem segments_join {directory file : String} (hfile : '/' ∉ file.toList) :
    segments (join directory file) = stem directory ++ [file] := by
  have hrelative : isAbsolute file = false := by
    unfold isAbsolute
    cases hcs : file.toList with
    | nil => rfl
    | cons c cs =>
        rw [hcs] at hfile
        simpa using Ne.symm (List.ne_of_not_mem_cons hfile)
  unfold join stem
  rw [hrelative, if_neg (by decide)]
  by_cases hlast : (segments directory).getLast? = some ""
  · have hend := getLast?_segments.mp hlast
    rw [if_pos hend, if_pos hlast]
    rcases hend with rfl | hslash
    · rw [String.empty_append, segments_of_plain hfile]
      rfl
    · -- the slash at the end is the one in front of the name
      obtain ⟨cs, hcs⟩ := List.getLast?_eq_some_iff.mp hslash
      have hdirectory : directory = String.ofList cs ++ "/" ++ "" := by
        rw [← String.toList_inj, String.append_empty, String.toList_append, String.toList_ofList]
        exact hcs
      rw [hdirectory, segments_append, String.append_empty, segments_append,
        segments_of_plain hfile]
      simp [segments, segments.split]
  · rw [if_neg (mt getLast?_segments.mpr hlast), if_neg hlast, segments_append,
      segments_of_plain hfile]

/-- The segments of a directory are those a name is joined to, and maybe an empty one. -/
theorem segments_cases (directory : String) :
    segments directory = stem directory ∨ segments directory = stem directory ++ [""] := by
  unfold stem
  split
  · rename_i hlast
    right
    obtain ⟨front, hfront⟩ := List.getLast?_eq_some_iff.mp hlast
    rw [hfront, List.dropLast_concat]
  · exact Or.inl rfl

theorem stem_eq_nil_iff {directory : String} : stem directory = [] ↔ directory = "" := by
  constructor
  · intro hnil
    rcases segments_cases directory with hsegments | hsegments
    · exact absurd (hsegments.trans hnil) (segments_ne_nil directory)
    · rw [hnil] at hsegments
      exact segments_eq_singleton_iff.mp hsegments
  · rintro rfl
    rfl

/-! ## Parents -/

theorem trimmedEnd_cons {segment : String} (h : isIdle segment = false) (rest : List String) :
    trimmedEnd (segment :: rest) = segment :: rest := by
  rw [trimmedEnd, List.dropWhile_cons_of_neg (by simp [h])]

theorem trimmedEnd_trimmedEnd (segments : List String) :
    trimmedEnd (trimmedEnd segments) = trimmedEnd segments :=
  List.dropWhile_idempotent isIdle segments

theorem mem_segments_of_mem_significant {path segment : String} (h : segment ∈ significant path) :
    segment ∈ segments path := by
  unfold significant at h
  split at h
  · cases h
  · rename_i first rest hsegments
    rw [hsegments]
    rcases List.mem_cons.mp h with rfl | h
    · exact List.mem_cons_self
    · refine List.mem_cons_of_mem _ (List.mem_reverse.mp ?_)
      exact (List.dropWhile_sublist _).mem (List.mem_reverse.mp h)

/-- Where a name can be joined to a directory, the segments of the directory that count. -/
theorem significant_of_stem {directory first : String} {rest : List String}
    (h : stem directory = first :: rest) :
    significant directory = first :: (trimmedEnd rest.reverse).reverse := by
  unfold significant
  rcases segments_cases directory with hsegments | hsegments
  · rw [hsegments, h]
  · rw [hsegments, h, List.cons_append]
    simp [trimmedEnd, isIdle]

/-- Idle segments at the end count for nothing, a name that is not idle does. -/
theorem significant_join {directory file : String} (hfile : '/' ∉ file.toList)
    (hidle : isIdle file = false) :
    significant (join directory file) = stem directory ++ [file] := by
  unfold significant
  rw [segments_join hfile]
  cases stem directory with
  | nil => rfl
  | cons first rest => simp [trimmedEnd_cons hidle]

/-- The paths are the same but for idle segments at the end. -/
def Same (path other : String) : Prop :=
  isAbsolute path = isAbsolute other ∧ significant path = significant other

theorem Same.refl (path : String) : Same path path :=
  ⟨rfl, rfl⟩

theorem segments_ofSegments {ss : List String} (hne : ss ≠ []) (hroot : ss ≠ [""])
    (hplain : ∀ s ∈ ss, '/' ∉ s.toList) : segments (ofSegments ss) = ss := by
  unfold ofSegments
  split
  · exact absurd rfl hroot
  · exact segments_intercalate hne hplain

/-- Where a name can be joined to a directory, the first segment says whether it is absolute. -/
theorem isAbsolute_of_stem {directory first : String} {rest : List String}
    (h : stem directory = first :: rest) : isAbsolute directory = true ↔ first = "" := by
  have hhead : (segments directory).head? = some first := by
    rcases segments_cases directory with hsegments | hsegments <;> simp [hsegments, h]
  rw [isAbsolute_iff, hhead, Option.some_inj]
  refine and_iff_left_of_imp fun hfirst => ?_
  rcases hsegments : segments directory with _ | ⟨segment, _ | ⟨second, others⟩⟩
  · exact absurd hsegments (segments_ne_nil directory)
  · rw [hsegments] at hhead
    cases hhead
    rw [stem_eq_nil_iff.mpr (segments_eq_singleton_iff.mp (hfirst ▸ hsegments))] at h
    cases h
  · simp

/-- Without the segments that count for nothing a path is the same. -/
theorem same_ofSegments {directory : String} (hne : directory ≠ "") :
    Same (ofSegments (significant directory)) directory := by
  obtain ⟨first, rest, hstem⟩ := List.exists_cons_of_ne_nil (mt stem_eq_nil_iff.mp hne)
  have hsignificant := significant_of_stem hstem
  have habsolute := isAbsolute_of_stem hstem
  by_cases hroot : significant directory = [""]
  · rw [hroot]
    rw [hroot] at hsignificant
    obtain rfl : "" = first := (List.cons.inj hsignificant).1
    exact ⟨(habsolute.mpr rfl).symm, hroot.symm⟩
  · have hsegments : segments (ofSegments (significant directory)) = significant directory :=
      segments_ofSegments (by simp [hsignificant]) hroot fun s hs =>
        not_mem_segment (mem_segments_of_mem_significant hs)
    constructor
    · rw [Bool.eq_iff_iff, habsolute, isAbsolute_iff, hsegments, hsignificant]
      refine ⟨fun h => Option.some.inj h.1, fun hfirst => ⟨congrArg some hfirst, ?_⟩⟩
      rw [hsignificant, hfirst] at hroot
      rw [List.length_cons, Nat.lt_add_left_iff_pos, List.length_pos_iff]
      exact fun hnil => hroot (congrArg (List.cons "") hnil)
    · generalize ofSegments (significant directory) = p at hsegments
      rw [significant, hsegments, hsignificant]
      simp [trimmedEnd_trimmedEnd]

theorem parent?_join {directory file : String} (hfile : '/' ∉ file.toList)
    (hidle : isIdle file = false) :
    parent? (join directory file) =
      some (if directory = "" then "" else ofSegments (significant directory)) := by
  unfold parent?
  rw [significant_join hfile hidle]
  cases hstem : stem directory with
  | nil =>
      have hne : file ≠ "" := by
        rintro rfl
        cases hidle
      rw [if_pos (stem_eq_nil_iff.mp hstem)]
      exact if_neg hne
  | cons first rest =>
      have hne : directory ≠ "" := by
        rintro rfl
        cases hstem
      rw [if_neg hne, significant_of_stem hstem]
      obtain ⟨second, others, hrest⟩ := List.exists_cons_of_ne_nil (List.concat_ne_nil file rest)
      rw [List.cons_append, hrest]
      simp only
      rw [← hrest, List.reverse_concat, List.tail_cons]

theorem fileName?_join {directory file : String} (hfile : '/' ∉ file.toList)
    (hidle : isIdle file = false) (hdots : file ≠ "..") :
    fileName? (join directory file) = some file := by
  simp [fileName?, significant_join hfile hidle, hidle, hdots]

/-- The last component of a path has no slash in it. -/
theorem not_mem_fileName? {path name : String} (h : fileName? path = some name) :
    '/' ∉ name.toList := by
  unfold fileName? at h
  split at h
  · rename_i last hlast
    split at h
    · cases h
    · cases h
      exact not_mem_segment (mem_segments_of_mem_significant (List.mem_of_getLast? hlast))
  · cases h

/-- The path has the directory as its parent and the name as its last component. -/
def IsChild (path directory name : String) : Prop :=
  (∃ parent, parent? path = some parent ∧ Same parent directory) ∧ fileName? path = some name

/-- What a name is joined to is its parent just if there is no slash in the name. -/
theorem isChild_join_iff {directory file : String} (hidle : isIdle file = false)
    (hdots : file ≠ "..") : IsChild (join directory file) directory file ↔ '/' ∉ file.toList := by
  constructor
  · exact fun h => not_mem_fileName? h.2
  · intro hfile
    refine ⟨⟨_, parent?_join hfile hidle, ?_⟩, fileName?_join hfile hidle hdots⟩
    by_cases hempty : directory = ""
    · rw [if_pos hempty, hempty]
      exact .refl ""
    · rw [if_neg hempty]
      exact same_ofSegments hempty

theorem isAbsolute_join {directory file : String} (hfile : '/' ∉ file.toList) :
    isAbsolute (join directory file) = isAbsolute directory := by
  rw [Bool.eq_iff_iff, isAbsolute_iff, segments_join hfile]
  cases hstem : stem directory with
  | nil =>
      rw [stem_eq_nil_iff.mp hstem]
      simp [isAbsolute]
  | cons first rest => simp [isAbsolute_of_stem hstem]

end Path

/-! ## Places -/

namespace FileTree

/-- Where a directory leads; the empty one is the working directory. -/
def place? (t : FileTree) (directory : String) : Option (List String) :=
  if directory = "" then some t.home else t.locate? directory

/-- A name in a directory is one step further. -/
theorem locate?_join (t : FileTree) {directory file : String} (hfile : '/' ∉ file.toList)
    (hidle : Path.isIdle file = false) (hdots : file ≠ "..") :
    t.locate? (Path.join directory file) = (t.place? directory).bind fun above =>
      if t.isDirectory above then some (above ++ [file]) else none := by
  have hstep : (t.step? · file) = fun above =>
      if t.isDirectory above then some (above ++ [file]) else none := by
    funext above
    simp [step?, hidle, hdots]
  have hne : Path.join directory file ≠ "" := by
    intro hempty
    have hsegments : Path.segments (Path.join directory file) = Path.stem directory ++ [file] :=
      Path.segments_join hfile
    rw [hempty, Path.segments_eq_singleton_iff.mpr rfl, List.singleton_eq_append_iff] at hsegments
    rcases hsegments with ⟨-, hname⟩ | ⟨-, hname⟩
    · cases hname
      cases hidle
    · cases hname
  rw [locate?, if_neg hne, Path.isAbsolute_join hfile, Path.segments_join hfile,
    List.foldlM_append, ← hstep]
  have hplace : (t.place? directory).bind (t.step? · file) =
      ((Path.stem directory).foldlM t.step?
        (if Path.isAbsolute directory then [] else t.home)).bind (t.step? · file) := by
    by_cases hempty : directory = ""
    · rw [place?, if_pos hempty, hempty]
      rfl
    · rw [place?, if_neg hempty, locate?, if_neg hempty]
      rcases Path.segments_cases directory with hsegments | hsegments
      · rw [hsegments]
      · -- an empty segment at the end asks for a directory, as the name does
        rw [hsegments, List.foldlM_append]
        cases (Path.stem directory).foldlM t.step?
            (if Path.isAbsolute directory then [] else t.home) with
        | none => rfl
        | some above =>
            by_cases hdirectory : t.isDirectory above <;>
              simp [step?, hdirectory, Path.isIdle]
  rw [hplace]
  simp [Option.bind_eq_bind]

end FileTree

end VmMetadata
