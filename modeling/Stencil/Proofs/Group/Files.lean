import Mathlib.Data.List.Sort
import Mathlib.Data.List.TakeWhile
import Stencil.Group.FileTree
import Stencil.Proofs.Agreement

/-!
# The files of a directory

A directory is given as what a reader of it sees: the names of the files directly inside, sorted, each with its
text (`FileTree.Holds`). The names are found in this order (`Holds.filesIn?`), whatever order the tree has its
entries in, and the path that a name has from the directory on leads to its text (`Holds.read`), whether the
path of the directory is empty, ends with a slash or does not.
-/

namespace Stencil

namespace FileTree

/-! ## Names and paths -/

/-- A name is that of a file: one part of a path, and none of those that lead to where they start or back up. -/
structure IsFileName (name : String) : Prop where
  moves : stays name = false
  ne_up : name ≠ up
  no_slash : '/' ∉ name.toList
  no_zero : '\x00' ∉ name.toList
  short : name.utf8ByteSize ≤ nameLimit

instance (name : String) : Decidable (IsFileName name) :=
  decidable_of_iff (stays name = false ∧ name ≠ up ∧ '/' ∉ name.toList ∧ '\x00' ∉ name.toList ∧
      name.utf8ByteSize ≤ nameLimit)
    ⟨fun h => ⟨h.1, h.2.1, h.2.2.1, h.2.2.2.1, h.2.2.2.2⟩,
      fun h => ⟨h.moves, h.ne_up, h.no_slash, h.no_zero, h.short⟩⟩

/-- The stem and the extension of a name are what stands before and behind its last period. -/
theorem splitExtension_eq_iff {name stem extension : String} :
    splitExtension name = (stem, some extension) ↔
      name = stem ++ "." ++ extension ∧ stem ≠ "" ∧ '.' ∉ extension.toList := by
  constructor
  · have hcut := List.takeWhile_append_dropWhile (p := (· != '.')) (l := name.toList.reverse)
    have hbehind : ∀ c ∈ name.toList.reverse.takeWhile (· != '.'), c ≠ '.' :=
      fun c hc => by simpa using List.mem_takeWhile_imp hc
    unfold splitExtension
    dsimp only
    generalize name.toList.reverse.takeWhile (· != '.') = behind at hcut hbehind ⊢
    split
    · next before hdrop =>
      rw [hdrop] at hcut
      split
      · exact fun h => nomatch h
      · next hbefore =>
        intro h
        cases h
        refine ⟨?_, ?_, ?_⟩
        · rw [← String.ofList_toList (s := name), ← List.reverse_reverse name.toList, ← hcut]
          simp [String.append_assoc]
        · simpa using hbefore
        · simpa using fun h => hbehind _ h rfl
    · exact fun h => nomatch h
  · rintro ⟨rfl, hstem, hextension⟩
    have hreverse : (stem ++ "." ++ extension).toList.reverse =
        extension.toList.reverse ++ '.' :: stem.toList.reverse := by
      simp
    have hbehind : ∀ c ∈ extension.toList.reverse, (c != '.') = true := by
      intro c hc
      simpa using fun h : c = '.' => hextension (h ▸ List.mem_reverse.1 hc)
    have hbefore : stem.toList.reverse.isEmpty = false := by simpa using hstem
    rw [splitExtension, hreverse, List.dropWhile_append_of_pos hbehind, List.takeWhile_append_of_pos hbehind]
    simp [hbefore]

theorem parts_append_slash (a b : String) : parts (a ++ "/" ++ b) = parts a ++ parts b := by
  have hchars : (a ++ "/" ++ b).toList = a.toList ++ '/' :: b.toList := by
    rw [String.toList_append, String.toList_append, List.append_assoc]
    rfl
  rw [parts, hchars, List.splitOn_append_cons_self, List.map_append]
  rfl

theorem parts_of_no_slash {name : String} (h : '/' ∉ name.toList) : parts name = [name] := by
  rw [parts, List.splitOn_eq_singleton h, List.map_singleton, String.ofList_toList]

theorem isAbsolute_iff {path : String} : isAbsolute path = true ↔ ['/'] <+: path.toList :=
  String.startsWith_string_iff

/-- What a name adds to the path of its directory. -/
theorem join_cases (path name : String) :
    (path = "" ∧ join path name = name) ∨
    (∃ before, path = before ++ "/" ∧ join path name = before ++ "/" ++ name) ∨
    (path ≠ "" ∧ join path name = path ++ "/" ++ name) := by
  by_cases hempty : path.isEmpty
  · have hpath : path = "" := String.isEmpty_iff.1 hempty
    exact .inl ⟨hpath, by rw [join, hempty, Bool.true_or, if_pos rfl, hpath, String.empty_append]⟩
  · by_cases hend : path.endsWith "/"
    · have hsuffix : ['/'] <:+ path.toList := by
        rw [String.endsWith_eq_endsWith_toSlice, String.Slice.endsWith_string_iff] at hend
        simpa using hend
      obtain ⟨before, hbefore⟩ := hsuffix
      have hpath : path = String.ofList before ++ "/" := by
        rw [← String.ofList_toList (s := path), ← hbefore, String.ofList_append]
      refine .inr (.inl ⟨String.ofList before, hpath, ?_⟩)
      rw [join, hend, Bool.or_true, if_pos rfl, ← hpath]
    · refine .inr (.inr ⟨fun h => hempty (String.isEmpty_iff.2 h), ?_⟩)
      rw [join, Bool.eq_false_iff.2 hempty, Bool.eq_false_iff.2 hend]
      rfl

theorem isAbsolute_append {a : String} (h : a ≠ "") (b : String) : isAbsolute (a ++ b) = isAbsolute a := by
  rw [Bool.eq_iff_iff, isAbsolute_iff, isAbsolute_iff, String.toList_append]
  cases ha : a.toList with
  | nil => exact absurd (String.toList_eq_nil_iff.1 ha) h
  | cons c cs => simp

variable {t : FileTree} {path name : String} {way : List String}

/-- A path leads somewhere if each of its parts does. -/
theorem resolve_eq_ok_iff {place : Place} :
    t.resolve path = .ok place ↔ '\x00' ∉ path.toList ∧ t.pathSize path ≤ pathLimit ∧
      (parts path).foldlM t.follow (if isAbsolute path then .above else .directory []) = .ok place := by
  rw [resolve, String.contains_char_eq]
  by_cases hzero : '\x00' ∈ path.toList
  · simp [hzero]
  · by_cases hlong : pathLimit < t.pathSize path
    · simp [hzero, hlong]
    · simp [hzero, hlong, Nat.not_lt.1 hlong]

theorem follow_eq_file (hname : IsFileName name) {content : ByteArray}
    (h : t.entries.lookup (way ++ [name]) = some (.file content)) :
    t.follow (.directory way) name = .ok (.file content) := by
  simp [follow, hname.moves, hname.ne_up, Nat.not_lt.2 hname.short, h]

theorem eq_of_follow_empty {place : Place} (h : t.follow place "" = .ok (.directory way)) :
    place = .directory way := by
  cases place with
  | file content => cases h
  | above => cases h
  | directory way' =>
    cases h
    rfl

/-- A file is where its name leads to from its directory. -/
theorem resolve_join (hpath : t.resolve path = .ok (.directory way)) (hname : IsFileName name)
    (hsize : t.pathSize (join path name) ≤ pathLimit) {content : ByteArray}
    (hfile : t.entries.lookup (way ++ [name]) = some (.file content)) :
    t.resolve (join path name) = .ok (.file content) := by
  obtain ⟨hzero, -, hfold⟩ := resolve_eq_ok_iff.1 hpath
  have hfollow := follow_eq_file hname hfile
  have hparts := parts_of_no_slash hname.no_slash
  have hlast : ∀ place part, [part].foldlM t.follow place = t.follow place part := by simp
  refine resolve_eq_ok_iff.2 ⟨?_, hsize, ?_⟩
  · rcases join_cases path name with ⟨-, hjoin⟩ | ⟨before, rfl, hjoin⟩ | ⟨-, hjoin⟩ <;> rw [hjoin]
    · exact hname.no_zero
    · simpa [hname.no_zero] using hzero
    · simpa [hname.no_zero] using hzero
  · rcases join_cases path name with ⟨rfl, hjoin⟩ | ⟨before, rfl, hjoin⟩ | ⟨hne, hjoin⟩ <;> rw [hjoin]
    · have hstart : isAbsolute name = false := by
        rw [Bool.eq_false_iff, Ne, isAbsolute_iff]
        exact fun h => hname.no_slash (h.subset List.mem_cons_self)
      cases hfold
      rw [hparts, hstart]
      exact (hlast _ _).trans hfollow
    · -- The part behind the last slash is empty and stays where it starts, so the name can take its place.
      have hbefore : parts (before ++ "/") = parts before ++ [""] := by
        have h := parts_append_slash before ""
        rwa [String.append_empty] at h
      rw [hbefore, List.foldlM_append] at hfold
      obtain ⟨place, hplace, hempty⟩ := bind_eq_ok.1 hfold
      rw [hlast] at hempty
      rw [parts_append_slash, isAbsolute_append (by simp), List.foldlM_append, hparts, hplace,
        eq_of_follow_empty hempty]
      exact (hlast _ _).trans hfollow
    · rw [parts_append_slash, String.append_assoc, isAbsolute_append hne, List.foldlM_append, hparts, hfold]
      exact (hlast _ _).trans hfollow

/-! ## Directories -/

/-- The name of an entry, if it is a file directly inside the directory. -/
def fileIn? (way : List String) (entry : List String × FileEntry) : Option String :=
  match entry.2, entry.1.getLast? with
  | .file _, some name => if entry.1.dropLast = way then some name else none
  | _, _ => none

theorem filesIn?_directory (t : FileTree) (way : List String) :
    t.filesIn? (.directory way) =
      some ((t.entries.filterMap (fileIn? way)).mergeSort fun a b => !decide (b < a)) :=
  rfl

theorem fileIn?_eq_some_iff {entry : List String × FileEntry} :
    fileIn? way entry = some name ↔ ∃ content, entry = (way ++ [name], .file content) := by
  obtain ⟨other, found⟩ := entry
  cases found with
  | directory => simp [fileIn?]
  | file content =>
    rcases List.eq_nil_or_concat other with rfl | ⟨before, last, rfl⟩
    · simp [fileIn?]
    · simp [fileIn?]

theorem mem_filterMap_fileIn?_iff (t : FileTree) :
    name ∈ t.entries.filterMap (fileIn? way) ↔
      ∃ content, t.entries.lookup (way ++ [name]) = some (.file content) := by
  simp only [List.mem_filterMap, fileIn?_eq_some_iff, Dictionary.lookup_eq_some_iff_mem t.distinct]
  constructor
  · rintro ⟨_, hentry, content, rfl⟩
    exact ⟨content, hentry⟩
  · rintro ⟨content, hentry⟩
    exact ⟨_, hentry, content, rfl⟩

theorem nodup_filterMap_fileIn? (t : FileTree) (way : List String) :
    (t.entries.filterMap (fileIn? way)).Nodup := by
  refine List.pairwise_filterMap.2 ((List.pairwise_map.1 t.distinct).imp ?_)
  rintro entry entry' hne name hname name' hname' rfl
  obtain ⟨content, rfl⟩ := fileIn?_eq_some_iff.1 hname
  obtain ⟨content', rfl⟩ := fileIn?_eq_some_iff.1 hname'
  exact hne rfl

/-- The only sorted list of some different names is the one that sorting gives. -/
theorem mergeSort_eq_of_sorted {found names : List String} (hfound : found.Nodup)
    (hnames : names.Pairwise (· < ·)) (h : ∀ name, name ∈ found ↔ name ∈ names) :
    (found.mergeSort fun a b => !decide (b < a)) = names := by
  have hnodup : names.Nodup := by
    refine hnames.imp ?_
    rintro a _ hlt rfl
    exact String.lt_irrefl a hlt
  have hperm := (List.mergeSort_perm found fun a b => !decide (b < a)).trans
    ((List.perm_ext_iff_of_nodup hfound hnodup).2 h)
  have hle : ∀ a b : String, (!decide (b < a)) = true ↔ a ≤ b := by
    intro a b
    rw [Bool.not_eq_true', decide_eq_false_iff_not, String.not_lt]
  refine hperm.eq_of_pairwise (fun a b _ _ (hab : a ≤ b) hba => String.le_antisymm hab hba) ?_
    (hnames.imp String.lt_asymm)
  refine (List.pairwise_mergeSort ?_ ?_ _).imp fun h => (hle _ _).1 h
  · intro a b c
    rw [hle, hle, hle]
    exact String.le_trans
  · intro a b
    rw [Bool.or_eq_true, hle, hle]
    exact String.le_total a b

/-- The files directly inside the directory at a path, with their texts, in the order of their names. The paths
of all of them are short enough to be read. -/
structure Holds (t : FileTree) (path : String) (texts : List (String × String)) : Prop where
  files : ∃ way, t.resolve path = .ok (.directory way) ∧
    ∀ name content, t.entries.lookup (way ++ [name]) = some (.file content) ↔
      ∃ text, (name, text) ∈ texts ∧ content = text.toUTF8
  sorted : (texts.map Prod.fst).Pairwise (· < ·)
  names : ∀ f ∈ texts, IsFileName f.1
  short : ∀ f ∈ texts, t.pathSize (join path f.1) ≤ pathLimit

namespace Holds

variable {texts : List (String × String)} (h : t.Holds path texts)
include h

/-- The files are found in the order of their names. -/
theorem filesIn? : ∃ place, t.resolve path = .ok place ∧ t.filesIn? place = some (texts.map Prod.fst) := by
  obtain ⟨way, hpath, hfiles⟩ := h.files
  refine ⟨.directory way, hpath, ?_⟩
  rw [filesIn?_directory]
  refine congrArg some (mergeSort_eq_of_sorted (nodup_filterMap_fileIn? t way) h.sorted fun name => ?_)
  rw [mem_filterMap_fileIn?_iff, List.mem_map]
  constructor
  · rintro ⟨content, hcontent⟩
    obtain ⟨text, htext, -⟩ := (hfiles name content).1 hcontent
    exact ⟨(name, text), htext, rfl⟩
  · rintro ⟨⟨name, text⟩, htext, rfl⟩
    exact ⟨text.toUTF8, (hfiles name text.toUTF8).2 ⟨text, htext, rfl⟩⟩

/-- A file is read as the text it holds. -/
theorem read {f : String × String} (hf : f ∈ texts) : t.read (join path f.1) = .ok f.2 := by
  obtain ⟨way, hpath, hfiles⟩ := h.files
  have hlookup := (hfiles f.1 f.2.toUTF8).2 ⟨f.2, hf, rfl⟩
  rw [FileTree.read, resolve_join hpath (h.names f hf) (h.short f hf) hlookup]
  have htext : String.fromUTF8? f.2.toUTF8 = some f.2 := by
    rw [String.fromUTF8?, dif_pos (show f.2.toUTF8.IsValidUTF8 from f.2.isValidUTF8)]
    rfl
  simp only [bind, Except.bind, htext]
  rfl

end Holds

end FileTree
end Stencil
