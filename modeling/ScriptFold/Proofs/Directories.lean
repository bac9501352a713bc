import ScriptFold.Proofs.Results
import ScriptFold.Proofs.WrittenFiles

/-!
# Files of a directory

A directory lists its entries, and a file is looked up by a path that ends in its name. The two
agree (`Tree.mem_fileNames_iff`): a walk that ends in a plain name goes to the directory first and
takes one more step from there (`Tree.lookup_join`). They part for the empty path, which is no
directory although the names of files may follow it.
-/

namespace ScriptFold.Files

/-! ### Walks in two parts -/

/-- A walk that never goes up does not depend on the directories above. -/
theorem descend_above {ps : List (List Char)} (h : ['.', '.'] ∉ ps) (above other : List Node)
    (here : Node) : descend above here ps = descend other here ps := by
  induction ps generalizing above other here with
  | nil => rw [descend.eq_1, descend.eq_1]
  | cons piece ps ih =>
    rw [List.mem_cons, not_or] at h
    cases here with
    | file text => rw [descend_file, descend_file]
    | dir entries =>
      by_cases hidle : isIdle piece = true
      · rw [descend_idle _ _ _ hidle, descend_idle _ _ _ hidle]
        exact ih h.2 ..
      · rw [descend_name _ _ _ hidle (Ne.symm h.1), descend_name _ _ _ hidle (Ne.symm h.1)]
        split
        · rfl
        · split
          · rfl
          · exact ih h.2 ..

/-- A walk whose last part never goes up takes that part from where the first one ends. -/
theorem descend_append {qs : List (List Char)} (h : ['.', '.'] ∉ qs) (above : List Node)
    (here : Node) (ps : List (List Char)) :
    descend above here (ps ++ qs) =
      (descend above here ps).bind fun node => descend [] node qs := by
  induction ps generalizing above here with
  | nil =>
    rw [List.nil_append, descend.eq_1]
    exact descend_above h ..
  | cons piece ps ih =>
    rw [List.cons_append]
    cases here with
    | file text => rw [descend_file, descend_file]; rfl
    | dir entries =>
      by_cases hidle : isIdle piece = true
      · rw [descend_idle _ _ _ hidle, descend_idle _ _ _ hidle, ih]
      · by_cases hdots : piece = ['.', '.']
        · cases above with
          | nil =>
            rw [descend, descend, if_neg hidle, if_neg hidle, if_pos hdots, if_pos hdots]
            exact ih ..
          | cons parent above =>
            rw [descend, descend, if_neg hidle, if_neg hidle, if_pos hdots, if_pos hdots]
            exact ih ..
        · rw [descend_name _ _ _ hidle hdots, descend_name _ _ _ hidle hdots]
          split
          · rfl
          · split
            · rfl
            · exact ih ..

/-- A slash at the end of a path to a directory changes nothing about what follows. -/
theorem descend_slash {qs : List (List Char)} (h : ['.', '.'] ∉ qs) (hne : qs ≠ []) (node : Node) :
    ((descend [] node [[]]).bind fun here => descend [] here qs) = descend [] node qs := by
  cases node with
  | file text =>
    obtain ⟨piece, rest, rfl⟩ := List.exists_cons_of_ne_nil hne
    rw [descend_file, descend_file]
    rfl
  | dir entries =>
    rw [descend_idle _ _ _ rfl, descend.eq_1]
    rfl

theorem mem_of_child? {name : String} {entries : List (String × Node)} {node : Node}
    (h : Node.child? name entries = some node) : (name, node) ∈ entries := by
  induction entries with
  | nil => cases h
  | cons entry rest ih =>
    rw [Node.child?.eq_2] at h
    split at h
    · next heq =>
      cases h
      exact heq ▸ List.mem_cons_self
    · exact List.mem_cons_of_mem _ (ih h)

/-- Only a directory with an entry of the name leads on by it. -/
theorem exists_mem_of_descend {piece : List Char} {here node : Node} (hidle : isIdle piece = false)
    (hdots : piece ≠ ['.', '.']) (h : descend [] here [piece] = .ok node) :
    ∃ entries, here = .dir entries ∧ (String.ofList piece, node) ∈ entries := by
  cases here with
  | file text =>
    rw [descend_file] at h
    cases h
  | dir entries =>
    rw [descend_name _ _ _ (Bool.eq_false_iff.1 hidle) hdots] at h
    split at h
    · cases h
    · split at h
      · cases h
      · next child hchild =>
        rw [descend.eq_1] at h
        cases h
        exact ⟨entries, rfl, mem_of_child? hchild⟩

/-! ### Paths of files -/

section

variable {base file : String}

theorem isAbsolute_eq_false (hslash : '/' ∉ file.toList) : isAbsolute file = false := by
  rw [isAbsolute]
  cases hl : file.toList with
  | nil => rfl
  | cons c rest =>
    rw [hl, List.mem_cons, not_or] at hslash
    simpa using Ne.symm hslash.1

/-- The path of a file starts with the path of its directory. -/
theorem exists_join_eq (hslash : '/' ∉ file.toList) :
    ∃ behind, join base file = base ++ behind := by
  rw [join, isAbsolute_eq_false hslash, if_neg Bool.false_ne_true]
  split
  · exact ⟨file, rfl⟩
  · exact ⟨"/" ++ file, String.append_assoc⟩

theorem isAbsolute_join (hbase : base ≠ "") (hslash : '/' ∉ file.toList) :
    isAbsolute (join base file) = isAbsolute base := by
  obtain ⟨behind, hjoin⟩ : ∃ behind, join base file = base ++ behind := exists_join_eq hslash
  obtain ⟨c, rest, hcons⟩ := List.exists_cons_of_ne_nil (mt String.toList_eq_nil_iff.1 hbase)
  rw [isAbsolute, isAbsolute, hjoin, String.toList_append, hcons]
  rfl

/-- What is wrong with the path of a directory is wrong with those of its files. -/
theorem fault?_eq_none_of_join (hbase : base ≠ "") (hslash : '/' ∉ file.toList)
    (h : fault? (join base file) = none) : fault? base = none := by
  obtain ⟨behind, hjoin⟩ : ∃ behind, join base file = base ++ behind := exists_join_eq hslash
  rw [hjoin, fault?] at h
  split at h
  · cases h
  · next hzero =>
    split at h
    · cases h
    · split at h
      · cases h
      · next hlong =>
        rw [String.toList_append, List.mem_append, not_or] at hzero
        rw [String.utf8ByteSize_append] at hlong
        rw [fault?, if_neg hzero.1, if_neg (by simpa using hbase), if_neg (by omega)]

/-- The pieces of the path of a file are those of its directory and the name, but for the empty
piece behind a slash at the end. -/
theorem exists_pieces_join_eq (hbase : base ≠ "") (hslash : '/' ∉ file.toList) :
    ∃ before, pieces (join base file).toList = before ++ [file.toList] ∧
      (pieces base.toList = before ∨ pieces base.toList = before ++ [[]]) := by
  rw [join, isAbsolute_eq_false hslash, if_neg Bool.false_ne_true]
  split
  · next hend =>
    obtain ⟨front, hfront⟩ := List.getLast?_eq_some_iff.1 (hend.resolve_left (by simpa using hbase))
    refine ⟨pieces front, ?_, .inr ?_⟩
    · rw [String.toList_append, hfront, List.append_assoc, List.singleton_append,
        pieces_append_slash, pieces_of_no_slash hslash]
    · rw [hfront, pieces_append_slash]
      rfl
  · refine ⟨pieces base.toList, ?_, .inl rfl⟩
    rw [String.append_assoc, String.toList_append, String.toList_append,
      show "/".toList ++ file.toList = '/' :: file.toList from rfl, pieces_append_slash,
      pieces_of_no_slash hslash]

end

namespace Tree

variable {tree : Tree} {base file : String}

/-- The path of a file leads to the directory first and then one step further. -/
theorem lookup_join (hbase : base ≠ "") (hslash : '/' ∉ file.toList)
    (hdots : file.toList ≠ ['.', '.']) (h : fault? (join base file) = none) :
    tree.lookup (join base file) =
      (tree.lookup base).bind fun node => descend [] node [file.toList] := by
  obtain ⟨before, hpieces, hbefore⟩ := exists_pieces_join_eq hbase hslash
  have hup : ['.', '.'] ∉ [file.toList] := fun hm => hdots (List.mem_singleton.1 hm).symm
  have hstart : tree.start (join base file) = tree.start base := by
    rw [start, start, isAbsolute_join hbase hslash]
  rw [lookup, lookup, h, fault?_eq_none_of_join hbase hslash h, hstart]
  simp only
  rw [hpieces, ← List.append_assoc, descend_append hup]
  obtain hbefore | hbefore := hbefore
  · rw [hbefore]
  · have hlast : ['.', '.'] ∉ [([] : List Char)] := by decide
    rw [hbefore, ← List.append_assoc, descend_append hlast]
    cases descend [] tree.root (tree.start base ++ before) with
    | error failure => rfl
    | ok node => exact (descend_slash hup (List.cons_ne_nil _ _) node).symm

theorem isFile_eq_true_iff {path : String} :
    tree.isFile path = true ↔ ∃ text, tree.lookup path = .ok (.file text) := by
  rw [isFile]
  split
  · next text h => exact iff_of_true rfl ⟨text, h⟩
  · next h => exact iff_of_false Bool.false_ne_true fun ⟨text, htext⟩ => h text htext

/-- The file that a path leads to: its text, or none for bytes that are no text. -/
def file? (tree : Tree) (path : String) : Option (Option String) :=
  match tree.lookup path with
  | .ok (.file text) => some text
  | _ => none

theorem isFile_eq (tree : Tree) (path : String) : tree.isFile path = (tree.file? path).isSome := by
  rw [isFile, file?]
  cases tree.lookup path with
  | error failure => rfl
  | ok node => cases node <;> rfl

/-- Trees with the same file at a path are read alike there. -/
theorem read_congr {other : Tree} {path : String} (hfile : tree.isFile path = true)
    (h : tree.file? path = other.file? path) : tree.read path = other.read path := by
  obtain ⟨text, hlookup⟩ := isFile_eq_true_iff.1 hfile
  rw [isFile_eq, h, ← isFile_eq] at hfile
  obtain ⟨text', hother⟩ := isFile_eq_true_iff.1 hfile
  rw [file?, file?, hlookup, hother] at h
  cases h
  rw [read, read, hlookup, hother]

/-- A plain name is listed in a directory exactly if its path from there leads to a file. -/
theorem mem_fileNames_iff (hbase : base ≠ "") (hslash : '/' ∉ file.toList)
    (hidle : isIdle file.toList = false) (hdots : file.toList ≠ ['.', '.']) :
    file ∈ tree.fileNames base ↔ tree.isFile (join base file) = true := by
  constructor
  · intro h
    rw [fileNames] at h
    split at h
    · exact (List.mem_filter.1 h).2
    · cases h
  · intro hfile
    obtain ⟨text, hlookup⟩ := isFile_eq_true_iff.1 hfile
    have hfault : fault? (join base file) = none := by
      rw [lookup] at hlookup
      split at hlookup
      · cases hlookup
      · assumption
    rw [lookup_join hbase hslash hdots hfault] at hlookup
    obtain ⟨node, hbaseLookup, hlast⟩ := bind_eq_ok_iff.1 hlookup
    obtain ⟨entries, rfl, hmem⟩ := exists_mem_of_descend hidle hdots hlast
    rw [fileNames, hbaseLookup]
    rw [String.ofList_toList] at hmem
    exact List.mem_filter.2 ⟨List.mem_map_of_mem hmem, hfile⟩

/-- The empty path is no directory. -/
theorem fileNames_empty : tree.fileNames "" = [] := rfl

end Tree

end ScriptFold.Files
