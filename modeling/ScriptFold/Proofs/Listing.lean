import ScriptFold.Library.Folder
import ScriptFold.Proofs.Directories
import ScriptFold.Proofs.Lookup
import ScriptFold.Proofs.RefusedLibrary

/-!
# What a folder lists and what it finds

A folder lists a name for each file with the ending, and finds the file of a name by putting the
ending behind it. For plain names the two are inverse (`stem?_eq_some_iff`), so a plain name is
listed exactly if its file is in one of the directories (`mem_names_iff_of_isPlainName`). Listing
does not look at whether names are plain and finding does, and the empty path has files but is no
directory; with neither of these the listed names are those found (`names_iff_pathFor?`).
-/

namespace ScriptFold

/-- The error says that a name has no file: none was found, or the name may have none. -/
def SourceError.IsMissing : SourceError → Prop
  | .notFound _ | .invalidName _ => True
  | .unreadable .. | .unparsable .. | .unlisted .. => False

theorem Kind.mem_all (kind : Kind) : kind ∈ all := by
  cases kind <;> decide

/-- Loading fails for the first name if there is no definition of it. -/
theorem Library.load_cons_of_error {source : Source} {name : String} {rest : List String}
    {cause : SourceError} (h : source.load name = .error cause) :
    load source (name :: rest) = .error (.load name cause) := by
  rw [load, Source.run, Source.resolveAll, Source.resolve_eq, h]
  rfl

namespace Folder

open Files (Tree)

theorem load_source (folder : Folder) (tree : Tree) :
    (folder.source tree).load = folder.load tree := by
  rw [source]

theorem announce_source (folder : Folder) (tree : Tree) :
    (folder.source tree).announce = folder.announce tree := by
  rw [source]

/-- A folder can be listed, so all of it is loaded by the listed names. -/
theorem loadAll_source (folder : Folder) (tree : Tree) :
    Library.loadAll (folder.source tree) =
      Library.load (folder.source tree) (folder.names tree) := by
  rw [Library.loadAll, source]

/-! ### Stems -/

theorem stem?_eq_some_iff {file name : String} :
    stem? file = some name ↔ name ≠ "" ∧ file = fileName name := by
  constructor
  · intro h
    rw [stem?] at h
    split at h
    · next c rest hfile =>
      cases h
      rw [List.reverse_eq_iff] at hfile
      refine ⟨by simp, String.toList_injective ?_⟩
      rw [hfile, fileName, String.toList_append, String.toList_ofList]
      simp
    · cases h
  · rintro ⟨hne, rfl⟩
    exact stem?_fileName hne

/-! ### Names -/

section

variable {folder : Folder} {tree : Tree} {name : String}

theorem mem_names_iff : name ∈ folder.names tree ↔
    name ≠ "" ∧ ∃ kind, fileName name ∈ tree.fileNames (folder.dir kind) := by
  rw [names, NameMap.mem_names_ofList, List.map_flatMap, List.mem_flatMap]
  simp only [List.map_map, Function.comp_def, List.map_id', List.mem_filterMap, stem?_eq_some_iff]
  constructor
  · rintro ⟨kind, -, file, hfile, hne, rfl⟩
    exact ⟨hne, kind, hfile⟩
  · rintro ⟨hne, kind, hfile⟩
    exact ⟨kind, kind.mem_all, fileName name, hfile, hne, rfl⟩

theorem fileName_mem_fileNames_iff (h : isPlainName name = true) {kind : Kind} :
    fileName name ∈ tree.fileNames (folder.dir kind) ↔
      folder.dir kind ≠ "" ∧ tree.isFile (folder.path kind name) = true := by
  obtain ⟨hslash, hidle, hdots⟩ := isStep_fileName h
  by_cases hdir : folder.dir kind = ""
  · rw [hdir, Tree.fileNames_empty]
    exact iff_of_false List.not_mem_nil fun hd => hd.1 rfl
  · rw [Tree.mem_fileNames_iff hdir hslash hidle hdots, path]
    exact (and_iff_right hdir).symm

/-- A plain name is listed exactly if its file is in a directory whose path is not empty. -/
theorem mem_names_iff_of_isPlainName (h : isPlainName name = true) : name ∈ folder.names tree ↔
    ∃ kind, folder.dir kind ≠ "" ∧ tree.isFile (folder.path kind name) = true := by
  rw [mem_names_iff, exists_congr fun kind => fileName_mem_fileNames_iff h]
  exact and_iff_right (isPlainName_eq_true_iff.1 h).1

theorem isSome_pathFor?_iff : (folder.pathFor? tree name).isSome = true ↔
    isPlainName name = true ∧ ∃ kind, tree.isFile (folder.path kind name) = true := by
  rw [pathFor?]
  split
  · next h =>
    rw [Option.isSome_map, List.find?_isSome, and_iff_right h]
    exact exists_congr fun kind => and_iff_right kind.mem_all
  · next h => exact iff_of_false Bool.false_ne_true fun hp => h hp.1

/-- A plain name that is listed is found. -/
theorem isSome_pathFor?_of_mem_names (h : isPlainName name = true)
    (hname : name ∈ folder.names tree) : (folder.pathFor? tree name).isSome = true := by
  obtain ⟨kind, -, hfile⟩ := (mem_names_iff_of_isPlainName h).1 hname
  exact isSome_pathFor?_iff.2 ⟨h, kind, hfile⟩

/-! ### Loading what is listed -/

theorem load_of_not_isPlainName (h : ¬ isPlainName name = true) :
    folder.load tree name = .error (.invalidName name) := by
  rw [load, if_neg h]

/-- Loading a name whose file is found fails for what the file is, if at all. -/
theorem not_isMissing_of_load (hfound : (folder.pathFor? tree name).isSome = true)
    {cause : SourceError} (h : folder.load tree name = .error cause) : ¬ cause.IsMissing := by
  obtain ⟨⟨kind, path⟩, hpath⟩ := Option.isSome_iff_exists.1 hfound
  rw [load, if_pos (isSome_pathFor?_iff.1 hfound).1, hpath] at h
  simp only at h
  split at h
  · cases h
    exact id
  · split at h
    · cases h
      exact id
    · cases h

/-- A library cannot be loaded in which a name is listed that is refused. -/
theorem not_loadAll_of_mem_names (hname : name ∈ folder.names tree) {cause : SourceError}
    (h : folder.load tree name = .error cause) :
    ¬ ∃ lib, Library.loadAll (folder.source tree) = .ok lib := by
  rintro ⟨lib, hlib⟩
  rw [loadAll_source] at hlib
  obtain ⟨hm, hreach⟩ := Library.load_eq_ok_iff.1 hlib
  have hmem := (hreach name).2 (Source.reaches_of_mem hname)
  obtain ⟨t, ht⟩ := NameMap.mem_names_iff.1 hmem
  obtain ⟨kind, d, hmirror⟩ := hm name t ht
  have hload := hmirror.loaded
  rw [load_source, h] at hload
  cases hload

end

/-- The names listed ascend. They are the names found exactly if all of them are plain and no file
is found behind an empty path that is not listed all the same. Loading a plain name that is listed
never fails because there is no file for it, neither alone nor when all are loaded; a listed name
that is not plain is refused, and then not all can be loaded. -/
theorem names_iff_pathFor? (folder : Folder) (tree : Tree) :
    (folder.names tree).Pairwise (· < ·) ∧
      ((∀ name, name ∈ folder.names tree ↔ (folder.pathFor? tree name).isSome) ↔
        (∀ name ∈ folder.names tree, isPlainName name) ∧
          ∀ kind, folder.dir kind = "" → ∀ name, isPlainName name →
            tree.isFile (folder.path kind name) → name ∈ folder.names tree) ∧
      (∀ name ∈ folder.names tree, isPlainName name →
        (∀ cause, folder.load tree name = .error cause → ¬ cause.IsMissing) ∧
          ∀ cause, Library.loadAll (folder.source tree) = .error (.load name cause) →
            ¬ cause.IsMissing) ∧
      ∀ name ∈ folder.names tree, ¬ isPlainName name →
        folder.load tree name = .error (.invalidName name) ∧
          ¬ ∃ lib, Library.loadAll (folder.source tree) = .ok lib := by
  refine ⟨NameMap.pairwise_names _, ⟨fun hagree => ⟨?_, ?_⟩, ?_⟩, ?_, ?_⟩
  · exact fun name hname => (isSome_pathFor?_iff.1 ((hagree name).1 hname)).1
  · exact fun kind _ name hplain hfile =>
      (hagree name).2 (isSome_pathFor?_iff.2 ⟨hplain, kind, hfile⟩)
  · rintro ⟨hplain, hempty⟩ name
    refine ⟨fun hname => isSome_pathFor?_of_mem_names (hplain name hname) hname, fun hfound => ?_⟩
    obtain ⟨hp, kind, hfile⟩ := isSome_pathFor?_iff.1 hfound
    by_cases hdir : folder.dir kind = ""
    · exact hempty kind hdir name hp hfile
    · exact (mem_names_iff_of_isPlainName hp).2 ⟨kind, hdir, hfile⟩
  · intro name hname hplain
    have hfound := isSome_pathFor?_of_mem_names hplain hname
    refine ⟨fun cause hload => not_isMissing_of_load hfound hload, fun cause hall => ?_⟩
    rw [loadAll_source] at hall
    exact not_isMissing_of_load hfound (Library.holds_of_load hall).2
  · intro name hname hplain
    have hload : folder.load tree name = .error (.invalidName name) :=
      load_of_not_isPlainName hplain
    exact ⟨hload, not_loadAll_of_mem_names hname hload⟩

namespace Sample

/-- A library with the usual directories. -/
def folder : Folder := ⟨"lib", "if", "then"⟩

/-- The files of the library: a trigger template and an action template that cannot be parsed. -/
def tree : Tree :=
  ⟨[("lib", .dir [("if", .dir [("A.json", .file (some "[\"A()\"]")),
      ("notes.txt", .file (some ""))]),
    ("then", .dir [("B.json", .file (some "["))])])], []⟩

/-- A trigger template beside one named for a dot. -/
def dotted : Tree :=
  ⟨[("lib", .dir [("if", .dir [("..json", .file (some "[\"A()\"]")),
    ("A.json", .file (some "[\"A()\"]"))])])], []⟩

/-- A library whose trigger templates are in the working directory. -/
def here : Folder := ⟨"", "", "then"⟩

/-- A template in the working directory. -/
def flat : Tree := ⟨[("A.json", .file (some "[\"A()\"]"))], []⟩

theorem names_tree : folder.names tree = ["A", "B"] := by
  decide +kernel

theorem names_dotted : folder.names dotted = [".", "A"] := by
  decide +kernel

end Sample

theorem names_iff_pathFor?_sample :
    (∀ name, name ∈ Sample.folder.names Sample.tree ↔
        (Sample.folder.pathFor? Sample.tree name).isSome) ∧
      (∀ cause, Library.loadAll (Sample.folder.source Sample.tree) = .error (.load "B" cause) →
        ¬ cause.IsMissing) ∧
      Sample.folder.load Sample.dotted "." = .error (.invalidName ".") := by
  obtain ⟨-, hagree, hload, -⟩ := names_iff_pathFor? Sample.folder Sample.tree
  have hdirs : ∀ kind, Sample.folder.dir kind ≠ "" := fun kind => by cases kind <;> decide
  have hdot : "." ∈ Sample.folder.names Sample.dotted := by
    rw [Sample.names_dotted]
    decide
  refine ⟨hagree.2 ⟨?_, fun kind hdir => absurd hdir (hdirs kind)⟩, (hload "B" ?_ ?_).2, ?_⟩
  · rw [Sample.names_tree]
    decide
  · rw [Sample.names_tree]
    decide
  · decide
  · exact ((names_iff_pathFor? Sample.folder Sample.dotted).2.2.2 "." hdot (by decide)).1

/-- A file whose stem is a dot is listed and not found, which is why loading all fails; a file in
the working directory is found behind the empty path and not listed. -/
theorem not_names_iff_pathFor? :
    (¬ ∀ name, name ∈ Sample.folder.names Sample.dotted ↔
        (Sample.folder.pathFor? Sample.dotted name).isSome) ∧
      Library.loadAll (Sample.folder.source Sample.dotted) =
        .error (.load "." (.invalidName ".")) ∧
      ¬ ∀ name, name ∈ Sample.here.names Sample.flat ↔
        (Sample.here.pathFor? Sample.flat name).isSome := by
  refine ⟨fun h => ?_, ?_, fun h => ?_⟩
  · have hfound := (h ".").1 (by rw [Sample.names_dotted]; decide)
    exact absurd (isSome_pathFor?_iff.1 hfound).1 (by decide)
  · rw [loadAll_source, Sample.names_dotted]
    exact Library.load_cons_of_error rfl
  · exact absurd ((h "A").2 (by decide +kernel)) (by decide +kernel)

end Folder

end ScriptFold
