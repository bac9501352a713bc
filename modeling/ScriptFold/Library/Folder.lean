import ScriptFold.Definition.Codec
import ScriptFold.Library.Source

/-!
# Libraries kept in folders

A folder keeps trigger templates in one directory and action templates in another, each in a file
named for the template. A name that is no plain file name is refused before any file is touched,
and a trigger template hides an action template of the same name.
-/

namespace ScriptFold

open Files (Tree)

/-- The directory of a kind where none is named. -/
def Kind.defaultDir : Kind → String
  | .trigger => "if"
  | .action => "then"

/-- Where a library is kept. -/
structure Folder where
  root : String
  triggerDir : String := Kind.trigger.defaultDir
  actionDir : String := Kind.action.defaultDir
deriving DecidableEq, Repr

namespace Folder

/-- The directory of a kind. -/
def dir (folder : Folder) : Kind → String
  | .trigger => Files.join folder.root folder.triggerDir
  | .action => Files.join folder.root folder.actionDir

/-- A name that is one piece of a path and no way around it. -/
def isPlainName (name : String) : Bool :=
  name ≠ "" ∧ name ≠ "." ∧ name ≠ ".." ∧ '/' ∉ name.toList ∧ '\\' ∉ name.toList

/-- The name of the file of a template. -/
def fileName (name : String) : String :=
  name ++ ".json"

/-- The template a file name stands for: what is before the ending. -/
def stem? (file : String) : Option String :=
  match file.toList.reverse with
  | 'n' :: 'o' :: 's' :: 'j' :: '.' :: c :: rest => some (String.ofList (c :: rest).reverse)
  | _ => none

/-- The path of the file of a name in the directory of a kind. -/
def path (folder : Folder) (kind : Kind) (name : String) : String :=
  Files.join (folder.dir kind) (fileName name)

/-- The file that defines a name. -/
def pathFor? (folder : Folder) (tree : Tree) (name : String) : Option (Kind × String) :=
  if isPlainName name then
    (Kind.all.find? fun kind => tree.isFile (folder.path kind name)).map fun kind =>
      (kind, folder.path kind name)
  else none

/-- The kind and definition of a name. -/
def load (folder : Folder) (tree : Tree) (name : String) :
    Except SourceError (Kind × Definition) :=
  if isPlainName name then
    match folder.pathFor? tree name with
    | none => .error (.notFound name)
    | some (kind, path) =>
      match tree.read path with
      | .error cause => .error (.unreadable name path cause)
      | .ok text =>
        match Definition.parse text with
        | .error cause => .error (.unparsable name path cause)
        | .ok d => .ok (kind, d)
  else .error (.invalidName name)

/-- What is logged when a name is loaded. -/
def announce (folder : Folder) (tree : Tree) (name : String) : List Log.Record :=
  match folder.pathFor? tree name with
  | some (kind, path) =>
    [⟨.debug, .source, s!"loading {kind.name} template '{name}' from '{path}'"⟩]
  | none => []

/-- The names that have a file in one of the directories, in ascending order. -/
def names (folder : Folder) (tree : Tree) : List String :=
  (NameMap.ofList <| Kind.all.flatMap fun kind =>
    ((tree.fileNames (folder.dir kind)).filterMap stem?).map (·, ())).names

/-- What is logged when the names are listed. -/
def warnings (folder : Folder) (tree : Tree) : List Log.Record :=
  Kind.all.filterMap fun kind =>
    if tree.isDir (folder.dir kind) then none
    else some ⟨.warn, .source,
      s!"{kind.name} template directory '{folder.dir kind}' does not exist"⟩

theorem stem?_fileName {name : String} (h : name ≠ "") : stem? (fileName name) = some name := by
  have hl : name.toList ≠ [] := by simpa using h
  have hr : (fileName name).toList.reverse =
      'n' :: 'o' :: 's' :: 'j' :: '.' :: name.toList.reverse := by
    rw [fileName, String.toList_append, List.reverse_append]
    rfl
  rw [stem?, hr]
  cases hn : name.toList.reverse with
  | nil => simp at hn; exact absurd hn (by simpa using h)
  | cons c rest =>
    have : (c :: rest).reverse = name.toList := by rw [← hn, List.reverse_reverse]
    simp only [this, String.ofList_toList]

theorem isPlainName_eq_true_iff {name : String} :
    isPlainName name = true ↔
      name ≠ "" ∧ name ≠ "." ∧ name ≠ ".." ∧ '/' ∉ name.toList ∧ '\\' ∉ name.toList := by
  simp only [isPlainName, decide_eq_true_eq]

/-- The file of a plain name is one step of a path. -/
theorem isStep_fileName {name : String} (h : isPlainName name = true) :
    '/' ∉ (fileName name).toList ∧ Files.isIdle (fileName name).toList = false ∧
      (fileName name).toList ≠ ['.', '.'] := by
  obtain ⟨-, -, -, hslash, -⟩ := isPlainName_eq_true_iff.1 h
  have hlist : (fileName name).toList = name.toList ++ ['.', 'j', 's', 'o', 'n'] := by
    rw [fileName, String.toList_append]
    rfl
  have hlength : 5 ≤ (fileName name).toList.length := by
    rw [hlist, List.length_append]
    exact Nat.le_add_left ..
  refine ⟨?_, ?_, ?_⟩
  · rw [hlist, List.mem_append, not_or]
    exact ⟨hslash, by decide⟩
  · rw [Files.isIdle, decide_eq_false_iff_not]
    rintro (he | he) <;> simp [he] at hlength
  · intro he
    simp [he] at hlength

/-- A name that has a file in a directory is the stem of some entry of the tree. -/
theorem mem_stems_of_isFile {tree : Tree} {base name : String} (hp : isPlainName name = true)
    (h : tree.isFile (Files.join base (fileName name)) = true) :
    name ∈ tree.names.filterMap stem? := by
  obtain ⟨hslash, hidle, hdots⟩ := isStep_fileName hp
  refine List.mem_filterMap.2
    ⟨fileName name, ?_, stem?_fileName (isPlainName_eq_true_iff.1 hp).1⟩
  unfold Tree.isFile at h
  split at h
  · next text hl => exact Files.Tree.mem_names_of_lookup hslash hidle hdots hl
  · simp at h

theorem mem_stems_of_load {folder : Folder} {tree : Tree} {name : String}
    {found : Kind × Definition} (h : folder.load tree name = .ok found) :
    name ∈ tree.names.filterMap stem? := by
  unfold load at h
  split at h
  · next hp =>
    split at h
    · simp at h
    · next kind path hpath =>
      simp only [pathFor?, hp, if_true, Option.map_eq_some_iff] at hpath
      obtain ⟨k, hk, -⟩ := hpath
      have hfile := List.find?_some hk
      exact mem_stems_of_isFile hp hfile
  · simp at h

/-- The source of the definitions in a folder. It can always be listed: a directory that is not
there is passed over with a warning, and one that is there has its entries in the tree. -/
def source (folder : Folder) (tree : Tree) : Source where
  load := folder.load tree
  announce := folder.announce tree
  names := .ok (folder.names tree)
  warnings := folder.warnings tree
  supply := tree.names.filterMap stem?
  mem_supply := mem_stems_of_load

end Folder

end ScriptFold
