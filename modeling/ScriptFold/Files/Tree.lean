import ScriptFold.Files.Path

/-!
# The files a run can see

Files stand in a tree of directories. A file holds a text, or bytes that are none. Looking a path
up walks its pieces, from the root for an absolute path and else from the working directory.
-/

namespace ScriptFold.Files

/-- Why a file could not be read or written. -/
inductive Failure
  | notFound
  | invalidData
  | isADirectory
  | notADirectory
  | nameTooLong
  | zeroByte
deriving DecidableEq, Repr

/-- The message for a failure. -/
def Failure.message : Failure → String
  | .notFound => "No such file or directory (os error 2)"
  | .invalidData => "stream did not contain valid UTF-8"
  | .isADirectory => "Is a directory (os error 21)"
  | .notADirectory => "Not a directory (os error 20)"
  | .nameTooLong => "File name too long (os error 36)"
  | .zeroByte => "file name contained an unexpected NUL byte"

/-- A file or a directory with its entries. -/
inductive Node
  | file (text : Option String)
  | dir (entries : List (String × Node))

namespace Node

instance : Inhabited Node := ⟨.dir []⟩

/-- The entry of a name. -/
def child? (name : String) : List (String × Node) → Option Node
  | [] => none
  | (other, node) :: rest => if other = name then some node else child? name rest

/-- The entries with one put in place of the entry of its name, or at the end. -/
def putEntry (name : String) (node : Node) : List (String × Node) → List (String × Node)
  | [] => [(name, node)]
  | (other, old) :: rest =>
    if other = name then (name, node) :: rest else (other, old) :: putEntry name node rest

/-- What a new entry becomes beside an old one: an empty directory replaces nothing. -/
def beside : Node → Option Node → Node
  | .dir [], some old => old
  | node, _ => node

/-- The entries with one put where names lead to, in directories that are made on the way. -/
def putAt (node : Node) : List String → List (String × Node) → List (String × Node)
  | [], entries => entries
  | [name], entries => putEntry name (node.beside (child? name entries)) entries
  | first :: rest, entries =>
    match child? first entries with
    | some (.dir inner) => putEntry first (.dir (putAt node rest inner)) entries
    | some (.file _) => entries
    | none => putEntry first (.dir (putAt node rest [])) entries

mutual

/-- The names of all entries at any depth. -/
def names : Node → List String
  | .file _ => []
  | .dir entries => entryNames entries

/-- The names of entries and of all below them. -/
def entryNames : List (String × Node) → List String
  | [] => []
  | (name, node) :: rest => name :: node.names ++ entryNames rest

end

theorem mem_names_of_child? {name : String} {entries : List (String × Node)} {node : Node}
    (h : child? name entries = some node) :
    name ∈ entryNames entries ∧ node.names ⊆ entryNames entries := by
  induction entries with
  | nil => simp [child?] at h
  | cons first rest ih =>
    obtain ⟨other, old⟩ := first
    unfold child? at h
    split at h
    · next heq =>
      cases h
      subst heq
      exact ⟨by simp [entryNames], fun x hx => by simp [entryNames, hx]⟩
    · obtain ⟨hn, hs⟩ := ih h
      exact ⟨by simp [entryNames, hn], fun x hx => by simp [entryNames, hs hx]⟩

end Node

/-- The most bytes a name may have. -/
def maxName : Nat := 255

/-- The most bytes a path may have. -/
def maxPath : Nat := 4095

/-- What is wrong with a path whatever the files are. -/
def fault? (path : String) : Option Failure :=
  if '\x00' ∈ path.toList then some .zeroByte
  else if path.isEmpty then some .notFound
  else if maxPath < path.utf8ByteSize then some .nameTooLong
  else none

/-- Walks pieces from a directory, given the directories above it with the innermost first; the
root is above itself. -/
def descend (above : List Node) (here : Node) : List (List Char) → Except Failure Node
  | [] => .ok here
  | piece :: rest =>
    match here with
    | .file _ => .error .notADirectory
    | .dir entries =>
      if isIdle piece then descend above here rest
      else if piece = ['.', '.'] then
        match above with
        | [] => descend [] here rest
        | parent :: above => descend above parent rest
      else if maxName < (String.ofList piece).utf8ByteSize then .error .nameTooLong
      else
        match Node.child? (String.ofList piece) entries with
        | none => .error .notFound
        | some node => descend (here :: above) node rest

/-- The entries of the root, and the names from there to the working directory. -/
structure Tree where
  entries : List (String × Node)
  working : List String

namespace Tree

/-- The tree with nothing but a working directory. -/
def bare (working : List String) : Tree :=
  ⟨Node.putAt (.dir []) working [], working⟩

instance : Inhabited Tree := ⟨bare []⟩

/-- The root directory. -/
def root (tree : Tree) : Node := .dir tree.entries

/-- The pieces from the root to where a path starts. -/
def start (tree : Tree) (path : String) : List (List Char) :=
  if isAbsolute path then [] else tree.working.map (·.toList)

/-- What a path leads to. -/
def lookup (tree : Tree) (path : String) : Except Failure Node :=
  match fault? path with
  | some failure => .error failure
  | none => descend [] tree.root (tree.start path ++ pieces path.toList)

/-- The path leads to a file. -/
def isFile (tree : Tree) (path : String) : Bool :=
  match tree.lookup path with
  | .ok (.file _) => true
  | _ => false

/-- The path leads to a directory. -/
def isDir (tree : Tree) (path : String) : Bool :=
  match tree.lookup path with
  | .ok (.dir _) => true
  | _ => false

/-- The text of the file at a path. -/
def read (tree : Tree) (path : String) : Except Failure String :=
  match tree.lookup path with
  | .ok (.file (some text)) => .ok text
  | .ok (.file none) => .error .invalidData
  | .ok (.dir _) => .error .isADirectory
  | .error failure => .error failure

/-- The names in the directory at a path that lead to files from there. -/
def fileNames (tree : Tree) (path : String) : List String :=
  match tree.lookup path with
  | .ok (.dir entries) => (entries.map (·.1)).filter fun name => tree.isFile (join path name)
  | _ => []

/-- The names of all entries at any depth. -/
def names (tree : Tree) : List String :=
  Node.entryNames tree.entries

end Tree

/-- A walk ends at a file only through an entry of the last piece's name. -/
theorem mem_of_descend_file {above : List Node} {here : Node} {before : List (List Char)}
    {last : List Char} {text : Option String} {known : List String}
    (hidle : isIdle last = false) (hdots : last ≠ ['.', '.'])
    (hknown : ∀ node ∈ here :: above, node.names ⊆ known)
    (h : descend above here (before ++ [last]) = .ok (.file text)) :
    String.ofList last ∈ known := by
  induction before generalizing above here with
  | nil =>
    cases here with
    | file => simp [descend] at h
    | dir entries =>
      simp only [List.nil_append, descend, hidle, hdots, if_false, Bool.false_eq_true] at h
      split at h
      · simp at h
      · split at h
        · simp at h
        · next node hn =>
          exact hknown _ (List.mem_cons_self ..) (Node.mem_names_of_child? hn).1
  | cons piece rest ih =>
    cases here with
    | file => simp [descend] at h
    | dir entries =>
      simp only [List.cons_append, descend] at h
      split at h
      · exact ih hknown h
      · split at h
        · split at h
          · exact ih hknown h
          · next parent above =>
            exact ih (fun node hn => hknown node (List.mem_cons_of_mem _ hn)) h
        · split at h
          · simp at h
          · split at h
            · simp at h
            · next node hn =>
              refine ih (fun other ho => ?_) h
              rcases List.mem_cons.1 ho with rfl | ho
              · exact fun x hx =>
                  hknown _ (List.mem_cons_self ..) ((Node.mem_names_of_child? hn).2 hx)
              · exact hknown other ho

/-- A plain file name that ends the path of a file is the name of an entry. -/
theorem Tree.mem_names_of_lookup {tree : Tree} {base name : String} {text : Option String}
    (hslash : '/' ∉ name.toList) (hidle : isIdle name.toList = false)
    (hdots : name.toList ≠ ['.', '.']) (h : tree.lookup (join base name) = .ok (.file text)) :
    name ∈ tree.names := by
  unfold lookup at h
  split at h
  · simp at h
  · obtain ⟨before, hpieces⟩ : ∃ before, pieces (join base name).toList = before ++ [name.toList] :=
      exists_pieces_join hslash
    rw [hpieces, ← List.append_assoc] at h
    have hknown : ∀ node ∈ [tree.root], node.names ⊆ tree.names := by
      simp [root, Node.names, names]
    have hm := mem_of_descend_file hidle hdots hknown h
    simpa using hm

end ScriptFold.Files
