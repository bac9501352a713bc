import ScriptFold.Files.Tree

/-!
# Writing files

A file is written whole, into a directory that is there. What cannot be written leaves the tree as
it was. To set a tree up, files are placed without that care: their directories are made.
-/

namespace ScriptFold.Files

/-- The names from the root down to the directory that pieces lead to. The trail
passed holds the names walked through, the innermost first, with the directory each was found in. -/
def trailTo (trail : List (String × Node)) (here : Node) :
    List (List Char) → Except Failure (List String)
  | [] =>
    match here with
    | .dir _ => .ok (trail.reverse.map (·.1))
    | .file _ => .error .notADirectory
  | piece :: rest =>
    match here with
    | .file _ => .error .notADirectory
    | .dir entries =>
      if isIdle piece then trailTo trail here rest
      else if piece = ['.', '.'] then
        match trail with
        | [] => trailTo [] here rest
        | (_, parent) :: trail => trailTo trail parent rest
      else
        let name := String.ofList piece
        if maxName < name.utf8ByteSize then .error .nameTooLong
        else
          match Node.child? name entries with
          | none => .error .notFound
          | some node => trailTo ((name, here) :: trail) node rest

/-- The names from the root after one more piece. -/
def namesAfter (names : List String) (piece : List Char) : List String :=
  if isIdle piece then names
  else if piece = ['.', '.'] then names.dropLast
  else names ++ [String.ofList piece]

/-- The entries of the root with one put where pieces lead to from the directory of given names. -/
def placeFrom (node : Node) (names : List String) (entries : List (String × Node)) :
    List (List Char) → List (String × Node)
  | [] => Node.putAt node names entries
  | piece :: rest =>
    placeFrom node (namesAfter names piece) (Node.putAt (.dir []) names entries) rest

namespace Tree

/-- The tree after a text was written to a path. A path that ends in a slash or in dots names a
directory. -/
def write (tree : Tree) (path text : String) : Except Failure Tree :=
  match fault? path with
  | some failure => .error failure
  | none =>
    let ps := pieces path.toList
    let kept := (ps.reverse.dropWhile (· = [])).reverse
    match trailTo [] tree.root (tree.start path ++ kept.dropLast) with
    | .error failure => .error failure
    | .ok trail =>
      let last := kept.getLast?.getD []
      if kept.length < ps.length ∨ last = ['.'] ∨ last = ['.', '.'] then .error .isADirectory
      else if maxName < (String.ofList last).utf8ByteSize then .error .nameTooLong
      else if tree.isDir path then .error .isADirectory
      else
        let names := trail ++ [String.ofList last]
        .ok { tree with entries := Node.putAt (.file (some text)) names tree.entries }

/-- The tree with a file or directory put at a path. Every directory the path leads through is
made, those it leaves again by two dots too. -/
def place (tree : Tree) (path : String) (node : Node) : Tree :=
  { tree with
    entries := placeFrom node [] tree.entries (tree.start path ++ pieces path.toList) }

/-- The tree with files and directories put at paths in turn. -/
def placeAll (tree : Tree) (nodes : List (String × Node)) : Tree :=
  nodes.foldl (fun tree entry => tree.place entry.1 entry.2) tree

end Tree

end ScriptFold.Files
