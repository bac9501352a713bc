import ScriptFold.CommandLine.Run

/-!
# The program

A run is decided on a picture of the files it may look at: the configuration, the places where a
library is looked for and its directories, the snippet, and the directory of the result. The picture
is taken first, and only the result is written back.
-/

namespace ScriptFold.CommandLine

open Files (Tree)

/-- The path and each shorter one that starts it. -/
def ancestry (path : String) : List String :=
  let ps := Files.pieces path.toList
  (List.range ps.length).map fun i => String.ofList (Files.unpieces (ps.take (i + 1)))

/-- Adds to a picture what stands at a path, and the directories on the way. -/
def observe (path : String) (tree : Tree) : IO Tree := do
  let here ← IO.currentDir
  let mut tree := tree
  for step in ancestry path do
    if ← (here / step).isDir then
      tree := tree.place step (.dir [])
    else if ← (here / step).pathExists then
      let bytes ← IO.FS.readBinFile (here / step)
      tree := tree.place step (.file (String.fromUTF8? bytes))
  return tree

/-- Adds to a picture a directory and what stands directly in it. -/
def observeDir (path : String) (tree : Tree) : IO Tree := do
  let here ← IO.currentDir
  let mut tree ← observe path tree
  if ← (here / path).isDir then
    for entry in ← (here / path).readDir do
      tree ← observe (Files.join path entry.fileName) tree
  return tree

/-- The file a command reads, and the one it writes. -/
def Command.paths : Command → List String
  | .check => []
  | .collapse input out | .expand input out => input :: out.toList

/-- The path of the program, unless it cannot be told. -/
def programPath : IO (Option String) := do
  try
    return some (toString (← IO.appPath))
  catch _ =>
    return none

/-- The picture of the files that a run may look at. -/
def picture (program : Option String) (options : Options) (command : Command) : IO Tree := do
  let here := Files.pieces (toString (← IO.currentDir)).toList
  let mut tree := Tree.bare ((here.filter (· ≠ [])).map String.ofList)
  for path in options.config.getD Config.defaultFile :: Config.rootCandidates program do
    tree ← observe path tree
  match configure program tree options with
  | .error _ => return tree
  | .ok folder =>
    for kind in Kind.all do
      tree ← observeDir (folder.dir kind) tree
    for path in command.paths do
      tree ← observe path tree
    return tree

/-- Shows an outcome and writes its result; the answer is the exit code. -/
def finish (outcome : Outcome) (out : Option String) : IO UInt32 := do
  for record in outcome.log do
    IO.eprint (recordText record)
  for line in outcome.report do
    IO.eprintln line
  if outcome.exit = 0 then
    if let some path := out then
      if let .ok text := outcome.files.read path then
        IO.FS.writeFile path text
  IO.print outcome.stdout
  return outcome.exit.toUInt32

end ScriptFold.CommandLine

open ScriptFold.CommandLine in
/-- Runs the program on the arguments of its command line. -/
def main (args : List String) : IO UInt32 := do
  let program ← programPath
  match Request.ofArgs? args with
  | some (.run options command) =>
    finish (run program (← picture program options command) args) command.out?
  | _ => finish (run program default args) none
