import ScriptFold.CommandLine.Arguments
import ScriptFold.CommandLine.Report
import ScriptFold.Files.Writing
import ScriptFold.Log.Rewriting

/-!
# Runs

A run takes the path of the program, if that is known, the files as they are and a command line, and
answers with an exit code, what it prints, what it logs, and the files as they are afterwards. It
goes stage by stage, each looking at the files as the one before left them; what was printed or
written stays when a later stage fails.
-/

namespace ScriptFold.CommandLine

open Files (Tree)

/-- The version of the program. -/
def version : String := "0.1.0"

/-- What a run leaves behind. -/
structure Outcome where
  exit : Nat
  stdout : String
  log : List Log.Record
  report : List String
  files : Tree

/-- Why a run fails: the messages from the outermost to the innermost. -/
abbrev Failure := List String

/-- A text in a column of a width. -/
def padded (width : Nat) (text : String) : String :=
  text ++ String.ofList (List.replicate (width - text.length) ' ')

/-- The line of a template in the listing of a library. -/
def listingLine (t : Template) : String :=
  "  " ++ padded 8 t.kind.name ++ " " ++ padded 40 t.name ++ s!" {t.lineCount} lines\n"

/-- What a run has done so far that shows: what it printed and the files. -/
structure Shown where
  stdout : String := ""
  files : Tree

/-- The stages of a run; what they have done stays when they fail. -/
abbrev RunM := ExceptT Failure (StateM Shown)

namespace RunM

/-- What is made of the files as they are now. -/
def look {α : Type} (read : Tree → Except Failure α) : RunM α := do
  match read (← get).files with
  | .ok a => return a
  | .error failure => throw failure

/-- Prints a text. -/
def print (text : String) : RunM Unit :=
  modify fun shown => { shown with stdout := shown.stdout ++ text }

/-- Writes a text to a file. -/
def write (path text : String) : RunM Unit := do
  match (← get).files.write path text with
  | .ok files => modify fun shown => { shown with files }
  | .error cause => throw [s!"writing '{path}'", cause.message]

end RunM

open RunM (look print write)

/-- Puts a result where it is wanted. -/
def deliver (text : String) : Option String → RunM Unit
  | none => print text
  | some path => write path text

/-- The configuration of a run. -/
def configure (program : Option String) (files : Tree) (options : Options) :
    Except Failure Folder :=
  match Config.discover files (Config.detectRoot program files) options.config with
  | .ok folder => .ok { folder with root := options.templates.getD folder.root }
  | .error e => .error e.chain

/-- The library of a run. -/
def loadLibrary (files : Tree) (folder : Folder) : Except Failure Library :=
  match Library.loadAll (folder.source files) with
  | .ok lib => .ok lib
  | .error e => .error (s!"while loading templates from '{folder.root}'" :: e.chain)

/-- Reads the snippet that a command names. -/
def loadSnippet (files : Tree) (path : String) : Except Failure Snippet :=
  (Snippet.load files path).mapError (·.chain)

/-- Carries out a command. -/
def perform (folder : Folder) (lib : Library) : Command → RunM Unit
  | .check => do
    print s!"{lib.size} templates in '{folder.root}'\n"
    lib.values.forM fun t => print (listingLine t)
  | .collapse input out => do
    let s ← look (loadSnippet · input)
    deliver (lib.collapseSnippet s).render out
  | .expand input out => do
    let s ← look (loadSnippet · input)
    match lib.expandSnippet s with
    | .ok statements => deliver (Statement.renderAll statements) out
    | .error e => throw [s!"while expanding '{input}'", e.message]

/-- All stages of a run. -/
def stages (program : Option String) (options : Options) (command : Command) : RunM Unit := do
  let folder ← look (configure program · options)
  let lib ← look (loadLibrary · folder)
  perform folder lib command

/-- What writing a result logs. -/
def deliverLog (files : Tree) (text : String) : Option String → List Log.Record
  | none => []
  | some path =>
    match files.write path text with
    | .ok _ => [⟨.info, .commandLine, s!"wrote '{path}'"⟩]
    | .error _ => []

/-- What carrying out a command logs. -/
def performLog (files : Tree) (lib : Library) : Command → List Log.Record
  | .check => []
  | .collapse input out =>
    Snippet.loadLog files input ++
      match Snippet.load files input with
      | .ok s =>
        lib.collapseSnippetLog s ++ deliverLog files (lib.collapseSnippet s).render out
      | .error _ => []
  | .expand input out =>
    Snippet.loadLog files input ++
      match Snippet.load files input with
      | .ok s =>
        lib.expandSnippetLog s ++
          match lib.expandSnippet s with
          | .ok statements => deliverLog files (Statement.renderAll statements) out
          | .error _ => []
      | .error _ => []

/-- What loading the library of a run logs. -/
def loadLibraryLog (files : Tree) (folder : Folder) : List Log.Record :=
  Library.loadAllLog (folder.source files) ++
    match loadLibrary files folder with
    | .ok lib =>
      if lib.isEmpty then
        [⟨.warn, .commandLine, s!"no templates found under '{folder.root}'"⟩]
      else []
    | .error _ => []

/-- What a run logs at any level. -/
def executeLog (program : Option String) (files : Tree) (options : Options) (command : Command) :
    List Log.Record :=
  Config.discoverLog files (Config.detectRoot program files) options.config ++
    match configure program files options with
    | .error _ => []
    | .ok folder =>
      ⟨.info, .commandLine, s!"template library: '{folder.root}'"⟩ ::
        loadLibraryLog files folder ++
          match loadLibrary files folder with
          | .ok lib => performLog files lib command
          | .error _ => []

/-- The level of the log that a run shows. -/
def Options.level (options : Options) : Log.Level :=
  match options.verbose with
  | 0 => .warn
  | 1 => .info
  | _ => .debug

/-- How the program is used. -/
def usage : String :=
  "Usage: baf_subst [-v] [--config <file>] [--templates <dir>] <command>\n\n" ++
    "Commands:\n" ++
    "  check\n" ++
    "  collapse <snippet> [--out <file>]\n" ++
    "  expand <snippet> [--out <file>]\n"

/-- Runs the program, which is found at a path if that is known, on a command line. -/
def run (program : Option String) (files : Tree) (args : List String) : Outcome :=
  match Request.ofArgs? args with
  | none => ⟨2, "", [], lines usage, files⟩
  | some .help => ⟨0, usage, [], [], files⟩
  | some .version => ⟨0, s!"baf_subst {version}\n", [], [], files⟩
  | some (.run options command) =>
    let log := Log.upTo options.level (executeLog program files options command)
    match (stages program options command).run.run { files } with
    | (.ok _, shown) => ⟨0, shown.stdout, log, [], shown.files⟩
    | (.error failure, shown) => ⟨1, shown.stdout, log, report failure, shown.files⟩

end ScriptFold.CommandLine
