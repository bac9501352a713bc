import ScriptFold.Library.Folder
import ScriptFold.Toml.Reader

/-!
# Configuration

A configuration says where the library is kept. A file may give any part of it; what it leaves out
has a default, and a relative root counts from the file's own directory.
-/

namespace ScriptFold

open Files (Tree)

/-- Why a configuration file cannot be used. -/
inductive ConfigError
  | unreadable (path : String) (cause : Files.Failure)
  | unparsable (path : String)
deriving DecidableEq

/-- The message for a configuration file that cannot be used. -/
def ConfigError.message : ConfigError → String
  | .unreadable path _ => s!"reading config from '{path}'"
  | .unparsable path => s!"parsing config TOML from '{path}'"

/-- The parts of a configuration that a file gives. -/
structure Config where
  templateDir : Option String := none
  triggerDir : Option String := none
  actionDir : Option String := none
deriving DecidableEq, Repr

namespace Config

/-- The file that is used when none is named. -/
def defaultFile : String := "baf_subst.toml"

/-- A part of a configuration: absent, or a text, and nothing else. -/
def part? (key : String) (entries : Toml.Entries) : Option (Option String) :=
  match entries.value? key with
  | none => some none
  | some (.text value) => some (some value)
  | some _ => none

/-- The configuration in a text. -/
def parse? (text : String) : Option Config := do
  let entries ← Toml.read text
  let templateDir ← part? "template_dir" entries
  let triggerDir ← part? "trigger_dir" entries
  let actionDir ← part? "action_dir" entries
  return { templateDir, triggerDir, actionDir }

/-- The configuration with defaults for what it leaves out. -/
def folder (config : Config) (defaultRoot : String) : Folder where
  root := config.templateDir.getD defaultRoot
  triggerDir := config.triggerDir.getD Kind.trigger.defaultDir
  actionDir := config.actionDir.getD Kind.action.defaultDir

/-- The root as seen from the directory of the file at a path. -/
def rebase (path root : String) : String :=
  match Files.parent? path with
  | some base => if Files.isAbsolute root then root else Files.join base root
  | none => root

/-- The configuration in the file at a path. -/
def load (tree : Tree) (defaultRoot path : String) : Except ConfigError Folder :=
  match tree.read path with
  | .error cause => .error (.unreadable path cause)
  | .ok text =>
    match parse? text with
    | none => .error (.unparsable path)
    | some config =>
      let folder := config.folder defaultRoot
      .ok { folder with root := rebase path folder.root }

/-- What loading a configuration logs. -/
def loadLog (tree : Tree) (defaultRoot path : String) : List Log.Record :=
  match load tree defaultRoot path with
  | .ok folder =>
    [⟨.info, .config, s!"config loaded from '{path}' (templates in '{folder.root}')"⟩]
  | .error _ => []

/-- The file that is used: the one that is named, or the default one if it is there. -/
def file? (tree : Tree) (path : Option String) : Option String :=
  match path with
  | some path => some path
  | none => if tree.isFile defaultFile then some defaultFile else none

/-- The configuration in use. -/
def discover (tree : Tree) (defaultRoot : String) (path : Option String) :
    Except ConfigError Folder :=
  match file? tree path with
  | some path => load tree defaultRoot path
  | none => .ok (Config.folder {} defaultRoot)

/-- What finding the configuration logs. -/
def discoverLog (tree : Tree) (defaultRoot : String) (path : Option String) :
    List Log.Record :=
  match file? tree path with
  | some path => loadLog tree defaultRoot path
  | none => []

/-- Where libraries are looked for beside a program: in its directory and in the one above. -/
def rootsBeside (program : String) : List String :=
  match Files.parent? program with
  | none => []
  | some dir =>
    Files.join dir "templates" ::
      match Files.parent? dir with
      | none => []
      | some above => [Files.join above "templates"]

/-- Where libraries are looked for without a configuration: from the working directory on, and then
beside the program that runs, if its path is known. -/
def rootCandidates (program : Option String) : List String :=
  ["templates", "data/templates"] ++ program.elim [] rootsBeside

/-- The library root without a configuration: the first candidate that is a directory. -/
def detectRoot (program : Option String) (tree : Tree) : String :=
  ((rootCandidates program).find? tree.isDir).getD "templates"

end Config

end ScriptFold
