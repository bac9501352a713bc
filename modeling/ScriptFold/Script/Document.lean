import ScriptFold.Files.Tree
import ScriptFold.Log.Record
import ScriptFold.Script.Codec
import ScriptFold.Validation

/-!
# Snippet documents

A snippet document is a file that holds a well-formed snippet.
-/

namespace ScriptFold.Snippet

open Files (Tree)

/-- Why a file holds no snippet. -/
inductive LoadError
  | unreadable (path : String) (cause : Files.Failure)
  | unparsable (path : String) (cause : Json.Error)
  | invalid (path : String) (defects : List Defect)
deriving DecidableEq

/-- The message for a file that holds no snippet. -/
def LoadError.message : LoadError → String
  | .unreadable path _ => s!"reading snippet from '{path}'"
  | .unparsable path _ => s!"parsing snippet JSON from '{path}'"
  | .invalid path defects => s!"snippet '{path}' failed validation:\n{Defect.listing defects}"

/-- The snippet in the file at a path. -/
def load (tree : Tree) (path : String) : Except LoadError Snippet :=
  match tree.read path with
  | .error cause => .error (.unreadable path cause)
  | .ok text =>
    match parse text with
    | .error cause => .error (.unparsable path cause)
    | .ok s =>
      match s.defects with
      | [] => .ok s
      | defects => .error (.invalid path defects)

/-- What loading a snippet logs. -/
def loadLog (tree : Tree) (path : String) : List Log.Record :=
  match load tree path with
  | .ok s =>
    if s.responses.isEmpty then [⟨.warn, .snippet, s!"snippet '{path}' has no response blocks"⟩]
    else []
  | .error _ => []

end ScriptFold.Snippet
