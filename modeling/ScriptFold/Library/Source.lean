import ScriptFold.Files.Tree
import ScriptFold.Json.Mismatch
import ScriptFold.Log.Record
import ScriptFold.NameMap
import ScriptFold.Pattern.LinePattern
import ScriptFold.Validation

/-!
# Where definitions come from

A source gives the definition of a name and its kind. It knows finitely many names, which is what
makes loading end; it may be able to list those it is willing to enumerate.
-/

namespace ScriptFold

/-- Why a source does not give a definition, or cannot be listed. -/
inductive SourceError
  | notFound (name : String)
  | invalidName (name : String)
  | unreadable (name path : String) (cause : Files.Failure)
  | unparsable (name path : String) (cause : Json.Error)
  | unlisted (path : String) (cause : Files.Failure)
deriving DecidableEq

/-- What can be wrong with a library. All but the last are reasons why it cannot be loaded; the last
is for a template that is asked of a loaded one. -/
inductive DefinitionError
  | load (name : String) (cause : SourceError)
  | enumerate (cause : SourceError)
  | invalid (name details : String)
  | pattern (template line : String) (cause : PatternError)
  | cycle (chain : List String)
  | unknown (name : String)
deriving DecidableEq

/-- The message for a source that does not give a definition, or cannot be listed. -/
def SourceError.message : SourceError → String
  | .notFound name => s!"no definition found for template '{name}'"
  | .invalidName name => s!"template name '{name}' is not a plain file name"
  | .unreadable name path _ => s!"reading template '{name}' from '{path}'"
  | .unparsable name path _ => s!"parsing template '{name}' from '{path}'"
  | .unlisted path _ => s!"listing templates in '{path}'"

/-- The message for what is wrong with a library. -/
def DefinitionError.message : DefinitionError → String
  | .load name _ => s!"unable to load template '{name}'"
  | .enumerate _ => "unable to enumerate templates"
  | .invalid name details => s!"template '{name}' is malformed:\n{details}"
  | .pattern template line _ => s!"template '{template}' has a bad line '{line}'"
  | .cycle chain => "template reference cycle: " ++ " -> ".intercalate chain
  | .unknown name => s!"unknown template '{name}'"

/-- A source of definitions. -/
structure Source where
  /-- The kind and definition of a name. -/
  load : String → Except SourceError (Kind × Definition)
  /-- What is logged when a name is about to be loaded. -/
  announce : String → List Log.Record
  /-- The names the source enumerates, in ascending order, or why it cannot be listed. -/
  names : Except SourceError (List String)
  /-- What is logged when the names are enumerated. -/
  warnings : List Log.Record
  /-- Names among which are all that load. -/
  supply : List String
  mem_supply : ∀ {name found}, load name = .ok found → name ∈ supply

namespace NameMap

theorem mem_names_of_valueIn {α : Type} {name : String} {value : α}
    {entries : List (String × α)} (h : valueIn name entries = some value) :
    name ∈ entries.map (·.1) := by
  induction entries with
  | nil => simp [valueIn] at h
  | cons first rest ih =>
    unfold valueIn at h
    split at h
    · next heq => simp [heq]
    · exact List.mem_cons_of_mem _ (ih h)

theorem mem_names_of_get? {α : Type} {m : NameMap α} {name : String} {value : α}
    (h : m.get? name = some value) : name ∈ m.names :=
  mem_names_of_valueIn h

end NameMap

/-- The source of definitions held in a map. -/
def Source.ofMap (definitions : NameMap (Kind × Definition)) : Source where
  load name :=
    match definitions.get? name with
    | some found => .ok found
    | none => .error (.notFound name)
  announce _ := []
  names := .ok definitions.names
  warnings := []
  supply := definitions.names
  mem_supply {name found} h := by
    split at h
    · next hg => exact NameMap.mem_names_of_get? hg
    · simp at h

end ScriptFold
