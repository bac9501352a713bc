import ScriptFold.Library.Source
import ScriptFold.Template.Basic

/-!
# Compiling definitions

A definition without defects becomes a template, entry by entry in reading order. Who compiles
says how a name referred to becomes a template.
-/

namespace ScriptFold

namespace Definition.Entry

variable {m : Type → Type} [Monad m] [MonadExceptOf DefinitionError m]

/-- The pattern of a line of a template. -/
def compileLine (template line : String) : m LinePattern :=
  match LinePattern.compile line with
  | .ok p => pure p
  | .error e => throw (.pattern template line e)

/-- The member an entry of a group compiles to. -/
def compileMember (template : String) (resolve : String → m Template) : Entry → m Member
  | .line text => do return .line (← compileLine template text)
  | .ref name => do return .template (← resolve name)
  | .group _ => throw (.invalid template "- OR-group nested inside OR-group")

/-- The element an entry of a definition compiles to. -/
def compile (template : String) (resolve : String → m Template) : Entry → m Element
  | .line text => do return .line (← compileLine template text)
  | .ref name => do return .template (← resolve name)
  | .group members => do return .group (← members.mapM (compileMember template resolve))

end Definition.Entry

/-- The template a definition compiles to. -/
def Template.compile {m : Type → Type} [Monad m] [MonadExceptOf DefinitionError m]
    (name : String) (kind : Kind) (d : Definition) (resolve : String → m Template) :
    m Template :=
  match d.defects name with
  | [] => do return ⟨name, kind, ← d.entries.mapM (·.compile name resolve)⟩
  | defects => throw (.invalid name (Defect.listing defects))

end ScriptFold
