import ScriptFold.Library.Loading
import ScriptFold.Script.Snippet
import ScriptFold.Template.Formatting
import ScriptFold.Template.Matching

/-!
# Collapsing and expanding

To collapse a sequence is to try templates in turn, each once, and to put a reference where one
matches. To expand it is to write out every reference, and to fill what placeholders the lines
still have. Larger templates are tried first, and of equal ones the one that refers to others.
A snippet is collapsed half by half, the triggers with trigger templates and each response with
action templates. It expands to one statement for each of its field sets.
-/

namespace ScriptFold

/-- Why a sequence cannot be expanded. Of what can be wrong with a library only one thing can be so
of a loaded one, that it does not have a template. -/
inductive ExpandError
  | unknown (name : String)
  | missing (field : MissingField)
deriving DecidableEq

/-- The message for a sequence that cannot be expanded. -/
def ExpandError.message : ExpandError → String
  | .unknown name => (DefinitionError.unknown name).message
  | .missing field => field.message

namespace Template

/-- The sequence with a reference in place of what the template matches. -/
def collapse (t : Template) (sequence : List Item) : List Item :=
  match t.matchIn sequence ∅ with
  | some m => m.splice (.ref ⟨t.name, m.bindings⟩)
  | none => sequence

/-- Tries templates in turn, each on what those before it made of the sequence. -/
def collapseAll (templates : List Template) (sequence : List Item) : List Item :=
  templates.foldl (fun current t => t.collapse current) sequence

/-- A template is tried before another one: it is larger, or as large and deeper, or has the
smaller name. -/
def triedBefore (a b : Template) : Bool :=
  if a.lineCount ≠ b.lineCount then b.lineCount < a.lineCount
  else if a.depth ≠ b.depth then b.depth < a.depth
  else a.name ≤ b.name

end Template

namespace Library

/-- The template of a name. -/
def find (lib : Library) (name : String) : Except ExpandError Template :=
  match lib.get? name with
  | some t => .ok t
  | none => .error (.unknown name)

/-- The templates of a kind in the order they are tried in. -/
def collapseOrder (lib : Library) (kind : Kind) : List Template :=
  (lib.values.filter (·.kind = kind)).mergeSort Template.triedBefore

/-- Collapses a sequence with the templates of a kind. -/
def collapse (lib : Library) (kind : Kind) (sequence : List Item) : List Item :=
  Template.collapseAll (lib.collapseOrder kind) sequence

/-- The items a reference stands for; the ambient values win over its own. -/
def expandReference (lib : Library) (ambient : Bindings) (r : Reference) :
    Except ExpandError (List Item) := do
  let t ← lib.find r.name
  (t.format (Bindings.overlay r.fields ambient)).mapError .missing

mutual

/-- The items one item expands to. -/
def expandItem (lib : Library) (ambient : Bindings) : Item → Except ExpandError (List Item)
  | .line text => .ok [.line (Pattern.substitute ambient text)]
  | .group members => do return [.group (← lib.expandItems ambient members)]
  | .ref r => lib.expandReference ambient r

/-- The items a sequence expands to. -/
def expandItems (lib : Library) (ambient : Bindings) :
    List Item → Except ExpandError (List Item)
  | [] => .ok []
  | item :: rest => do
    let items ← lib.expandItem ambient item
    return items ++ (← lib.expandItems ambient rest)

end

/-- Expands a sequence under ambient values. -/
def expand (lib : Library) (sequence : List Item) (ambient : Bindings) :
    Except ExpandError (List Item) :=
  lib.expandItems ambient sequence

/-! ### Snippets -/

/-- Collapses both halves of a snippet. -/
def collapseSnippet (lib : Library) (s : Snippet) : Snippet :=
  s.mapItems (lib.collapse .trigger) (lib.collapse .action)

/-- Expands a response. -/
def expandResponse (lib : Library) (ambient : Bindings) (r : Response) :
    Except ExpandError Response := do
  return { r with actions := ← lib.expand r.actions ambient }

/-- The statement of a snippet under one field set. -/
def expandStatement (lib : Library) (s : Snippet) (ambient : Bindings) :
    Except ExpandError Statement := do
  let triggers ← lib.expand s.triggers ambient
  let responses ← s.responses.mapM (lib.expandResponse ambient)
  return ⟨triggers, responses⟩

/-- The statements of a snippet, one for each field set. -/
def expandSnippet (lib : Library) (s : Snippet) : Except ExpandError (List Statement) :=
  s.fieldSets.mapM (lib.expandStatement s)

end Library

end ScriptFold
